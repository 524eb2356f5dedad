import TunnelWeaver.Server.ExchangeTable

/-! Visitors that leave. The handler learns of it only when it sends something: the answer on the
response channel, or the next item of the body. It does not look at the results of its sends, so the
exchange of a visitor who is gone ends only where it would have ended anyway. -/

namespace TunnelWeaver.Server

open Mux (Bytes Call Event StreamId ThirdParty Watch)
open Proto (Postcard)

/-- A relay and its visitors: those who left, by their streams, and those the handler failed to send
something to. -/
structure Visits where
  relay : Relay
  left : List StreamId := []
  missed : List StreamId := []

inductive VisitAction where
  /-- The visitor drops the receiving ends of its channels. -/
  | leave (id : StreamId)
  | relay (a : RelayAction)
  /-- In this step, something is sent to a visitor who is gone. -/
  | refused (id : StreamId) (a : RelayAction)

section
variable [Postcard] [HttpTypes]

/-- Only 1xx heads, which are not passed on. -/
def AllInterim (upgrade : Bool) (msgs : List Bytes) : Prop :=
  ∀ msg ∈ msgs, ∃ head ∈ (Postcard.responseHead.decode msg).toOption,
    Relay.isInterim upgrade head = true

instance (upgrade : Bool) (msgs : List Bytes) : Decidable (AllInterim upgrade msgs) :=
  List.decidableBAll ..

variable [ThirdParty]

namespace Relay

/-- Whether a step from `r` to `r'` sends something to the visitor of stream `i`: an item on its way
into the body channel, or the answer, which is an error if the client reset the stream. -/
def Attempts (i : StreamId) (r r' : Relay) : RelayAction → Bool
  | .forwarded j => j == i
  | .event .. => (r.inflight.lookup i).any (·.responseTx.isSome) &&
    match r.mux.node.conn.pollEvent.2 with
    | some (.reset j _) => j == i
    | some (.readable j) => j == i && (r'.inflight.lookup i).any (·.responseTx.isNone)
    | _ => false
  | _ => false

/-- Nothing is left to do for a visitor of stream `i`, but for the item on its way. -/
def Served (r : Relay) (i : StreamId) : Prop :=
  r.mux.node.conn.streams.lookup i = none ∧ ∀ ex ∈ r.inflight.lookup i,
    ex.clientDone = true ∧ ex.pendingDown = [] ∧ (ex.piped = true → ex.visitorEof = true)

/-- No answer waits to be read for the visitor of stream `i`. -/
def Unanswered (r : Relay) (i : StreamId) : Prop :=
  ∀ ex ∈ r.inflight.lookup i, ex.responseTx.isSome = true →
    ∀ x ∈ r.mux.waiting i, AllInterim ex.onUpgrade x.2

instance (r : Relay) (i : StreamId) : Decidable (r.Served i) := by
  unfold Served
  infer_instance

instance (r : Relay) (i : StreamId) : Decidable (r.Unanswered i) := by
  unfold Unanswered
  infer_instance

end Relay

namespace Visits

def step (s : Visits) : VisitAction → Option Visits
  | .leave id =>
    if (s.relay.inflight.lookup id).isSome ∨ (s.relay.forwards.lookup id).isSome then
      some { s with left := id :: s.left }
    else none
  | .relay a => (s.relay.step a).map fun relay => { s with relay }
  | .refused id a =>
    if id ∈ s.left then
      (s.relay.step a).bind fun relay =>
        if Relay.Attempts id s.relay relay a then
          some { s with relay, missed := id :: s.missed }
        else none
    else none

def run (s : Visits) (actions : List VisitAction) : Option Visits := Automaton.run step s actions

/-- The exchange of a visitor that something could not be sent to is dropped, and the connection does
not track its stream any more. -/
def Departed (s : Visits) (i : StreamId) : Prop :=
  i ∈ s.missed → s.relay.inflight.lookup i = none ∧
    s.relay.mux.node.conn.streams.lookup i = none

/-- A visitor who is gone misses only what would have been the last thing sent. -/
def Spared (i : StreamId) (s : Visits) : VisitAction → Prop
  | .refused j (.forwarded _) => j = i → s.relay.Served i
  | .refused j (.event ..) => j = i →
    s.relay.mux.node.conn.pollEvent.2 = some (.readable i) → s.relay.Unanswered i
  | _ => True

instance (i : StreamId) (s : Visits) (a : VisitAction) : Decidable (Spared i s a) := by
  unfold Spared
  split <;> infer_instance

end Visits

/-! ## Exchanges that are over -/

namespace Lane

variable {i : StreamId} {l l' : Lane} {reads : Prop}

/-- An item on its way is for a stream that was opened. -/
def Bound (i : StreamId) (l : Lane) : Prop := l.forward.isSome = true → l.mux.Known i

/-- The exchange is dropped and its stream forgotten. -/
def Past (i : StreamId) (l : Lane) : Prop := l.exchange = none ∧ l.mux.Forgotten i

omit [Postcard] [HttpTypes] [ThirdParty] in
theorem forward_finishExchange : (l.finishExchange i).forward = l.forward := by
  unfold finishExchange
  split
  · rfl
  · split <;> rfl

omit [Postcard] [HttpTypes] [ThirdParty] in
theorem isSome_of_forward_pump (h : (l.pump i).forward.isSome = true) :
    l.forward.isSome = true ∨ l.exchange.isSome = true := by
  unfold pump at h
  split at h
  · exact .inl h
  · rename_i hex
    exact .inr (by rw [hex]; rfl)

omit [Postcard] [HttpTypes] [ThirdParty] in
theorem forward_clientFinished : (l.clientFinished i).forward = l.forward := by
  unfold clientFinished
  split
  · rfl
  · dsimp only
    split
    · exact forward_finishExchange
    · rfl

theorem Move.bound (R : l.mux.Reachable) (G : l.Grounded i) (B : l.Bound i)
    (V : Move i reads l l') : l'.Bound i := by
  have L := V.later R
  intro h
  have hpump {l₁ : Lane} (h : (l₁.pump i).forward.isSome = true)
      (hforward : l₁.forward = l.forward)
      (hex : l₁.exchange.isSome = true → l.exchange.isSome = true) : l.mux.Known i := by
    rcases isSome_of_forward_pump h with h | h
    · exact B (hforward ▸ h)
    · exact G (hex h)
  cases V with
  | call | poll | send | setClass | finish | note | control | refuse | opened | upload | unpiped
  | empty =>
    exact L.known i (B h)
  | eof => exact L.known i (hpump h rfl fun h => Option.isSome_map.symm.trans h)
  | interim _ hex | badHead _ hex | head _ hex | body _ hex | ignored _ hex =>
    exact L.known i (hpump h rfl fun _ => by rw [hex]; rfl)
  | pump => exact L.known i (hpump h rfl id)
  | forwarded hitem => exact L.known i (B (by rw [hitem]; rfl))
  | finished _ P =>
    rw [forward_clientFinished, P.forward.1] at h
    exact L.known i (B h)

theorem Path.bound (R : l.mux.Reachable) (G : l.Grounded i) (B : l.Bound i)
    (H : Path i reads l l') : l'.Bound i := by
  induction H with
  | refl => exact B
  | tail H M ih => exact M.bound (Path.later R H).reachable (Path.grounded R H G) ih

theorem Step.bound {a : RelayAction} (R : l.mux.Reachable) (G : l.Grounded i) (B : l.Bound i)
    (S : Step i a l l') : l'.Bound i := by
  have L := S.later R
  intro h
  cases S with
  | moves H => exact Path.bound R G B H h
  | network => exact L.known i (B h)
  | reset _ P =>
    rw [forward_drop, P.forward.1] at h
    exact L.known i (B h)
  | bodyFailed | pipeFailed =>
    have h : (l.drop i).forward.isSome = true := h
    rw [forward_drop] at h
    exact L.known i (B h)

omit [Postcard] [HttpTypes] [ThirdParty] in
theorem pump_of_none (h : l.exchange = none) : l.pump i = l := by
  unfold pump
  rw [h]

/-- A dropped exchange does not come back, for its stream is not opened again. -/
theorem Move.dropped (R : l.mux.Reachable) (hknown : l.mux.Known i) (h : l.exchange = none)
    (V : Move i reads l l') : l'.exchange = none := by
  have hno {ex : Exchange} {p : Prop} (hex : l.exchange = some ex) : p := by
    rw [h] at hex
    cases hex
  cases V with
  | call | poll | send | setClass | finish | note | control | refuse | unpiped | empty => exact h
  | opened hid => exact absurd hknown (R.not_known_of_open hid)
  | upload hex | interim _ hex | badHead _ hex | head _ hex | body _ hex | ignored _ hex =>
    exact hno hex
  | eof | forwarded =>
    rw [pump_of_none (Option.map_eq_none_iff.mpr h)]
    exact Option.map_eq_none_iff.mpr h
  | pump =>
    rw [pump_of_none h]
    exact h
  | finished _ P =>
    unfold clientFinished
    rw [P.exchange, h]
    exact P.exchange.trans h

theorem Path.dropped (R : l.mux.Reachable) (hknown : l.mux.Known i) (h : l.exchange = none)
    (H : Path i reads l l') : l'.exchange = none := by
  induction H with
  | refl => exact h
  | tail H M ih =>
    have L := Path.later R H
    exact M.dropped L.reachable (L.known i hknown) ih

theorem Step.dropped {a : RelayAction} (R : l.mux.Reachable) (hknown : l.mux.Known i)
    (h : l.exchange = none) (S : Step i a l l') : l'.exchange = none := by
  cases S with
  | moves H => exact Path.dropped R hknown h H
  | network => exact h
  | reset | bodyFailed | pipeFailed => exact exchange_drop ..

theorem Step.forgotten {a : RelayAction} (R : l.mux.Reachable) (F : l.mux.Forgotten i)
    (S : Step i a l l') : l'.mux.Forgotten i := by
  have h := S.keeps (P := fun w => w.Reachable ∧ w.Forgotten i)
    (fun h H => ⟨h.1.face H, h.2.face h.1 H⟩) ⟨R, F⟩
  exact h.2

theorem Step.past {a : RelayAction} (R : l.mux.Reachable) (P : l.Past i) (S : Step i a l l') :
    l'.Past i :=
  ⟨S.dropped R P.2.1 P.1, S.forgotten R P.2⟩

omit [Postcard] [HttpTypes] [ThirdParty] in
/-- Pumping does not answer a visitor. -/
theorem responseTx_pump {ex' : Exchange} (h : (l.pump i).exchange = some ex') :
    ∃ ex, l.exchange = some ex ∧ ex'.responseTx = ex.responseTx ∧
      ex'.onUpgrade = ex.onUpgrade := by
  have hfinish (h : (l.finishExchange i).exchange = some ex') : ∃ ex, l.exchange = some ex ∧
      ex'.responseTx = ex.responseTx ∧ ex'.onUpgrade = ex.onUpgrade := by
    unfold finishExchange at h
    split at h
    · exact ⟨ex', h, rfl, rfl⟩
    · rename_i ex hex
      split at h
      · cases h
        exact ⟨ex, hex, rfl, rfl⟩
      · cases h
  unfold pump at h
  split at h
  · exact ⟨ex', h, rfl, rfl⟩
  · rename_i ex hex
    split at h
    · exact ⟨ex', h, rfl, rfl⟩
    · split at h
      · split at h <;> cases h <;> exact ⟨ex, hex, rfl, rfl⟩
      · split at h
        · exact hfinish h
        · exact ⟨ex', h, rfl, rfl⟩

end Lane

namespace Relay

variable {i : StreamId} {r r' : Relay}

/-! ## What a refused send leaves -/

omit [Postcard] [HttpTypes] [ThirdParty] in
theorem responseTx_pumpDown {ex' : Exchange} (h : (r.pumpDown i).inflight.lookup i = some ex') :
    ∃ ex, r.inflight.lookup i = some ex ∧ ex'.responseTx = ex.responseTx ∧
      ex'.onUpgrade = ex.onUpgrade := by
  rw [← exchange_lane, lane_pumpDown] at h
  exact Lane.responseTx_pump h

omit [Postcard] [HttpTypes] [ThirdParty] in
theorem mux_pumpDown : (r.pumpDown i).mux = r.mux :=
  (congrArg Lane.mux (lane_pumpDown (r := r) (i := i))).trans (Lane.mux_pump _ i)

/-- Interim heads are read without an answer. -/
theorem Unanswered.readExchange (R : r.mux.Reachable) (U : r.Unanswered i)
    (hwaits : ∀ ex ∈ r.inflight.lookup i, ex.responseTx.isSome = true) (fuel : Nat) :
    ∀ ex ∈ (readExchange i fuel r).inflight.lookup i, ex.responseTx.isSome = true := by
  induction fuel generalizing r with
  | zero => exact hwaits
  | succ fuel ih =>
    unfold Relay.readExchange
    split
    · exact hwaits
    · rename_i ex hex
      split
      · exact hwaits
      · split
        · rename_i r₁ msg heq
          have hmsg : (r.mux.node.conn.recvMsg i).2 = .ok msg := congrArg Prod.snd heq
          have hrecv : { r with mux := r.mux.call (.recvMsg i) } = r₁ := congrArg Prod.fst heq
          subst hrecv
          have htx := hwaits ex hex
          obtain ⟨tx, htx'⟩ := Option.isSome_iff_exists.mp htx
          obtain ⟨more, rest, hwaiting, hnext⟩ := Watch.waiting_recvMsg R hmsg
          have hinterim := U ex hex htx _ hwaiting
          obtain ⟨head, hhead, hisInterim⟩ := hinterim msg List.mem_cons_self
          have hdecode : Postcard.responseHead.decode msg = .ok head := by
            cases h : Postcard.responseHead.decode msg with
            | error => rw [h] at hhead; cases hhead
            | ok => rw [h] at hhead; cases hhead; rfl
          have hsame (r₁ : Relay) : r₁.onVisitorMessage i ex msg = (r₁, ex) := by
            unfold onVisitorMessage
            rw [htx']
            simp [onHead, hdecode, hisInterim]
          have hback {ex' : Exchange} {r₁ : Relay}
              (h : ((r₁.setExchange i ex).pumpDown i).inflight.lookup i = some ex') :
              ex'.responseTx = ex.responseTx ∧ ex'.onUpgrade = ex.onUpgrade := by
            obtain ⟨ex₀, hex₀, h⟩ := responseTx_pumpDown h
            rw [setExchange, AList.lookup_insert] at hex₀
            cases hex₀
            exact h
          simp only [hsame]
          have hmux {r₁ : Relay} : ((r₁.setExchange i ex).pumpDown i).mux = r₁.mux := mux_pumpDown
          have hreachable : (r.mux.call (.recvMsg i)).Reachable :=
            (Watch.call_later R (.recvMsg i)).reachable
          refine ih (by rw [hmux]; exact hreachable) ?_ ?_
          · intro ex' hex' _ x hx
            rw [(hback hex').2]
            rw [hmux] at hx
            have hx : (r.mux.call (.recvMsg i)).waiting i = some x := hx
            rcases hnext with h | ⟨h, -⟩
            · rw [h] at hx
              cases hx
              exact fun msg hmsg => hinterim msg (List.mem_cons_of_mem _ hmsg)
            · rw [h] at hx
              cases hx
          · intro ex' hex'
            rw [(hback hex').1]
            exact htx
        · rename_i r₁ e heq
          have hrecv : { r with mux := r.mux.call (.recvMsg i) } = r₁ := congrArg Prod.fst heq
          subst hrecv
          exact hwaits

theorem Unanswered.drainInbox (R : r.mux.Reachable) (U : r.Unanswered i)
    (hwaits : ∀ ex ∈ r.inflight.lookup i, ex.responseTx.isSome = true) :
    ∀ ex ∈ (r.drainInbox i).inflight.lookup i, ex.responseTx.isSome = true := by
  refine readExchange (r := r.pumpDown i) (by rw [mux_pumpDown]; exact R) ?_ ?_ _
  · intro ex' hex' htx x hx
    obtain ⟨ex, hex, htx', hup⟩ := responseTx_pumpDown hex'
    rw [mux_pumpDown] at hx
    rw [hup]
    exact U ex hex (htx' ▸ htx) x hx
  · intro ex' hex'
    obtain ⟨ex, hex, htx, -⟩ := responseTx_pumpDown hex'
    rw [htx]
    exact hwaits ex hex

/-- The last item is handed over, and the exchange goes. -/
theorem Served.forwarded (S : r.Served i) (h : r.step (.forwarded i) = some r') :
    r'.inflight.lookup i = none := by
  simp only [step] at h
  split at h
  · cases h
  · rename_i item hitem
    have hread {r₁ : Relay} (h : (r₁.pumpDown i).inflight.lookup i = none) :
        (r₁.drainInbox i).inflight.lookup i = none := by
      unfold Relay.drainInbox
      dsimp only
      generalize (((r₁.pumpDown i).mux.inbox i).length) = fuel
      cases fuel with
      | zero => exact h
      | succ fuel =>
        unfold Relay.readExchange
        rw [h]
        exact h
    cases hex : r.inflight.lookup i with
    | none =>
      simp only [note, hex] at h
      cases h
      refine hread ?_
      rw [← exchange_lane, lane_pumpDown, Lane.pump_of_none] <;> exact hex
    | some ex =>
      simp only [note, hex] at h
      cases h
      obtain ⟨hdone, hpending, hpipe⟩ := S.2 ex hex
      refine hread ?_
      rw [← exchange_lane, lane_pumpDown, lane_setExchange]
      cases hpiped : ex.piped with
      | false => simp [Lane.pump, Lane.finishExchange, hdone, hpending]
      | true => simp [Lane.pump, Lane.finishExchange, hdone, hpending, hpipe hpiped]

/-- A send that is refused where nothing was left to do leaves nothing behind. -/
theorem past_of_attempts {a : RelayAction} (F : r.Founded) (B : (r.lane i).Bound i)
    (h : r.step a = some r') (hattempt : Attempts i r r' a = true)
    (hserved : ∀ j, a = .forwarded j → r.Served i)
    (hunanswered : ∀ closeTx now, a = .event closeTx now →
      r.mux.node.conn.pollEvent.2 = some (.readable i) → r.Unanswered i) :
    (r'.lane i).Past i := by
  have S := step_lane (i := i) F.opensFresh h
  cases a with
  | forwarded j =>
    obtain rfl : j = i := by simpa [Attempts] using hattempt
    have hserved := hserved j rfl
    have hknown : r.mux.Known j := by
      refine B ?_
      simp only [step] at h
      split at h
      · cases h
      · rename_i item hitem
        have hforward : (r.lane j).forward = some item := hitem
        rw [hforward]
        rfl
    exact ⟨hserved.forwarded h, S.forgotten F.reachable ⟨hknown, hserved.1⟩⟩
  | event closeTx now =>
    obtain ⟨ev, hev, rfl⟩ := Option.map_eq_some_iff.mp h
    obtain ⟨hwaits, hmatch⟩ := Bool.and_eq_true_iff.mp hattempt
    obtain ⟨ex, hex, htx⟩ := (Option.any_eq_true _ _).mp hwaits
    rw [hev] at hmatch
    cases ev with
    | reset j code =>
      obtain rfl : j = i := by simpa using hmatch
      have htold : .reset j code ∈ r.mux.told := by
        rw [← Watch.told_pollEvent, Watch.told, Watch.polled_pollEvent hev]
        simp
      have hknown : r.mux.Known j := F.grounded j (by rw [exchange_lane, hex]; rfl)
      refine ⟨?_, S.forgotten F.reachable (F.reachable.forgotten_of_told hknown htold)⟩
      exact (congrArg Lane.exchange (lane_streamReset code)).trans (Lane.exchange_drop ..)
    | readable j =>
      obtain ⟨hj, hanswered⟩ := Bool.and_eq_true_iff.mp hmatch
      obtain rfl : j = i := by simpa using hj
      obtain ⟨ex', hex', htx'⟩ := (Option.any_eq_true _ _).mp hanswered
      have L := Watch.call_later F.reachable .pollEvent
      have hwaiting : (r.mux.call .pollEvent).waiting j = r.mux.waiting j := by
        have hstreams : (r.mux.call .pollEvent).node.conn.streams = r.mux.node.conn.streams := by
          simp only [Watch.call, Mux.Node.call, Mux.Connection.pollEvent]
          split <;> rfl
        rw [Watch.waiting_eq, Watch.waiting_eq, hstreams]
      have U : Unanswered { r with mux := r.mux.call .pollEvent } j := by
        intro ex hex htx x hx
        have hx : (r.mux.call .pollEvent).waiting j = some x := hx
        rw [hwaiting] at hx
        exact hunanswered closeTx now rfl hev ex hex htx x hx
      have hall : ∀ ex ∈ r.inflight.lookup j, ex.responseTx.isSome = true := by
        intro ex₁ hex₁
        have hex₁ : r.inflight.lookup j = some ex₁ := hex₁
        rw [hex] at hex₁
        cases hex₁
        exact htx
      have hdrain : ({ r with mux := r.mux.call .pollEvent }.onEvent closeTx now (.readable j)) =
          { r with mux := r.mux.call .pollEvent }.drainInbox j := if_pos (by rw [hex]; rfl)
      rw [hdrain] at hex'
      have hwaits := U.drainInbox L.reachable hall ex' hex'
      rw [Option.isNone_iff_eq_none.mp htx'] at hwaits
      cases hwaits
    | _ => cases hmatch
  | _ => cases hattempt

end Relay

/-! ## Runs -/

namespace Visits

variable {i : StreamId} {s s' : Visits}

/-- What guarded steps keep for stream `i`. -/
structure Kept (i : StreamId) (s : Visits) : Prop where
  founded : s.relay.Founded
  bound : (s.relay.lane i).Bound i
  past : i ∈ s.missed → (s.relay.lane i).Past i

theorem Kept.relay (K : s.Kept i) {a : RelayAction} {r : Relay} (h : s.relay.step a = some r) :
    Kept i { s with relay := r } := by
  have S := Relay.step_lane (i := i) K.founded.opensFresh h
  have R := K.founded.reachable
  exact ⟨K.founded.step h, S.bound R (K.founded.grounded i) K.bound,
    fun hm => S.past R (K.past hm)⟩

theorem Kept.step (K : s.Kept i) {a : VisitAction} (G : Spared i s a) (h : s.step a = some s') :
    s'.Kept i := by
  cases a with
  | leave id =>
    simp only [Visits.step] at h
    split at h
    · cases h
      exact ⟨K.founded, K.bound, K.past⟩
    · cases h
  | relay a =>
    obtain ⟨r, hr, rfl⟩ := Option.map_eq_some_iff.mp h
    exact K.relay hr
  | refused j a =>
    simp only [Visits.step] at h
    split at h
    · obtain ⟨r, hr, h⟩ := Option.bind_eq_some_iff.mp h
      split at h
      · rename_i hattempt
        cases h
        have K' := K.relay hr
        refine ⟨K'.founded, K'.bound, fun hm => ?_⟩
        rcases List.mem_cons.mp hm with rfl | hm
        · refine Relay.past_of_attempts K.founded K.bound hr hattempt ?_ ?_
          · rintro _ rfl
            exact G rfl
          · rintro _ _ rfl hpoll
            exact G rfl hpoll
        · exact K'.past hm
      · cases h
    · cases h

/-- Where nothing but a last send is refused, a visitor who is gone leaves nothing behind. -/
theorem departed (cfg : Mux.Config) (now : Mux.Instant) (registry : Registry)
    {actions : List VisitAction}
    (hguard : Automaton.Meets step (Spared i) ⟨.new (.new cfg now) registry, [], []⟩ actions)
    (h : run ⟨.new (.new cfg now) registry, [], []⟩ actions = some s) : s.Departed i := by
  have K : s.Kept i := Automaton.run_invariant_of_meets (I := fun s => Kept i s)
    (fun K G h => K.step G h) hguard
    ⟨Relay.founded_new cfg now registry, (by rintro ⟨⟩), (by rintro ⟨⟩)⟩ h
  exact fun hm => ⟨(K.past hm).1, (K.past hm).2.2⟩

end Visits

end

/-! ## Sample runs -/

namespace Visits.Sample

open Mux.Sample Relay.Sample

def visits : Visits := ⟨Relay.Sample.relay, [], []⟩

/-- The visitor leaves before there is an answer, and the client resets the stream. -/
def leaving : List VisitAction :=
  (authenticated ++ [visitor false, RelayAction.bodyEnd 2]).map .relay ++ [.leave 2,
    .relay (.recv 0 (Mux.Frame.mk 2 .rst (Mux.Postcard.u32.put 2)).encode),
    .refused 2 (.event 0 0)]

theorem departed_leaving : ∃ s, visits.run leaving = some s ∧ 2 ∈ s.missed ∧ s.Departed 2 := by
  have hguard : Automaton.Meets Visits.step (Spared 2) visits leaving := by decide +kernel
  obtain ⟨s, hrun, hmissed⟩ := (Option.any_eq_true (fun s : Visits => decide (2 ∈ s.missed))
    (visits.run leaving)).mp (by decide +kernel)
  exact ⟨s, hrun, of_decide_eq_true hmissed, departed setup.server 0 registry hguard hrun⟩

/-- The visitor leaves while a chunk is on its way, and the next chunk is read for nobody. -/
def unnoticed : List VisitAction :=
  (authenticated ++ answered ++ [RelayAction.bodyEnd 2]).map .relay ++
    [.leave 2, .refused 2 (.forwarded 2)] ++
    (message (Proto.Formats.bodyFrame.put (.chunk [8]))).map .relay ++ [.refused 2 (.forwarded 2)]

theorem stayed_unnoticed : ∃ s, visits.run unnoticed = some s ∧ 2 ∈ s.missed ∧
    (s.relay.mux.node.conn.streams.lookup 2).isSome = true ∧ .reset 2 ∉ s.relay.log ∧
    ¬s.relay.Releases 2 ∧ ¬s.Departed 2 := by
  obtain ⟨s, hrun, hstay⟩ := (Option.any_eq_true (fun s : Visits =>
    decide (2 ∈ s.missed ∧ (s.relay.inflight.lookup 2).isSome = true ∧
      (s.relay.mux.node.conn.streams.lookup 2).isSome = true ∧ .reset 2 ∉ s.relay.log ∧
      s.relay.mux.node.conn.events = [] ∧ (s.relay.forwards.lookup 2).isSome = false ∧
      2 ∉ s.relay.readers ∧ 2 ∉ s.relay.pipes))
    (visits.run unnoticed)).mp (by decide +kernel)
  obtain ⟨hmissed, hex, htracked, hreset, hevents, hforward, hreader, hpipe⟩ :=
    of_decide_eq_true hstay
  have hforward := Option.isNone_iff_eq_none.mp (Option.isSome_eq_false_iff.mp hforward)
  refine ⟨s, hrun, hmissed, htracked, hreset,
    Relay.not_releases hex hevents hforward hreader hpipe, fun hdeparted => ?_⟩
  rw [(hdeparted hmissed).1] at hex
  cases hex

end Visits.Sample

end TunnelWeaver.Server
