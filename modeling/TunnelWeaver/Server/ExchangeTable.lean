import TunnelWeaver.Server.Lane

/-! The table of exchanges: an exchange goes with its stream. Where the connection forgets a stream
first, an event is queued or the handler waits for its own tasks, and what they bring removes the
exchange. A reset of the handler tells nothing, so it must not come before the exchange is gone. -/

namespace TunnelWeaver.Server

open Mux (Bytes Call Event StreamId ThirdParty Watch)
open Proto (Postcard)

section
variable [Postcard] [HttpTypes]

/-- The messages waiting up to the final head decode, or nothing more comes after the one that does
not. -/
def HeadsDecode (upgrade more : Bool) : List Bytes → Prop
  | [] => True
  | msg :: rest =>
    match Postcard.responseHead.decode msg with
    | .error _ => more = false ∧ rest = []
    | .ok head => Relay.isInterim upgrade head = true → HeadsDecode upgrade more rest

/-- What comes without the visitor or the client: the events queued, the completion of the item being
forwarded, the end of a request body or of an upgraded socket. -/
def RelayAction.Pending (i : StreamId) : RelayAction → Prop
  | .event .. => True
  | .forwarded j | .bodyEnd j | .pipeEof j => j = i
  | _ => False

instance decidableHeadsDecode (upgrade more : Bool) :
    (msgs : List Bytes) → Decidable (HeadsDecode upgrade more msgs)
  | [] => isTrue trivial
  | msg :: rest =>
    match h : Postcard.responseHead.decode msg with
    | .error _ => decidable_of_iff (more = false ∧ rest = []) (by simp [HeadsDecode, h])
    | .ok head =>
      have := decidableHeadsDecode upgrade more rest
      decidable_of_iff (Relay.isInterim upgrade head = true → HeadsDecode upgrade more rest)
        (by simp [HeadsDecode, h])

namespace Relay
variable [ThirdParty]

/-- What is pending for the stream removes its exchange. -/
def Releases (r : Relay) (i : StreamId) : Prop :=
  ∃ actions r', (∀ a ∈ actions, RelayAction.Pending i a) ∧ r.run actions = some r' ∧
    r'.inflight.lookup i = none

/-- An exchange has its stream, or what is pending removes it. -/
def Held (r : Relay) (i : StreamId) : Prop :=
  (r.inflight.lookup i).isSome = true →
    (r.mux.node.conn.streams.lookup i).isSome = true ∨ r.Releases i

/-- The handler reads no undecodable head while more may come. -/
def Readable (i : StreamId) (r : Relay) : RelayAction → Prop
  | .event .. => r.mux.node.conn.pollEvent.2 = some (.readable i) →
    ∀ ex ∈ r.inflight.lookup i, ex.responseTx.isSome = true →
      ∀ x ∈ r.mux.waiting i, HeadsDecode ex.onUpgrade x.1 x.2
  | _ => True

instance (i : StreamId) (r : Relay) (a : RelayAction) : Decidable (Readable i r a) := by
  cases a <;> unfold Readable <;> infer_instance

end Relay

end

/-! ## Exchanges and their streams -/

/-- An exchange feeds its visitor one item at a time, and its pipe is served until the visitor's
end. -/
structure Exchange.Afloat (ex : Exchange) (forward : Option BodyItem) (piping : Bool) : Prop where
  waiting : ex.responseTx.isSome = true → forward = none ∧ ex.bodyTx = false
  forwarding : ex.forwarding = true → forward.isSome = true ∧ ex.bodyTx = true
  queue : ex.pendingDown ≠ [] → ex.bodyTx = true
  pipe : ex.piped = true → ex.visitorEof = false → piping = true

theorem Exchange.Afloat.headed {ex : Exchange} {forward : Option BodyItem} {piping : Bool}
    (E : ex.Afloat forward piping) (hidle : ex.forwarding = false) (upgraded : Bool) :
    (Lane.headed ex upgraded).Afloat forward (piping || upgraded) := by
  have hbusy {p : Prop} (h : ex.forwarding = true) : p := by
    rw [hidle] at h
    cases h
  unfold Lane.headed
  split
  · rename_i hup
    exact ⟨(by rintro ⟨⟩), hbusy, fun _ => rfl, fun _ _ => by rw [hup, Bool.or_true]⟩
  · exact ⟨(by rintro ⟨⟩), hbusy, fun _ => rfl, fun hp he => by rw [E.pipe hp he, Bool.true_or]⟩

/-- Nothing waits behind an idle channel, and a finished response is kept for its pipe only. -/
structure Exchange.Moored (ex : Exchange) : Prop where
  idle : ex.forwarding = false → ex.pendingDown = []
  settled : ex.forwarding = false → ex.clientDone = true → ex.piped = true ∧ ex.visitorEof = false

/-- How many items are still to be handed over, one after the other. -/
def Exchange.remaining (ex : Exchange) : Nat :=
  if ex.forwarding then ex.pendingDown.length + 1 else 0

namespace Lane

variable {i : StreamId} {l l' : Lane} {ex ex' : Exchange}

structure Afloat (i : StreamId) (l : Lane) : Prop where
  known : l.forward.isSome = true → l.mux.Known i
  accounted : l.exchange.isSome = true → l.mux.Accounted i
  finished : .finished i ∈ l.mux.node.polled → ∀ ex ∈ l.exchange, ex.clientDone = true
  reset : (∃ code, .reset i code ∈ l.mux.node.polled) → l.exchange = none
  exchange : ∀ ex ∈ l.exchange, ex.Afloat l.forward l.piping

structure Moored (i : StreamId) (l : Lane) : Prop extends Afloat i l where
  moored : ∀ ex ∈ l.exchange, ex.Moored

theorem Moored.of_none (h : l.exchange = none)
    (hknown : l.forward.isSome = true → l.mux.Known i) : Moored i l := by
  have hno {p : Exchange → Prop} : ∀ ex ∈ l.exchange, p ex := by
    intro ex hex
    rw [h] at hex
    cases hex
  refine ⟨⟨hknown, fun hs => ?_, fun _ => hno, fun _ => h, hno⟩, hno⟩
  rw [h] at hs
  cases hs

theorem forward_drop (l : Lane) (i : StreamId) : (l.drop i).forward = l.forward := by
  unfold drop
  split <;> rfl

/-- The exchange changes, while the connection does not. -/
theorem Afloat.set (A : Afloat i l) (hex : l.exchange = some ex) (ex' : Exchange)
    (forward : Option BodyItem) (piping : Bool) (log : List Note)
    (hknown : forward.isSome = true → l.mux.Known i)
    (hdone : ex.clientDone = true → ex'.clientDone = true) (E : ex'.Afloat forward piping) :
    Afloat i { l with exchange := some ex', forward, piping, log } := by
  refine ⟨hknown, fun _ => A.accounted (by rw [hex]; rfl), ?_, ?_, ?_⟩
  · rintro hfin _ ⟨⟩
    exact hdone (A.finished hfin ex hex)
  · intro hreset
    have hnone := A.reset hreset
    rw [hex] at hnone
    cases hnone
  · rintro _ ⟨⟩
    exact E

theorem Afloat.moor (A : Afloat i l) (hex : l.exchange = some ex) (M : ex.Moored) : Moored i l := by
  refine ⟨A, fun ex' hex' => ?_⟩
  rw [hex] at hex'
  cases hex'
  exact M

theorem Afloat.finishExchange (A : Afloat i l) (hex : l.exchange = some ex)
    (hidle : ex.forwarding = false) (hpending : ex.pendingDown = []) :
    Moored i (l.finishExchange i) := by
  have E := A.exchange ex hex
  unfold Lane.finishExchange
  rw [hex]
  dsimp only
  split
  · rename_i hpipe
    obtain ⟨hpiped, heof⟩ := Bool.and_eq_true_iff.mp hpipe
    refine Afloat.moor (A.set hex _ _ _ _ A.known id ?_) rfl
      ⟨fun _ => hpending, fun _ _ => ⟨hpiped, ?_⟩⟩
    · refine ⟨fun h => ⟨(E.waiting h).1, rfl⟩, fun h => ?_, fun h => absurd hpending h, E.pipe⟩
      rw [hidle] at h
      cases h
    · simpa using heof
  · exact .of_none rfl A.known

/-- Pumping moors an exchange. -/
theorem Afloat.pump (A : Afloat i l) (G : l.Grounded i) : Moored i (l.pump i) := by
  cases hex : l.exchange with
  | none =>
    unfold Lane.pump
    rw [hex]
    exact .of_none hex A.known
  | some ex =>
    have E := A.exchange ex hex
    unfold Lane.pump
    rw [hex]
    dsimp only
    split
    · rename_i hbusy
      refine A.moor hex ⟨fun h => ?_, fun h => ?_⟩ <;>
      · rw [hbusy] at h
        cases h
    · rename_i hidle
      have hidle : ex.forwarding = false := Bool.eq_false_iff.mpr hidle
      cases hpending : ex.pendingDown with
      | cons item rest =>
        have hbody : ex.bodyTx = true := E.queue (by rw [hpending]; simp)
        dsimp only
        rw [if_pos hbody]
        have hknown : l.mux.Known i := G (by rw [hex]; rfl)
        refine Afloat.moor (A.set hex _ _ _ _ (fun _ => hknown) id ?_) rfl ⟨?_, ?_⟩
        · refine ⟨fun h => ?_, fun _ => ⟨rfl, hbody⟩, fun _ => hbody, E.pipe⟩
          have hclosed := (E.waiting h).2
          rw [hbody] at hclosed
          cases hclosed
        · rintro ⟨⟩
        · rintro ⟨⟩
      | nil =>
        dsimp only
        split
        · exact A.finishExchange hex hidle hpending
        · rename_i hopen
          exact A.moor hex ⟨fun _ => hpending, fun _ h => absurd h hopen⟩

/-- The client is done with a moored exchange. -/
theorem clientFinished_eq_pump (hex : l.exchange = some ex) (M : ex.Moored) :
    l.clientFinished i = { l with exchange := some { ex with clientDone := true } }.pump i := by
  unfold Lane.clientFinished Lane.pump
  rw [hex]
  dsimp only
  cases hidle : ex.forwarding with
  | true => simp
  | false => simp [M.idle hidle]

theorem remaining_pump (hex : l.exchange = some ex) (hidle : ex.forwarding = false)
    (h : (l.pump i).exchange = some ex') : ex'.remaining ≤ ex.pendingDown.length := by
  unfold Lane.pump at h
  rw [hex] at h
  dsimp only at h
  rw [if_neg (by rw [hidle]; rintro ⟨⟩)] at h
  cases hpending : ex.pendingDown with
  | cons item rest =>
    rw [hpending] at h
    dsimp only at h
    split at h
    · cases h
      exact Nat.le_of_eq (if_pos rfl)
    · cases h
      exact Nat.le_trans (Nat.le_of_eq (if_neg (by simp [hidle]))) (Nat.zero_le _)
  | nil =>
    have hzero : ex.remaining = 0 := if_neg (by simp [hidle])
    rw [hpending] at h
    dsimp only at h
    split at h
    · unfold Lane.finishExchange at h
      rw [hex] at h
      dsimp only at h
      split at h
      · cases h
        exact Nat.le_of_eq hzero
      · cases h
    · rw [hex] at h
      cases h
      exact Nat.le_of_eq hzero

/-! ## Heads -/

/-- Another lane's exchange waits for the same head, if it waits for one. -/
def Heads (l l' : Lane) : Prop :=
  ∀ ex' ∈ l'.exchange, ex'.responseTx.isSome = true →
    ∃ ex ∈ l.exchange, ex.responseTx.isSome = true ∧ ex'.onUpgrade = ex.onUpgrade

theorem Heads.refl : Heads l l := fun ex hex h => ⟨ex, hex, h, rfl⟩

theorem Heads.of_eq (h : l'.exchange = l.exchange) : Heads l l' :=
  fun ex hex htx => ⟨ex, h ▸ hex, htx, rfl⟩

theorem Heads.trans {l'' : Lane} (H : Heads l l') (H' : Heads l' l'') : Heads l l'' := by
  intro ex'' hex'' htx
  obtain ⟨ex', hex', htx', hup'⟩ := H' ex'' hex'' htx
  obtain ⟨ex, hex, htx, hup⟩ := H ex' hex' htx'
  exact ⟨ex, hex, htx, hup'.trans hup⟩

theorem Heads.set (hex : l.exchange = some ex) (hl' : l'.exchange = some ex')
    (htx : ex'.responseTx = ex.responseTx) (hup : ex'.onUpgrade = ex.onUpgrade) : Heads l l' := by
  intro _ h hs
  rw [hl'] at h
  cases h
  exact ⟨ex, hex, htx ▸ hs, hup⟩

theorem heads_finishExchange : Heads l (l.finishExchange i) := by
  unfold Lane.finishExchange
  split
  · exact .refl
  · rename_i ex hex
    split
    · exact .set hex rfl rfl rfl
    · rintro _ ⟨⟩

theorem heads_pump : Heads l (l.pump i) := by
  unfold Lane.pump
  split
  · exact .refl
  · rename_i ex hex
    split
    · exact .refl
    · split
      · split
        · exact .set hex rfl rfl rfl
        · exact .set hex rfl rfl rfl
      · split
        · exact heads_finishExchange
        · exact .refl

section
variable [Postcard]

/-- The head the exchange waits for decodes, or nothing more comes after it. -/
def Decodes (i : StreamId) (l : Lane) : Prop :=
  ∀ ex ∈ l.exchange, ex.responseTx.isSome = true →
    ∀ x ∈ l.mux.waiting i, HeadsDecode ex.onUpgrade x.1 x.2

theorem Decodes.of_heads (D : l.Decodes i) (H : Heads l l')
    (hw : l'.exchange.isSome = true → l'.mux.waiting i = l.mux.waiting i ∨
      l'.mux.waiting i = none) : l'.Decodes i := by
  intro ex' hex' htx x hx
  obtain ⟨ex, hex, htx, hup⟩ := H ex' hex' htx
  rcases hw (by rw [hex']; rfl) with h | h
  · rw [hup]
    exact D ex hex htx x (h ▸ hx)
  · rw [h] at hx
    cases hx

theorem decodes_of_answered (h : ∀ ex ∈ l.exchange, ex.responseTx = none) : l.Decodes i := by
  intro ex hex htx
  rw [h ex hex] at htx
  cases htx

variable [ThirdParty]

theorem Decodes.call (D : l.Decodes i) (R : l.mux.Reachable) (G : l.Grounded i) {k : Call}
    (hk : k ≠ .recvMsg i) : ({ l with mux := l.mux.call k } : Lane).Decodes i :=
  D.of_heads .refl fun h => Watch.waiting_call R (G h) hk

/-- The handler has taken an interim head. -/
theorem Decodes.interim (D : l.Decodes i) (R : l.mux.Reachable) (hex : l.exchange = some ex)
    (htx : ex.responseTx.isSome = true) {msg : Bytes} {head : Proto.HttpResponseHead}
    (hmsg : (l.mux.node.conn.recvMsg i).2 = .ok msg)
    (hdecode : Postcard.responseHead.decode msg = .ok head)
    (hinterim : Relay.isInterim ex.onUpgrade head = true) :
    ({ l with mux := l.mux.call (.recvMsg i) } : Lane).Decodes i := by
  obtain ⟨more, rest, hwaiting, hnext⟩ := Watch.waiting_recvMsg R hmsg
  have hrest : HeadsDecode ex.onUpgrade more rest := by
    have h := D ex hex htx _ hwaiting
    unfold HeadsDecode at h
    rw [hdecode] at h
    exact h hinterim
  intro ex' hex' _ x hx
  have hex' : l.exchange = some ex' := hex'
  rw [hex] at hex'
  cases hex'
  rcases hnext with h | ⟨h, -⟩
  · have hx : (l.mux.call (.recvMsg i)).waiting i = some x := hx
    rw [h] at hx
    cases hx
    exact hrest
  · have hx : (l.mux.call (.recvMsg i)).waiting i = some x := hx
    rw [h] at hx
    cases hx

/-- Nothing waits on a stream just opened. -/
theorem decodes_opened (R : l.mux.Reachable) {cls : Mux.Class}
    (hid : (l.mux.node.conn.open cls).2 = .ok i) (R' : l'.mux.Reachable)
    (harrived : l'.mux.arrived i = l.mux.arrived i) : l'.Decodes i := by
  have hunused : l.mux.journal.lines i = .unused :=
    R.contract.unused i (R.not_known_of_open hid)
  have hnone : l.mux.arrived i = [] := congrArg Mux.Line.arrived hunused
  intro ex hex htx x hx
  have haccounts : l'.mux.arrived i = l'.mux.node.taken i ++ x.2 :=
    (R'.contract.fits i).accounts x.1 x.2 hx
  rw [harrived, hnone] at haccounts
  rw [(List.append_eq_nil_iff.mp haccounts.symm).2]
  trivial

/-- An undecodable head was read, and nothing more comes. -/
theorem Decodes.last (D : l.Decodes i) (R : l.mux.Reachable) (hex : l.exchange = some ex)
    (htx : ex.responseTx.isSome = true) {msg : Bytes} {text : String}
    (hacc : l.mux.Accounted i) (hmsg : (l.mux.node.conn.recvMsg i).2 = .ok msg)
    (hdecode : Postcard.responseHead.decode msg = .error text) :
    ∃ e ∈ (l.mux.call (.recvMsg i)).told, e.Ends i := by
  obtain ⟨more, rest, hwaiting, hnext⟩ := Watch.waiting_recvMsg R hmsg
  have hlast : more = false ∧ rest = [] := by
    have h := D ex hex htx _ hwaiting
    unfold HeadsDecode at h
    rwa [hdecode] at h
  have R' := (Watch.call_later R (.recvMsg i)).reachable
  rcases hnext with h | ⟨h, -⟩
  · have hfin := ((R'.contract.fits i).finished _ h).mpr (by rw [hlast.1, hlast.2])
    exact ⟨_, hfin, .inl rfl⟩
  · rcases hacc.call R (k := .recvMsg i) (by rintro _ ⟨⟩) with htracked | htold
    · have hnone := Option.map_eq_none_iff.mp h
      rw [hnone] at htracked
      cases htracked
    · exact htold

end

/-! ## Moves -/

section
variable [ThirdParty]

omit [ThirdParty] in
/-- The connection goes on; nothing about the stream is polled. -/
theorem Afloat.mux (A : Afloat i l) {w : Watch} {log : List Note}
    (hknown : l.mux.Known i → w.Known i) (hacc : l.mux.Accounted i → w.Accounted i)
    (hpolled : ∀ e ∈ w.node.polled, e.Ends i → e ∈ l.mux.node.polled) :
    Afloat i { l with mux := w, log } :=
  ⟨fun h => hknown (A.known h), fun h => hacc (A.accounted h),
    fun h => A.finished (hpolled _ h (.inl rfl)),
    fun h => A.reset (h.imp fun code h => hpolled _ h (.inr ⟨code, rfl⟩)), A.exchange⟩

theorem Afloat.call (A : Afloat i l) (R : l.mux.Reachable) {log : List Note} {k : Call}
    (hk : ∀ code, k ≠ .reset i code) (hpoll : k ≠ .pollEvent) :
    Afloat i { l with mux := l.mux.call k, log } :=
  A.mux ((Watch.call_later R k).known i) (fun h => h.call R hk) fun e he _ => by
    rwa [Watch.polled_call hpoll] at he

theorem Moored.call (M : Moored i l) (R : l.mux.Reachable) {log : List Note} {k : Call}
    (hk : ∀ code, k ≠ .reset i code) (hpoll : k ≠ .pollEvent) :
    Moored i { l with mux := l.mux.call k, log } :=
  ⟨M.toAfloat.call R hk hpoll, M.moored⟩

theorem Moored.poll (M : Moored i l) (R : l.mux.Reachable) {ev : Event}
    (h : l.mux.node.conn.pollEvent.2 = some ev) (hev : ¬ev.Ends i) :
    Moored i { l with mux := l.mux.call .pollEvent } := by
  refine ⟨M.toAfloat.mux ((Watch.call_later R _).known i)
    (fun h => h.call R (by rintro _ ⟨⟩)) fun e he hends => ?_, M.moored⟩
  rw [Watch.polled_pollEvent h] at he
  rcases List.mem_append.mp he with he | he
  · exact he
  · exact absurd (List.mem_singleton.mp he ▸ hends) hev

omit [ThirdParty] in
theorem Moored.set (M : Moored i l) (hex : l.exchange = some ex)
    (hdone : ex.clientDone = true → ex'.clientDone = true)
    (E : ex'.Afloat l.forward l.piping) (E' : ex'.Moored) :
    Moored i { l with exchange := some ex' } :=
  (M.toAfloat.set hex _ _ _ _ M.known hdone E).moor rfl E'

/-- An exchange on a stream just opened. -/
theorem moored_opened (R : l.mux.Reachable) {cls : Mux.Class}
    (hid : (l.mux.node.conn.open cls).2 = .ok i) (F : Fresh ex) (M : Moored i l)
    {log : List Note} (msg : Bytes) (compress : Mux.Compress) : Moored i { l with
      mux := (l.mux.call (.open cls)).call (.send i msg compress)
      exchange := some ex
      log } := by
  have L := Watch.call_later R (.open cls)
  have hforward : l.forward = none := Option.not_isSome_iff_eq_none.mp fun h =>
    R.not_known_of_open hid (M.known h)
  have hnot {e : Event} (he : e ∈ l.mux.node.polled) (hi : e.streamId = some i) : False :=
    R.not_known_of_open hid (R.contract.known e (List.mem_append_left _ he) i hi)
  have hpolled : ((l.mux.call (.open cls)).call (.send i msg compress)).node.polled =
      l.mux.node.polled := by
    rw [Watch.polled_call (by rintro ⟨⟩), Watch.polled_call (by rintro ⟨⟩)]
  refine ⟨⟨fun h => ?_, fun _ => ?_, fun h => ?_, ?_, ?_⟩, ?_⟩
  · exact absurd (M.known h) (R.not_known_of_open hid)
  · exact (Watch.accounted_of_open hid).call L.reachable (by rintro _ ⟨⟩)
  · exact (hnot (hpolled ▸ h) rfl).elim
  · rintro ⟨code, h⟩
    exact (hnot (hpolled ▸ h) rfl).elim
  · rintro _ ⟨⟩
    refine ⟨fun _ => ⟨hforward, F.bodyTx⟩, fun h => ?_, fun h => absurd F.pendingDown h, fun h => ?_⟩
    · rw [F.forwarding] at h
      cases h
    · rw [F.piped] at h
      cases h
  · rintro _ ⟨⟩
    refine ⟨fun _ => F.pendingDown, fun _ h => ?_⟩
    rw [F.clientDone] at h
    cases h

theorem Polled.polled (P : l.Polled i l') {ev : Event} (h : l.mux.node.conn.pollEvent.2 = some ev) :
    l'.mux.node.polled = l.mux.node.polled ++ [ev] := by
  rcases P with rfl | rfl
  · exact Watch.polled_pollEvent h
  · exact (Watch.polled_call (by rintro ⟨⟩)).trans (Watch.polled_pollEvent h)

theorem Polled.accounted (R : l.mux.Reachable) (P : l.Polled i l') (h : l.mux.Accounted i) :
    l'.mux.Accounted i := by
  have hpoll := h.call R (k := .pollEvent) (by rintro _ ⟨⟩)
  rcases P with rfl | rfl
  · exact hpoll
  · exact hpoll.call (Watch.call_later R _).reachable (k := .finish i) (by rintro _ ⟨⟩)

theorem Polled.forward (P : l.Polled i l') : l'.forward = l.forward ∧ l'.piping = l.piping := by
  rcases P with rfl | rfl <;> exact ⟨rfl, rfl⟩

theorem Moored.clientFinished (M : Moored i l) (R : l.mux.Reachable) (G : l.Grounded i)
    (hpoll : l.mux.node.conn.pollEvent.2 = some (.finished i)) (P : l.Polled i l') :
    Moored i (l'.clientFinished i) := by
  have L := P.later R
  have hknown : l'.forward.isSome = true → l'.mux.Known i := fun h => by
    rw [P.forward.1] at h
    exact L.known i (M.known h)
  cases hex : l.exchange with
  | none =>
    have hex' : l'.exchange = none := P.exchange.trans hex
    unfold Lane.clientFinished
    rw [hex']
    exact .of_none hex' hknown
  | some ex =>
    have hex' : l'.exchange = some ex := P.exchange.trans hex
    have E := M.exchange ex hex
    rw [clientFinished_eq_pump hex' (M.moored ex hex)]
    refine Afloat.pump ⟨hknown, fun _ => ?_, ?_, ?_, ?_⟩ fun _ => ?_
    · have hacc := P.accounted R (M.accounted (by rw [hex]; rfl))
      exact hacc
    · rintro - _ ⟨⟩
      rfl
    · rintro ⟨code, h⟩
      have h : .reset i code ∈ l'.mux.node.polled := h
      rw [P.polled hpoll] at h
      rcases List.mem_append.mp h with h | h
      · have hnone := M.reset ⟨code, h⟩
        rw [hex] at hnone
        cases hnone
      · cases List.mem_singleton.mp h
    · rintro _ ⟨⟩
      rw [P.forward.1, P.forward.2]
      exact ⟨E.waiting, E.forwarding, E.queue, E.pipe⟩
    · exact L.known i (G (by rw [hex]; rfl))

variable [Postcard] [HttpTypes]

theorem Move.moored {reads : Prop} (R : l.mux.Reachable) (G : l.Grounded i)
    (V : Move i reads l l') (D : reads → l.Decodes i) (M : Moored i l) : Moored i l' := by
  have hgrounded {l₁ : Lane} (hex : l.exchange.isSome = true)
      (L : Watch.Later l.mux l₁.mux) : l₁.Grounded i := fun _ => L.known i (G hex)
  have L := Watch.call_later R (.recvMsg i)
  cases V with
  | @call k hk hpoll =>
    refine M.call R ?_ hpoll
    rintro code rfl
    exact hk rfl
  | poll hpoll hfin hreset =>
    refine M.poll R hpoll ?_
    rintro (rfl | ⟨code, rfl⟩)
    · exact hfin rfl
    · exact hreset code rfl
  | send | setClass | finish | control => exact M.call R (by rintro _ ⟨⟩) (by rintro ⟨⟩)
  | note => exact ⟨M.toAfloat.mux id id fun _ he _ => he, M.moored⟩
  | refuse hex => exact .of_none hex fun h => (Watch.call_later R _).known i (M.known h)
  | opened hid F => exact moored_opened R hid F M _ _
  | @upload ex ex' hex hdown =>
    have E := M.exchange ex hex
    have E' := M.moored ex hex
    have hdowned : ex'.down.Afloat l.forward l.piping ∧ ex'.down.Moored := by
      rw [hdown]
      exact ⟨⟨E.waiting, E.forwarding, E.queue, E.pipe⟩, ⟨E'.idle, E'.settled⟩⟩
    obtain ⟨F, F'⟩ := hdowned
    have hdone := congrArg Exchange.clientDone hdown
    have hdone : ex'.clientDone = ex.clientDone := hdone
    exact M.set hex (fun h => hdone.trans h) ⟨F.waiting, F.forwarding, F.queue, F.pipe⟩
      ⟨F'.idle, F'.settled⟩
  | @eof piping =>
    cases hex : l.exchange with
    | none =>
      have hnone : Moored i { l with piping, exchange := none } := .of_none rfl M.known
      exact hnone.toAfloat.pump (by rintro ⟨⟩)
    | some ex =>
      have E := M.exchange ex hex
      have A := M.toAfloat.set hex { ex with visitorEof := true } _ piping l.log M.known id
        ⟨E.waiting, E.forwarding, E.queue, fun _ h => by cases h⟩
      exact A.pump (hgrounded (by rw [hex]; rfl) (.refl R))
  | unpiped hex => exact .of_none hex M.known
  | empty herror =>
    rw [(Watch.recvMsg_error R herror).1]
    exact M
  | interim hr hex =>
    exact (M.toAfloat.call R (by rintro _ ⟨⟩) (by rintro ⟨⟩)).pump (hgrounded (by rw [hex]; rfl) L)
  | @badHead ex tx msg text hr hex htx hmsg hdecode =>
    have E := M.exchange ex hex
    have hwaiting : ex.responseTx.isSome = true := by rw [htx]; rfl
    obtain ⟨e, he, hends⟩ := (D hr).last R hex hwaiting (M.accounted (by rw [hex]; rfl)) hmsg hdecode
    have A := M.toAfloat.set hex { ex with responseTx := none } _ _ l.log M.known id
      ⟨(by rintro ⟨⟩), E.forwarding, E.queue, E.pipe⟩
    have hpolled : ((l.mux.call (.recvMsg i)).call
        (.reset i Proto.ResetCode.cancelled.asU32)).node.polled = l.mux.node.polled := by
      rw [Watch.polled_call (by rintro ⟨⟩), Watch.polled_call (by rintro ⟨⟩)]
    have L' := L.trans (Watch.call_later L.reachable (.reset i Proto.ResetCode.cancelled.asU32))
    refine Afloat.pump (A.mux (L'.known i) (fun _ => Watch.accounted_reset he hends _) ?_)
      (hgrounded (by rw [hex]; rfl) L')
    intro e he _
    rwa [hpolled] at he
  | @head ex tx msg head hr hex htx hmsg hdecode hfinal =>
    have E := M.exchange ex hex
    obtain ⟨hforward, hbody⟩ := E.waiting (by rw [htx]; rfl)
    have hidle : ex.forwarding = false := Bool.eq_false_iff.mpr fun h => by
      rw [(E.forwarding h).2] at hbody
      cases hbody
    have A := M.toAfloat.set hex (headed ex (head.status == 101 && ex.onUpgrade)) _
      (l.piping || (head.status == 101 && ex.onUpgrade)) l.log M.known
      (fun h => by unfold headed; split <;> exact h) (E.headed hidle _)
    exact (A.call R (by rintro _ ⟨⟩) (by rintro ⟨⟩)).pump (hgrounded (by rw [hex]; rfl) L)
  | @body ex msg hr hex htx hbody hmsg =>
    have E := M.exchange ex hex
    have hanswered : ¬ex.responseTx.isSome = true := by
      rw [htx]
      rintro ⟨⟩
    have A := M.toAfloat.set hex (queued ex (Relay.bodyItem msg)) _ _ l.log M.known id
      ⟨fun h => absurd h hanswered, E.forwarding, fun _ => hbody, E.pipe⟩
    exact (A.call R (by rintro _ ⟨⟩) (by rintro ⟨⟩)).pump (hgrounded (by rw [hex]; rfl) L)
  | ignored hr hex =>
    exact (M.toAfloat.call R (by rintro _ ⟨⟩) (by rintro ⟨⟩)).pump (hgrounded (by rw [hex]; rfl) L)
  | pump => exact M.toAfloat.pump G
  | @forwarded item hitem =>
    cases hex : l.exchange with
    | none =>
      have hnone : Moored i { l with
          exchange := none
          forward := none
          log := l.log ++ [.delivered i item] } := .of_none rfl (by rintro ⟨⟩)
      exact hnone.toAfloat.pump (by rintro ⟨⟩)
    | some ex =>
      have E := M.exchange ex hex
      have A := M.toAfloat.set hex { ex with forwarding := false } none _
        (l.log ++ [.delivered i item]) (by rintro ⟨⟩) id
        ⟨fun h => ⟨rfl, (E.waiting h).2⟩, (by rintro ⟨⟩), E.queue, E.pipe⟩
      exact A.pump (hgrounded (by rw [hex]; rfl) (.refl R))
  | finished hpoll P => exact M.clientFinished R G hpoll P

omit [ThirdParty] [HttpTypes] in
theorem decodes_pump (D : l.Decodes i) : (l.pump i).Decodes i :=
  D.of_heads heads_pump fun _ => .inl (by rw [mux_pump])

omit [Postcard] [HttpTypes] [ThirdParty] in
theorem clientFinished_heads : Heads l (l.clientFinished i) := by
  unfold Lane.clientFinished
  split
  · exact .refl
  · rename_i ex hex
    have hset : Heads l { l with exchange := some { ex with clientDone := true } } :=
      .set hex rfl rfl rfl
    dsimp only
    split
    · exact hset.trans heads_finishExchange
    · exact hset

theorem Move.decodes {reads : Prop} (R : l.mux.Reachable) (G : l.Grounded i)
    (V : Move i reads l l') (D : l.Decodes i) : l'.Decodes i := by
  cases V with
  | @call k hk =>
    refine D.call R G ?_
    rintro rfl
    exact hk rfl
  | poll | send | setClass => exact D.call R G (by rintro ⟨⟩)
  | finish =>
    have h := D.call R G (k := .finish i) (by rintro ⟨⟩)
    exact h
  | note | unpiped => exact D.of_heads (.of_eq rfl) fun _ => .inl rfl
  | control hex | refuse hex =>
    refine decodes_of_answered fun ex h => ?_
    have h : l.exchange = some ex := h
    rw [hex] at h
    cases h
  | @opened cls msg compress ex hid F =>
    have L := Watch.call_later R (.open cls)
    exact decodes_opened R hid (Watch.call_later L.reachable (.send i msg compress)).reachable rfl
  | upload hex hdown =>
    have htx := congrArg Exchange.responseTx hdown
    have hup := congrArg Exchange.onUpgrade hdown
    exact D.of_heads (.set hex rfl htx hup) fun _ => .inl rfl
  | @eof piping =>
    refine decodes_pump (D.of_heads ?_ fun _ => .inl rfl)
    intro ex' hex' htx
    obtain ⟨ex, hex, rfl⟩ := Option.map_eq_some_iff.mp hex'
    exact ⟨ex, hex, htx, rfl⟩
  | empty herror =>
    rw [(Watch.recvMsg_error R herror).1]
    exact D
  | @interim ex tx msg head hr hex htx hmsg hdecode hinterim =>
    exact decodes_pump (D.interim R hex (by rw [htx]; rfl) hmsg hdecode hinterim)
  | @badHead ex tx msg text =>
    refine decodes_pump (l := _) (decodes_of_answered ?_)
    rintro _ ⟨⟩
    rfl
  | @head ex tx msg head =>
    refine decodes_pump (decodes_of_answered ?_)
    rintro _ ⟨⟩
    unfold headed
    split <;> rfl
  | body hr hex htx =>
    refine decodes_pump (decodes_of_answered ?_)
    rintro _ ⟨⟩
    exact htx
  | @ignored ex msg hr hex htx =>
    refine decodes_pump (decodes_of_answered fun ex' hex' => ?_)
    have hex' : l.exchange = some ex' := hex'
    rw [hex] at hex'
    cases hex'
    exact htx
  | pump => exact decodes_pump D
  | @forwarded item hitem =>
    refine decodes_pump (D.of_heads ?_ fun _ => .inl rfl)
    intro ex' hex' htx
    obtain ⟨ex, hex, rfl⟩ := Option.map_eq_some_iff.mp hex'
    exact ⟨ex, hex, htx, rfl⟩
  | @finished l' hpoll P =>
    have D' : l'.Decodes i := by
      have h := D.call R G (k := .pollEvent) (by rintro ⟨⟩)
      rcases P with rfl | rfl
      · exact h
      · have R' := (Watch.call_later R .pollEvent)
        exact h.call R'.reachable (fun he => R'.known i (G he)) (k := .finish i) (by rintro ⟨⟩)
    exact D'.of_heads clientFinished_heads fun _ => .inl (by rw [mux_clientFinished])

theorem Path.moored {reads : Prop} (R : l.mux.Reachable) (G : l.Grounded i)
    (H : Path i reads l l') (D : reads → l.Decodes i) (M : Moored i l) : Moored i l' := by
  have hboth : (reads → l'.Decodes i) ∧ Moored i l' := by
    induction H with
    | refl => exact ⟨D, M⟩
    | tail H V ih =>
      have R' := (Path.later R H).reachable
      have G' := Path.grounded R H G
      exact ⟨fun hr => V.decodes R' G' (ih.1 hr), V.moored R' G' ih.1 ih.2⟩
  exact hboth.2

theorem Step.moored {a : RelayAction} (R : l.mux.Reachable) (G : l.Grounded i)
    (S : Step i a l l') (D : a.Reads i l → l.Decodes i) (M : Moored i l) : Moored i l' := by
  cases S with
  | moves H => exact Path.moored R G H D M
  | @network _ _ x w hx hw =>
    have hreset : ∀ code, x ≠ .call (.reset i code) := by
      intro code hcall
      obtain ⟨reason, hclose⟩ := hx _ hcall
      cases hclose
    refine ⟨M.toAfloat.mux ((Watch.face_later R hw).known i) (fun h => h.face R hreset hw) ?_,
      M.moored⟩
    intro e he _
    rwa [Watch.polled_face hx hw] at he
  | reset hpoll P =>
    refine .of_none (exchange_drop ..) fun h => ?_
    rw [forward_drop, P.forward.1] at h
    rw [mux_drop]
    exact (P.later R).known i (M.known h)
  | bodyFailed | pipeFailed =>
    refine .of_none (exchange_drop ..) fun h => ?_
    have h : (l.drop i).forward.isSome = true := h
    rw [forward_drop] at h
    have hknown := (Watch.call_later R (.reset i Proto.ResetCode.cancelled.asU32)).known i
      (M.known h)
    rw [← mux_reset_drop] at hknown
    exact hknown

end

end Lane

namespace Relay

variable {i : StreamId} {r r' : Relay} [Postcard] [HttpTypes] [ThirdParty]

omit [Postcard] [HttpTypes] in
theorem moored_new (cfg : Mux.Config) (now : Mux.Instant) (registry : Registry) :
    Lane.Moored i ((Relay.new (.new cfg now) registry).lane i) := by
  have hnone : (∅ : Map StreamId Exchange).lookup i = none := AList.lookup_empty i
  refine .of_none hnone fun h => ?_
  have h : ((∅ : Map StreamId BodyItem).lookup i).isSome = true := h
  rw [AList.lookup_empty] at h
  cases h

theorem moored_step {a : RelayAction} (F : r.Founded) (U : Readable i r a)
    (M : Lane.Moored i (r.lane i)) (h : r.step a = some r') : Lane.Moored i (r'.lane i) := by
  refine (step_lane F.opensFresh h).moored F.reachable (F.grounded i) ?_ M
  cases a with
  | event closeTx now => exact U
  | forwarded j =>
    rintro rfl ex hex htx
    -- An exchange that waits for its head has nothing on its way.
    have hnone := ((M.exchange ex hex).waiting htx).1
    have hnone : r.forwards.lookup j = none := hnone
    simp only [step, hnone] at h
    cases h
  | _ => rintro ⟨⟩

/-! ## What is pending -/

/-- Everything of the stream has been told to its application. -/
structure Over (r : Relay) (i : StreamId) : Prop where
  founded : r.Founded
  ended : r.mux.Ended i
  moored : Lane.Moored i (r.lane i)

omit [HttpTypes] in
/-- Nothing is read from a stream that is over. -/
theorem Over.readable (O : r.Over i) {a : RelayAction} : Readable i r a := by
  unfold Readable
  split
  · intro _ ex _ _ x hx
    have hlast := (Watch.ended_iff.mp O.ended).2 x hx
    rw [hlast]
    trivial
  · trivial

theorem Over.step (O : r.Over i) {a : RelayAction} (h : r.step a = some r') : r'.Over i :=
  ⟨O.founded.step h,
    ((step_lane (i := i) O.founded.opensFresh h).later O.founded.reachable).ended i O.ended,
    moored_step O.founded O.readable O.moored h⟩

theorem Releases.cons {a : RelayAction} (ha : a.Pending i) (h : r.step a = some r')
    (H : r'.Releases i) : r.Releases i := by
  obtain ⟨actions, r'', hactions, hrun, hnone⟩ := H
  refine ⟨a :: actions, r'', List.forall_mem_cons.mpr ⟨ha, hactions⟩, ?_, hnone⟩
  exact Automaton.run_cons_eq_some.mpr ⟨r', h, hrun⟩

theorem Releases.of_none (h : r.inflight.lookup i = none) : r.Releases i :=
  ⟨[], r, by simp, rfl, h⟩

/-- A stream that is over has nothing to drain. -/
theorem drainInbox_of_ended (E : r.mux.Ended i) : r.drainInbox i = r.pumpDown i := by
  have hmux : (r.pumpDown i).mux = r.mux :=
    (congrArg Lane.mux (lane_pumpDown (r := r) (i := i))).trans (Lane.mux_pump _ i)
  unfold drainInbox
  dsimp only
  rw [hmux, E.inbox]
  rfl

/-- The next item takes the place of the one handed over. -/
theorem Over.forwarded (O : r.Over i) {ex : Exchange} (hex : r.inflight.lookup i = some ex)
    (hbusy : ex.forwarding = true) : ∃ r', r.step (.forwarded i) = some r' ∧
      ∀ ex' ∈ r'.inflight.lookup i, ex'.remaining < ex.remaining := by
  have hforward := ((O.moored.exchange ex hex).forwarding hbusy).1
  obtain ⟨item, hitem⟩ := Option.isSome_iff_exists.mp hforward
  have hitem : r.forwards.lookup i = some item := hitem
  have hremaining : ex.remaining = ex.pendingDown.length + 1 := if_pos hbusy
  have hdrain (r₁ : Relay) (h : r₁.mux = r.mux) : r₁.drainInbox i = r₁.pumpDown i :=
    drainInbox_of_ended (h ▸ O.ended)
  have hstep : r.step (.forwarded i) = some ((({ r with forwards := r.forwards.erase i }.note
      (.delivered i item)).setExchange i { ex with forwarding := false }).drainInbox i) := by
    simp [Relay.step, hitem, Relay.note, hex]
  refine ⟨_, hstep, fun ex' hex' => ?_⟩
  rw [hdrain, ← exchange_lane, lane_pumpDown, lane_setExchange] at hex'
  · rw [hremaining]
    exact Nat.lt_succ_of_le
      (@Lane.remaining_pump i _ { ex with forwarding := false } ex' rfl rfl hex')
  · rfl

/-- A finished response is kept for its pipe only, and goes with it. -/
theorem Over.pipeEof (O : r.Over i) {ex : Exchange} (hex : r.inflight.lookup i = some ex)
    (hidle : ex.forwarding = false) (hdone : ex.clientDone = true) :
    ∃ r', r.step (.pipeEof i) = some r' ∧ r'.inflight.lookup i = none := by
  have M := O.moored.moored ex hex
  obtain ⟨hpiped, heof⟩ := M.settled hidle hdone
  have hpipe : i ∈ r.pipes :=
    List.contains_iff_mem.mp ((O.moored.exchange ex hex).pipe hpiped heof)
  simp only [Relay.step, if_pos hpipe]
  refine ⟨_, rfl, ?_⟩
  have hlookup : ((r.stopPipe i).note (.bodyEnd i)).inflight.lookup i = some ex := hex
  rw [← exchange_lane, lane_pumpDown]
  unfold drainBody
  rw [hlookup]
  dsimp only
  rw [lane_setExchange]
  have hdown := down_drainRequestBody (r := (r.stopPipe i).note (.bodyEnd i)) (i := i)
    { ex with visitorEof := true, bodyDone := true }
  generalize drainRequestBody _ _ _ = x at hdown ⊢
  have hidle' := congrArg Exchange.forwarding hdown
  have hpending := congrArg Exchange.pendingDown hdown
  have hdone' := congrArg Exchange.clientDone hdown
  have heof' := congrArg Exchange.visitorEof hdown
  have hidle' : x.2.forwarding = false := hidle'.trans hidle
  have hpending : x.2.pendingDown = [] := hpending.trans (M.idle hidle)
  have hdone' : x.2.clientDone = true := hdone'.trans hdone
  have heof' : x.2.visitorEof = true := heof'
  simp [Lane.pump, Lane.finishExchange, hidle', hpending, hdone', heof']

/-- A finished exchange is handed over item by item and removed. -/
theorem Over.releases_of_finished (O : r.Over i) (hfin : .finished i ∈ r.mux.node.polled) :
    r.Releases i := by
  generalize hn : ((r.inflight.lookup i).map Exchange.remaining).getD 0 = n
  induction n using Nat.strong_induction_on generalizing r with
  | _ n ih =>
    cases hex : r.inflight.lookup i with
    | none => exact .of_none hex
    | some ex =>
      have hdone : ex.clientDone = true := O.moored.finished hfin ex hex
      cases hidle : ex.forwarding with
      | false =>
        obtain ⟨r', hstep, hnone⟩ := O.pipeEof hex hidle hdone
        exact .cons (a := .pipeEof i) rfl hstep (.of_none hnone)
      | true =>
        obtain ⟨r', hstep, hless⟩ := O.forwarded hex hidle
        have L := (step_lane (i := i) O.founded.opensFresh hstep).later O.founded.reachable
        refine .cons (a := .forwarded i) rfl hstep ?_
        cases hex' : r'.inflight.lookup i with
        | none => exact .of_none hex'
        | some ex' =>
          refine ih ex'.remaining ?_ (O.step hstep) (L.polled.subset hfin) (by rw [hex']; rfl)
          rw [← hn, hex]
          exact hless ex' hex'

theorem event_calls {closeTx : Oneshot} {now : Int}
    (h : r.step (.event closeTx now) = some r') : ∃ ks : List Call,
      r'.mux = ks.foldl Watch.call (r.mux.call .pollEvent) := by
  obtain ⟨ev, hev, rfl⟩ := Option.map_eq_some_iff.mp h
  cases hid : ev.streamId with
  | some j =>
    obtain ⟨ks, -, hmux⟩ := (serves_onEvent (r := { r with mux := r.mux.call .pollEvent }) hid
      closeTx now).calls
    exact ⟨ks, hmux⟩
  | none =>
    refine ⟨[], ?_⟩
    cases ev with
    | authenticated | rejected => rfl
    | closed reason =>
      simp only [onEvent]
      split <;> rfl
    | streamOpened | readable | writable | finished | reset => cases hid

/-- The end of a stream that was told reaches the handler, and the exchange goes. -/
theorem Over.releases (O : r.Over i) {e : Event} (hends : e.Ends i) (before after : List Event)
    (htold : r.mux.told = before ++ e :: after) : r.Releases i := by
  generalize hn : before.length + 1 - r.mux.node.polled.length = n
  induction n using Nat.strong_induction_on generalizing r after with
  | _ n ih =>
    have hsplit : r.mux.node.polled ++ r.mux.node.conn.events = before ++ e :: after := htold
    by_cases hpolled : before.length < r.mux.node.polled.length
    · have hmem : e ∈ r.mux.node.polled := by
        have hat := congrArg (·[before.length]?) hsplit
        rw [List.getElem?_append_left hpolled] at hat
        exact List.mem_of_getElem? (hat.trans (by simp))
      rcases hends with rfl | ⟨code, rfl⟩
      · exact O.releases_of_finished hmem
      · exact .of_none (O.moored.reset ⟨code, hmem⟩)
    · have hevent : ∃ ev, r.mux.node.conn.pollEvent.2 = some ev := by
        unfold Mux.Connection.pollEvent
        cases hevents : r.mux.node.conn.events with
        | cons ev rest => exact ⟨ev, rfl⟩
        | nil =>
          have hlength := congrArg List.length hsplit
          simp [hevents] at hlength
          omega
      obtain ⟨ev, hev⟩ := hevent
      have hstep : r.step (.event 0 0) =
          some ({ r with mux := r.mux.call .pollEvent }.onEvent 0 0 ev) := by
        simp [Relay.step, hev]
      obtain ⟨ks, hks⟩ := event_calls hstep
      have R := (Watch.call_later O.founded.reachable .pollEvent).reachable
      obtain ⟨es, hes⟩ := Watch.told_calls R ks
      refine .cons (a := .event 0 0) trivial hstep
        (ih _ ?_ (O.step hstep) (after ++ es) ?_ rfl)
      · have hprefix := (Watch.later_calls R ks).polled.length_le
        rw [← hks, Watch.polled_pollEvent hev, List.length_append, List.length_singleton] at hprefix
        omega
      · rw [hks, hes, Watch.told_pollEvent, htold]
        simp

/-- Nothing is pending, so nothing removes the exchange. -/
theorem not_releases (hex : (r.inflight.lookup i).isSome = true)
    (hevents : r.mux.node.conn.events = []) (hforward : r.forwards.lookup i = none)
    (hreader : i ∉ r.readers) (hpipe : i ∉ r.pipes) : ¬r.Releases i := by
  rintro ⟨actions, r', hactions, hrun, hnone⟩
  cases actions with
  | nil =>
    cases hrun
    rw [hnone] at hex
    cases hex
  | cons a actions =>
    obtain ⟨r₁, hstep, -⟩ := Automaton.run_cons_eq_some.mp hrun
    have ha := hactions a List.mem_cons_self
    cases a with
    | event => simp [Relay.step, Mux.Connection.pollEvent, hevents] at hstep
    | forwarded j | bodyEnd j | pipeEof j =>
      cases ha
      simp [Relay.step, hforward, hreader, hpipe] at hstep
    | _ => cases ha

/-- Every exchange has its stream, or what is pending removes it, as long as the handler reads no
undecodable head while more may come. -/
theorem held (cfg : Mux.Config) (now : Mux.Instant) (registry : Registry)
    {actions : List RelayAction}
    (hguard : Automaton.Meets step (Readable i) (.new (.new cfg now) registry) actions)
    (h : (Relay.new (.new cfg now) registry).run actions = some r) : r.Held i := by
  obtain ⟨F, M⟩ := Automaton.run_invariant_of_meets
    (I := fun r : Relay => r.Founded ∧ Lane.Moored i (r.lane i))
    (fun hI hg hs => ⟨hI.1.step hs, moored_step hI.1 hg hI.2 hs⟩) hguard
    ⟨founded_new cfg now registry, moored_new cfg now registry⟩ h
  intro hex
  rcases M.accounted hex with htracked | ⟨e, he, hends⟩
  · exact .inl htracked
  · by_cases htracked : (r.mux.node.conn.streams.lookup i).isSome = true
    · exact .inl htracked
    · have hnone := Option.not_isSome_iff_eq_none.mp htracked
      have E : r.mux.Ended i := ⟨F.grounded i hex, fun s hs => by rw [hnone] at hs; cases hs⟩
      obtain ⟨before, after, htold⟩ := List.append_of_mem he
      exact .inr (Over.releases ⟨F, E, M⟩ hends before after htold)

end Relay


namespace Relay.Sample

open Mux.Sample

/-- Both sides are done while the chunk is on its way to the visitor. -/
def finishing : List RelayAction := authenticated ++ answered ++
  [.bodyEnd 2, .transmit, .transmit, .transmit, .recv 0 (Mux.Frame.mk 2 .fin []).encode, .event 0 0]

theorem held_finishing : ∃ r, relay.run finishing = some r ∧
    (r.inflight.lookup 2).isSome = true ∧ r.mux.node.conn.streams.lookup 2 = none ∧ r.Held 2 := by
  have hguard : Automaton.Meets Relay.step (Readable 2) relay finishing := by decide +kernel
  obtain ⟨r, hrun, hkept⟩ := (Option.any_eq_true (fun r : Relay =>
    (r.inflight.lookup 2).isSome && (r.mux.node.conn.streams.lookup 2).isNone)
      (relay.run finishing)).mp (by decide +kernel)
  obtain ⟨hex, hgone⟩ := Bool.and_eq_true_iff.mp hkept
  exact ⟨r, hrun, hex, Option.isNone_iff_eq_none.mp hgone, held setup.server 0 registry hguard hrun⟩

/-- The client answers with a head that does not decode, and the request ends. -/
def leaking : List RelayAction :=
  authenticated ++ visitor false :: message [] ++ [.bodyEnd 2]

theorem leaked_leaking : ∃ r, relay.run leaking = some r ∧ 2 ∉ r.readers ∧ ¬r.Held 2 := by
  obtain ⟨r, hrun, hleak⟩ := (Option.any_eq_true (fun r : Relay =>
    decide ((r.inflight.lookup 2).isSome = true ∧
      (r.mux.node.conn.streams.lookup 2).isSome = false ∧ r.mux.node.conn.events = [] ∧
      (r.forwards.lookup 2).isSome = false ∧ 2 ∉ r.readers ∧ 2 ∉ r.pipes))
    (relay.run leaking)).mp (by decide +kernel)
  obtain ⟨hex, hgone, hevents, hforward, hreader, hpipe⟩ := of_decide_eq_true hleak
  refine ⟨r, hrun, hreader, fun hheld => ?_⟩
  rcases hheld hex with htracked | hreleases
  · rw [hgone] at htracked
    cases htracked
  · have hforward := Option.isNone_iff_eq_none.mp (Option.isSome_eq_false_iff.mp hforward)
    exact not_releases hex hevents hforward hreader hpipe hreleases

end Relay.Sample

end TunnelWeaver.Server
