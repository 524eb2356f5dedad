import TunnelWeaver.Server.Lane

/-! What a visitor gets of a response body (`TunnelResponseBody`): its channel ends once the handler
and the last send have dropped their ends of it, which looks like the end of the body unless an error
came before. -/

namespace TunnelWeaver.Server

open Mux (Bytes Call StreamId ThirdParty Watch)
open Proto (Postcard)

/-- The item handed to the body channel of stream `i`. -/
def Note.deliveredTo (i : StreamId) : Note → Option BodyItem
  | .delivered j item => if j = i then some item else none
  | _ => none

def BodyItem.isError : BodyItem → Bool
  | .error _ => true
  | _ => false

namespace Lane

variable {i : StreamId} {l l' : Lane}

def delivered (l : Lane) (i : StreamId) : List BodyItem := l.log.filterMap (Note.deliveredTo i)

def broken (l : Lane) (i : StreamId) : Bool :=
  (l.delivered i ++ l.forward.toList).any BodyItem.isError

/-- Nothing has been done about a body. -/
structure Untouched (l : Lane) (i : StreamId) : Prop where
  forward : l.forward = none
  delivered : l.delivered i = []
  closed : .bodyClosed i ∉ l.log

theorem Untouched.of_same (U : l.Untouched i) (hforward : l'.forward = l.forward)
    (hlog : l'.delivered i = l.delivered i)
    (hclosed : .bodyClosed i ∈ l'.log → .bodyClosed i ∈ l.log) :
    l'.Untouched i :=
  ⟨hforward.trans U.forward, hlog.trans U.delivered, fun h => U.closed (hclosed h)⟩

theorem delivered_note {n : Note} (hn : n.deliveredTo i = none) :
    (l.note n).delivered i = l.delivered i := by
  simp [delivered, note, List.filterMap_append, hn]

theorem mem_note_closed {n : Note} (hn : n ≠ .bodyClosed i) :
    .bodyClosed i ∈ (l.note n).log → .bodyClosed i ∈ l.log := by
  intro h
  rcases List.mem_append.mp h with h | h
  · exact h
  · exact absurd (List.mem_singleton.mp h).symm hn

theorem delivered_closing (ex : Exchange) :
    ({ l with log := l.log ++ ex.closing i } : Lane).delivered i = l.delivered i := by
  unfold Exchange.closing
  split
  · exact delivered_note (n := .bodyClosed i) rfl
  · rw [List.append_nil]

theorem mem_closing {ex : Exchange} (h : .bodyClosed i ∈ l.log ++ ex.closing i) :
    .bodyClosed i ∈ l.log ∨ ex.bodyTx = true := by
  rcases List.mem_append.mp h with h | h
  · exact .inl h
  · unfold Exchange.closing at h
    split at h
    · exact .inr ‹_›
    · cases h

end Lane

section
variable [Postcard] [HttpTypes]

/-- A message that is read as an interim head. -/
def InterimHead (upgrade : Bool) (msg : Bytes) : Prop :=
  ∃ head, Postcard.responseHead.decode msg = .ok head ∧ Relay.isInterim upgrade head = true

/-- The messages up to the final head. -/
structure ResponseHeads (upgrade : Bool) (interim : List Bytes) (final : Bytes) : Prop where
  interim : ∀ msg ∈ interim, InterimHead upgrade msg
  final : ∃ head, Postcard.responseHead.decode final = .ok head ∧
    Relay.isInterim upgrade head = false

namespace Relay

/-- What the visitor's body channel got so far. -/
def delivered (r : Relay) (i : StreamId) : List BodyItem := r.log.filterMap (Note.deliveredTo i)

/-- The body channel of the visitor is at its end. -/
structure BodyOver (r : Relay) (i : StreamId) : Prop where
  closed : .bodyClosed i ∈ r.log
  sent : r.forwards.lookup i = none

/-- The client finished the stream, and each of its messages after the heads was delivered. -/
structure Whole (r : Relay) (i : StreamId) : Prop where
  finished : .finished i ∈ r.mux.node.polled
  delivered : ∃ upgrade interim final body, ResponseHeads upgrade interim final ∧
    r.mux.node.taken i = interim ++ final :: body ∧ r.delivered i = body.map bodyItem

/-- A body that ends without an error is whole. -/
def Untruncated (r : Relay) (i : StreamId) : Prop :=
  r.BodyOver i → (∀ item ∈ r.delivered i, item.isError = false) → r.Whole i

/-- The visitor gets an error, or nothing of the body is left to deliver. -/
def Spent (r : Relay) (i : StreamId) : Prop :=
  ∀ ex ∈ r.inflight.lookup i, ex.bodyTx = true →
    (r.delivered i ++ (r.forwards.lookup i).toList).any BodyItem.isError = true ∨
      ex.clientDone = true ∧ ex.pendingDown = []

/-- An exchange that is cut off, by a reset or by the visitor, does not feed a body any more. -/
def Uncut [ThirdParty] (i : StreamId) (r : Relay) : RelayAction → Prop
  | .event .. =>
    (r.mux.node.conn.pollEvent.2.any fun ev => ev.isReset && ev.streamId = some i) = true →
    r.Spent i
  | .bodyFailed j | .pipeFailed j => j = i → r.Spent i
  | _ => True

instance (r : Relay) (i : StreamId) : Decidable (r.Spent i) := by
  unfold Spent; infer_instance

instance [ThirdParty] (i : StreamId) (r : Relay) : (a : RelayAction) → Decidable (Uncut i r a)
  | .event .. => inferInstanceAs (Decidable (_ = true → r.Spent i))
  | .bodyFailed j | .pipeFailed j => inferInstanceAs (Decidable (j = i → r.Spent i))
  | .recv .. | .timeout .. | .transmit | .close .. | .visitor .. | .resume .. | .registered ..
  | .revoke .. | .revoked .. | .certState .. | .bodyFrame .. | .bodyEnd .. | .pipeFrame ..
  | .pipeEof .. | .forwarded .. | .elsewhere .. => isTrue trivial

end Relay

/-! ## What has been read and what has been delivered -/

namespace Lane

variable {i : StreamId} {l l' : Lane} {ex ex' : Exchange}

/-- The messages after the heads are delivered, on their way, or waiting. -/
def Served (l : Lane) (i : StreamId) (waiting : List BodyItem) : Prop :=
  ∃ upgrade interim final body, ResponseHeads upgrade interim final ∧
    l.mux.node.taken i = interim ++ final :: body ∧
    l.delivered i ++ l.forward.toList ++ waiting = body.map Relay.bodyItem

structure Carried (i : StreamId) (l : Lane) : Prop where
  dormant : ¬l.mux.Known i → l.Untouched i
  waiting : ∀ ex, l.exchange = some ex → ex.responseTx.isSome = true → l.Untouched i ∧
    ex.bodyTx = false ∧ ex.pendingDown = [] ∧
    ∀ msg ∈ l.mux.node.taken i, InterimHead ex.onUpgrade msg
  forwarding : ∀ ex, l.exchange = some ex → ex.forwarding = false → l.forward = none
  feeding : ∀ ex, l.exchange = some ex → ex.bodyTx = true → .bodyClosed i ∉ l.log ∧
    l.Served i ex.pendingDown
  done : ∀ ex, l.exchange = some ex → ex.clientDone = true → .finished i ∈ l.mux.node.polled
  closed : .bodyClosed i ∈ l.log → l.broken i = true ∨
    .finished i ∈ l.mux.node.polled ∧ l.Served i []

theorem Served.of_same {waiting : List BodyItem} (S : l.Served i waiting)
    (htaken : l'.mux.node.taken i = l.mux.node.taken i)
    (hitems : l'.delivered i ++ l'.forward.toList = l.delivered i ++ l.forward.toList) :
    l'.Served i waiting := by
  obtain ⟨upgrade, interim, final, body, hheads, hbody, hserved⟩ := S
  exact ⟨upgrade, interim, final, body, hheads, htaken.trans hbody, by rw [hitems, hserved]⟩

/-- An exchange goes on, its body as before. -/
theorem Carried.setExchange (C : Carried i l) (hex : l.exchange = some ex)
    (htx : ex'.responseTx = ex.responseTx) (hupgrade : ex'.onUpgrade = ex.onUpgrade)
    (hbody : ex'.bodyTx = ex.bodyTx) (hpending : ex'.pendingDown = ex.pendingDown)
    (hforwarding : ex'.forwarding = ex.forwarding)
    (hdone : ex'.clientDone = true → .finished i ∈ l.mux.node.polled) :
    Carried i { l with exchange := some ex' } := by
  refine ⟨fun hk => (C.dormant hk).of_same rfl rfl id, ?_, ?_, ?_, ?_, C.closed⟩
  · rintro _ ⟨⟩ h
    obtain ⟨U, hrest⟩ := C.waiting ex hex (htx ▸ h)
    rw [hbody, hpending, hupgrade]
    exact ⟨U.of_same rfl rfl id, hrest⟩
  · rintro _ ⟨⟩ h
    exact C.forwarding ex hex (hforwarding ▸ h)
  · rintro _ ⟨⟩ h
    rw [hpending]
    exact C.feeding ex hex (hbody ▸ h)
  · rintro _ ⟨⟩ h
    exact hdone h

/-- The channel of a body may end once an error was delivered, or everything was. -/
theorem Carried.close (C : Carried i l) (hknown : l.mux.Known i) (hex : l.exchange = some ex)
    (hspent : ex.bodyTx = true → l.broken i = true ∨ ex.clientDone = true ∧ ex.pendingDown = [])
    {e : Option Exchange} (he : ∀ ex' ∈ e, ex' = { ex with bodyTx := false }) :
    Carried i { l with exchange := e, log := l.log ++ ex.closing i } := by
  have hdelivered : ({ l with exchange := e, log := l.log ++ ex.closing i } : Lane).delivered i =
      l.delivered i := delivered_closing ex
  refine ⟨fun hk => absurd hknown hk, fun ex' hex' htx => ?_, fun ex' hex' hf => ?_,
    fun ex' hex' hb => ?_, fun ex' hex' hd => ?_, fun h => ?_⟩
  · cases he ex' hex'
    obtain ⟨U, hbody, hrest⟩ := C.waiting ex hex htx
    refine ⟨U.of_same rfl hdelivered fun h => ?_, rfl, hrest⟩
    rcases mem_closing h with h | h
    · exact h
    · rw [hbody] at h
      cases h
  · cases he ex' hex'
    exact C.forwarding ex hex hf
  · cases he ex' hex'
    cases hb
  · cases he ex' hex'
    exact C.done ex hex hd
  · have hclosed : l.broken i = true ∨ .finished i ∈ l.mux.node.polled ∧ l.Served i [] := by
      rcases mem_closing h with h | hbody
      · exact C.closed h
      · rcases hspent hbody with hb | ⟨hdone, hpending⟩
        · exact .inl hb
        · exact .inr ⟨C.done ex hex hdone, hpending ▸ (C.feeding ex hex hbody).2⟩
    rcases hclosed with hb | ⟨hfin, hserved⟩
    · rw [broken, ← hdelivered] at hb
      exact .inl hb
    · refine .inr ⟨hfin, hserved.of_same rfl ?_⟩
      rw [hdelivered]

theorem Carried.finishExchange (C : Carried i l) (hknown : l.mux.Known i)
    (hex : l.exchange = some ex) (hdone : ex.clientDone = true) (hpending : ex.pendingDown = []) :
    Carried i (l.finishExchange i) := by
  unfold Lane.finishExchange
  rw [hex]
  dsimp only
  split
  · apply C.close hknown hex fun _ => .inr ⟨hdone, hpending⟩
    rintro _ ⟨⟩
    rfl
  · apply C.close hknown hex fun _ => .inr ⟨hdone, hpending⟩
    rintro _ ⟨⟩

theorem Carried.clientFinished (C : Carried i l) (G : l.Grounded i)
    (hfin : .finished i ∈ l.mux.node.polled) : Carried i (l.clientFinished i) := by
  cases hex : l.exchange with
  | none =>
    unfold Lane.clientFinished
    rwa [hex]
  | some ex =>
    have hknown : l.mux.Known i := G (by rw [hex]; rfl)
    have C' : Carried i { l with exchange := some { ex with clientDone := true } } :=
      C.setExchange hex rfl rfl rfl rfl rfl fun _ => hfin
    unfold Lane.clientFinished
    rw [hex]
    dsimp only
    split
    · rename_i hidle
      have hpending := (Bool.and_eq_true_iff.mp hidle).2
      exact C'.finishExchange hknown rfl rfl (List.isEmpty_iff.mp hpending)
    · exact C'

/-- The first item that waits goes on its way. -/
theorem Carried.feed (C : Carried i l) (hex : l.exchange = some ex) (hbody : ex.bodyTx = true)
    (hidle : ex.forwarding = false) {item : BodyItem} {rest : List BodyItem}
    (hpending : ex.pendingDown = item :: rest) (hknown : l.mux.Known i)
    (htx : ex'.responseTx = ex.responseTx) (hrest : ex'.pendingDown = rest)
    (hforwarding : ex'.forwarding = true) (hdone : ex'.clientDone = ex.clientDone) :
    Carried i { l with forward := some item, exchange := some ex' } := by
  obtain ⟨hnot, upgrade, interim, final, body, hheads, htaken, hserved⟩ := C.feeding ex hex hbody
  have hforward := C.forwarding ex hex hidle
  refine ⟨fun hk => absurd hknown hk, ?_, ?_, ?_, ?_, fun h => absurd h hnot⟩
  · rintro _ ⟨⟩ h
    obtain ⟨-, hb, -⟩ := C.waiting ex hex (htx ▸ h)
    rw [hbody] at hb
    cases hb
  · rintro _ ⟨⟩ h
    rw [hforwarding] at h
    cases h
  · rintro _ ⟨⟩ -
    refine ⟨hnot, upgrade, interim, final, body, hheads, htaken, ?_⟩
    rw [hrest, ← hserved, hforward, hpending]
    simp [delivered]
  · rintro _ ⟨⟩ h
    exact C.done ex hex (hdone ▸ h)

theorem Carried.pump (C : Carried i l) (G : l.Grounded i) : Carried i (l.pump i) := by
  cases hex : l.exchange with
  | none =>
    unfold Lane.pump
    rwa [hex]
  | some ex =>
    have hknown : l.mux.Known i := G (by rw [hex]; rfl)
    unfold Lane.pump
    rw [hex]
    dsimp only
    split
    · exact C
    · rename_i hidle
      have hidle := Bool.eq_false_iff.mpr hidle
      cases hpending : ex.pendingDown with
      | cons item rest =>
        dsimp only
        split
        · rename_i hbody
          exact C.feed hex hbody hidle hpending hknown rfl rfl rfl rfl
        · rename_i hbody
          refine ⟨fun hk => absurd hknown hk, ?_, ?_, ?_, ?_, C.closed⟩
          · rintro _ ⟨⟩ h
            obtain ⟨-, -, hnil, -⟩ := C.waiting ex hex h
            rw [hpending] at hnil
            cases hnil
          · rintro _ ⟨⟩ h
            exact C.forwarding ex hex h
          · rintro _ ⟨⟩ h
            exact absurd h hbody
          · rintro _ ⟨⟩ h
            exact C.done ex hex h
      | nil =>
        dsimp only
        split
        · rename_i hdone
          exact C.finishExchange hknown hex hdone hpending
        · exact C

theorem Carried.drop (C : Carried i l) (G : l.Grounded i)
    (hspent : ∀ ex ∈ l.exchange, ex.bodyTx = true →
      l.broken i = true ∨ ex.clientDone = true ∧ ex.pendingDown = []) : Carried i (l.drop i) := by
  cases hex : l.exchange with
  | none =>
    unfold Lane.drop
    rwa [hex]
  | some ex =>
    unfold Lane.drop
    rw [hex]
    exact C.close (G (by rw [hex]; rfl)) hex (hspent ex hex) (by rintro _ ⟨⟩)

section
variable [ThirdParty]

omit [Postcard] [HttpTypes] in
theorem Polled.broken (P : l.Polled i l') : l'.broken i = l.broken i := by
  rcases P with rfl | rfl
  · rfl
  · have hlog : ({ l with mux := l.mux.call .pollEvent }.finish i).delivered i = l.delivered i :=
      delivered_note rfl
    exact congrArg (fun items => (items ++ l.forward.toList).any BodyItem.isError) hlog

/-- The parts the body depends on stay, while the connection goes on. -/
theorem Carried.of_same (C : Carried i l) (L : Watch.Later l.mux l'.mux)
    (htaken : l'.mux.node.taken i = l.mux.node.taken i) (hexchange : l'.exchange = l.exchange)
    (hforward : l'.forward = l.forward) (hlog : l'.delivered i = l.delivered i)
    (hclosed : .bodyClosed i ∈ l'.log → .bodyClosed i ∈ l.log) : Carried i l' := by
  have hitems : l'.delivered i ++ l'.forward.toList = l.delivered i ++ l.forward.toList := by
    rw [hlog, hforward]
  have hpolled {ev : Mux.Event} (h : ev ∈ l.mux.node.polled) : ev ∈ l'.mux.node.polled :=
    L.polled.subset h
  refine ⟨fun hk => ?_, fun ex hex htx => ?_, fun ex hex hf => ?_, fun ex hex hb => ?_,
    fun ex hex hd => ?_, fun h => ?_⟩
  · exact (C.dormant fun h => hk (L.known i h)).of_same hforward hlog hclosed
  · obtain ⟨U, hrest⟩ := C.waiting ex (hexchange ▸ hex) htx
    exact ⟨U.of_same hforward hlog hclosed, htaken ▸ hrest⟩
  · exact hforward.trans (C.forwarding ex (hexchange ▸ hex) hf)
  · obtain ⟨hnot, hserved⟩ := C.feeding ex (hexchange ▸ hex) hb
    exact ⟨fun h => hnot (hclosed h), hserved.of_same htaken hitems⟩
  · exact hpolled (C.done ex (hexchange ▸ hex) hd)
  · rcases C.closed (hclosed h) with hb | ⟨hfin, hserved⟩
    · rw [broken, ← hitems] at hb
      exact .inl hb
    · exact .inr ⟨hpolled hfin, hserved.of_same htaken hitems⟩

theorem Carried.call (C : Carried i l) (R : l.mux.Reachable) {k : Call} (hk : k ≠ .recvMsg i) :
    Carried i { l with mux := l.mux.call k } :=
  C.of_same (Watch.call_later R k) (Watch.taken_call hk) rfl rfl rfl id

theorem Carried.note (C : Carried i l) (R : l.mux.Reachable) {n : Note}
    (hn : n.deliveredTo i = none) (hclosed : n ≠ .bodyClosed i) : Carried i (l.note n) :=
  C.of_same (.refl R) rfl rfl rfl (delivered_note hn) (mem_note_closed hclosed)

theorem Carried.finish (C : Carried i l) (R : l.mux.Reachable) : Carried i (l.finish i) :=
  (C.call R (k := .finish i) (by rintro ⟨⟩)).note (Watch.call_later R _).reachable rfl
    (by rintro ⟨⟩)

theorem Carried.reset (C : Carried i l) (R : l.mux.Reachable) : Carried i (l.reset i) :=
  (C.call R (k := .reset i _) (by rintro ⟨⟩)).note (Watch.call_later R _).reachable rfl
    (by rintro ⟨⟩)

theorem Carried.polled (C : Carried i l) (R : l.mux.Reachable) (P : l.Polled i l') :
    Carried i l' := by
  have C' := C.call R (k := .pollEvent) (by rintro ⟨⟩)
  rcases P with rfl | rfl
  · exact C'
  · exact C'.finish (Watch.call_later R _).reachable

/-- A message read for nobody: no body is fed with it, and none ended that was not over. -/
theorem Carried.skip (C : Carried i l) (R : l.mux.Reachable)
    (hex : ∀ ex, l.exchange = some ex → ex.responseTx = none ∧ ex.bodyTx = false) :
    Carried i { l with mux := l.mux.call (.recvMsg i) } := by
  have L := Watch.call_later R (.recvMsg i)
  refine ⟨fun hk => ?_, fun ex hexchange htx => ?_, C.forwarding, fun ex hexchange hb => ?_,
    fun ex hexchange hd => L.polled.subset (C.done ex hexchange hd), fun h => ?_⟩
  · exact (C.dormant fun h => hk (L.known i h)).of_same rfl rfl id
  · rw [(hex ex hexchange).1] at htx
    cases htx
  · rw [(hex ex hexchange).2] at hb
    cases hb
  · rcases C.closed h with hb | ⟨hfin, hserved⟩
    · exact .inl hb
    · refine .inr ⟨L.polled.subset hfin, hserved.of_same ?_ rfl⟩
      rw [((R.ended_of_polled hfin).recvMsg R).2]

/-- The next message read for the visitor, while its body has not ended. -/
theorem Carried.read (C : Carried i l) (R : l.mux.Reachable) (G : l.Grounded i) (ex' : Exchange)
    (hex : l.exchange = some ex) (hopen : .bodyClosed i ∉ l.log)
    (hwaiting : ex'.responseTx.isSome = true → l.Untouched i ∧ ex'.bodyTx = false ∧
      ex'.pendingDown = [] ∧
        ∀ msg ∈ (l.mux.call (.recvMsg i)).node.taken i, InterimHead ex'.onUpgrade msg)
    (hforwarding : ex'.forwarding = ex.forwarding) (hdone : ex'.clientDone = ex.clientDone)
    (hfeeding : ex'.bodyTx = true →
      ({ l with mux := l.mux.call (.recvMsg i) } : Lane).Served i ex'.pendingDown)
    (piping : Bool) :
    Carried i { l with mux := l.mux.call (.recvMsg i), piping, exchange := some ex' } := by
  have L := Watch.call_later R (.recvMsg i)
  have hknown : l.mux.Known i := G (by rw [hex]; rfl)
  refine ⟨fun hk => absurd (L.known i hknown) hk, ?_, ?_, ?_, ?_, fun h => absurd h hopen⟩
  · rintro _ ⟨⟩ h
    obtain ⟨U, hrest⟩ := hwaiting h
    exact ⟨U.of_same rfl rfl id, hrest⟩
  · rintro _ ⟨⟩ h
    exact C.forwarding ex hex (hforwarding ▸ h)
  · rintro _ ⟨⟩ h
    exact ⟨hopen, hfeeding h⟩
  · rintro _ ⟨⟩ h
    exact L.polled.subset (C.done ex hex (hdone ▸ h))

omit [ThirdParty] in
/-- The visitor's channel took the item that was on its way. -/
theorem Carried.forwarded (C : Carried i l) {item : BodyItem} (hitem : l.forward = some item) :
    Carried i ({ l with
      forward := none
      exchange := l.exchange.map fun ex : Exchange => { ex with forwarding := false } }.note
        (.delivered i item)) := by
  have hitems : (({ l with
      forward := none
      exchange := l.exchange.map fun ex : Exchange => { ex with forwarding := false } }.note
        (.delivered i item)).delivered i ++ (none : Option BodyItem).toList) =
      l.delivered i ++ l.forward.toList := by
    simp [delivered, Lane.note, List.filterMap_append, Note.deliveredTo, hitem]
  have hclosed : .bodyClosed i ∈ l.log ++ [Note.delivered i item] → .bodyClosed i ∈ l.log :=
    mem_note_closed (n := .delivered i item) (by rintro ⟨⟩)
  have hnot (U : l.Untouched i) : False := by
    have h := U.forward
    rw [hitem] at h
    cases h
  refine ⟨fun hk => (hnot (C.dormant hk)).elim, fun ex' hex' htx => ?_, fun _ _ _ => rfl,
    fun ex' hex' hb => ?_, fun ex' hex' hd => ?_, fun h => ?_⟩
  · obtain ⟨ex, hex, rfl⟩ := Option.map_eq_some_iff.mp hex'
    exact (hnot (C.waiting ex hex htx).1).elim
  · obtain ⟨ex, hex, rfl⟩ := Option.map_eq_some_iff.mp hex'
    obtain ⟨hopen, hserved⟩ := C.feeding ex hex hb
    exact ⟨fun h => hopen (hclosed h), hserved.of_same rfl hitems⟩
  · obtain ⟨ex, hex, rfl⟩ := Option.map_eq_some_iff.mp hex'
    exact C.done ex hex hd
  · rcases C.closed (hclosed h) with hb | ⟨hfin, hserved⟩
    · rw [broken, ← hitems] at hb
      exact .inl hb
    · exact .inr ⟨hfin, hserved.of_same rfl hitems⟩

theorem Carried.opened (C : Carried i l) (R : l.mux.Reachable) {cls : Mux.Class}
    (hid : (l.mux.node.conn.open cls).2 = .ok i) (F : Fresh ex) (msg : Bytes)
    (compress : Mux.Compress) : Carried i ({ l with
      mux := (l.mux.call (.open cls)).call (.send i msg compress)
      exchange := some ex }.note (.opened i)) := by
  have U := C.dormant (R.not_known_of_open hid)
  have L := Watch.call_later R (.open cls)
  have L' := L.trans (Watch.call_later L.reachable (.send i msg compress))
  have htaken : ((l.mux.call (.open cls)).call (.send i msg compress)).node.taken i = [] := by
    rw [Watch.taken_call (by rintro ⟨⟩), Watch.taken_call (by rintro ⟨⟩)]
    exact R.taken_of_not_known (R.not_known_of_open hid)
  have U' : ({ l with
      mux := (l.mux.call (.open cls)).call (.send i msg compress)
      exchange := some ex }.note (.opened i)).Untouched i :=
    U.of_same rfl (delivered_note (n := .opened i) rfl) (mem_note_closed (by rintro ⟨⟩))
  refine ⟨fun _ => U', ?_, fun _ _ _ => U.forward, ?_, ?_, fun h => absurd h U'.closed⟩
  · rintro _ ⟨⟩ -
    refine ⟨U', F.bodyTx, F.pendingDown, fun read hread => ?_⟩
    have hread : read ∈ ((l.mux.call (.open cls)).call (.send i msg compress)).node.taken i := hread
    rw [htaken] at hread
    cases hread
  · rintro _ ⟨⟩ h
    rw [F.bodyTx] at h
    cases h
  · rintro _ ⟨⟩ h
    rw [F.clientDone] at h
    cases h

theorem Move.carried {reads : Prop} (R : l.mux.Reachable) (G : l.Grounded i) (M : Move i reads l l')
    (C : Carried i l) : Carried i l' := by
  have hgrounded {l₁ : Lane} (hknown : l.mux.Known i)
      (hmux : Watch.Later l.mux l₁.mux) : l₁.Grounded i := fun _ => hmux.known i hknown
  have hrecv := Watch.call_later R (.recvMsg i)
  have hnext {msg : Bytes} (h : (l.mux.node.conn.recvMsg i).2 = .ok msg) :
      (l.mux.call (.recvMsg i)).node.taken i = l.mux.node.taken i ++ [msg] := by
    obtain ⟨-, -, -, -, htaken⟩ := Watch.recvMsg_ok R h
    exact htaken
  cases M with
  | @call k hk =>
    refine C.call R ?_
    rintro rfl
    exact hk rfl
  | poll | send | setClass => exact C.call R (by rintro ⟨⟩)
  | finish => exact C.finish R
  | note hn hprogress =>
    rename_i n
    cases n with
    | read | sent | unsent | bodyEnd | registered => exact C.note R rfl (by rintro ⟨⟩)
    | _ => cases hprogress
  | control hex =>
    refine C.skip R fun ex h => ?_
    rw [hex] at h
    cases h
  | refuse => exact C.reset R
  | opened hid F => exact C.opened R hid F _ _
  | upload hex hdown =>
    exact C.setExchange hex (congrArg (·.responseTx) hdown) (congrArg (·.onUpgrade) hdown)
      (congrArg (·.bodyTx) hdown) (congrArg (·.pendingDown) hdown) (congrArg (·.forwarding) hdown)
      fun h => C.done _ hex ((congrArg (·.clientDone) hdown).symm.trans h)
  | eof =>
    rename_i piping
    cases hex : l.exchange with
    | none =>
      have C' : Carried i { l with piping } := C.of_same (.refl R) rfl rfl rfl rfl id
      have hlane : ({ l with piping, exchange := (none : Option Exchange).map fun ex : Exchange =>
          { ex with visitorEof := true } } : Lane) = { l with piping } := by
        rw [Option.map_none, ← hex]
      rw [hlane]
      exact C'.pump G
    | some ex =>
      have C' : Carried i { l with exchange := some { ex with visitorEof := true } } :=
        C.setExchange hex rfl rfl rfl rfl rfl (C.done ex hex)
      refine Carried.pump (C'.of_same (.refl R) rfl rfl rfl rfl id) ?_
      exact hgrounded (G (by rw [hex]; rfl)) (.refl R)
  | unpiped => exact C.of_same (.refl R) rfl rfl rfl rfl id
  | empty herror =>
    rw [(Watch.recvMsg_error R herror).1]
    exact C
  | interim hr hex htx hmsg hdecode hinterim =>
    rename_i ex tx msg head
    obtain ⟨U, hbody, hpending, hheads⟩ := C.waiting ex hex (by rw [htx]; rfl)
    have C' := C.read R G ex hex U.closed (fun _ => ⟨U, hbody, hpending, fun m hm => by
        rw [hnext hmsg] at hm
        rcases List.mem_append.mp hm with hm | hm
        · exact hheads m hm
        · cases List.mem_singleton.mp hm
          exact ⟨head, hdecode, hinterim⟩⟩) rfl rfl (fun h => by rw [hbody] at h; cases h) l.piping
    rw [← hex] at C'
    exact C'.pump (hgrounded (G (by rw [hex]; rfl)) hrecv)
  | badHead hr hex htx hmsg hdecode =>
    rename_i ex tx msg text
    obtain ⟨U, hbody, -⟩ := C.waiting ex hex (by rw [htx]; rfl)
    have C' := C.read R G { ex with responseTx := none } hex U.closed
      (by rintro ⟨⟩) rfl rfl (fun h => by rw [hbody] at h; cases h) l.piping
    exact (C'.reset hrecv.reachable).pump (hgrounded (G (by rw [hex]; rfl))
      (hrecv.trans (Watch.call_later hrecv.reachable _)))
  | head hr hex htx hmsg hdecode hfinal =>
    rename_i ex tx msg head
    obtain ⟨U, hbody, hpending, hheads⟩ := C.waiting ex hex (by rw [htx]; rfl)
    have hitems : l.delivered i ++ l.forward.toList ++ ex.pendingDown = [] := by
      rw [U.delivered, U.forward, hpending]
      rfl
    have hserved : ({ l with mux := l.mux.call (.recvMsg i) } : Lane).Served i ex.pendingDown :=
      ⟨ex.onUpgrade, _, msg, [], ⟨hheads, head, hdecode, hfinal⟩, hnext hmsg, hitems⟩
    have C' := C.read R G (headed ex (head.status == 101 && ex.onUpgrade)) hex U.closed
      (fun h => by unfold headed at h; split at h <;> cases h)
      (by unfold headed; split <;> rfl) (by unfold headed; split <;> rfl)
      (fun _ => by unfold headed; split <;> exact hserved) (l.piping ||
        (head.status == 101 && ex.onUpgrade))
    exact C'.pump (hgrounded (G (by rw [hex]; rfl)) hrecv)
  | body hr hex htx hbody hmsg =>
    rename_i ex msg
    obtain ⟨hopen, upgrade, interim, final, body, hheads, htaken, hserved⟩ := C.feeding ex hex hbody
    have hserved' : ({ l with mux := l.mux.call (.recvMsg i) } : Lane).Served i
        (queued ex (Relay.bodyItem msg)).pendingDown := by
      refine ⟨upgrade, interim, final, body ++ [msg], hheads, ?_, ?_⟩
      · rw [hnext hmsg, htaken]
        simp
      · rw [List.map_append, ← hserved]
        simp [queued, delivered]
    have C' := C.read R G (queued ex (Relay.bodyItem msg)) hex hopen
      (fun h => by
        have h : ex.responseTx.isSome = true := h
        rw [htx] at h
        cases h) rfl rfl (fun _ => hserved') l.piping
    exact C'.pump (hgrounded (G (by rw [hex]; rfl)) hrecv)
  | ignored hr hex htx hbody hmsg =>
    rename_i ex msg
    have C' := C.skip R fun ex' hex' => by
      rw [hex] at hex'
      cases hex'
      exact ⟨htx, hbody⟩
    exact C'.pump (hgrounded (G (by rw [hex]; rfl)) hrecv)
  | pump => exact C.pump G
  | forwarded hitem =>
    refine (C.forwarded hitem).pump fun h => G ?_
    exact Option.isSome_map.symm.trans h
  | finished hpoll P =>
    have G' : Lane.Grounded _ i := fun h => (P.later R).known i (G (P.exchange ▸ h))
    exact (C.polled R P).clientFinished G' (P.told R hpoll)

theorem Path.carried {reads : Prop} (R : l.mux.Reachable) (G : l.Grounded i) (H : Path i reads l l')
    (C : Carried i l) : Carried i l' := by
  induction H with
  | refl => exact C
  | tail H M ih => exact M.carried (Path.later R H).reachable (Path.grounded R H G) ih

end

end Lane

namespace Relay

variable {i : StreamId} {r r' : Relay}

omit [Postcard] [HttpTypes] in
theorem delivered_lane : (r.lane i).delivered i = r.delivered i := by
  unfold Lane.delivered delivered lane
  rw [List.filterMap_filter]
  congr 1
  funext n
  cases n with
  | delivered j item =>
    by_cases hj : j = i <;> simp [Note.deliveredTo, Note.streamId, hj]
  | _ => simp [Note.deliveredTo]

omit [Postcard] [HttpTypes] in
theorem closed_lane (h : .bodyClosed i ∈ r.log) : .bodyClosed i ∈ (r.lane i).log :=
  List.mem_filter.mpr ⟨h, by simp [Note.streamId]⟩

variable [ThirdParty]

theorem carried_new (cfg : Mux.Config) (now : Mux.Instant) (registry : Registry) :
    Lane.Carried i ((Relay.new (.new cfg now) registry).lane i) := by
  have hnone {ex : Exchange} (h : ((∅ : Map StreamId Exchange).lookup i) = some ex) : False := by
    rw [AList.lookup_empty] at h
    cases h
  have hforward : (∅ : Map StreamId BodyItem).lookup i = none := AList.lookup_empty i
  have hlog (h : Note.bodyClosed i ∈ ([] : List Note)) : False := by cases h
  exact ⟨fun _ => ⟨hforward, rfl, hlog⟩, fun _ h => (hnone h).elim,
    fun _ h => (hnone h).elim, fun _ h => (hnone h).elim, fun _ h => (hnone h).elim,
    fun h => (hlog h).elim⟩

omit [Postcard] [HttpTypes] [ThirdParty] in
/-- What cutting an exchange off takes, as its stream sees it. -/
theorem Spent.lane (S : r.Spent i) : ∀ ex ∈ (r.lane i).exchange, ex.bodyTx = true →
    (r.lane i).broken i = true ∨ ex.clientDone = true ∧ ex.pendingDown = [] := by
  unfold Lane.broken
  rw [delivered_lane]
  exact S

theorem carried_step {a : RelayAction} {l : Lane} (F : r.Founded) (U : Uncut i r a)
    (C : Lane.Carried i (r.lane i)) (S : Lane.Step i a (r.lane i) l) : Lane.Carried i l := by
  have R := F.reachable
  have G := F.grounded i
  cases S with
  | moves H => exact Lane.Path.carried R G H C
  | network hx hw =>
    exact C.of_same (Watch.face_later R hw) (Watch.taken_face hx hw) rfl rfl rfl id
  | @reset _ _ code _ l' hpoll P =>
    have hspent := (U (by
      have hpoll : r.mux.node.conn.pollEvent.2 = some (.reset i code) := hpoll
      rw [hpoll]
      simp [Mux.Event.isReset, Mux.Event.streamId])).lane
    have hitems : l'.broken i = (r.lane i).broken i := P.broken
    have G' : l'.Grounded i := fun h => (P.later R).known i (G (P.exchange ▸ h))
    refine (C.polled R P).drop G' fun ex hex => ?_
    rw [P.exchange] at hex
    rw [hitems]
    exact hspent ex hex
  | bodyFailed => exact (C.drop G (U rfl).lane).reset (by rw [Lane.mux_drop]; exact R)
  | @pipeFailed _ piping =>
    have C' := (C.drop G (U rfl).lane).reset (by rw [Lane.mux_drop]; exact R)
    exact C'.of_same (.refl (Lane.mux_reset_drop _ i ▸ (Watch.call_later R _).reachable)) rfl rfl
      rfl rfl id

/-- The end of a response body tells the visitor that it is whole, or an error came before it, as
long as no exchange is cut off that still feeds one. -/
theorem untruncated (cfg : Mux.Config) (now : Mux.Instant) (registry : Registry)
    {actions : List RelayAction}
    (hguard : Automaton.Meets step (Uncut i) (.new (.new cfg now) registry) actions)
    (h : (Relay.new (.new cfg now) registry).run actions = some r) : r.Untruncated i := by
  obtain ⟨-, C⟩ := run_lane carried_step (founded_new cfg now registry) hguard
    (carried_new cfg now registry) h
  intro O hclean
  rcases C.closed (closed_lane O.closed) with hb | ⟨hfin, upgrade, interim, final, body, hserved⟩
  · obtain ⟨item, hitem, herror⟩ := List.any_eq_true.mp hb
    have hforward : (r.lane i).forward = none := O.sent
    rw [hforward, Option.toList_none, List.append_nil, delivered_lane] at hitem
    rw [hclean item hitem] at herror
    cases herror
  · obtain ⟨hheads, htaken, hbody⟩ := hserved
    have hforward : (r.lane i).forward = none := O.sent
    rw [hforward, Option.toList_none, List.append_nil, List.append_nil, delivered_lane] at hbody
    exact ⟨hfin, upgrade, interim, final, body, hheads, htaken, hbody⟩

end Relay

end

namespace Relay.Sample

open Mux.Sample

/-- The client answers with a chunk and finishes the stream. -/
def complete : List RelayAction := authenticated ++ answered ++
  [.forwarded 2, .recv 0 (Mux.Frame.mk 2 .fin []).encode, .event 0 0]

theorem untruncated_complete : ∃ r, relay.run complete = some r ∧ r.BodyOver 2 ∧
    r.Untruncated 2 := by
  have hguard : Automaton.Meets Relay.step (Uncut 2) relay complete := by decide +kernel
  obtain ⟨r, hrun, hover⟩ := (Option.any_eq_true (fun r : Relay =>
    decide (Note.bodyClosed 2 ∈ r.log ∧ r.forwards.lookup 2 = none)) (relay.run complete)).mp
      (by decide +kernel)
  obtain ⟨hclosed, hsent⟩ := of_decide_eq_true hover
  exact ⟨r, hrun, ⟨hclosed, hsent⟩, untruncated setup.server 0 registry hguard hrun⟩

/-- The stream is reset in the middle of the body. -/
def cut : List RelayAction := authenticated ++ answered ++
  [.forwarded 2, .recv 0 (Mux.Frame.mk 2 .rst (Mux.Postcard.u32.put 2)).encode, .event 0 0]

theorem truncated_cut : ∃ r, relay.run cut = some r ∧ ¬r.Untruncated 2 := by
  obtain ⟨r, hrun, hcut⟩ := (Option.any_eq_true (fun r : Relay =>
    decide (Note.bodyClosed 2 ∈ r.log ∧ r.forwards.lookup 2 = none ∧
      (∀ item ∈ r.delivered 2, item.isError = false) ∧ Mux.Event.finished 2 ∉ r.mux.node.polled))
    (relay.run cut)).mp (by decide +kernel)
  obtain ⟨hclosed, hsent, hclean, hunfinished⟩ := of_decide_eq_true hcut
  exact ⟨r, hrun, fun hwhole => hunfinished (hwhole ⟨hclosed, hsent⟩ hclean).finished⟩

end Relay.Sample

end TunnelWeaver.Server
