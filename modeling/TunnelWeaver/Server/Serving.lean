import TunnelWeaver.Server.Relay

/-! What the handler of a relay does to one stream leaves all others alone. `Serves` collects this
for every function of the handler; `Orderly` is the invariant of every run. -/

namespace TunnelWeaver.Server

open Mux (Bytes Call Compress Event StreamError StreamId ThirdParty Watch)
open Proto (BodyFrame CertStatus ControlReply Postcard RefusalCode)

/-- The stream a note is about. -/
def Note.streamId : Note → Option StreamId
  | .opened id | .read id _ | .sent id _ | .unsent id _ | .bodyEnd id | .finish id _ | .reset id
  | .delivered id _ | .bodyClosed id | .registered id .. => some id
  | .response .. | .room _ => none

namespace Relay

/-- What the handler holds of stream `i` is as it was. -/
structure Aside (i : StreamId) (r r' : Relay) : Prop where
  inflight : r'.inflight.lookup i = r.inflight.lookup i
  leases : r'.leases.lookup i = r.leases.lookup i
  registrations : r'.registrations.lookup i = r.registrations.lookup i
  revocations : r'.revocations.lookup i = r.revocations.lookup i
  forwards : r'.forwards.lookup i = r.forwards.lookup i
  readers : i ∈ r'.readers ↔ i ∈ r.readers
  pipes : i ∈ r'.pipes ↔ i ∈ r.pipes
  log : ∃ notes, r'.log = r.log ++ notes ∧ ∀ n ∈ notes, n.streamId ≠ some i

section
variable {i id : StreamId} {r r' r'' : Relay}

theorem Aside.refl : Aside i r r :=
  ⟨rfl, rfl, rfl, rfl, rfl, .rfl, .rfl, [], by simp, by simp⟩

theorem Aside.trans (A : Aside i r r') (B : Aside i r' r'') : Aside i r r'' where
  inflight := B.inflight.trans A.inflight
  leases := B.leases.trans A.leases
  registrations := B.registrations.trans A.registrations
  revocations := B.revocations.trans A.revocations
  forwards := B.forwards.trans A.forwards
  readers := B.readers.trans A.readers
  pipes := B.pipes.trans A.pipes
  log := by
    obtain ⟨notes, h, hn⟩ := A.log
    obtain ⟨notes', h', hn'⟩ := B.log
    refine ⟨notes ++ notes', by rw [h', h, List.append_assoc], fun n hmem => ?_⟩
    rcases List.mem_append.mp hmem with hmem | hmem
    · exact hn n hmem
    · exact hn' n hmem

/-- The tables do not change. -/
theorem Aside.same (h₁ : r'.inflight = r.inflight) (h₂ : r'.leases = r.leases)
    (h₃ : r'.registrations = r.registrations) (h₄ : r'.revocations = r.revocations)
    (h₅ : r'.forwards = r.forwards) (h₆ : r'.readers = r.readers) (h₇ : r'.pipes = r.pipes)
    (h₈ : ∃ notes, r'.log = r.log ++ notes ∧ ∀ n ∈ notes, n.streamId ≠ some i) : Aside i r r' :=
  ⟨by rw [h₁], by rw [h₂], by rw [h₃], by rw [h₄], by rw [h₅], by rw [h₆], by rw [h₇], h₈⟩

variable [ThirdParty]

/-- The handler deals with stream `id`. -/
structure Serves (id : StreamId) (r r' : Relay) : Prop where
  calls : ∃ ks : List Call, (∀ k ∈ ks, k.streamId = some id) ∧ r'.mux = ks.foldl Watch.call r.mux
  aside : ∀ i, i ≠ id → Aside i r r'
  key : r'.key = r.key
  connId : r'.connId = r.connId

theorem Serves.refl : Serves id r r := ⟨⟨[], by simp, rfl⟩, fun _ _ => .refl, rfl, rfl⟩

theorem Serves.trans (A : Serves id r r') (B : Serves id r' r'') : Serves id r r'' := by
  obtain ⟨ks, hks, hm⟩ := A.calls
  obtain ⟨ks', hks', hm'⟩ := B.calls
  refine ⟨⟨ks ++ ks', fun k hk => ?_, by rw [hm', hm, List.foldl_append]⟩,
    fun i hi => (A.aside i hi).trans (B.aside i hi), B.key.trans A.key, B.connId.trans A.connId⟩
  rcases List.mem_append.mp hk with hk | hk
  · exact hks k hk
  · exact hks' k hk

/-- The connection is not called. -/
theorem Serves.quiet (hm : r'.mux = r.mux) (ha : ∀ i, i ≠ id → Aside i r r') (hk : r'.key = r.key)
    (hc : r'.connId = r.connId) : Serves id r r' :=
  ⟨⟨[], by simp, hm⟩, ha, hk, hc⟩

/-- One call on the stream. -/
theorem Serves.call {k : Call} (hk : k.streamId = some id) :
    Serves id r { r with mux := r.mux.call k } :=
  ⟨⟨[k], by simpa using hk, rfl⟩, fun _ _ => .same rfl rfl rfl rfl rfl rfl rfl ⟨[], by simp, by simp⟩,
    rfl, rfl⟩

theorem Serves.same (S : Serves id r r') {i : StreamId} (hi : i ≠ id) :
    Watch.Same i r.mux r'.mux := by
  obtain ⟨ks, hks, hm⟩ := S.calls
  rw [hm]
  clear hm S
  generalize r.mux = w
  induction ks generalizing w with
  | nil => exact .refl
  | cons k ks ih =>
    have hk := hks k (by simp)
    exact (Watch.call_same hk hi).trans (ih (fun k h => hks k (by simp [h])) (w.call k))

theorem Serves.later (S : Serves id r r') (R : r.mux.Reachable) : Watch.Later r.mux r'.mux := by
  obtain ⟨ks, hks, hm⟩ := S.calls
  rw [hm]
  clear hm hks S
  generalize r.mux = w at R
  induction ks generalizing w with
  | nil => exact .refl R
  | cons k ks ih =>
    have L := Watch.call_later R k
    exact L.trans (ih (w.call k) L.reachable)

/-! ## Small changes -/

omit [ThirdParty] in
theorem aside_note (i : StreamId) {n : Note} (hn : n.streamId ≠ some i) : Aside i r (r.note n) :=
  .same rfl rfl rfl rfl rfl rfl rfl ⟨[n], rfl, by simpa using hn⟩

theorem serves_note {n : Note} (hn : n.streamId = some id ∨ n.streamId = none) :
    Serves id r (r.note n) := by
  refine .quiet rfl (fun i hi => aside_note i fun h => ?_) rfl rfl
  rcases hn with hn | hn
  · rw [hn, Option.some.injEq] at h
    exact hi h.symm
  · rw [hn] at h
    cases h

theorem serves_setExchange (ex : Exchange) : Serves id r (r.setExchange id ex) := by
  refine .quiet rfl (fun i hi => ?_) rfl rfl
  exact { Aside.refl with
    inflight := (Map.lookup_insert_ite ..).trans (if_neg hi) }

theorem serves_eraseExchange : Serves id r { r with inflight := r.inflight.erase id } := by
  refine .quiet rfl (fun i hi => ?_) rfl rfl
  exact { Aside.refl with
    inflight := (Map.lookup_erase_ite ..).trans (if_neg hi) }

theorem serves_insertLease (lease : Lease) :
    Serves id r { r with leases := r.leases.insert id lease } := by
  refine .quiet rfl (fun i hi => ?_) rfl rfl
  exact { Aside.refl with
    leases := (Map.lookup_insert_ite ..).trans (if_neg hi) }

theorem serves_eraseLease : Serves id r { r with leases := r.leases.erase id } := by
  refine .quiet rfl (fun i hi => ?_) rfl rfl
  exact { Aside.refl with
    leases := (Map.lookup_erase_ite ..).trans (if_neg hi) }

theorem serves_registry (registry : Registry) : Serves id r { r with registry } :=
  .quiet rfl (fun _ _ => .same rfl rfl rfl rfl rfl rfl rfl ⟨[], by simp, by simp⟩) rfl rfl

theorem serves_removeExchange : Serves id r (r.removeExchange id) := by
  unfold removeExchange
  split
  · exact .refl
  · dsimp only
    split
    · exact serves_eraseExchange.trans (serves_note (.inl rfl))
    · exact serves_eraseExchange

theorem serves_send (msg : Bytes) (compress : Compress) : Serves id r (r.send id msg compress).1 :=
  .call rfl

theorem serves_recvMsg : Serves id r (r.recvMsg id).1 := .call rfl

theorem serves_finish : Serves id r (r.finish id) :=
  (Serves.call rfl).trans (serves_note (.inl rfl))

theorem serves_reset : Serves id r (r.reset id) :=
  (Serves.call rfl).trans (serves_note (.inl rfl))

theorem serves_setClass (cls : Mux.Class) : Serves id r (r.setClass id cls) := .call rfl

/-! ## Control streams -/

theorem serves_releaseLease (now : Int) : Serves id r (r.releaseLease id now) := by
  unfold releaseLease
  split
  · dsimp only
    split
    · exact ((serves_registry _).trans serves_eraseLease).trans serves_finish
    · exact serves_eraseLease.trans serves_finish
  · exact serves_insertLease _
  · exact .refl
  · exact .refl

variable [Postcard]

theorem serves_reply (reply : ControlReply) : Serves id r (r.reply id reply) := by
  unfold Relay.reply
  cases Postcard.controlReply.encode reply with
  | ok bytes =>
    dsimp only
    split
    · exact (serves_send _ _).trans serves_finish
    · exact serves_send _ _
  | error =>
    dsimp only
    split
    · exact serves_finish
    · exact .refl

theorem serves_onFirstMessage (msg : Bytes) : Serves id r (r.onFirstMessage id msg) := by
  unfold onFirstMessage
  split
  · split
    · split
      · exact serves_reply _
      · split
        · refine .quiet rfl (fun i hi => ?_) rfl rfl
          exact { Aside.refl with
            leases := (Map.lookup_insert_ite ..).trans (if_neg hi)
            registrations := (Map.lookup_insert_ite ..).trans (if_neg hi) }
        · refine .quiet rfl (fun i hi => ?_) rfl rfl
          exact { Aside.refl with
            revocations := (Map.lookup_insert_ite ..).trans (if_neg hi) }
    · exact serves_reset
  · exact serves_reset

theorem serves_readControl (fuel : Nat) : Serves id r (readControl id fuel r) := by
  induction fuel generalizing r with
  | zero => exact .refl
  | succ fuel ih =>
    have hrecv : Serves id r (r.recvMsg id).1 := serves_recvMsg
    unfold readControl
    split
    · rename_i r₁ msg heq
      rw [heq] at hrecv
      refine (hrecv.trans ?_).trans ih
      split
      · exact .refl
      · exact serves_onFirstMessage msg
    · rename_i r₁ e heq
      rw [heq] at hrecv
      exact hrecv

theorem serves_onRegistered (call : Registry.RegisterCall) (result : Except RefusalCode String)
    (now : Int) : Serves id r (r.onRegistered id call result now) := by
  unfold onRegistered
  split
  · split
    · exact serves_eraseLease.trans (serves_registry _)
    · rename_i hostname _ _
      refine Serves.trans ?_ (serves_reply _)
      have hwatch : Serves id { r with leases := r.leases.insert id (.registered hostname) } { r with
          leases := r.leases.insert id (.registered hostname)
          watches := (id, hostname) :: r.watches } :=
        .quiet rfl (fun _ _ => { Aside.refl with }) rfl rfl
      exact ((serves_insertLease _).trans hwatch).trans (serves_note (.inl rfl))
  · exact serves_eraseLease.trans (serves_reply _)

theorem serves_pushCertState (status : CertStatus) : Serves id r (r.pushCertState id status) := by
  unfold pushCertState
  split
  · split
    · exact serves_send _ _
    · exact .refl
  · exact .refl

/-! ## Request bodies -/

theorem serves_sendQueued (compress : Compress) (queue : List BodyFrame) :
    Serves id r (sendQueued id compress queue r).1 := by
  induction queue generalizing r with
  | nil => exact .refl
  | cons frame rest ih =>
    unfold sendQueued
    split
    · exact serves_note (.inl rfl)
    · rename_i bytes _
      have hsend : Serves id r (r.send id bytes compress).1 := serves_send _ _
      split
      · rename_i r₁ heq
        rw [heq] at hsend
        exact (hsend.trans (serves_note (.inl rfl))).trans ih
      · rename_i r₁ heq
        rw [heq] at hsend
        exact hsend
      · rename_i r₁ e _ heq
        rw [heq] at hsend
        exact hsend.trans (serves_note (.inl rfl))

omit [Postcard] in
theorem serves_wakeReader (ex : Exchange) : Serves id r (r.wakeReader ex).1 := by
  unfold wakeReader
  split
  · split
    · exact serves_note (.inr rfl)
    · exact .refl
  · exact .refl

theorem serves_drainRequestBody (ex : Exchange) : Serves id r (r.drainRequestBody id ex).1 := by
  have hsend : Serves id r (sendQueued id ex.bodyCompress ex.pendingBody r).1 :=
    serves_sendQueued _ _
  unfold drainRequestBody
  split
  · rename_i r₁ heq
    rw [heq] at hsend
    exact hsend
  · rename_i r₁ queue heq
    rw [heq] at hsend
    have hwake : Serves id r₁ _ := serves_wakeReader { ex with pendingBody := queue }
    dsimp only
    split
    · exact (hsend.trans hwake).trans serves_finish
    · exact hsend.trans hwake

theorem serves_drainBody (f : Exchange → Exchange) : Serves id r (r.drainBody id f) := by
  unfold drainBody
  split
  · exact .refl
  · exact (serves_drainRequestBody _).trans (serves_setExchange _)

theorem serves_pushFrame (frame : BodyFrame) (room : Oneshot) :
    Serves id r (r.pushFrame id frame room) := by
  have hread : Serves id r (r.note (.read id frame)) := serves_note (.inl rfl)
  unfold pushFrame
  dsimp only
  split
  · exact hread
  · refine hread.trans ?_
    split
    · exact ((serves_drainRequestBody _).trans (serves_note (.inr rfl))).trans (serves_setExchange _)
    · exact (serves_drainRequestBody _).trans (serves_setExchange _)

/-! ## Responses -/

omit [Postcard] in
theorem serves_finishExchange : Serves id r (r.finishExchange id) := by
  unfold finishExchange
  split
  · exact .refl
  · split
    · dsimp only
      split
      · exact (serves_setExchange _).trans (serves_note (.inl rfl))
      · exact serves_setExchange _
    · exact serves_removeExchange

omit [Postcard] in
theorem serves_pumpDown : Serves id r (r.pumpDown id) := by
  unfold pumpDown
  split
  · exact .refl
  · split
    · exact .refl
    · split
      · split
        · refine Serves.trans ?_ (serves_setExchange _)
          refine .quiet rfl (fun i hi => ?_) rfl rfl
          exact { Aside.refl with
            forwards := (Map.lookup_insert_ite ..).trans (if_neg hi) }
        · exact serves_setExchange _
      · split
        · exact serves_finishExchange
        · exact .refl

variable [HttpTypes]

omit [Postcard] [HttpTypes] in
theorem serves_classify (req : Proto.HttpHead) (head : Proto.HttpResponseHead) :
    Serves id r (r.classify id req head) := by
  unfold classify
  split
  · exact serves_setClass _
  · exact .refl

omit [Postcard] [HttpTypes] in
theorem serves_startPipe : Serves id r (r.startPipe id) :=
  .quiet rfl (fun i hi => { Aside.refl with pipes := by simp [startPipe, hi] }) rfl rfl

theorem serves_onHead (ex : Exchange) (tx : Oneshot) (msg : Bytes) :
    Serves id r (r.onHead id ex tx msg).1 := by
  unfold onHead
  split
  · exact (serves_note (.inr rfl)).trans serves_reset
  · rename_i head _
    split
    · exact .refl
    · dsimp only
      split
      · have hnote : Serves id (r.classify id ex.req head) _ :=
          serves_note (n := .response tx (.ok (upgradeResponse ex head))) (.inr rfl)
        exact (((serves_classify ex.req head).trans hnote).trans (serves_setClass _)).trans
          serves_startPipe
      · exact (serves_classify ex.req head).trans (serves_note (.inr rfl))

theorem serves_onVisitorMessage (ex : Exchange) (msg : Bytes) :
    Serves id r (r.onVisitorMessage id ex msg).1 := by
  unfold onVisitorMessage
  split
  · exact serves_onHead ..
  · split <;> exact .refl

theorem serves_readExchange (fuel : Nat) : Serves id r (readExchange id fuel r) := by
  induction fuel generalizing r with
  | zero => exact .refl
  | succ fuel ih =>
    have hrecv : Serves id r (r.recvMsg id).1 := serves_recvMsg
    unfold readExchange
    split
    · exact .refl
    · split
      · exact .refl
      · split
        · rename_i r₁ msg heq
          rw [heq] at hrecv
          refine (hrecv.trans ?_).trans ih
          exact ((serves_onVisitorMessage _ _).trans (serves_setExchange _)).trans serves_pumpDown
        · rename_i r₁ e heq
          rw [heq] at hrecv
          exact hrecv

theorem serves_drainInbox : Serves id r (r.drainInbox id) :=
  serves_pumpDown.trans (serves_readExchange _)

/-! ## Events -/

omit [Postcard] [HttpTypes] in
theorem serves_forgetStream : Serves id r (r.forgetStream id) := serves_registry _

omit [Postcard] [HttpTypes] in
theorem serves_clientFinished : Serves id r (r.clientFinished id) := by
  unfold clientFinished
  split
  · exact .refl
  · dsimp only
    split
    · exact (serves_setExchange _).trans serves_finishExchange
    · exact serves_setExchange _

omit [Postcard] [HttpTypes] in
theorem serves_streamReset (code : UInt32) : Serves id r (r.streamReset id code) := by
  unfold streamReset
  split
  · exact .refl
  · dsimp only
    split
    · exact serves_removeExchange
    · exact serves_removeExchange.trans (serves_note (.inr rfl))

theorem serves_onEvent {ev : Event} (hev : ev.streamId = some id) (closeTx : Oneshot) (now : Int) :
    Serves id r (r.onEvent closeTx now ev) := by
  cases ev with
  | authenticated | rejected | closed => cases hev
  | streamOpened => exact .refl
  | readable j =>
    cases hev
    simp only [onEvent]
    split
    · exact serves_drainInbox
    · exact serves_readControl _
  | writable j credit =>
    cases hev
    exact serves_drainBody _
  | finished j =>
    cases hev
    exact (serves_forgetStream.trans (serves_releaseLease now)).trans serves_clientFinished
  | reset j code =>
    cases hev
    exact (serves_forgetStream.trans (serves_releaseLease now)).trans (serves_streamReset code)

/-! ## The invariant of every run -/

/-- The handler or one of its tasks deals with a visitor on the stream. -/
def Visited (r : Relay) (i : StreamId) : Prop :=
  (r.inflight.lookup i).isSome ∨ i ∈ r.readers ∨ i ∈ r.pipes ∨ (r.forwards.lookup i).isSome

/-- It deals with a request of the client on the stream. -/
def Controlled (r : Relay) (i : StreamId) : Prop :=
  (r.leases.lookup i).isSome ∨ (r.registrations.lookup i).isSome ∨ (r.revocations.lookup i).isSome

/-- What holds of each stream: the ones opened for visitors are not control streams, and nothing
comes from them any more once their exchange is over. -/
structure Fine (r : Relay) (i : StreamId) : Prop where
  visited : r.Visited i → .opened i ∈ r.log
  opened : .opened i ∈ r.log → r.mux.Known i ∧ r.mux.node.conn.hs = .done
  controlled : r.Controlled i → .opened i ∉ r.log ∧ r.mux.Known i
  gone : .opened i ∈ r.log → r.inflight.lookup i = none → r.mux.Ended i
  done : ∀ ex, r.inflight.lookup i = some ex → ex.clientDone = true → r.mux.Ended i

structure Orderly (r : Relay) : Prop where
  reachable : r.mux.Reachable
  fine : ∀ i, r.Fine i

omit [ThirdParty] [Postcard] [HttpTypes] in
theorem Aside.opened (A : Aside i r r') : .opened i ∈ r'.log ↔ .opened i ∈ r.log := by
  obtain ⟨notes, h, hn⟩ := A.log
  rw [h, List.mem_append]
  refine ⟨fun hmem => hmem.resolve_right fun hmem => hn _ hmem rfl, .inl⟩

omit [Postcard] [HttpTypes] in
theorem Fine.aside (F : r.Fine i) (A : Aside i r r') (L : Watch.Later r.mux r'.mux) : r'.Fine i where
  visited h := by
    unfold Visited at h
    rw [A.inflight, A.readers, A.pipes, A.forwards] at h
    exact A.opened.mpr (F.visited h)
  opened h := by
    obtain ⟨hk, hd⟩ := F.opened (A.opened.mp h)
    exact ⟨L.known i hk, (L.done hd).1⟩
  controlled h := by
    unfold Controlled at h
    rw [A.leases, A.registrations, A.revocations] at h
    obtain ⟨ho, hk⟩ := F.controlled h
    exact ⟨fun hmem => ho (A.opened.mp hmem), L.known i hk⟩
  gone h hx := L.ended i (F.gone (A.opened.mp h) (A.inflight ▸ hx))
  done ex hx hd := L.ended i (F.done ex (A.inflight ▸ hx) hd)

/-- The handler deals with its own stream, and drops an exchange only when nothing comes from the
stream any more. -/
structure Keeps (id : StreamId) (r r' : Relay) : Prop where
  serves : Serves id r r'
  opened : .opened id ∈ r'.log ↔ .opened id ∈ r.log
  visited : r'.Visited id → r.Visited id
  controlled : r'.Controlled id → r.Controlled id
  gone : r'.inflight.lookup id = none → r.inflight.lookup id = none ∨ r'.mux.Ended id
  done : ∀ ex', r'.inflight.lookup id = some ex' → ex'.clientDone = true →
    r'.mux.Ended id ∨ ∃ ex, r.inflight.lookup id = some ex ∧ ex.clientDone = true

omit [Postcard] [HttpTypes] in
theorem Keeps.refl : Keeps id r r :=
  ⟨.refl, .rfl, fun h => h, fun h => h, .inl, fun ex h hd => .inr ⟨ex, h, hd⟩⟩

omit [Postcard] [HttpTypes] in
theorem Keeps.trans (R : r.mux.Reachable) (A : Keeps id r r') (B : Keeps id r' r'') :
    Keeps id r r'' where
  serves := A.serves.trans B.serves
  opened := B.opened.trans A.opened
  visited h := A.visited (B.visited h)
  controlled h := A.controlled (B.controlled h)
  gone h := by
    have L := B.serves.later (A.serves.later R).reachable
    rcases B.gone h with h | h
    · exact (A.gone h).imp_right (L.ended id)
    · exact .inr h
  done ex'' h hd := by
    have L := B.serves.later (A.serves.later R).reachable
    rcases B.done ex'' h hd with h | ⟨ex', h, hd⟩
    · exact .inl h
    · exact (A.done ex' h hd).imp_left (L.ended id)

omit [Postcard] [HttpTypes] in
theorem Keeps.fine (K : Keeps id r r') (R : r.mux.Reachable) (F : r.Fine id) : r'.Fine id where
  visited h := K.opened.mpr (F.visited (K.visited h))
  opened h := by
    have L := K.serves.later R
    obtain ⟨hk, hd⟩ := F.opened (K.opened.mp h)
    exact ⟨L.known id hk, (L.done hd).1⟩
  controlled h := by
    obtain ⟨ho, hk⟩ := F.controlled (K.controlled h)
    exact ⟨fun hmem => ho (K.opened.mp hmem), (K.serves.later R).known id hk⟩
  gone h hx := by
    rcases K.gone hx with hx | hx
    · exact (K.serves.later R).ended id (F.gone (K.opened.mp h) hx)
    · exact hx
  done ex' hx hd := by
    rcases K.done ex' hx hd with h | ⟨ex, h, hd⟩
    · exact h
    · exact (K.serves.later R).ended id (F.done ex h hd)

omit [Postcard] [HttpTypes] in
/-- Dealing with one stream keeps the invariant if it does so on that stream. -/
theorem Orderly.serves (O : r.Orderly) (S : Serves id r r') (F : r'.Fine id) : r'.Orderly := by
  have L := S.later O.reachable
  refine ⟨L.reachable, fun i => ?_⟩
  by_cases hi : i = id
  · exact hi ▸ F
  · exact (O.fine i).aside (S.aside i hi) L

omit [Postcard] [HttpTypes] in
theorem Orderly.keeps (O : r.Orderly) (K : Keeps id r r') : r'.Orderly :=
  O.serves K.serves (K.fine O.reachable (O.fine id))

/-! ## What each function keeps -/

section
omit [Postcard] [HttpTypes]

theorem keeps_note {n : Note} (hn : n.streamId = some id ∨ n.streamId = none)
    (ho : n ≠ .opened id) : Keeps id r (r.note n) := by
  refine { Keeps.refl with serves := serves_note hn, opened := ?_ }
  simp [note, Ne.symm ho]

theorem keeps_call {k : Call} (hk : k.streamId = some id) :
    Keeps id r { r with mux := r.mux.call k } :=
  { Keeps.refl with
    serves := .call hk
    gone := .inl
    done := fun ex h hd => .inr ⟨ex, h, hd⟩ }

theorem keeps_send (msg : Bytes) (compress : Compress) : Keeps id r (r.send id msg compress).1 :=
  keeps_call rfl

theorem keeps_recvMsg : Keeps id r (r.recvMsg id).1 := keeps_call rfl

theorem keeps_setClass (cls : Mux.Class) : Keeps id r (r.setClass id cls) := keeps_call rfl

theorem keeps_finish (R : r.mux.Reachable) : Keeps id r (r.finish id) :=
  (keeps_call (k := .finish id) rfl).trans R (keeps_note (.inl rfl) (by simp))

theorem keeps_reset (R : r.mux.Reachable) : Keeps id r (r.reset id) :=
  (keeps_call (k := .reset id _) rfl).trans R (keeps_note (.inl rfl) (by simp))

theorem keeps_registry (registry : Registry) : Keeps id r { r with registry } :=
  { Keeps.refl with serves := serves_registry registry }

/-- An exchange changes. -/
theorem keeps_setExchange {ex ex' : Exchange} (h : r.inflight.lookup id = some ex)
    (hd : ex'.clientDone = true → ex.clientDone = true ∨ r.mux.Ended id) :
    Keeps id r (r.setExchange id ex') := by
  have hl : (r.setExchange id ex').inflight.lookup id = some ex' := by simp [setExchange]
  refine { Keeps.refl with
    serves := serves_setExchange ex'
    visited := fun _ => .inl (by simp [h])
    gone := fun hn => by rw [hl] at hn; cases hn
    done := fun ex'' hx hdone => ?_ }
  rw [hl, Option.some.injEq] at hx
  rcases hd (hx ▸ hdone) with hd | hd
  · exact .inr ⟨ex, h, hd⟩
  · exact .inl hd

omit [ThirdParty] in
theorem lookup_removeExchange : (r.removeExchange id).inflight.lookup id = none := by
  unfold removeExchange
  split
  · assumption
  · dsimp only
    split <;> simp [note]

theorem keeps_removeExchange (h : r.mux.Ended id) : Keeps id r (r.removeExchange id) := by
  have hmux : (r.removeExchange id).mux = r.mux := by
    unfold removeExchange
    split
    · rfl
    · dsimp only
      split <;> rfl
  refine ⟨serves_removeExchange, ?_, fun hv => ?_, fun hc => ?_, fun _ => .inr (hmux ▸ h),
    fun ex hx => ?_⟩
  · unfold removeExchange
    split
    · exact .rfl
    · dsimp only
      split <;> simp [note]
  · unfold Visited at hv ⊢
    rw [lookup_removeExchange] at hv
    unfold removeExchange at hv
    split at hv
    · exact .inr (by simpa using hv)
    · refine .inr ?_
      dsimp only at hv
      split at hv <;> simpa [note] using hv
  · unfold removeExchange at hc
    split at hc
    · exact hc
    · dsimp only at hc
      split at hc <;> exact hc
  · rw [lookup_removeExchange] at hx
    cases hx

theorem keeps_releaseLease (R : r.mux.Reachable) (now : Int) :
    Keeps id r (r.releaseLease id now) := by
  have herase : ∀ {r : Relay}, Keeps id r { r with leases := r.leases.erase id } := fun {r} =>
    { Keeps.refl with
      serves := serves_eraseLease
      controlled := fun h => by
        unfold Controlled at h ⊢
        simp only [AList.lookup_erase] at h
        exact .inr (by simpa using h) }
  unfold releaseLease
  split
  · rename_i hostname hl
    dsimp only
    split
    · exact ((keeps_registry _).trans R herase).trans R (keeps_finish R)
    · exact herase.trans R (keeps_finish R)
  · rename_i hl
    exact { Keeps.refl with
      serves := serves_insertLease _
      controlled := fun _ => .inl (by simp [hl]) }
  · exact .refl
  · exact .refl

end

section
omit [HttpTypes]

theorem keeps_reply (R : r.mux.Reachable) (reply : ControlReply) :
    Keeps id r (r.reply id reply) := by
  unfold Relay.reply
  cases Postcard.controlReply.encode reply with
  | ok bytes =>
    have h : Keeps id r (r.send id bytes Proto.Policy.controlCompress).1 := keeps_send _ _
    dsimp only
    split
    · exact h.trans R (keeps_finish (h.serves.later R).reachable)
    · exact h
  | error =>
    dsimp only
    split
    · exact keeps_finish R
    · exact .refl

theorem keeps_sendQueued (R : r.mux.Reachable) (compress : Compress) (queue : List BodyFrame) :
    Keeps id r (sendQueued id compress queue r).1 := by
  induction queue generalizing r with
  | nil => exact .refl
  | cons frame rest ih =>
    unfold sendQueued
    split
    · exact keeps_note (.inl rfl) (by simp)
    · rename_i bytes _
      have hsend : Keeps id r (r.send id bytes compress).1 := keeps_send _ _
      split
      · rename_i r₁ heq
        rw [heq] at hsend
        have K := hsend.trans R (keeps_note (n := .sent id frame) (.inl rfl) (by simp))
        exact K.trans R (ih (K.serves.later R).reachable)
      · rename_i r₁ heq
        rw [heq] at hsend
        exact hsend
      · rename_i r₁ e _ heq
        rw [heq] at hsend
        exact hsend.trans R (keeps_note (.inl rfl) (by simp))

omit [Postcard] in
theorem keeps_wakeReader (ex : Exchange) : Keeps id r (r.wakeReader ex).1 := by
  unfold wakeReader
  split
  · split
    · exact keeps_note (.inr rfl) (by simp)
    · exact .refl
  · exact .refl

theorem keeps_drainRequestBody (R : r.mux.Reachable) (ex : Exchange) :
    Keeps id r (r.drainRequestBody id ex).1 := by
  have hsend : Keeps id r (sendQueued id ex.bodyCompress ex.pendingBody r).1 :=
    keeps_sendQueued R _ _
  unfold drainRequestBody
  split
  · rename_i r₁ heq
    rw [heq] at hsend
    exact hsend
  · rename_i r₁ queue heq
    rw [heq] at hsend
    have K := hsend.trans R (keeps_wakeReader { ex with pendingBody := queue })
    dsimp only
    split
    · exact K.trans R (keeps_finish (K.serves.later R).reachable)
    · exact K

end

/-! ## The drain of a request body -/

section
omit [HttpTypes]

/-- Draining leaves the tables alone. -/
structure Tables (r r' : Relay) : Prop where
  inflight : r'.inflight = r.inflight
  leases : r'.leases = r.leases
  forwards : r'.forwards = r.forwards
  readers : r'.readers = r.readers
  pipes : r'.pipes = r.pipes

omit [ThirdParty] [Postcard] in
theorem Tables.refl : Tables r r := ⟨rfl, rfl, rfl, rfl, rfl⟩

omit [ThirdParty] [Postcard] in
theorem Tables.trans (A : Tables r r') (B : Tables r' r'') : Tables r r'' :=
  ⟨B.inflight.trans A.inflight, B.leases.trans A.leases, B.forwards.trans A.forwards,
    B.readers.trans A.readers, B.pipes.trans A.pipes⟩

theorem tables_sendQueued (compress : Compress) (queue : List BodyFrame) :
    Tables r (sendQueued id compress queue r).1 := by
  induction queue generalizing r with
  | nil => exact .refl
  | cons frame rest ih =>
    unfold sendQueued
    split
    · exact ⟨rfl, rfl, rfl, rfl, rfl⟩
    · rename_i bytes _
      have hsend : Tables r (r.send id bytes compress).1 := ⟨rfl, rfl, rfl, rfl, rfl⟩
      split
      · rename_i r₁ heq
        rw [heq] at hsend
        have hnote : Tables r₁ (r₁.note (.sent id frame)) := ⟨rfl, rfl, rfl, rfl, rfl⟩
        exact (hsend.trans hnote).trans ih
      · rename_i r₁ heq
        rw [heq] at hsend
        exact hsend
      · rename_i r₁ e _ heq
        rw [heq] at hsend
        exact hsend.trans ⟨rfl, rfl, rfl, rfl, rfl⟩

omit [ThirdParty] [Postcard] in
theorem tables_wakeReader (ex : Exchange) : Tables r (r.wakeReader ex).1 := by
  unfold wakeReader
  split
  · split <;> exact ⟨rfl, rfl, rfl, rfl, rfl⟩
  · exact .refl

theorem tables_drainRequestBody (ex : Exchange) : Tables r (r.drainRequestBody id ex).1 := by
  have hsend : Tables r (sendQueued id ex.bodyCompress ex.pendingBody r).1 := tables_sendQueued _ _
  unfold drainRequestBody
  split
  · rename_i r₁ heq
    rw [heq] at hsend
    exact hsend
  · rename_i r₁ queue heq
    rw [heq] at hsend
    have T := hsend.trans (tables_wakeReader { ex with pendingBody := queue })
    dsimp only
    split
    · exact T.trans ⟨rfl, rfl, rfl, rfl, rfl⟩
    · exact T

end

end

end Relay

end TunnelWeaver.Server
