import TunnelWeaver.Mux.Backlog
import TunnelWeaver.Mux.Exposed

/-! The stream table and the scheduler agree. `Connection.Linked` ties the flows of the inner
schedulers to the tracked streams, `Connection.Synced` adds the control queue and that no finished
stream is still tracked. Every method keeps it, so it holds in every state a connection reaches,
and with it `wants_transmit` foretells `poll_transmit`. -/

namespace TunnelWeaver.Mux

/-- DATA may be scheduled: our OPEN has left and there is something to send. -/
def Stream.pending (s : Stream) : Bool := s.openSent && !s.outbox.isEmpty

theorem Stream.headLen_isSome (s : Stream) : s.headLen.isSome = !s.outbox.isEmpty := by
  unfold headLen
  cases s.outbox <;> rfl

namespace Connection

/-- The flows of the inner schedulers are the tracked streams, each in its class, backlogged when
it has DATA to send. -/
structure Linked (c : Connection) : Prop where
  sched : c.sched.Wf
  holds : ∀ cls id, (c.sched.inner cls).contains id =
    (c.streams.lookup id).any fun s => decide (s.cls = cls)
  queued : ∀ cls id, (c.sched.inner cls).isActive id =
    (c.streams.lookup id).any fun s => decide (s.cls = cls) && s.pending
  classes : ∀ id s, c.streams.lookup id = some s → s.cls ≠ .control

/-- `busy` are the streams that may be finished for the moment. -/
structure SyncedBut (busy : StreamId → Prop) (c : Connection) : Prop extends Linked c where
  control : c.sched.ControlWf
  unfinished : ∀ id s, c.streams.lookup id = some s → s.isFinished = true → busy id

/-- The state between two calls. -/
def Synced (c : Connection) : Prop := SyncedBut (fun _ => False) c

variable {c c' : Connection} {id : StreamId} {s t : Stream} {busy busy' : StreamId → Prop}

/-! ## Pieces of a step -/

theorem Linked.of (L : Linked c) (hs : c'.streams = c.streams) (ht : c'.sched = c.sched) :
    Linked c' where
  sched := ht ▸ L.sched
  holds := by rw [hs, ht]; exact L.holds
  queued := by rw [hs, ht]; exact L.queued
  classes := by rw [hs]; exact L.classes

theorem SyncedBut.of (S : SyncedBut busy c) (hs : c'.streams = c.streams)
    (ht : c'.sched = c.sched) : SyncedBut busy c' :=
  { S.toLinked.of hs ht with
    control := ht ▸ S.control
    unfinished := by rw [hs]; exact S.unfinished }

theorem SyncedBut.mono (S : SyncedBut busy c) (h : ∀ id, busy id → busy' id) :
    SyncedBut busy' c :=
  { S with unfinished := fun id s hs hf => h id (S.unfinished id s hs hf) }

theorem SyncedBut.pushEvent (S : SyncedBut busy c) (ev : Event) : SyncedBut busy (c.pushEvent ev) :=
  S.of rfl rfl

theorem SyncedBut.report (S : SyncedBut busy c) (i : StreamId) (a b : Nat) :
    SyncedBut busy (c.report i a b) := by
  obtain ⟨r, h⟩ := report_eq (c := c) i a b
  rw [h]
  exact S.of rfl rfl

theorem Linked.setSched (L : Linked c) {u : SchedTree} (hw : u.Wf)
    (hinner : u.inner = c.sched.inner) : Linked { c with sched := u } where
  sched := hw
  holds cls id := by
    dsimp only
    rw [hinner]
    exact L.holds cls id
  queued cls id := by
    dsimp only
    rw [hinner]
    exact L.queued cls id
  classes := L.classes

theorem SyncedBut.pushControl (S : SyncedBut busy c) (f : Frame) :
    SyncedBut busy (c.pushControl f) :=
  { S.toLinked.setSched (S.sched.pushControl f) rfl with
    control := S.sched.controlWf_pushControl f
    unfinished := S.unfinished }

theorem lookup_setStream_ite (i : StreamId) : (c.setStream id t).streams.lookup i =
    if i = id then some t else c.streams.lookup i := Map.lookup_insert_ite ..

/-- A stream changes within its class, without gaining or losing DATA to send. -/
theorem Linked.setStream (L : Linked c) (h : c.streams.lookup id = some s) (hcls : t.cls = s.cls)
    (hp : t.pending = s.pending) : Linked (c.setStream id t) where
  sched := L.sched
  holds cls i := by
    rw [lookup_setStream_ite]
    refine (L.holds cls i).trans ?_
    split
    · rename_i hi
      subst hi
      simp [h, hcls]
    · rfl
  queued cls i := by
    rw [lookup_setStream_ite]
    refine (L.queued cls i).trans ?_
    split
    · rename_i hi
      subst hi
      simp [h, hcls, hp]
    · rfl
  classes i u hu := by
    rw [lookup_setStream_ite] at hu
    split at hu
    · cases hu
      exact hcls ▸ L.classes id s h
    · exact L.classes i u hu

theorem SyncedBut.setStream (S : SyncedBut busy c) (h : c.streams.lookup id = some s)
    (hcls : t.cls = s.cls) (hp : t.pending = s.pending) (hf : t.isFinished = true → busy id) :
    SyncedBut busy (c.setStream id t) :=
  { S.toLinked.setStream h hcls hp with
    control := S.control
    unfinished := fun i u hu hfin => by
      rw [lookup_setStream_ite] at hu
      split at hu
      · rename_i hi
        cases hu
        rw [hi]
        exact hf hfin
      · exact S.unfinished i u hu hfin }

theorem Linked.dropStream (L : Linked c) (id : StreamId) : Linked (c.dropStream id) := by
  unfold Connection.dropStream
  split
  · exact L
  · rename_i s h
    refine ⟨L.sched.removeStream id s.cls, fun cls i => ?_, fun cls i => ?_, fun i u hu => ?_⟩
    · dsimp only
      rw [SchedTree.contains_removeStream, L.holds, Map.lookup_erase_ite]
      split
      · rename_i hi
        subst hi
        by_cases hc : cls = s.cls <;> simp [h, hc, eq_comm]
      · rename_i hi
        simp [hi]
    · dsimp only
      rw [SchedTree.isActive_removeStream, L.queued, Map.lookup_erase_ite]
      split
      · rename_i hi
        subst hi
        by_cases hc : cls = s.cls
        · simp [hc]
        · simp [h, Ne.symm hc]
      · rename_i hi
        simp [hi]
    · dsimp only at hu
      rw [Map.lookup_erase_ite] at hu
      split at hu
      · cases hu
      · exact L.classes i u hu

theorem Linked.controlWf_dropStream (L : Linked c) (C : c.sched.ControlWf) (id : StreamId) :
    (c.dropStream id).sched.ControlWf := by
  unfold Connection.dropStream
  split
  · exact C
  · rename_i s h
    unfold SchedTree.ControlWf
    dsimp only
    rw [SchedTree.isActive_control_removeStream (L.classes id s h), SchedTree.control_removeStream]
    exact C

theorem lookup_dropStream (i : StreamId) : (c.dropStream id).streams.lookup i =
    if i = id then none else c.streams.lookup i := by
  unfold dropStream
  split
  · rename_i h
    split
    · rename_i hi
      rw [hi, h]
    · rfl
  · exact Map.lookup_erase_ite ..

theorem SyncedBut.dropStream (S : SyncedBut busy c) (id : StreamId) :
    SyncedBut (fun i => busy i ∧ i ≠ id) (c.dropStream id) :=
  { S.toLinked.dropStream id with
    control := S.controlWf_dropStream S.control id
    unfinished := fun i u hu hf => by
      rw [lookup_dropStream] at hu
      split at hu
      · cases hu
      · rename_i hi
        exact ⟨S.unfinished i u hu hf, hi⟩ }

/-- A stream that may be finished is forgotten if it is. -/
theorem SyncedBut.maybeForget (S : SyncedBut busy c) (id : StreamId) :
    SyncedBut (fun i => busy i ∧ i ≠ id) (c.maybeForget id) := by
  unfold Connection.maybeForget
  split
  · rename_i h
    refine { S with unfinished := fun i u hu hf => ⟨S.unfinished i u hu hf, ?_⟩ }
    rintro rfl
    rw [h] at hu
    cases hu
  · rename_i s h
    split
    · exact S.dropStream id
    · rename_i hnf
      refine { S with unfinished := fun i u hu hf => ⟨S.unfinished i u hu hf, ?_⟩ }
      rintro rfl
      rw [h] at hu
      cases hu
      exact hnf hf

theorem SyncedBut.synced_maybeForget (S : SyncedBut (· = id) c) : Synced (c.maybeForget id) :=
  (S.maybeForget id).mono fun _ h => h.2 h.1

theorem SyncedBut.synced_finishedStream (S : SyncedBut (· = id) c) : Synced (c.finishedStream id) :=
  (S.pushEvent _).synced_maybeForget

/-! ## Streams gaining DATA, changing class, and coming in -/

theorem Linked.activateStream (L : Linked c) (h : c.streams.lookup id = some s)
    (hcls : t.cls = s.cls) (hp : t.pending = true) (len : Nat) :
    Linked ((c.setStream id t).activateStream id s.cls len) := by
  have hc : (c.sched.inner s.cls).contains id = true := by simp [L.holds, h]
  refine ⟨L.sched.activateStream hc len, fun cls i => ?_, fun cls i => ?_, fun i u hu => ?_⟩
  · change ((c.sched.activateStream id s.cls len).inner cls).contains i =
      ((c.setStream id t).streams.lookup i).any _
    rw [SchedTree.contains_activateStream, L.holds, lookup_setStream_ite]
    split
    · rename_i hi
      subst hi
      simp [h, hcls]
    · rfl
  · change ((c.sched.activateStream id s.cls len).inner cls).isActive i =
      ((c.setStream id t).streams.lookup i).any _
    rw [SchedTree.isActive_activateStream, L.queued, lookup_setStream_ite, hc]
    split
    · rename_i hi
      subst hi
      by_cases hk : cls = s.cls
      · simp [hk, hcls, hp]
      · simp [h, hk, Ne.symm hk, hcls]
    · rename_i hi
      simp [hi]
  · have hu : (c.setStream id t).streams.lookup i = some u := hu
    rw [lookup_setStream_ite] at hu
    split at hu
    · cases hu
      exact hcls ▸ L.classes id s h
    · exact L.classes i u hu

theorem SyncedBut.activateStream (S : SyncedBut busy c) (h : c.streams.lookup id = some s)
    (hcls : t.cls = s.cls) (hp : t.pending = true) (hf : t.isFinished = true → busy id)
    (len : Nat) : SyncedBut busy ((c.setStream id t).activateStream id s.cls len) :=
  { S.toLinked.activateStream h hcls hp len with
    control := by
      have C := S.control
      unfold SchedTree.ControlWf at C ⊢
      change (c.sched.activateStream id s.cls len).top.isActive .control =
        !(c.sched.activateStream id s.cls len).control.isEmpty
      rw [SchedTree.isActive_control_activateStream (S.classes id s h),
        SchedTree.control_activateStream]
      exact C
    unfinished := fun i u hu hfin => by
      have hu : (c.setStream id t).streams.lookup i = some u := hu
      rw [lookup_setStream_ite] at hu
      split at hu
      · rename_i hi
        cases hu
        rw [hi]
        exact hf hfin
      · exact S.unfinished i u hu hfin }

theorem Linked.reclass (L : Linked c) (h : c.streams.lookup id = some s) (hne : s.cls ≠ t.cls)
    (hd : t.cls ≠ .control) {len : Option Nat} (hp : len.isSome = t.pending) :
    Linked ((c.setStream id t).reclass id s.cls t.cls len) := by
  have hc : (c.sched.inner t.cls).contains id = false := by simp [L.holds, h, hne]
  refine ⟨L.sched.reclass hc len, fun cls i => ?_, fun cls i => ?_, fun i u hu => ?_⟩
  · change ((c.sched.reclass id s.cls t.cls len).inner cls).contains i =
      ((c.setStream id t).streams.lookup i).any _
    rw [SchedTree.contains_reclass hne, L.holds, lookup_setStream_ite]
    split
    · rename_i hi
      subst hi
      by_cases hk : cls = t.cls
      · simp [hk]
      · by_cases hk' : cls = s.cls
        · simp [hk', hne, Ne.symm hne]
        · simp [h, hk, hk', Ne.symm hk, Ne.symm hk']
    · rename_i hi
      simp [hi]
  · change ((c.sched.reclass id s.cls t.cls len).inner cls).isActive i =
      ((c.setStream id t).streams.lookup i).any _
    rw [SchedTree.isActive_reclass hne hc, L.queued, lookup_setStream_ite, hp]
    split
    · rename_i hi
      subst hi
      by_cases hk : cls = t.cls
      · subst hk
        simp [h, hne]
      · by_cases hk' : cls = s.cls
        · simp [hk', hne, Ne.symm hne]
        · simp [h, hk, hk', Ne.symm hk, Ne.symm hk']
    · rename_i hi
      simp [hi]
  · have hu : (c.setStream id t).streams.lookup i = some u := hu
    rw [lookup_setStream_ite] at hu
    split at hu
    · cases hu
      exact hd
    · exact L.classes i u hu

theorem SyncedBut.reclass (S : SyncedBut busy c) (h : c.streams.lookup id = some s)
    (hne : s.cls ≠ t.cls) (hd : t.cls ≠ .control) {len : Option Nat}
    (hp : len.isSome = t.pending) (hf : t.isFinished = true → busy id) :
    SyncedBut busy ((c.setStream id t).reclass id s.cls t.cls len) :=
  { S.toLinked.reclass h hne hd hp with
    control := by
      have C := S.control
      unfold SchedTree.ControlWf at C ⊢
      change (c.sched.reclass id s.cls t.cls len).top.isActive .control =
        !(c.sched.reclass id s.cls t.cls len).control.isEmpty
      rw [SchedTree.isActive_control_reclass (S.classes id s h) hd, SchedTree.control_reclass]
      exact C
    unfinished := fun i u hu hfin => by
      have hu : (c.setStream id t).streams.lookup i = some u := hu
      rw [lookup_setStream_ite] at hu
      split at hu
      · rename_i hi
        cases hu
        rw [hi]
        exact hf hfin
      · exact S.unfinished i u hu hfin }

/-- A stream nobody tracked comes in with nothing to send. -/
theorem SyncedBut.addStream (S : SyncedBut busy c) (h : c.streams.lookup id = none)
    (hcls : t.cls ≠ .control) (hp : t.pending = false) (hf : t.isFinished = false) :
    SyncedBut busy { c.setStream id t with sched := c.sched.addStream id t.cls } := by
  have hc : (c.sched.inner t.cls).contains id = false := by simp [S.holds, h]
  refine ⟨⟨S.sched.addStream hc, fun cls i => ?_, fun cls i => ?_, fun i u hu => ?_⟩, S.control,
    fun i u hu hfin => ?_⟩
  · change ((c.sched.addStream id t.cls).inner cls).contains i =
      ((c.setStream id t).streams.lookup i).any _
    rw [SchedTree.contains_addStream, S.holds, lookup_setStream_ite]
    split
    · rename_i hi
      subst hi
      simp [h, eq_comm]
    · rename_i hi
      simp [hi]
  · change ((c.sched.addStream id t.cls).inner cls).isActive i =
      ((c.setStream id t).streams.lookup i).any _
    rw [SchedTree.isActive_addStream hc, S.queued, lookup_setStream_ite]
    split
    · rename_i hi
      subst hi
      simp [h, hp]
    · rfl
  · have hu : (c.setStream id t).streams.lookup i = some u := hu
    rw [lookup_setStream_ite] at hu
    split at hu
    · cases hu
      exact hcls
    · exact S.classes i u hu
  · have hu : (c.setStream id t).streams.lookup i = some u := hu
    rw [lookup_setStream_ite] at hu
    split at hu
    · cases hu
      rw [hf] at hfin
      cases hfin
    · exact S.unfinished i u hu hfin

/-! ## Close and time -/

theorem Linked.foldl_closeStream (L : Linked c) (C : c.sched.ControlWf) (ids : List StreamId) :
    Linked (ids.foldl closeStream c) ∧ (ids.foldl closeStream c).sched.ControlWf := by
  induction ids generalizing c with
  | nil => exact ⟨L, C⟩
  | cons id ids ih =>
    exact ih ((L.dropStream id).of rfl rfl) (L.controlWf_dropStream C id)

variable [ThirdParty]

/-- Closing an open connection forgets every stream, whatever state they were in. -/
theorem Linked.closeInternal (L : Linked c) (hc : c.closed = none) (reason : CloseReason)
    (sendGoaway : Bool) : Synced (c.closeInternal reason sendGoaway) := by
  have hnone : ∀ i, (c.closeInternal reason sendGoaway).streams.lookup i = none := by
    intro i
    have hcore := congrArg (fun e => e.streams i)
      (core_closeInternal hc : (c.closeInternal reason sendGoaway).core = _)
    simpa [core, Endpoint.shut] using hcore
  have L₁ : Linked (c.dropQueues reason sendGoaway) :=
    L.setSched (u := c.sched.clearControl) L.sched.clearControl rfl |>.of rfl rfl
  obtain ⟨L₂, C₂⟩ := L₁.foldl_closeStream SchedTree.controlWf_clearControl
    (c.dropQueues reason sendGoaway).sortedIds
  have hconn : (c.closeInternal reason sendGoaway).streams =
        ((c.dropQueues reason sendGoaway).sortedIds.foldl closeStream
          (c.dropQueues reason sendGoaway)).streams ∧
      (c.closeInternal reason sendGoaway).sched =
        ((c.dropQueues reason sendGoaway).sortedIds.foldl closeStream
          (c.dropQueues reason sendGoaway)).sched := by
    unfold Connection.closeInternal
    rw [if_neg (by simp [hc])]
    exact ⟨rfl, rfl⟩
  exact { L₂.of hconn.1 hconn.2 with
    control := hconn.2 ▸ C₂
    unfinished := fun i u hu _ => by
      rw [hnone i] at hu
      cases hu }

theorem Synced.closeInternal (S : Synced c) (reason : CloseReason) (sendGoaway : Bool) :
    Synced (c.closeInternal reason sendGoaway) := by
  cases hc : c.closed with
  | none => exact S.toLinked.closeInternal hc reason sendGoaway
  | some r =>
    unfold Connection.closeInternal
    rw [if_pos (by simp [hc])]
    exact S

theorem Synced.sendPing (S : Synced c) : Synced c.sendPing := by
  have S₁ : Synced { c with
      pingCounter := c.pingCounter + 1
      timers := { c.timers with pingOutstanding := some (c.pingCounter + 1) } } :=
    SyncedBut.of S rfl rfl
  exact SyncedBut.pushControl S₁ _

theorem Synced.reverify (S : Synced c) (now : Instant) (stillValid : KeyId → Bool) :
    Synced (c.reverify now stillValid) := by
  have S₁ : Synced (c.rearmReverify now) := by
    unfold rearmReverify
    split
    · exact SyncedBut.of S rfl rfl
    · exact S
  unfold Connection.reverify
  dsimp only
  split
  · exact S₁
  · exact S₁.closeInternal _ _

theorem Synced.timeoutLoop {now : Instant} {stillValid : Nat → KeyId → Bool} {fuel : Nat}
    (S : Synced c) (H : timeoutLoop now stillValid fuel c = some c') : Synced c' := by
  induction fuel generalizing c with
  | zero => cases H
  | succ fuel ih =>
    unfold Connection.timeoutLoop at H
    split at H
    · cases H
      exact S
    · split at H
      · cases H
        exact S
      · exact ih (S.closeInternal _ _) H
      · exact ih (S.closeInternal _ _) H
      · exact ih (S.reverify _ _) H
      · exact ih S.sendPing H

theorem Synced.handleTimeout {now : Instant} {stillValid : Nat → KeyId → Bool} {fuel : Nat}
    (S : Synced c) (H : c.handleTimeout now stillValid fuel = some c') : Synced c' :=
  Synced.timeoutLoop (c := c.observe now) (SyncedBut.of S rfl rfl) H

/-! ## Transmit -/

omit [ThirdParty] in
theorem Linked.pick (L : Linked c) : Linked { c with sched := c.sched.pick.1 } where
  sched := L.sched.pick
  holds cls id := by simpa using L.holds cls id
  queued cls id := by simpa using L.queued cls id
  classes := L.classes

omit [ThirdParty] in
theorem SyncedBut.pick (S : SyncedBut busy c) :
    SyncedBut busy { c with sched := c.sched.pick.1 } :=
  { S.toLinked.pick with
    control := by
      have C := S.control
      unfold SchedTree.ControlWf at C ⊢
      simpa using C
    unfinished := S.unfinished }

omit [ThirdParty] in
/-- Only the flags a peer's frame cannot see change when our OPEN leaves. -/
theorem isFinished_openSent (s : Stream) (b : Bool) :
    { s with openSent := b }.isFinished = s.isFinished := rfl

omit [ThirdParty] in
theorem Linked.onOpenSent (L : Linked c) (id : StreamId) : Linked (c.onOpenSent id) := by
  unfold Connection.onOpenSent
  split
  · exact L
  · rename_i s h
    have hpend : { s with openSent := true }.pending = s.headLen.isSome := by
      rw [s.headLen_isSome]
      rfl
    dsimp only
    split
    · rename_i len hlen
      exact L.activateStream h (t := { s with openSent := true }) rfl (by rw [hpend, hlen]; rfl) len
    · rename_i hlen
      refine L.setStream h rfl ?_
      have hempty : s.outbox.isEmpty = true := by
        have := s.headLen_isSome
        rw [hlen] at this
        simpa using this.symm
      rw [hpend, hlen, Stream.pending, hempty]
      simp

omit [ThirdParty] in
theorem onOpenSent_frame (L : Linked c) (id : StreamId) :
    (c.onOpenSent id).sched.control = c.sched.control ∧
    (c.onOpenSent id).sched.top.isActive .control = c.sched.top.isActive .control ∧
    ∀ i u, (c.onOpenSent id).streams.lookup i = some u →
      ∃ s, c.streams.lookup i = some s ∧ u.isFinished = s.isFinished := by
  unfold Connection.onOpenSent
  split
  · exact ⟨rfl, rfl, fun i u hu => ⟨u, hu, rfl⟩⟩
  · rename_i s h
    have hstreams : ∀ i u, (c.setStream id { s with openSent := true }).streams.lookup i = some u →
        ∃ s, c.streams.lookup i = some s ∧ u.isFinished = s.isFinished := by
      intro i u hu
      rw [lookup_setStream_ite] at hu
      split at hu
      · rename_i hi
        cases hu
        exact ⟨s, hi ▸ h, rfl⟩
      · exact ⟨u, hu, rfl⟩
    dsimp only
    split
    · exact ⟨SchedTree.control_activateStream ..,
        SchedTree.isActive_control_activateStream (L.classes id s h) _, hstreams⟩
    · exact ⟨rfl, rfl, hstreams⟩

omit [ThirdParty] in
/-- The control frame `frame` was picked, so the control class was backlogged. -/
theorem Synced.emitControl {frame : Frame} {rest : List Frame} (S : Synced c)
    (h : c.sched.top.isActive .control = true) :
    Synced ({ c with sched := { c.sched with control := rest } }.emitControl frame) := by
  have L₁ : Linked { c with sched := { c.sched with control := rest } } :=
    S.toLinked.setSched (S.sched.setControl rest) rfl
  have key : ∀ c₁ : Connection, Linked c₁ → c₁.sched.top.isActive .control = true →
      (∀ i u, c₁.streams.lookup i = some u → u.isFinished = false) →
      ∀ len, Synced (c₁.served .control .control len none) := by
    intro c₁ L hact hfin len
    refine { L.setSched (L.sched.servedControl .control len none) rfl with
      control := SchedTree.controlWf_servedControl .control len none hact
      unfinished := fun i u hu hf => ?_ }
    have hu : c₁.streams.lookup i = some u := hu
    rw [hfin i u hu] at hf
    cases hf
  have hfin : ∀ i u, c.streams.lookup i = some u → u.isFinished = false := fun i u hu =>
    Bool.eq_false_iff.mpr fun hf => S.unfinished i u hu hf
  unfold Connection.emitControl
  dsimp only
  split
  · obtain ⟨_, hact, hlook⟩ := onOpenSent_frame L₁ frame.streamId
    refine key _ (L₁.onOpenSent _) (hact.trans h) (fun i u hu => ?_) _
    obtain ⟨s, hs, hf⟩ := hlook i u hu
    rw [hf]
    exact hfin i s hs
  · exact key _ L₁ h hfin _

omit [ThirdParty] in
theorem Synced.emitData {payload : Bytes} {rest : List Bytes} (S : Synced c)
    (h : c.streams.lookup id = some s) (ho : s.openSent = true) (hb : s.outbox = payload :: rest) :
    Synced (c.emitData id s payload rest) := by
  have hnext : (s.popOutbox payload rest).headLen.isSome = !rest.isEmpty :=
    Stream.headLen_isSome _
  have S₁ : SyncedBut (· = id) ((c.setStream id (s.popOutbox payload rest)).served (.stream id)
      s.cls (asU32 (Frame.headerLen + payload.length)) (s.popOutbox payload rest).headLen) := by
    refine ⟨⟨S.sched.servedStream _ _ _ _, fun cls i => ?_, fun cls i => ?_, fun i u hu => ?_⟩, ?_,
      fun i u hu hf => ?_⟩
    · change ((c.sched.served (.stream id) s.cls _ _).inner cls).contains i =
        ((c.setStream id (s.popOutbox payload rest)).streams.lookup i).any _
      rw [SchedTree.contains_servedStream, S.holds, lookup_setStream_ite]
      split
      · rename_i hi
        subst hi
        simp [h, Stream.popOutbox]
      · rfl
    · change ((c.sched.served (.stream id) s.cls _ _).inner cls).isActive i =
        ((c.setStream id (s.popOutbox payload rest)).streams.lookup i).any _
      rw [SchedTree.isActive_servedStream, S.queued, lookup_setStream_ite, hnext]
      split
      · rename_i hi
        subst hi
        by_cases hk : cls = s.cls
        · simp [h, hk, Stream.popOutbox, Stream.pending, ho, hb]
        · simp [h, hk, Ne.symm hk, Stream.popOutbox]
      · rename_i hi
        simp [hi]
    · have hu : (c.setStream id (s.popOutbox payload rest)).streams.lookup i = some u := hu
      rw [lookup_setStream_ite] at hu
      split at hu
      · cases hu
        exact S.classes id s h
      · exact S.classes i u hu
    · have C := S.control
      unfold SchedTree.ControlWf at C ⊢
      change (c.sched.served (.stream id) s.cls _ _).top.isActive .control = _
      rw [SchedTree.isActive_control_servedStream (S.classes id s h), C]
      exact congrArg (fun l : List Frame => !l.isEmpty) (SchedTree.control_served ..).symm
    · have hu : (c.setStream id (s.popOutbox payload rest)).streams.lookup i = some u := hu
      rw [lookup_setStream_ite] at hu
      split at hu
      · rename_i hi
        exact hi
      · exact (S.unfinished i u hu hf).elim
  unfold Connection.emitData
  dsimp only
  split
  · exact (S₁.pushControl _).synced_maybeForget
  · exact S₁.synced_maybeForget

omit [ThirdParty] in
theorem Linked.queued_iff (L : Linked c) {cls : Class} (h : (c.sched.inner cls).isActive id = true) :
    ∃ s, c.streams.lookup id = some s ∧ s.cls = cls ∧ s.openSent = true ∧ s.outbox ≠ [] := by
  rw [L.queued] at h
  obtain ⟨s, hs, h⟩ := (Option.any_eq_true _ _).mp h
  simp only [Stream.pending, Bool.and_eq_true, decide_eq_true_eq, Bool.not_eq_true'] at h
  exact ⟨s, hs, h.1, h.2.1, by simpa using h.2.2⟩

omit [ThirdParty] in
/-- What is left to do once the scheduler has picked. -/
theorem Synced.pollTransmit_cases (S : Synced c) :
    (∃ f rest, c.priorityOut = f :: rest ∧
      c.pollTransmit = ({ c with priorityOut := rest }, some f.encode)) ∨
    (c.priorityOut = [] ∧ c.sched.hasBacklog = false ∧
      c.pollTransmit = ({ c with sched := c.sched.pick.1 }, none)) ∨
    (c.priorityOut = [] ∧ ∃ f rest, c.sched.control = f :: rest ∧
      c.sched.pick.1.top.isActive .control = true ∧
      c.pollTransmit = ({ c with sched := { c.sched.pick.1 with control := rest } }.emitControl f,
        some f.encode)) ∨
    c.priorityOut = [] ∧ ∃ id s payload rest, c.streams.lookup id = some s ∧ s.openSent = true ∧
      s.outbox = payload :: rest ∧
      c.pollTransmit = ({ c with sched := c.sched.pick.1 }.emitData id s payload rest,
        some (Frame.mk id .data payload).encode) := by
  cases hprio : c.priorityOut with
  | cons f rest => exact .inl ⟨f, rest, rfl, by simp [Connection.pollTransmit, hprio]⟩
  | nil =>
    refine .inr ?_
    have hsome := S.sched.pick_isSome
    cases hpick : c.sched.pick.2 with
    | none =>
      rw [hpick] at hsome
      exact .inl ⟨rfl, hsome.symm, by simp [Connection.pollTransmit, hprio, hpick]⟩
    | some pick =>
      cases pick with
      | control =>
        have hact := S.sched.pick_control hpick
        have hne : c.sched.control ≠ [] := by
          have C := S.control
          rw [SchedTree.ControlWf, hact] at C
          simpa using C
        obtain ⟨f, rest, hcons⟩ := List.exists_cons_of_ne_nil hne
        refine .inr (.inl ⟨rfl, f, rest, hcons, by simpa using hact, ?_⟩)
        simp [Connection.pollTransmit, hprio, hpick, hcons]
      | stream id =>
        obtain ⟨cls, hcls, hact⟩ := S.sched.pick_stream hpick
        obtain ⟨s, hs, _, ho, hne⟩ := S.toLinked.queued_iff hact
        obtain ⟨payload, rest, hcons⟩ := List.exists_cons_of_ne_nil hne
        refine .inr (.inr ⟨rfl, id, s, payload, rest, hs, ho, hcons, ?_⟩)
        simp [Connection.pollTransmit, hprio, hpick, hs, hcons]

omit [ThirdParty] in
theorem Synced.pollTransmit (S : Synced c) : Synced c.pollTransmit.1 := by
  have S₁ : Synced { c with sched := c.sched.pick.1 } := SyncedBut.pick S
  rcases S.pollTransmit_cases with ⟨f, rest, _, h⟩ | ⟨_, _, h⟩ | ⟨_, f, rest, _, hact, h⟩ |
    ⟨_, id, s, payload, rest, hs, ho, hb, h⟩ <;> rw [h]
  · exact SyncedBut.of S rfl rfl
  · exact S₁
  · exact S₁.emitControl hact
  · exact S₁.emitData hs ho hb

omit [ThirdParty] in
/-- `wants_transmit` says whether the next `poll_transmit` produces a frame. -/
theorem Synced.wantsTransmit_eq (S : Synced c) : c.wantsTransmit = c.pollTransmit.2.isSome := by
  unfold wantsTransmit
  rcases S.pollTransmit_cases with ⟨f, rest, hp, h⟩ | ⟨hp, hb, h⟩ | ⟨hp, f, rest, hc, _, h⟩ |
    ⟨hp, id, s, payload, rest, hs, ho, hb, h⟩ <;> rw [h, hp]
  · rfl
  · rw [hb]
    rfl
  · have : c.sched.hasBacklog = true :=
      (S.sched.hasBacklog_iff S.control).mpr (.inl (by simp [hc]))
    rw [this]
    rfl
  · have : c.sched.hasBacklog = true := by
      refine (S.sched.hasBacklog_iff S.control).mpr (.inr ⟨s.cls, id, S.classes id s hs, ?_⟩)
      simp [S.queued, hs, Stream.pending, ho, hb]
    rw [this]
    rfl

/-! ## Receive -/

/-- What a handler leaves behind: after an error the connection closes. -/
def Settles (o : Outcome) : Prop :=
  match o.2 with
  | .ok () => Synced o.1
  | .error _ => Linked o.1 ∧ o.1.closed = none

omit [ThirdParty] in
theorem Synced.settles_error (S : Synced c) (hc : c.closed = none) (e : ProtocolError) :
    Settles (c, .error e) := ⟨S.toLinked, hc⟩

omit [ThirdParty] in
theorem Synced.settles_decoding {α : Type} {codec : Codec α} {f : Frame} {k : α → Outcome}
    (S : Synced c) (hc : c.closed = none) (hk : ∀ a, Settles (k a)) :
    Settles (c.decoding codec f k) := by
  unfold Connection.decoding
  split
  · exact S.settles_error hc _
  · exact hk _

omit [ThirdParty] in
theorem Synced.settles_afterAuth {k : Connection → Outcome} (S : Synced c) (hc : c.closed = none)
    (hk : c.hs = .done → Settles (k c)) : Settles (c.afterAuth k) := by
  unfold Connection.afterAuth
  split
  · rename_i hs
    exact hk hs
  · exact S.settles_error hc _

omit [ThirdParty] in
theorem Synced.settles_withStream {k : Stream → Outcome} (S : Synced c) (hc : c.closed = none)
    (hk : ∀ s, c.streams.lookup id = some s → Settles (k s)) : Settles (c.withStream id k) := by
  unfold Connection.withStream
  split
  · exact S.settles_error hc _
  · exact S
  · rename_i s h
    exact hk s (streamMut_some h)

theorem Synced.onChallenge (S : Synced c) (hc : c.closed = none) (f : Frame) :
    Settles (c.onChallenge f) := by
  unfold Connection.onChallenge
  split
  · exact S.settles_error hc _
  split
  · exact S.settles_error hc _
  · refine S.settles_decoding hc fun ch => ?_
    dsimp only
    split
    · exact S.closeInternal _ _
    · exact SyncedBut.of S rfl rfl

theorem Synced.rejectHandshake (S : Synced c) (code : RejectCode) (message : String) :
    Synced (c.rejectHandshake code message) :=
  Synced.closeInternal (c := c.pushPriority _) (SyncedBut.of S rfl rfl) _ _

theorem Synced.onHello (S : Synced c) (hc : c.closed = none) (now : Instant) (f : Frame) :
    Settles (c.onHello now f) := by
  unfold Connection.onHello
  split
  · exact S.settles_error hc _
  split
  · exact S.settles_error hc _
  · refine S.settles_decoding hc fun hello => ?_
    split
    · exact S.rejectHandshake _ _
    split
    · exact S.rejectHandshake _ _
    dsimp only
    split
    · exact S.rejectHandshake _ _
    · exact SyncedBut.of S rfl rfl

/-- The scheduler is rebuilt before there is a stream. -/
theorem Synced.onWelcome {P : Params} (S : Synced c) (G : c.core.Good P) (hc : c.closed = none)
    (now : Instant) (f : Frame) : Settles (c.onWelcome now f) := by
  unfold Connection.onWelcome
  split
  · exact S.settles_error hc _
  rename_i hcond
  refine S.settles_decoding hc fun w => ?_
  split
  · exact S.settles_error hc _
  split
  · exact S.settles_error hc _
  have hnone : ∀ i, c.streams.lookup i = none := by
    intro i
    have hs : c.core.hs ≠ .done := fun h => hcond (.inr fun h' => by
      rw [show c.hs = .done from h] at h'
      cases h')
    have hidle := (G.idle fun hr => hs hr.done).1 i
    simpa [core] using hidle
  refine ⟨⟨SchedTree.wf_new _ _, fun cls i => ?_, fun cls i => ?_, fun i u hu => ?_⟩,
    SchedTree.controlWf_new _ _, fun i u hu _ => ?_⟩
  · change _ = (c.streams.lookup i).any _
    rw [hnone i]
    rfl
  · change _ = (c.streams.lookup i).any _
    rw [hnone i]
    rfl
  · have hu : c.streams.lookup i = some u := hu
    rw [hnone i] at hu
    cases hu
  · have hu : c.streams.lookup i = some u := hu
    rw [hnone i] at hu
    cases hu

theorem Synced.onReject (S : Synced c) (hc : c.closed = none) (f : Frame) :
    Settles (c.onReject f) := by
  unfold Connection.onReject
  split
  · exact S.settles_error hc _
  · refine S.settles_decoding hc fun r => ?_
    exact Synced.closeInternal (c := c.pushEvent _) (SyncedBut.pushEvent S _) _ _

theorem Synced.onStreamOpen {P : Params} (S : Synced c) (G : c.core.Good P) (hc : c.closed = none)
    (f : Frame) : Settles (c.onStreamOpen f) := by
  unfold Connection.onStreamOpen
  dsimp only
  split
  · exact S.settles_error hc _
  rename_i hcond
  refine S.settles_decoding hc fun cls => ?_
  split
  · exact S.settles_error hc _
  rename_i hcls
  have hnone : c.streams.lookup f.streamId = none := by
    cases h : c.streams.lookup f.streamId with
    | none => rfl
    | some s =>
      refine absurd ?_ hcond
      have hk := (G.streams _ _ _ (core_streams h)).2.1
      have hk := known_iff.mpr hk
      unfold known at hk
      by_cases hp : (f.streamId % 2 == 1) = c.peerOpensOdd
      · rw [if_pos (by simp [hp])] at hk
        exact .inr (by simpa using hk)
      · exact .inl (by simpa using hp)
  have S₁ := SyncedBut.addStream (t := .new cls c.paramsInForce.initialWindow.toNat true) S hnone
    hcls rfl rfl
  have S₂ : Synced { c.setStream f.streamId
      (.new cls c.paramsInForce.initialWindow.toNat true) with
        sched := c.sched.addStream f.streamId cls
        lastPeerStreamId := f.streamId } := SyncedBut.of S₁ rfl rfl
  exact SyncedBut.pushEvent S₂ _

omit [ThirdParty] in
/-- A stream whose remote half is open is not finished. -/
theorem isFinished_of_remoteOpen (h : s.remoteOpen = true) : s.isFinished = false := by
  simp [Stream.isFinished, Stream.remoteDrained, h]

theorem Synced.onData (S : Synced c) (hc : c.closed = none) (f : Frame) : Settles (c.onData f) := by
  unfold Connection.onData
  dsimp only
  split
  · exact S.settles_error hc _
  rename_i data more _
  refine S.settles_withStream hc fun s hs => ?_
  split
  · exact S.settles_error hc _
  rename_i hopen
  have hopen : s.remoteOpen = true := by simpa using hopen
  split
  · exact S.settles_error hc _
  rename_i recv _
  have S₁ : Synced ((c.setStream f.streamId { s with recv }).report f.streamId
      (asU32 f.payload.length) 0) := by
    refine SyncedBut.report (SyncedBut.setStream (t := { s with recv }) S hs rfl rfl fun hf => ?_)
      _ _ _
    rw [isFinished_of_remoteOpen (s := { s with recv }) hopen] at hf
    cases hf
  obtain ⟨r, hr⟩ := report_eq (c := c.setStream f.streamId { s with recv }) f.streamId
    (asU32 f.payload.length) 0
  split
  · refine ⟨S₁.toLinked, ?_⟩
    dsimp only
    rw [hr]
    exact hc
  · have hlook : ((c.setStream f.streamId { s with recv }).report f.streamId
        (asU32 f.payload.length) 0).streams.lookup f.streamId = some { s with recv } := by
      rw [hr]
      exact lookup_setStream
    have hdel : (deliverData s recv (asU32 f.payload.length) data more).remoteOpen = true := by
      cases more <;> exact hopen
    have S₂ := SyncedBut.setStream (t := deliverData s recv (asU32 f.payload.length) data more) S₁
      hlook (by cases more <;> rfl) (by cases more <;> rfl) fun hf => by
        rw [isFinished_of_remoteOpen hdel] at hf
        cases hf
    change Synced _
    split
    · exact SyncedBut.pushEvent S₂ _
    · exact S₂

omit [ThirdParty] in
theorem Synced.onFin (S : Synced c) (hc : c.closed = none) (f : Frame) : Settles (c.onFin f) := by
  unfold Connection.onFin
  dsimp only
  refine S.settles_withStream hc fun s hs => ?_
  split
  · exact S.settles_error hc _
  have L₁ : Linked (c.setStream f.streamId { s with remoteOpen := false }) :=
    S.toLinked.setStream hs rfl rfl
  split
  · exact ⟨L₁, hc⟩
  change Synced _
  split
  · refine SyncedBut.synced_finishedStream ?_
    exact SyncedBut.setStream (S.mono fun _ h => h.elim) hs rfl rfl fun _ => rfl
  · rename_i hne
    refine SyncedBut.setStream S hs rfl rfl fun hf => hne ?_
    simp only [Stream.isFinished, Stream.remoteDrained, Bool.and_eq_true] at hf
    exact hf.2.2

theorem Synced.onRst (S : Synced c) (hc : c.closed = none) (f : Frame) : Settles (c.onRst f) := by
  unfold Connection.onRst
  dsimp only
  refine S.settles_decoding hc fun rst => S.settles_withStream hc fun s _ => ?_
  exact SyncedBut.pushEvent ((SyncedBut.dropStream S f.streamId).mono fun _ h => h.1) _

theorem Synced.onWindowUpdate (S : Synced c) (hc : c.closed = none) (f : Frame) :
    Settles (c.onWindowUpdate f) := by
  unfold Connection.onWindowUpdate
  dsimp only
  refine S.settles_decoding hc fun wu => S.settles_withStream hc fun s hs => ?_
  have S₁ : ∀ b, Synced (c.setStream f.streamId { s with
      send := s.send.grant wu.credit.toNat
      wantsWritable := b }) := fun b =>
    SyncedBut.setStream S hs rfl rfl fun hf => S.unfinished _ s hs hf
  split
  · exact SyncedBut.pushEvent (S₁ false) _
  · exact S₁ _

theorem Synced.dispatch {P : Params} (S : Synced c) (G : c.core.Good P) (hc : c.closed = none)
    (now : Instant) (f : Frame) : Settles (c.dispatch now f) := by
  unfold Connection.dispatch
  split
  · cases f.frameType with
    | challenge => exact S.onChallenge hc f
    | hello => exact S.onHello hc now f
    | welcome => exact S.onWelcome G hc now f
    | reject => exact S.onReject hc f
    | goaway => exact S.settles_decoding hc fun g => S.closeInternal _ _
    | ping =>
      refine S.settles_afterAuth hc fun _ => S.settles_decoding hc fun p => ?_
      exact SyncedBut.pushControl S _
    | pong =>
      refine S.settles_afterAuth hc fun _ => S.settles_decoding hc fun p => ?_
      change Synced _
      split
      · exact SyncedBut.of S rfl rfl
      · exact S
    | «open» | data | fin | rst | windowUpdate => exact S.settles_error hc _
  · refine S.settles_afterAuth hc fun _ => ?_
    cases f.frameType with
    | «open» => exact S.onStreamOpen G hc f
    | data => exact S.onData hc f
    | fin => exact S.onFin hc f
    | rst => exact S.onRst hc f
    | windowUpdate => exact S.onWindowUpdate hc f
    | challenge | hello | welcome | reject | ping | pong | goaway => exact S.settles_error hc _

theorem Synced.recv {P : Params} (S : Synced c) (G : c.core.Good P) (now : Instant) (bytes : Bytes) :
    Synced (c.recv now bytes).1 := by
  have S₁ : Synced (c.observe now) := SyncedBut.of S rfl rfl
  unfold Connection.recv
  dsimp only
  split
  · exact S₁
  rename_i hc
  have hc : (c.observe now).closed = none := by simpa using hc
  split
  · exact S₁.closeInternal _ _
  · rename_i f _
    unfold recvFrame
    dsimp only
    have S₂ : Synced { c.observe now with
        timers := (c.observe now).timers.onRecv (c.observe now).timers.lastNow } :=
      SyncedBut.of S₁ rfl rfl
    have h := S₂.dispatch (P := P) G hc (c.observe now).timers.lastNow f
    split
    · rename_i c' heq
      rw [heq] at h
      exact h
    · rename_i c' e heq
      rw [heq] at h
      exact h.1.closeInternal h.2 _ _

/-! ## Calls -/

theorem lookup_next {P : Params} (G : c.core.Good P) :
    c.streams.lookup c.nextStreamId = none := by
  cases h : c.streams.lookup c.nextStreamId with
  | none => rfl
  | some s => exact absurd (G.streams _ _ _ (core_streams h)).2.1 G.not_known_next

theorem Synced.open {P : Params} (S : Synced c) (G : c.core.Good P) (cls : Class) :
    Synced (c.open cls).1 := by
  unfold Connection.open
  split
  · exact S
  split
  · exact S
  rename_i hcls
  dsimp only
  split
  · exact S
  have S₁ := SyncedBut.addStream (t := .new cls c.paramsInForce.initialWindow.toNat false) S
    (lookup_next G) hcls rfl rfl
  have S₂ : Synced { c.setStream c.nextStreamId
      (.new cls c.paramsInForce.initialWindow.toNat false) with
        nextStreamId := c.nextStreamId + 2
        sched := c.sched.addStream c.nextStreamId cls } := SyncedBut.of S₁ rfl rfl
  exact SyncedBut.pushControl S₂ _

omit [ThirdParty] in
theorem demote_ne_control {threshold : Option Nat} {cls : Class} {n : Nat} (h : cls ≠ .control) :
    demote threshold cls n ≠ .control := by
  unfold demote
  split
  · split <;> rintro ⟨⟩
  · exact h

theorem Synced.send (S : Synced c) (id : StreamId) (msg : Bytes) (compress : Compress) :
    Synced (c.send id msg compress).1 := by
  unfold Connection.send
  split
  · exact S
  dsimp only
  split
  · exact S
  split
  · exact S
  rename_i s hs
  split
  · exact S
  rename_i hopen
  have hopen : s.localOpen = true := by simpa using hopen
  split
  · exact SyncedBut.setStream S hs rfl rfl fun hf => S.unfinished id s hs hf
  generalize hout : payloads _ _ _ = out
  generalize hcls : demote _ _ _ = cls
  have hctl : cls ≠ .control := hcls ▸ demote_ne_control (S.classes id s hs)
  -- the byte sink changes nothing the scheduler sees
  obtain ⟨r, hr⟩ := foldl_report_eq (c := c.setStream id (s.pushOutbox cls out msg.length)) id out
  rw [hr]
  have S₀ : Synced { c with reports := r } := SyncedBut.of S rfl rfl
  have hfin : (s.pushOutbox cls out msg.length).isFinished = true → False := fun hf => by
    simp [Stream.isFinished, Stream.pushOutbox, hopen] at hf
  have hlen : (if s.openSent then (s.pushOutbox cls out msg.length).headLen else none).isSome =
      (s.pushOutbox cls out msg.length).pending := by
    have := (s.pushOutbox cls out msg.length).headLen_isSome
    cases ho : s.openSent <;> simp [Stream.pending, Stream.pushOutbox, ho, Stream.headLen_isSome]
  split
  · rename_i hne
    exact SyncedBut.reclass (t := s.pushOutbox cls out msg.length) S₀ hs (Ne.symm hne) hctl hlen hfin
  · rename_i heq
    have heq : cls = s.cls := not_not.mp heq
    subst heq
    split
    · rename_i len hl
      rw [hl] at hlen
      exact SyncedBut.activateStream (t := s.pushOutbox s.cls out msg.length) S₀ hs rfl hlen.symm
        hfin len
    · rename_i hl
      rw [hl] at hlen
      refine SyncedBut.setStream (t := s.pushOutbox s.cls out msg.length) S₀ hs rfl ?_ hfin
      rw [← hlen]
      simp only [Stream.pending, Stream.pushOutbox, Option.isSome_none] at hlen ⊢
      cases ho : s.openSent
      · rfl
      · rw [ho] at hlen
        cases hb : s.outbox with
        | nil => rfl
        | cons p ps => simp [hb] at hlen

omit [ThirdParty] in
theorem Synced.finish (S : Synced c) (id : StreamId) : Synced (c.finish id).1 := by
  unfold Connection.finish
  split
  · exact S
  split
  · exact S
  rename_i s hs
  split
  · exact S
  dsimp only
  split
  · refine SyncedBut.synced_maybeForget (SyncedBut.pushControl ?_ _)
    exact SyncedBut.setStream (S.mono fun _ h => h.elim) hs rfl rfl fun _ => rfl
  · rename_i hne
    refine SyncedBut.setStream S hs rfl rfl fun hf => hne ?_
    simp only [Stream.isFinished, Bool.and_eq_true] at hf
    exact hf.1.2

theorem Synced.reset (S : Synced c) (id : StreamId) (code : UInt32) : Synced (c.reset id code).1 := by
  unfold Connection.reset
  split
  · exact S
  split
  · exact S
  · exact SyncedBut.pushControl ((SyncedBut.dropStream S id).mono fun _ h => h.1) _

theorem Synced.recvMsg (S : Synced c) (id : StreamId) : Synced (c.recvMsg id).1 := by
  unfold Connection.recvMsg
  split
  · exact S
  split
  · exact S
  rename_i s hs
  split
  · exact S
  rename_i msg wireLen rest _
  split
  · rename_i hopen
    have S₁ : Synced (c.setStream id { s with
        inbox := rest, recv := (s.recv.onConsumed wireLen).1 }) := by
      refine SyncedBut.setStream S hs rfl rfl fun hf => ?_
      rw [isFinished_of_remoteOpen (s := { s with
        inbox := rest, recv := (s.recv.onConsumed wireLen).1 }) hopen] at hf
      cases hf
    dsimp only
    split
    · exact SyncedBut.pushControl S₁ _
    · exact S₁
  · dsimp only
    split
    · refine SyncedBut.synced_finishedStream ?_
      exact SyncedBut.setStream (S.mono fun _ h => h.elim) hs rfl rfl fun _ => rfl
    · rename_i hne
      refine SyncedBut.setStream S hs rfl rfl fun hf => hne ?_
      simp only [Stream.isFinished, Stream.remoteDrained, Bool.and_eq_true] at hf
      exact hf.2.2

omit [ThirdParty] in
theorem Synced.setClass (S : Synced c) (id : StreamId) (cls : Class) :
    Synced (c.setClass id cls).1 := by
  unfold Connection.setClass
  split
  · exact S
  split
  · exact S
  rename_i hctl
  split
  · exact S
  rename_i s hs
  split
  · exact S
  rename_i hne
  refine SyncedBut.reclass (t := { s with cls }) S hs hne hctl ?_ fun hf => S.unfinished id s hs hf
  cases s.openSent <;> simp [Stream.pending, Stream.headLen_isSome]

end Connection

namespace Connection

theorem synced_fresh (cfg : Config) (now : Instant) (hs : HandshakeState) (maxFrame next : Nat)
    (nonceS : Option (ByteArr 32)) (reverify : Option Duration) (priorityOut : List Frame) :
    Synced (fresh cfg now hs maxFrame next nonceS reverify priorityOut) where
  sched := SchedTree.wf_new _ _
  holds _ _ := rfl
  queued _ _ := rfl
  classes := (by rintro _ _ ⟨⟩)
  control := SchedTree.controlWf_new _ _
  unfinished := (by rintro _ _ ⟨⟩)

variable [ThirdParty] {c c' : Connection}

theorem synced_new (cfg : Config) (now : Instant) : Synced (.new cfg now) := by
  unfold Connection.new
  dsimp only
  split <;> exact synced_fresh ..

end Connection

/-! ## Runs -/

namespace Node

open Connection (Synced)

variable [ThirdParty] {n n' : Node}

theorem call_synced {P : Params} (S : n.conn.Synced) (G : n.conn.core.Good P) (k : Call) :
    (n.call k).conn.Synced := by
  cases k with
  | «open» cls => exact S.open G cls
  | send id msg compress =>
    have h := S.send id msg compress
    dsimp only [Node.call]
    split <;> exact h
  | recvMsg id =>
    have h := S.recvMsg id
    dsimp only [Node.call]
    split <;> exact h
  | finish id => exact S.finish id
  | reset id code => exact S.reset id code
  | setClass id cls => exact S.setClass id cls
  | close reason => exact S.closeInternal _ _
  | pollEvent =>
    change Synced n.conn.pollEvent.1
    unfold Connection.pollEvent
    split
    · exact S
    · exact Connection.SyncedBut.of S rfl rfl
  | setBytesSink => exact Connection.SyncedBut.of S rfl rfl

theorem face_synced {x : Input} (hs : n.conn.Sound) (H : n.face x = some n') (S : n.conn.Synced) :
    n'.conn.Synced := by
  obtain ⟨P, _, _, G⟩ := hs
  cases x with
  | call k =>
    cases H
    exact call_synced S G k
  | handleTimeout now stillValid fuel =>
    obtain ⟨conn, hconn, rfl⟩ := Option.map_eq_some_iff.mp H
    exact S.handleTimeout hconn
  | pollTransmit =>
    cases H
    exact S.pollTransmit
  | recv now bytes =>
    cases H
    exact S.recv G now bytes

theorem exposed_synced {cfg : Config} {now : Instant} {inputs : List Input}
    (H : exposed cfg now inputs = some n) : n.conn.Synced :=
  (exposed_induction (I := fun n => n.conn.Synced) (Connection.synced_new cfg now)
    (fun S H hn => face_synced S H hn) H).2

end Node

/-! ## Draining -/

namespace Connection

variable {c c' : Connection} {id : StreamId} {s t : Stream}

/-- Nothing is queued. -/
structure Drained (c : Connection) : Prop where
  priority : c.priorityOut = []
  control : c.sched.control = []
  outbox : ∀ id s, c.streams.lookup id = some s → s.outbox = []

/-- A bound on the frames to send: a DATA frame may bring a FIN with it. -/
def backlog (c : Connection) : Nat :=
  c.priorityOut.length + c.sched.control.length + 2 * c.streams.total (·.outbox.length)

theorem total_setStream (h : c.streams.lookup id = some s) :
    (c.setStream id t).streams.total (·.outbox.length) + s.outbox.length =
      c.streams.total (·.outbox.length) + t.outbox.length := by
  rw [Map.total_erase _ h, setStream, Map.total_insert]
  omega

theorem total_dropStream_le (id : StreamId) :
    (c.dropStream id).streams.total (·.outbox.length) ≤ c.streams.total (·.outbox.length) := by
  unfold dropStream
  split
  · exact Nat.le.refl
  · rename_i s h
    rw [Map.total_erase _ h]
    exact Nat.le_add_left ..

theorem backlog_maybeForget_le (id : StreamId) : (c.maybeForget id).backlog ≤ c.backlog := by
  unfold maybeForget
  split
  · exact Nat.le.refl
  · split
    · have htotal := total_dropStream_le (c := c) id
      have hframe : (c.dropStream id).priorityOut = c.priorityOut ∧
          (c.dropStream id).sched.control = c.sched.control := by
        unfold dropStream
        split <;> simp
      simp only [backlog, hframe]
      omega
    · exact Nat.le.refl

theorem backlog_onOpenSent (id : StreamId) : (c.onOpenSent id).backlog = c.backlog := by
  unfold onOpenSent
  split
  · rfl
  · rename_i s h
    have htotal := total_setStream (t := { s with openSent := true }) h
    have hset : (c.setStream id { s with openSent := true }).backlog = c.backlog := by
      have h₁ : (c.setStream id { s with openSent := true }).priorityOut = c.priorityOut := rfl
      have h₂ : (c.setStream id { s with openSent := true }).sched = c.sched := rfl
      simp only [backlog, h₁, h₂] at htotal ⊢
      omega
    dsimp only
    split
    · rw [← hset]
      simp [backlog, activateStream]
    · exact hset

/-- Every frame sent leaves fewer to send. -/
theorem Synced.backlog_pollTransmit_lt (S : Synced c) (h : c.wantsTransmit = true) :
    c.pollTransmit.1.backlog < c.backlog := by
  rcases S.pollTransmit_cases with ⟨f, rest, hp, hpoll⟩ | ⟨hp, hb, hpoll⟩ |
    ⟨hp, f, rest, hc, _, hpoll⟩ | ⟨hp, id, s, payload, rest, hs, ho, hb, hpoll⟩ <;> rw [hpoll]
  · simp only [backlog, hp, List.length_cons]
    omega
  · simp [wantsTransmit, hp, hb] at h
  · have hserved : ∀ c₁ : Connection, (c₁.served .control .control (asU32 f.wireLen) none).backlog =
        c₁.backlog := fun c₁ => by simp [backlog, served]
    have hpop : Connection.backlog { c with sched := { c.sched.pick.1 with control := rest } } + 1 =
        c.backlog := by
      simp only [backlog, hc, List.length_cons]
      omega
    unfold Connection.emitControl
    dsimp only
    rw [hserved]
    split
    · rw [backlog_onOpenSent]
      exact Nat.lt_of_succ_le (Nat.le_of_eq hpop)
    · exact Nat.lt_of_succ_le (Nat.le_of_eq hpop)
  · have htotal := total_setStream (c := { c with sched := c.sched.pick.1 })
      (t := s.popOutbox payload rest) hs
    have hfin : ∀ c₁ : Connection, (c₁.queueFin id).backlog = c₁.backlog + 1 := fun c₁ => by
      simp only [backlog, queueFin, pushControl, SchedTree.control_pushControl, List.length_append,
        List.length_singleton]
      omega
    have hserved : (({ c with sched := c.sched.pick.1 }.setStream id
        (s.popOutbox payload rest)).served (.stream id) s.cls
          (asU32 (Frame.headerLen + payload.length)) (s.popOutbox payload rest).headLen).backlog + 2 ≤
        c.backlog := by
      simp only [backlog, served, SchedTree.control_served, setStream, SchedTree.control_pick,
        hb, Stream.popOutbox, List.length_cons] at htotal ⊢
      omega
    unfold Connection.emitData
    dsimp only
    refine Nat.lt_of_le_of_lt (backlog_maybeForget_le id) ?_
    split
    · rw [hfin]
      omega
    · omega

variable [ThirdParty] {P : Params}

/-- A connection that has nothing to transmit has nothing queued: a stream whose OPEN has not left
has it in the control queue. -/
theorem Synced.drained (S : Synced c) (G : c.core.Good P) (h : c.wantsTransmit = false) :
    Drained c := by
  simp only [wantsTransmit, Bool.or_eq_false_iff, Bool.not_eq_false'] at h
  have hnot := mt (S.sched.hasBacklog_iff S.control).mpr (Bool.eq_false_iff.mp h.2)
  rw [not_or, not_not] at hnot
  refine ⟨List.isEmpty_iff.mp h.1, hnot.1, fun id s hs => ?_⟩
  by_contra hne
  cases ho : s.openSent with
  | true =>
    refine hnot.2 ⟨s.cls, id, S.classes id s hs, ?_⟩
    simp [S.queued, hs, Stream.pending, ho, hne]
  | false =>
    obtain ⟨_, _, hg⟩ := G.streams _ _ _ (core_streams hs)
    obtain ⟨f, _, hq⟩ := hg.unsent (.inr hne) ho
    have hnil : streamFrames id c.core.control = [] := by
      have : c.core.control = [] := hnot.1
      rw [this]
      rfl
    rw [hnil] at hq
    cases hq

end Connection

namespace Node

variable [ThirdParty] {n n' : Node}

/-- Transmitting until there is nothing to transmit empties every queue. -/
theorem exposed_drains {cfg : Config} {now : Instant} {inputs : List Input}
    (H : exposed cfg now inputs = some n) : ∃ k n',
      Automaton.run face n (List.replicate k .pollTransmit) = some n' ∧ n'.conn.Drained := by
  generalize hb : n.conn.backlog = b
  induction b using Nat.strong_induction_on generalizing n inputs with
  | h b ih =>
    have S := exposed_synced H
    obtain ⟨P, _, _, G⟩ := exposed_sound H
    cases hw : n.conn.wantsTransmit with
    | false => exact ⟨0, n, rfl, S.drained G hw⟩
    | true =>
      have H₁ : exposed cfg now (inputs ++ [.pollTransmit]) =
          some { n with conn := n.conn.pollTransmit.1,
                        wire := n.wire ++ n.conn.pollTransmit.2.toList } :=
        Automaton.run_append_eq_some.mpr ⟨n, H, Automaton.run_singleton ..⟩
      obtain ⟨k, n', hrun, hd⟩ := ih _ (hb ▸ S.backlog_pollTransmit_lt hw) H₁ rfl
      exact ⟨k + 1, n', Automaton.run_cons_eq_some.mpr ⟨_, rfl, hrun⟩, hd⟩

end Node

/-! ## Agreement -/

/-- The stream table, the three inner schedulers, the top scheduler and the control queue tell the
same story. -/
structure Connection.Agrees (c : Connection) : Prop where
  flow : ∀ id s, c.streams.lookup id = some s →
    s.cls ≠ .control ∧ ∀ cls, (c.sched.inner cls).contains id = true ↔ cls = s.cls
  tracked : ∀ cls id, (c.sched.inner cls).contains id = true → ∃ s, c.streams.lookup id = some s
  backlogged : ∀ id s, c.streams.lookup id = some s →
    ((c.sched.inner s.cls).isActive id = true ↔ s.outbox ≠ [] ∧ s.openSent = true)
  data : ∀ cls, cls ≠ .control →
    (c.sched.top.isActive cls = true ↔ ∃ id, (c.sched.inner cls).isActive id = true)
  control : c.sched.top.isActive .control = true ↔ c.sched.control ≠ []
  unfinished : ∀ id s, c.streams.lookup id = some s → s.isFinished = false
  wants : c.wantsTransmit = c.pollTransmit.2.isSome

theorem Connection.Synced.agrees {c : Connection} (S : c.Synced) : c.Agrees where
  flow id s hs := by
    refine ⟨S.classes id s hs, fun cls => ?_⟩
    simp [S.holds, hs, eq_comm]
  tracked cls id h := by
    rw [S.holds] at h
    obtain ⟨s, hs, _⟩ := (Option.any_eq_true _ _).mp h
    exact ⟨s, hs⟩
  backlogged id s hs := by
    simp [S.queued, hs, Stream.pending, and_comm]
  data cls hcls := by
    rw [S.sched.data cls hcls]
    exact (S.sched.inner cls).hasBacklog_iff
  control := by
    rw [S.control]
    simp
  unfinished id s hs := Bool.eq_false_iff.mpr fun hf => S.unfinished id s hs hf
  wants := S.wantsTransmit_eq

section
variable [ThirdParty]

/-- In every state an open connection reaches, the stream table and the scheduler agree, and no
queued frame is stranded: transmitting empties every queue. -/
theorem table_scheduler_agree {cfg : Config} {now : Instant} {inputs : List Input} {n : Node}
    (H : Node.exposed cfg now inputs = some n) (_ho : n.conn.closed = none) :
    n.conn.Agrees ∧ ∃ k n', Automaton.run Node.face n (List.replicate k .pollTransmit) = some n' ∧
      n'.conn.Drained :=
  ⟨(Node.exposed_synced H).agrees, Node.exposed_drains H⟩

end

open scoped Sample in
theorem table_scheduler_agree_busy : ∃ n, Node.exposed Sample.setup.server 0 Sample.busy = some n ∧
    n.conn.wantsTransmit = true ∧ n.conn.Agrees := by
  have h : (Node.exposed Sample.setup.server 0 Sample.busy).any (fun n =>
    n.conn.closed.isNone && n.conn.wantsTransmit) = true := by decide +kernel
  obtain ⟨n, hn, hc⟩ := (Option.any_eq_true _ _).mp h
  rw [Bool.and_eq_true, Option.isNone_iff_eq_none] at hc
  exact ⟨n, hn, hc.2, (table_scheduler_agree hn hc.1).1⟩

end TunnelWeaver.Mux
