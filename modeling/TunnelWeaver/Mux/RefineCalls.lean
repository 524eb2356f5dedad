import TunnelWeaver.Mux.Refine

/-! Deadlines, transmission and the stream API of a `Connection` as steps of its core. -/

namespace TunnelWeaver.Mux.Connection

open Endpoint (Silent Act Step)

section
variable {P : Params} {c c' : Connection} {id : StreamId} {s s' : Stream}

theorem core_ready (h : c.ready = .ok ()) : c.core.Ready := by
  unfold ready at h
  split at h
  · cases h
  · rename_i hc
    split at h
    · cases h
    · rename_i hs
      exact ⟨Decidable.not_not.mp hs, by simpa [core] using hc⟩

theorem Wf.pushControl (W : Wf P c) (f : Frame) : Wf P (c.pushControl f) :=
  W.of rfl rfl rfl rfl (fun h => h) fun i hi => W.active i (SchedTree.active_pushControl.mp hi)

/-- A stream changes without its OPEN being forgotten. -/
theorem Wf.setStream (W : Wf P c) (h : c.streams.lookup id = some s) (t : Stream)
    (ho : s.openSent = true → t.openSent = true) : Wf P (c.setStream id t) := by
  refine W.of rfl rfl rfl rfl (fun h => h) fun i hi => ?_
  obtain ⟨hk, hopen⟩ := W.active i hi
  refine ⟨hk, fun t' ht => ?_⟩
  rw [Connection.setStream, Map.lookup_insert_ite] at ht
  split at ht
  · rename_i heq
    cases ht
    exact ho (hopen s (heq ▸ h))
  · exact hopen t' ht

theorem core_setStream_same (h : c.streams.lookup id = some s) (hsend : s'.sendHalf = s.sendHalf)
    (hrecv : s'.recvHalf = s.recvHalf) : (c.setStream id s').core = c.core := by
  rw [core_setStream, hsend, hrecv, ← core_streams h]
  simp [Endpoint.set]

theorem lookup_setStream : (c.setStream id s).streams.lookup id = some s := by
  simp [setStream]

/-- The scheduler changes, without picking streams it could not pick before, except `id`. -/
theorem Wf.setSched (W : Wf P c) {sched : SchedTree} (id : StreamId)
    (ha : ∀ i, sched.Active i → c.sched.Active i ∨ i = id ∧ c.core.Known id ∧
      ∀ s, c.streams.lookup id = some s → s.openSent = true) : Wf P { c with sched } := by
  refine W.of rfl rfl rfl rfl (fun h => h) fun i hi => ?_
  rcases ha i hi with hi | ⟨rfl, hk, ho⟩
  · exact W.active i hi
  · exact ⟨hk, ho⟩

theorem core_setSched {sched : SchedTree} (hcontrol : sched.control = c.sched.control) :
    { c with sched }.core = c.core := by
  simp [core, hcontrol]

@[simp] theorem core_served (pick : Pick) (cls : Class) (len : Nat) (next : Option Nat) :
    (c.served pick cls len next).core = c.core := core_setSched (by simp)

theorem Wf.served (W : Wf P c) {pick : Pick} {cls : Class} {len : Nat} {next : Option Nat} :
    Wf P (c.served pick cls len next) := W.setSched 0 fun _ hi => .inl hi.of_served

@[simp] theorem core_activateStream (cls : Class) (len : Nat) :
    (c.activateStream id cls len).core = c.core := core_setSched (by simp)

theorem Wf.activateStream (W : Wf P c) {cls : Class} {len : Nat} (hk : c.core.Known id)
    (ho : ∀ s, c.streams.lookup id = some s → s.openSent = true) :
    Wf P (c.activateStream id cls len) :=
  W.setSched id fun i hi => by
    rcases hi.of_activateStream with hi | hi
    · exact .inl hi
    · exact .inr ⟨hi, hk, ho⟩

@[simp] theorem core_reclass (src dst : Class) (len : Option Nat) :
    (c.reclass id src dst len).core = c.core := core_setSched (by simp)

theorem Wf.reclass (W : Wf P c) {src dst : Class} {len : Option Nat} (hk : c.core.Known id)
    (ho : len.isSome → ∀ s, c.streams.lookup id = some s → s.openSent = true) :
    Wf P (c.reclass id src dst len) :=
  W.setSched id fun i hi => by
    rcases hi.of_reclass with hi | ⟨hlen, hi⟩
    · exact .inl hi
    · exact .inr ⟨hi, hk, ho hlen⟩

theorem onOpenSent_core : (c.onOpenSent id).core = { c.core with
    streams := Function.update c.core.streams id ((c.core.streams id).map fun x =>
      ({ x.1 with openSent := true }, x.2)) } := by
  unfold onOpenSent
  cases h : c.streams.lookup id with
  | none =>
    rw [core_streams_none h, Option.map_none]
    simp only [← core_streams_none h, Function.update_eq_self]
  | some s =>
    dsimp only
    rw [core_streams h]
    have hset : (c.setStream id { s with openSent := true }).core = { c.core with
        streams := Function.update c.core.streams id
          (some ({ s.sendHalf with openSent := true }, s.recvHalf)) } := core_setStream
    split
    · rw [core_activateStream, hset]
      rfl
    · rw [hset]
      rfl

theorem Wf.onOpenSent (W : Wf P c)
    (hk : ∀ s, c.streams.lookup id = some s → c.core.Known id) : Wf P (c.onOpenSent id) := by
  unfold Connection.onOpenSent
  split
  · exact W
  · rename_i s h
    have W₁ := W.setStream h { s with openSent := true } fun _ => rfl
    dsimp only
    split
    · refine W₁.activateStream (hk s h) fun t ht => ?_
      rw [lookup_setStream] at ht
      cases ht
      rfl
    · exact W₁

theorem emitControl_core (f : Frame) : (c.emitControl f).core = { c.core with
    streams := Function.update c.core.streams f.streamId ((c.core.streams f.streamId).map fun x =>
      ({ x.1 with openSent := x.1.openSent || decide (f.frameType = .open) }, x.2)) } := by
  unfold emitControl
  dsimp only
  rw [core_served]
  split
  · rename_i hf
    rw [onOpenSent_core]
    simp [hf]
  · rename_i hf
    simp [hf]

theorem Wf.emitControl (W : Wf P c) {f : Frame}
    (hk : ∀ s, c.streams.lookup f.streamId = some s → c.core.Known f.streamId) :
    Wf P (c.emitControl f) := by
  unfold Connection.emitControl
  dsimp only
  refine Wf.served ?_
  split
  · exact W.onOpenSent hk
  · exact W

theorem observe_refines (now : Instant) :
    (c.observe now).core = c.core ∧ (Wf P c → Wf P (c.observe now)) :=
  ⟨rfl, fun W => W.of rfl rfl rfl rfl (fun h => h) W.active⟩

theorem rearmReverify_refines (now : Instant) : (c.rearmReverify now).core = c.core ∧
    (c.rearmReverify now).closed = c.closed ∧ (Wf P c → Wf P (c.rearmReverify now)) := by
  unfold rearmReverify
  split
  · exact ⟨rfl, rfl, fun W => W.of rfl rfl rfl rfl (fun h => h) W.active⟩
  · exact ⟨rfl, rfl, id⟩

end

variable [ThirdParty] {P : Params} {c c' : Connection} {id : StreamId} {s s' : Stream}

/-! ## Deadlines -/

theorem sendPing_refines (W : Wf P c) (hc : c.closed = none) (ha : c.timers.authenticated = true) :
    Silent P c.core c.sendPing.core ∧ Wf P c.sendPing := by
  have hstep : Step P c.core .tau c.sendPing.core :=
    .conn ⟨W.timers ha, by simp [core, hc]⟩ rfl (.inl rfl) ⟨_, Codec.decode_encode ..⟩
  have W₁ : Wf P { c with
      pingCounter := c.pingCounter + 1
      timers := { c.timers with pingOutstanding := some (c.pingCounter + 1) } } :=
    W.of rfl rfl rfl rfl (fun h => h) W.active
  exact ⟨hstep.silent, W₁.pushControl _⟩

theorem reverify_refines (W : Wf P c) (hc : c.closed = none) (now : Instant)
    (stillValid : KeyId → Bool) : Silent P c.core (c.reverify now stillValid).core ∧
      Wf P (c.reverify now stillValid) := by
  obtain ⟨hcore, hclosed, hW⟩ := rearmReverify_refines (P := P) (c := c) now
  unfold reverify
  dsimp only
  rw [← hcore]
  split
  · exact ⟨.refl, hW W⟩
  · exact ⟨closeInternal_silent (hclosed.trans hc) (hclosed.trans hc) rfl rfl rfl rfl rfl,
      (hW W).closeInternal⟩

theorem timeoutLoop_refines {now : Instant} {stillValid : Nat → KeyId → Bool} {fuel : Nat}
    (W : Wf P c) (H : timeoutLoop now stillValid fuel c = some c') :
    Silent P c.core c'.core ∧ Wf P c' := by
  induction fuel generalizing c with
  | zero => cases H
  | succ fuel ih =>
    simp only [timeoutLoop] at H
    split at H
    · cases H
      exact ⟨.refl, W⟩
    · rename_i hclosed
      have hc : c.closed = none := by simpa using hclosed
      have next : ∀ {c₁ : Connection}, Silent P c.core c₁.core ∧ Wf P c₁ →
          timeoutLoop now stillValid fuel c₁ = some c' → Silent P c.core c'.core ∧ Wf P c' :=
        fun h H => let ⟨hs, W'⟩ := ih h.2 H; ⟨h.1.trans hs, W'⟩
      have close : Silent P c.core (c.closeInternal (.new .timeout) true).core ∧
          Wf P (c.closeInternal (.new .timeout) true) :=
        ⟨closeInternal_silent hc hc rfl rfl rfl rfl rfl, W.closeInternal⟩
      split at H
      · cases H
        exact ⟨.refl, W⟩
      · exact next close H
      · exact next close H
      · exact next (reverify_refines W hc _ _) H
      · rename_i he
        exact next (sendPing_refines W hc (Timers.authenticated_of_expired_ping he)) H

theorem handleTimeout_refines {now : Instant} {stillValid : Nat → KeyId → Bool} {fuel : Nat}
    (W : Wf P c) (H : c.handleTimeout now stillValid fuel = some c') :
    Silent P c.core c'.core ∧ Wf P c' :=
  timeoutLoop_refines (c := c.observe now) ((observe_refines now).2 W) H

/-! ## Transmission -/

theorem emitData_refines (W : Wf P c) {payload : Bytes} {rest : List Bytes}
    (hp : c.priorityOut = []) (h : c.streams.lookup id = some s) (ho : s.openSent = true)
    (hb : s.outbox = payload :: rest) :
    Act P c.core (.emit ⟨id, .data, payload⟩) (c.emitData id s payload rest).core ∧
      Wf P (c.emitData id s payload rest) := by
  have hstep : Step P c.core (.emit ⟨id, .data, payload⟩)
      ((c.core.set id (some ((s.popOutbox payload rest).sendHalf, s.recvHalf))).push
        (if rest = [] ∧ s.localOpen = false then [finFrame id] else [])) :=
    .emitData hp (core_streams h) ho hb
  have hlen : (s.popOutbox payload rest).headLen.isNone = true ↔ rest = [] := by
    cases rest <;> simp [Stream.headLen, Stream.popOutbox]
  unfold emitData
  dsimp only
  generalize hc₁ : (c.setStream id (s.popOutbox payload rest)).served _ _ _ _ = c₁
  have W₁ : Wf P c₁ := 
    hc₁ ▸ (W.setStream h (s.popOutbox payload rest) fun _ => ho).served
  have hcore₁ : c₁.core = c.core.set id
      (some ((s.popOutbox payload rest).sendHalf, s.recvHalf)) := by
    rw [← hc₁, core_served, core_setStream]
    rfl
  by_cases hfin : rest = [] ∧ s.localOpen = false
  · rw [if_pos (by
      rw [hlen.mpr hfin.1, show (s.popOutbox payload rest).localOpen = false from hfin.2]
      rfl)]
    rw [if_pos hfin] at hstep
    refine ⟨⟨_, hstep, ?_⟩, (W₁.pushControl _).maybeForget⟩
    have hcore₂ : (c₁.queueFin id).core = _ := core_pushControl _
    rw [hcore₁] at hcore₂
    exact hcore₂ ▸ maybeForget_silent
  · rw [if_neg fun hc => hfin (by
      simp only [Bool.and_eq_true, hlen, Bool.not_eq_true'] at hc
      exact hc)]
    rw [if_neg hfin, Endpoint.push_nil] at hstep
    refine ⟨⟨_, hstep, ?_⟩, W₁.maybeForget⟩
    exact hcore₁ ▸ maybeForget_silent

theorem pollTransmit_refines {out : Option Bytes} (W : Wf P c) (G : c.core.Good P)
    (H : c.pollTransmit = (c', out)) : Wf P c' ∧ match out with
      | none => c'.core = c.core
      | some bytes => ∃ f, bytes = f.encode ∧ Act P c.core (.emit f) c'.core := by
  unfold pollTransmit at H
  split at H
  · rename_i f rest hp
    cases H
    exact ⟨W.of rfl rfl rfl rfl (fun h => h) W.active, f, rfl, (Step.emitPriority hp).act⟩
  · rename_i hp
    have W₁ : Wf P { c with sched := c.sched.pick.1 } :=
      W.setSched 0 fun i hi => .inl hi.of_pick
    have hcore₁ : { c with sched := c.sched.pick.1 }.core = c.core := core_setSched (by simp)
    dsimp only at H
    split at H
    · cases H
      exact ⟨W₁, hcore₁⟩
    · split at H
      · cases H
        exact ⟨W₁, hcore₁⟩
      · rename_i f rest hctl
        cases H
        have hctl : c.core.control = f :: rest := by simpa [core] using hctl
        have W₂ : Wf P { c with sched := { c.sched.pick.1 with control := rest } } :=
          W₁.of rfl rfl rfl rfl (fun h => h) W₁.active
        have heq : ({ c with sched := { c.sched.pick.1 with control := rest } }.emitControl f).core =
            _ := emitControl_core f
        refine ⟨W₂.emitControl fun s hs => (G.streams _ _ _ (core_streams hs)).2.1, f, rfl, ?_⟩
        exact ⟨_, Step.emitControl hp hctl, heq ▸ .refl⟩
    · rename_i id hpick
      split at H
      · cases H
        exact ⟨W₁, hcore₁⟩
      · rename_i s hs
        split at H
        · cases H
          exact ⟨W₁, hcore₁⟩
        · rename_i payload rest hb
          cases H
          have ho := (W.active id (SchedTree.active_of_pick_stream hpick)).2 s hs
          obtain ⟨hact, W₂⟩ := emitData_refines W₁ hp hs ho hb
          rw [hcore₁] at hact
          exact ⟨W₂, _, rfl, hact⟩

/-! ## Calls -/

theorem open_refines (W : Wf P c) (G : c.core.Good P) (cls : Class) :
    Silent P c.core (c.open cls).1.core ∧ Wf P (c.open cls).1 := by
  unfold Connection.open
  split
  · exact ⟨.refl, W⟩
  · rename_i hready
    split
    · exact ⟨.refl, W⟩
    · rename_i hcls
      dsimp only
      split
      · exact ⟨.refl, W⟩
      · rename_i hle
        have hr := core_ready hready
        have hstep := Step.open (P := P) (e := c.core) hr hcls (Nat.not_lt.mp hle)
        have hnk : ¬c.core.Known c.nextStreamId := G.not_known_next
        rw [W.paramsInForce hr.done]
        refine ⟨?_, Wf.pushControl ?_ _⟩
        · have hset : (c.setStream c.nextStreamId (.new cls P.initialWindow.toNat false)).core = _ :=
            core_setStream
          convert hstep.silent using 1
          rw [core_pushControl]
          simp only [Endpoint.push, Endpoint.set, Endpoint.mk.injEq] at hset ⊢
          refine ⟨rfl, rfl, rfl, rfl, rfl, rfl, ?_, congrArg Endpoint.streams hset, rfl⟩
          simp [core]
        · refine W.of rfl rfl rfl rfl (fun h => h) fun i hi => ?_
          obtain ⟨hk, ho⟩ := W.active i (SchedTree.Active.of_addStream hi)
          refine ⟨Endpoint.Known.mono (e := c.core) rfl (Nat.le_add_right ..) Nat.le.refl hk,
            fun s hs => ?_⟩
          rw [Connection.setStream, Map.lookup_insert_ite] at hs
          split at hs
          · rename_i heq
            exact absurd (heq ▸ hk) hnk
          · exact ho s hs

theorem close_refines (W : Wf P c) (reason : CloseReason) :
    Silent P c.core (c.close reason).core ∧ Wf P (c.close reason) := by
  refine ⟨?_, W.closeInternal⟩
  cases hc : c.closed with
  | none => exact closeInternal_silent hc hc rfl rfl rfl rfl rfl
  | some r =>
    rw [close, closeInternal, if_pos (by simp [hc])]
    exact .refl

theorem finish_refines (W : Wf P c) (id : StreamId) :
    Silent P c.core (c.finish id).1.core ∧ Wf P (c.finish id).1 := by
  unfold finish
  split
  · exact ⟨.refl, W⟩
  · split
    · exact ⟨.refl, W⟩
    · rename_i s h
      split
      · exact ⟨.refl, W⟩
      · rename_i ho
        have ho : s.localOpen = true := by simpa using ho
        have W₁ := W.setStream h { s with localOpen := false } fun h => h
        have hstep : Step P c.core .tau ((c.setStream id { s with localOpen := false }).core.push
            (if s.outbox = [] then [finFrame id] else [])) := by
          rw [core_setStream]
          exact .finish (core_streams h) ho
        dsimp only
        split
        · rename_i hb
          rw [if_pos (List.isEmpty_iff.mp hb)] at hstep
          exact ⟨.head hstep (maybeForget_silent
            (c := (c.setStream id { s with localOpen := false }).queueFin id)),
            (W₁.pushControl _).maybeForget⟩
        · rename_i hb
          rw [if_neg fun h => hb (List.isEmpty_iff.mpr h), Endpoint.push_nil] at hstep
          exact ⟨hstep.silent, W₁⟩

theorem reset_refines (W : Wf P c) (id : StreamId) (code : UInt32) :
    Silent P c.core (c.reset id code).1.core ∧ Wf P (c.reset id code).1 := by
  unfold reset
  split
  · exact ⟨.refl, W⟩
  · split
    · exact ⟨.refl, W⟩
    · rename_i s h
      refine ⟨?_, W.dropStream.pushControl _⟩
      dsimp only
      rw [core_pushControl, core_dropStream h]
      exact (Step.reset (core_streams h)).silent

theorem setClass_refines (W : Wf P c) (G : c.core.Good P) (id : StreamId) (cls : Class) :
    (c.setClass id cls).1.core = c.core ∧ Wf P (c.setClass id cls).1 := by
  unfold setClass
  split
  · exact ⟨rfl, W⟩
  · split
    · exact ⟨rfl, W⟩
    · split
      · exact ⟨rfl, W⟩
      · rename_i s h
        split
        · exact ⟨rfl, W⟩
        · have W₁ := W.setStream h { s with cls } fun h => h
          have hcore : (c.setStream id { s with cls }).core = c.core :=
            core_setStream_same h rfl rfl
          dsimp only
          refine ⟨by rw [core_reclass, hcore], W₁.reclass ?_ fun hlen t ht => ?_⟩
          · rw [hcore]
            exact (G.streams _ _ _ (core_streams h)).2.1
          · rw [lookup_setStream] at ht
            cases ht
            by_contra hno
            simp [hno] at hlen

theorem pollEvent_refines (W : Wf P c) : Wf P c.pollEvent.1 ∧
    match c.pollEvent.2 with
    | some (.finished i) => Act P c.core (.polled i) c.pollEvent.1.core
    | _ => c.pollEvent.1.core = c.core := by
  unfold pollEvent
  split
  · exact ⟨W, rfl⟩
  · rename_i ev rest hev
    refine ⟨W.of rfl rfl rfl rfl (fun h => h) W.active, ?_⟩
    have hfin : c.core.finished = (ev :: rest).filterMap Event.finishedId := by simp [core, hev]
    cases ev
    case finished i => exact (Step.polled (e := c.core) hfin).act
    all_goals
      simp only [core, hev, Endpoint.mk.injEq, true_and]
      rfl

omit [ThirdParty] in
/-- The fragments of a message, at least two bytes per frame being allowed. -/
theorem fragments_spec (hP : P.InRange) (msg : Bytes) :
    fragments P.maxFrame.toNat msg ≠ [] ∧ (fragments P.maxFrame.toNat msg).flatten = msg ∧
    (∀ ch ∈ fragments P.maxFrame.toNat msg, ch.length + 1 ≤ P.maxFrame.toNat) ∧
    msg.length + (fragments P.maxFrame.toNat msg).length = worstCase P.maxFrame.toNat msg := by
  have hmf : 2 ≤ P.maxFrame.toNat := UInt32.le_iff_toNat_le.mp (UInt32.not_lt.mp hP.frame_ge)
  unfold fragments worstCase
  split
  · rename_i he
    rw [List.isEmpty_iff.mp he]
    refine ⟨by simp, rfl, by simp; omega, ?_⟩
    have : P.maxFrame.toNat - 1 - 1 < P.maxFrame.toNat - 1 := by omega
    simp [divCeil, Nat.div_eq_of_lt this]
  · rename_i he
    have hflat := chunks_flatten (n := P.maxFrame.toNat - 1) (by omega) msg
    have hne : chunks (P.maxFrame.toNat - 1) msg ≠ [] := by
      intro h
      rw [h] at hflat
      exact he (by rw [← hflat]; rfl)
    refine ⟨hne, hflat, fun ch hch => ?_, ?_⟩
    · have := length_le_of_mem_chunks hch
      omega
    · have hlen := chunks_length (n := P.maxFrame.toNat - 1) (by omega) msg
      have := List.length_pos_iff.mpr hne
      omega

omit [ThirdParty] in
theorem asU32_le (n : Nat) : asU32 n ≤ n := Nat.mod_le ..

omit [ThirdParty] in
theorem wireBytes_le (ps : List Bytes) : wireBytes ps ≤ (ps.map List.length).sum := by
  induction ps with
  | nil => simp
  | cons p ps ih =>
    have := asU32_le p.length
    simp only [wireBytes_cons, List.map_cons, List.sum_cons]
    omega

/-- What the DATA payloads of a message are to the receiver, and what credit they take. -/
theorem payloads_spec (hP : P.InRange) (id : StreamId) (stance : Compress) (cls : Class) (msg : Bytes) :
    Splits P id (payloads stance cls (fragments P.maxFrame.toNat msg)) msg ∧
    (∀ p ∈ payloads stance cls (fragments P.maxFrame.toNat msg), p.length < 2 ^ 32) ∧
    wireBytes (payloads stance cls (fragments P.maxFrame.toNat msg)) ≤
      worstCase P.maxFrame.toNat msg := by
  obtain ⟨hne, hflat, hlen, htotal⟩ := fragments_spec hP msg
  refine ⟨?_, fun p hp => ?_, ?_⟩
  · have := splits_payloads (P := P) (i := id) stance cls hne
      fun ch hch => by
        have := hlen ch hch
        simp only [decompressCapFactor]
        omega
    rwa [hflat] at this
  · obtain ⟨ch, hch, hle⟩ := mem_payloads hp
    have := hlen ch hch
    have := P.maxFrame.toNat_lt
    omega
  · refine Nat.le_trans (wireBytes_le _) ?_
    have := payloads_length stance cls (fragments P.maxFrame.toNat msg)
    rw [hflat] at this
    omega

omit [ThirdParty] in
theorem foldl_report_eq (id : StreamId) (out : List Bytes) :
    ∃ reports, out.foldl (fun c p => c.report id 0 p.length) c = { c with reports } := by
  induction out generalizing c with
  | nil => exact ⟨c.reports, rfl⟩
  | cons p out ih =>
    obtain ⟨r, hr⟩ := report_eq (c := c) id 0 p.length
    obtain ⟨r', hr'⟩ := ih (c := c.report id 0 p.length)
    exact ⟨r', by rw [List.foldl_cons, hr', hr]⟩

theorem send_refines (hP : P.InRange) (W : Wf P c) (G : c.core.Good P) (id : StreamId)
    (msg : Bytes) (compress : Compress) : Wf P (c.send id msg compress).1 ∧
    match (c.send id msg compress).2 with
    | .ok () => Act P c.core (.accept id msg) (c.send id msg compress).1.core
    | .error _ => (c.send id msg compress).1.core = c.core := by
  unfold send
  split
  · exact ⟨W, rfl⟩
  · rename_i hready
    have hr := core_ready hready
    rw [W.paramsInForce hr.done]
    dsimp only
    split
    · exact ⟨W, rfl⟩
    · rename_i hmax
      split
      · exact ⟨W, rfl⟩
      · rename_i s h
        split
        · exact ⟨W, rfl⟩
        · rename_i ho
          have ho : s.localOpen = true := by simpa using ho
          split
          · exact ⟨W.setStream h _ fun h => h, core_setStream_same h rfl rfl⟩
          · rename_i hcredit
            generalize (if P.compressionAllowed = true then compress else .never) = stance
            obtain ⟨hsplit, hsmall, hwire⟩ := payloads_spec hP id stance s.cls msg
            generalize payloads stance s.cls (fragments P.maxFrame.toNat msg) = out at *
            generalize demote c.cfg.bulkThreshold s.cls (s.writtenTotal + msg.length) = cls
            have W₁ := W.setStream h (s.pushOutbox cls out msg.length) fun h => h
            have hcore₁ : (c.setStream id (s.pushOutbox cls out msg.length)).core = _ := core_setStream
            have hstep : Step P c.core (.accept id msg)
                (c.setStream id (s.pushOutbox cls out msg.length)).core := by
              rw [hcore₁]
              refine .send (core_streams h) ho hsplit hsmall ?_ (Nat.not_lt.mp hmax)
              have hg := (G.streams _ _ _ (core_streams h)).2.2.outbox_le
              simp only [Stream.freeCredit] at hcredit
              simp only [Stream.sendHalf] at hg ⊢
              omega
            have hk : c.core.Known id := (G.streams _ _ _ (core_streams h)).2.1
            obtain ⟨reports, hrep⟩ := foldl_report_eq id
              (c := c.setStream id (s.pushOutbox cls out msg.length)) out
            rw [hrep]
            generalize hc₂ : ({ c.setStream id (s.pushOutbox cls out msg.length) with reports } :
              Connection) = c₂
            have W₂ : Wf P c₂ := hc₂ ▸ W₁.of rfl rfl rfl rfl (fun h => h) W₁.active
            have hcore₂ : c₂.core = (c.setStream id (s.pushOutbox cls out msg.length)).core :=
              hc₂ ▸ rfl
            have hlook : ∀ t, c₂.streams.lookup id = some t → t.openSent = s.openSent := by
              intro t ht
              rw [← hc₂] at ht
              rw [show AList.lookup id _ = _ from lookup_setStream] at ht
              cases ht
              rfl
            have hk₂ : c₂.core.Known id := by
              rw [hcore₂, hcore₁]
              exact hk
            rw [← hcore₂] at hstep
            split
            · refine ⟨W₂.reclass hk₂ fun hlen t ht => ?_, ?_⟩
              · rw [hlook t ht]
                by_contra hno
                simp [hno] at hlen
              · dsimp only
                rw [core_reclass]
                exact hstep.act
            · split
              · rename_i len hlen
                refine ⟨W₂.activateStream hk₂ fun t ht => ?_, ?_⟩
                · rw [hlook t ht]
                  by_contra hno
                  simp [hno] at hlen
                · dsimp only
                  rw [core_activateStream]
                  exact hstep.act
              · exact ⟨W₂, hstep.act⟩

omit [ThirdParty] in
/-- What taking a message of `w` wire bytes does to a receive window within its accounts. -/
theorem onConsumed_spec {h : RecvHalf} {m : Bytes} {w : Nat} {rest : List (Bytes × Nat)}
    (hc : h.Conserved P.initialWindow.toNat) (ho : h.remoteOpen = true)
    (hi : h.inbox = (m, w) :: rest) : ∃ used cr, Endpoint.Consumes h w used cr ∧
      h.pop used cr = { h with inbox := rest, recv := (h.recv.onConsumed w).1 } ∧
      (h.recv.onConsumed w).2 = if cr = 0 then none else some cr := by
  have htotal := hc.total ho
  have hlt := P.initialWindow.toNat_lt
  have hw := hc.window_eq
  have hconsumed := hc.consumed_lt
  simp only [hi, List.map_cons, List.sum_cons] at htotal
  have hsat : satAdd32 h.recv.consumedSinceUpdate w = h.recv.consumedSinceUpdate + w := by
    simp only [satAdd32, u32Max]
    omega
  have hsat' : satAdd32 h.recv.remaining (h.recv.consumedSinceUpdate + w) =
      h.recv.remaining + (h.recv.consumedSinceUpdate + w) := by
    simp only [satAdd32, u32Max]
    omega
  unfold RecvWindow.onConsumed
  dsimp only
  rw [hsat]
  split
  · rename_i hge
    refine ⟨_, _, .update ho hge, ?_, ?_⟩
    · simp [RecvHalf.pop, hi, hsat']
    · rw [if_neg (by omega)]
  · rename_i hge
    refine ⟨_, _, .hold ho (Nat.not_le.mp hge), ?_, rfl⟩
    simp [RecvHalf.pop, hi]

theorem recvMsg_refines (W : Wf P c) (G : c.core.Good P) (id : StreamId) : Wf P (c.recvMsg id).1 ∧
    match (c.recvMsg id).2 with
    | .ok m => Act P c.core (.take id m) (c.recvMsg id).1.core
    | .error _ => (c.recvMsg id).1.core = c.core := by
  unfold recvMsg
  split
  · exact ⟨W, rfl⟩
  · split
    · exact ⟨W, rfl⟩
    · rename_i s h
      split
      · exact ⟨W, rfl⟩
      · rename_i m w rest hi
        have hin : s.recvHalf.inbox = (m, w) :: rest := hi
        have hcons := (G.streams _ _ _ (core_streams h)).2.2.conserved
        split
        · rename_i ho
          obtain ⟨used, cr, hused, hpop, hcr⟩ := onConsumed_spec hcons ho hin
          have hcr : (s.recv.onConsumed w).2 = if cr = 0 then none else some cr := hcr
          have W₁ := W.setStream h
            { s with inbox := rest, recv := (s.recv.onConsumed w).1 } fun h => h
          have hstep := Step.take (P := P) (core_streams h) hin hused
          rw [hpop] at hstep
          have hcore : (c.setStream id
              { s with inbox := rest, recv := (s.recv.onConsumed w).1 }).core = _ := core_setStream
          dsimp only
          rw [hcr]
          by_cases hz : cr = 0
          · rw [if_pos hz, Endpoint.push_nil] at hstep
            rw [if_pos hz]
            exact ⟨W₁, _, hstep, hcore ▸ .refl⟩
          · rw [if_neg hz] at hstep
            rw [if_neg hz]
            refine ⟨W₁.pushControl _, _, hstep, ?_⟩
            dsimp only [queueWindowUpdate]
            rw [core_pushControl, hcore]
            exact .refl
        · rename_i ho
          have ho : s.remoteOpen = false := by simpa using ho
          have W₁ := W.setStream h { s with inbox := rest } fun h => h
          have hstep : Step P c.core (.take id m) (c.setStream id { s with inbox := rest }).core := by
            have := Step.take (P := P) (core_streams h) hin (.closed ho)
            rw [if_pos rfl, Endpoint.push_nil] at this
            have hpop : ({ s with inbox := rest } : Stream).recvHalf =
                s.recvHalf.pop s.recvHalf.recv.consumedSinceUpdate 0 := by
              simp [Stream.recvHalf, RecvHalf.pop, hi]
            rw [core_setStream, hpop]
            exact this
          dsimp only
          split
          · rename_i he
            exact ⟨W₁.finishedStream, _, hstep,
              finishedStream_silent lookup_setStream ho (List.isEmpty_iff.mp he)⟩
          · exact ⟨W₁, hstep.act⟩

end TunnelWeaver.Mux.Connection
