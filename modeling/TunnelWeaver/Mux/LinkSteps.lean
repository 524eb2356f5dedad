import TunnelWeaver.Mux.Link

/-! What one step of an endpoint makes of the invariant of one direction, first of the direction in
which the acting endpoint sends, then of the one in which it receives. -/

namespace TunnelWeaver.Mux

open Endpoint (Label)

variable [ThirdParty] {P : Params} {x x' y : Party} {f : Frame} {i : Nat}

theorem Endpoint.Good.view_of_not_known {e : Endpoint} (G : e.Good P) (hk : ¬e.Known i) :
    e.view i = .unknown := by
  unfold Endpoint.view
  split
  · rename_i s h hi
    exact absurd (G.streams i s h hi).2.1 hk
  · rw [if_neg hk]

omit [ThirdParty] in
theorem Endpoint.view_ne_unknown {e : Endpoint} (hk : e.Known i) : e.view i ≠ .unknown := by
  unfold Endpoint.view
  split
  · rintro ⟨⟩
  · rw [if_pos hk]
    rintro ⟨⟩

omit [ThirdParty] in
theorem Endpoint.view_congr {e e' : Endpoint} (hs : e'.streams i = e.streams i)
    (hk : e'.Known i ↔ e.Known i) : e'.view i = e.view i := by
  simp only [Endpoint.view, hs, hk]

omit [ThirdParty] in
theorem Endpoint.view_live {e : Endpoint} {s : SendHalf} {h : RecvHalf}
    (hs : e.streams i = some (s, h)) : e.view i = .live h := by
  rw [Endpoint.view, hs]

omit [ThirdParty] in
theorem Endpoint.view_gone {e : Endpoint} (hs : e.streams i = none) (hk : e.Known i) :
    e.view i = .gone := by
  simp only [Endpoint.view, hs, hk, if_true]

omit [ThirdParty] in
theorem Endpoint.sendHalf_some {e : Endpoint} {s : SendHalf} {h : RecvHalf}
    (hs : e.streams i = some (s, h)) : e.sendHalf i = some s := by
  rw [sendHalf, hs]
  rfl

omit [ThirdParty] in
theorem Endpoint.sendHalf_congr {e e' : Endpoint} (hs : e'.streams i = e.streams i) :
    e'.sendHalf i = e.sendHalf i := by
  rw [sendHalf, sendHalf, hs]

omit [ThirdParty] in
theorem Endpoint.sendHalf_none {e : Endpoint} (h : e.streams i = none) : e.sendHalf i = none := by
  rw [sendHalf, h]
  rfl

theorem PhaseStep.of_done {p : Phase} (H : PhaseStep P f .done p) (ht : f.frameType ≠ .goaway) :
    p = .hs .done := by
  cases H with
  | goaway _ h => exact absurd h ht
  | ordinary => rfl

namespace Link

/-! ## The acting endpoint sends -/

/-- Stream `i` changes; frames of it, neither OPEN nor WINDOW_UPDATE, go to the wire (`ws`) and to
the control queue (`fs`). -/
theorem setPush (L : Link P x y) {z : Option (SendHalf × RecvHalf)} (ws fs : List Frame)
    (he : x'.e = (x.e.set i z).push fs) (hw : x'.wire = x.wire ++ ws)
    (hphase : ∃ p, PhaseRun P (.hs y.e.hs) (x.wire ++ ws ++ x.e.prio) p ∧
      (x.e.closed = false → p = x.e.peerPhase))
    (hfs : ∀ f ∈ ws ++ fs, f.streamId = i ∧ f.frameType ≠ .open ∧ f.frameType ≠ .windowUpdate)
    (hsent : ∀ j ≠ i, x'.sent j = x.sent j)
    (hc : Channel P y.e.server i (y.e.view i)
      (streamFrames i x.wire ++ streamFrames i ws ++ (streamFrames i x.e.control ++ streamFrames i fs))
      (z.map (·.1)) (x.e.Known i) (grants i y.outgoing) (x'.sent i) (y.taken i)) : Link P x' y := by
  obtain ⟨e', wire', sent', taken', polled'⟩ := x'
  dsimp only at he hw hsent
  subst he hw
  have hmem : ∀ f ∈ ws ++ fs, f.frameType ≠ .open := fun f hf => (hfs f hf).2.1
  have hids : ∀ l : List Frame, (∀ f ∈ l, f.frameType ≠ .open) → openIds l = [] := fun l hl => by
    rw [openIds, List.filter_eq_nil_iff.mpr fun f hf => by simpa using hl f hf]
    rfl
  have hnone : ∀ j ≠ i, ∀ l : List Frame, (∀ f ∈ l, f.streamId = i) → streamFrames j l = [] :=
    fun j hj l hl => List.filter_eq_nil_iff.mpr fun f hf => by simp [hl f hf, Ne.symm hj]
  refine ⟨hphase, ?_, fun f hf ht => ?_, fun j => ?_⟩
  · have horder := L.order
    simp only [Party.outgoing, Endpoint.push, Endpoint.set, openIds_append] at horder ⊢
    rw [hids ws fun f hf => hmem f (by simp [hf]), hids fs fun f hf => hmem f (by simp [hf])]
    simpa using horder
  · refine L.updates f ?_ ht
    have hnot : f ∉ ws ++ fs := fun h => (hfs f h).2.2 ht
    simp only [Party.outgoing, Endpoint.push, Endpoint.set, List.mem_append] at hf hnot ⊢
    tauto
  · simp only [Party.outgoing, Endpoint.push, Endpoint.set, streamFrames_append]
    by_cases hj : j = i
    · subst hj
      have : Endpoint.sendHalf (x.e.set j z) j = z.map (·.1) := by
        simp [Endpoint.sendHalf, Endpoint.set]
      exact this ▸ hc
    · have hC := L.channel j
      have : Endpoint.sendHalf (x.e.set i z) j = x.e.sendHalf j := by
        simp [Endpoint.sendHalf, Endpoint.set, Function.update_of_ne hj]
      rw [hnone j hj ws fun f hf => (hfs f (by simp [hf])).1,
        hnone j hj fs fun f hf => (hfs f (by simp [hf])).1, List.append_nil, List.append_nil]
      rw [Party.outgoing, streamFrames_append, ← hsent j hj] at hC
      exact this ▸ hC

/-- Frames that are no stream's business are queued. -/
theorem push (L : Link P x y) (fs : List Frame) (hw : x'.wire = x.wire)
    (hcontrol : x'.e.control = x.e.control ++ fs) (hprio : x'.e.prio = x.e.prio)
    (hclosed : x'.e.closed = x.e.closed) (hpeer : x'.e.peerPhase = x.e.peerPhase)
    (hnext : x'.e.next = x.e.next) (hknown : ∀ j, x'.e.Known j ↔ x.e.Known j)
    (hhalf : ∀ j, x'.e.sendHalf j = x.e.sendHalf j) (hsent : x'.sent = x.sent)
    (hfs : ∀ f ∈ fs, f.frameType.isStream = false ∧ (f.frameType = .windowUpdate →
      (∃ wu, ThirdParty.windowUpdate.decode f.payload = some wu) ∧ y.e.Known f.streamId)) :
    Link P x' y := by
  have hids : openIds fs = [] := by
    rw [openIds, List.filter_eq_nil_iff.mpr fun f hf => ?_, List.map_nil]
    have := (hfs f hf).1
    cases ht : f.frameType <;> simp_all [FrameType.isStream]
  have hout : x'.outgoing = x.outgoing ++ fs := by
    simp [Party.outgoing, hw, hcontrol]
  refine ⟨?_, ?_, fun f hf ht => ?_, fun j => ?_⟩
  · rw [hw, hprio, hclosed, hpeer]
    exact L.phase
  · rw [hout, openIds_append, hids, List.append_nil, hnext]
    exact L.order
  · rw [hout] at hf
    rcases List.mem_append.mp hf with hf | hf
    · exact L.updates f hf ht
    · exact (hfs f hf).2 ht
  · have hnil : streamFrames j fs = [] :=
      List.filter_eq_nil_iff.mpr fun f hf => by simp [(hfs f hf).1]
    rw [hout, streamFrames_append, hnil, List.append_nil, hhalf, hsent]
    exact (L.channel j).learn (hknown j).mpr

/-- The sender forgets everything and keeps `prio` to send. -/
theorem shut (L : Link P x y) {prio : List Frame}
    (hphase : ∃ p, PhaseRun P (.hs y.e.hs) (x.wire ++ prio) p) :
    Link P { x with e := x.e.shut prio } y := by
  have hout : Party.outgoing { x with e := x.e.shut prio } = x.wire := List.append_nil _
  refine ⟨hphase.elim fun p h => ⟨p, h, (by rintro ⟨⟩)⟩, ?_, fun f hf => ?_, fun i => ?_⟩
  · refine List.Pairwise.sublist ?_ L.order
    rw [hout, Party.outgoing, openIds_append]
    exact .cons_cons _ (.append_right (List.sublist_append_left ..) _)
  · rw [hout] at hf
    exact L.updates f (List.mem_append_left _ hf)
  · rw [hout]
    exact (L.channel i).drop.shrink (by simp [Party.outgoing])

/-- The handshake of the sender moves on. -/
theorem handshake (L : Link P x y) {hs : HandshakeState} {prio : List Frame}
    (hphase : ∃ p, PhaseRun P (.hs y.e.hs) (x.wire ++ prio) p ∧
      (x.e.closed = false → p = Endpoint.peerPhase { x.e with hs, prio })) :
    Link P { x with e := { x.e with hs, prio } } y :=
  ⟨hphase, L.order, L.updates, L.channel⟩

theorem emitPriority (L : Link P x y) (G : x.Good P) {rest : List Frame}
    (hp : x.e.prio = f :: rest) :
    Link P { x with e := { x.e with prio := rest }, wire := x.wire ++ [f] } y := by
  have hty := (G.endpoint.prio f (by simp [hp])).2
  have hne := FrameType.ne_of_isPriority hty
  have hst := FrameType.isStream_of_isPriority hty
  refine ⟨?_, ?_, fun g hg ht => ?_, fun i => ?_⟩
  · obtain ⟨p, hrun, hpeer⟩ := L.phase
    exact ⟨p, by simpa [hp] using hrun, hpeer⟩
  · have := L.order
    simpa [Party.outgoing, openIds_cons_ne hne.1] using this
  · refine L.updates g ?_ ht
    simp only [Party.outgoing, List.mem_append, List.mem_singleton] at hg ⊢
    rcases hg with (hg | rfl) | hg
    · exact .inl hg
    · exact absurd ht hne.2.1
    · exact .inr hg
  · have := L.channel i
    simp only [Party.outgoing, streamFrames_append] at this ⊢
    rw [streamFrames_cons_other hst, streamFrames_nil, List.append_nil]
    exact this

/-- A frame put on the wire of an authenticated connection with nothing in the priority queue. -/
theorem phase_concat (L : Link P x y) (hr : x.e.Ready) (hp : x.e.prio = []) (hf : Ordinary f) :
    ∃ p, PhaseRun P (.hs y.e.hs) (x.wire ++ [f] ++ x.e.prio) p ∧
      (x.e.closed = false → p = x.e.peerPhase) := by
  obtain ⟨p, hrun, hpeer⟩ := L.phase
  have hpeer := hpeer hr.isOpen
  rw [Endpoint.peerPhase_done hr.done] at hpeer ⊢
  subst hpeer
  rw [hp, List.append_nil] at hrun ⊢
  exact ⟨_, hrun.append (.cons (.ordinary hf) .nil), fun _ => rfl⟩

theorem emitControl (L : Link P x y) (G : x.Good P) {rest : List Frame} (hp : x.e.prio = [])
    (hc : x.e.control = f :: rest) :
    Link P { x with
      e := { x.e with
        control := rest
        streams := Function.update x.e.streams f.streamId ((x.e.streams f.streamId).map fun z =>
          ({ z.1 with openSent := z.1.openSent || decide (f.frameType = .open) }, z.2)) }
      wire := x.wire ++ [f] } y := by
  have hr := G.endpoint.ready_of_control (by simp [hc])
  have hord := (G.endpoint.control f (by simp [hc])).1
  have hout : x.wire ++ [f] ++ rest = x.outgoing := by simp [Party.outgoing, hc]
  refine ⟨L.phase_concat hr hp hord, ?_, fun g hg => L.updates g (hout ▸ hg), fun i => ?_⟩
  · have := L.order
    rw [← hout] at this
    exact this
  · have hC := L.channel i
    rw [← hout] at hC
    have hknown : x.e.Known i → Endpoint.Known { x.e with
        control := rest
        streams := Function.update x.e.streams f.streamId ((x.e.streams f.streamId).map fun z =>
          ({ z.1 with openSent := z.1.openSent || decide (f.frameType = .open) }, z.2)) } i := id
    refine Channel.learn hknown ?_
    by_cases hi : i = f.streamId
    · subst hi
      simp only [Endpoint.sendHalf, Function.update_self] at hC ⊢
      cases hx : x.e.streams f.streamId with
      | none =>
        rw [hx] at hC
        exact hC
      | some z =>
        rw [hx] at hC
        exact hC.congr rfl rfl rfl rfl
    · simp only [Endpoint.sendHalf, Function.update_of_ne hi]
      exact hC

/-- The sender opens its next stream. -/
theorem «open» (L : Link P x y) (B : Link P y x) (Gx : x.Good P) (Gy : y.Good P)
    (hroles : y.e.server = !x.e.server) {cls : Class} {h : RecvHalf} (hcls : cls ≠ .control)
    (he : x'.e = { (x.e.set x.e.next (some (.fresh P.initialWindow.toNat false, h))).push
      [⟨x.e.next, .open, ThirdParty.cls.encode cls⟩] with next := x.e.next + 2 })
    (hw : x'.wire = x.wire) (hsent : x'.sent = x.sent) : Link P x' y := by
  have hnk := Gx.endpoint.not_known_next
  have hparity := Gx.endpoint.next_parity
  have hnext : x'.e.next = x.e.next + 2 := by rw [he]
  have hout : x'.outgoing = x.outgoing ++ [⟨x.e.next, .open, ThirdParty.cls.encode cls⟩] := by
    simp [Party.outgoing, he, hw, Endpoint.push, Endpoint.set]
  have hyk : ¬y.e.Known x.e.next := by
    have horder := (List.pairwise_cons.mp L.order).1 x.e.next (by simp)
    unfold Endpoint.Known
    rw [if_pos (by rw [hparity, hroles])]
    omega
  have hgrant : grants x.e.next y.outgoing = 0 :=
    grants_eq_zero fun f hf ht h => hnk (h ▸ (B.updates f hf ht).2)
  have hknown : ∀ {j}, x.e.Known j → x'.e.Known j := fun h =>
    h.mono (by rw [he]; rfl) (by rw [hnext]; exact Nat.le_add_right ..) (by rw [he]; exact Nat.le.refl)
  have hself : x'.e.Known x.e.next := by
    have hserver : x'.e.server = x.e.server := by rw [he]; rfl
    unfold Endpoint.Known
    rw [hparity, hserver, if_neg (by simp), hnext]
    omega
  refine ⟨?_, ?_, fun f hf ht => ?_, fun i => ?_⟩
  · obtain ⟨p, hrun, hpeer⟩ := L.phase
    refine ⟨p, ?_, ?_⟩
    · rw [hw, he]
      exact hrun
    · rw [he]
      exact hpeer
  · have hlast : ∀ n ∈ y.e.lastPeer :: openIds x.outgoing, n < x.e.next := fun n hn =>
      (List.pairwise_append.mp (show (y.e.lastPeer :: openIds x.outgoing ++
        [x.e.next]).Pairwise (· < ·) from L.order)).2.2 n hn _ (by simp)
    have hids : openIds x'.outgoing = openIds x.outgoing ++ [x.e.next] := by
      rw [hout, openIds_append, openIds_cons_open rfl, openIds_nil]
    rw [hids, hnext]
    change ((y.e.lastPeer :: (openIds x.outgoing ++ [x.e.next])) ++ [x.e.next + 2]).Pairwise (· < ·)
    refine List.pairwise_append.mpr
      ⟨L.order, by simp, fun a ha b hb => ?_⟩
    obtain rfl := List.mem_singleton.mp hb
    rcases List.mem_append (s := y.e.lastPeer :: openIds x.outgoing).mp ha with ha | ha
    · exact Nat.lt_of_lt_of_le (hlast a ha) (Nat.le_add_right ..)
    · obtain rfl := List.mem_singleton.mp ha
      exact Nat.lt_add_of_pos_right (by decide)
  · rw [hout] at hf
    rcases List.mem_append.mp hf with hf | hf
    · exact L.updates f hf ht
    · rw [List.mem_singleton.mp hf] at ht
      cases ht
  · have hC := L.channel i
    rw [hout, streamFrames_append, hsent]
    by_cases hi : i = x.e.next
    · subst hi
      have hhalf : x'.e.sendHalf x.e.next = some (.fresh P.initialWindow.toNat false) := by
        simp [Endpoint.sendHalf, he, Endpoint.push, Endpoint.set]
      have hsf : streamFrames x.e.next [⟨x.e.next, .open, ThirdParty.cls.encode cls⟩] =
          [⟨x.e.next, .open, ThirdParty.cls.encode cls⟩] := by
        simp [streamFrames_cons, FrameType.isStream]
      rw [Gy.endpoint.view_of_not_known hyk, hgrant] at hC ⊢
      rw [hhalf, hsf, (hC.unopened hnk).1]
      exact (hC.open hnk hcls (by rw [hparity, hroles])).learn fun _ => hself
    · have hhalf : x'.e.sendHalf i = x.e.sendHalf i := by
        simp [Endpoint.sendHalf, he, Endpoint.push, Endpoint.set, Function.update_of_ne hi]
      rw [hhalf, streamFrames_cons_ne (Ne.symm hi), streamFrames_nil, List.append_nil]
      exact hC.learn hknown

/-- The peer read a frame that grants nothing. -/
theorem peerConsumed (L : Link P x y) {w : List Frame} (hw : y.wire = f :: w)
    (ht : f.frameType ≠ .windowUpdate) : Link P x { y with wire := w } := by
  refine ⟨L.phase, L.order, L.updates, fun i => ?_⟩
  have hg : grants i (w ++ y.e.control) = grants i y.outgoing := by
    simp [Party.outgoing, hw, Frame.grant_of_type ht]
  exact hg ▸ L.channel i

/-- A sender that tracks no stream has no use for the credit its peer read. -/
theorem peerConsumed_idle (L : Link P x y) {w : List Frame} (hnone : ∀ i, x.e.streams i = none) :
    Link P x { y with wire := w } := by
  refine ⟨L.phase, L.order, L.updates, fun i => ?_⟩
  have := L.channel i
  rw [Endpoint.sendHalf_none (hnone i)] at this ⊢
  exact this.regrant

/-- The sender learns of a stream its peer opened. -/
theorem opened (L : Link P x y) (B : Link P y x) (hroles : y.e.server = !x.e.server)
    {w : List Frame} (hw : y.wire = f :: w) (ht : f.frameType = .open)
    (hp : (f.streamId % 2 == 1) = x.e.server) (hl : x.e.lastPeer < f.streamId) {h : RecvHalf}
    (he : x'.e = { x.e.set f.streamId (some (.fresh P.initialWindow.toNat true, h)) with
      lastPeer := f.streamId })
    (hxw : x'.wire = x.wire) (hsent : x'.sent = x.sent) : Link P x' { y with wire := w } := by
  have hserver : x'.e.server = x.e.server := by rw [he]; rfl
  have hnext : x'.e.next = x.e.next := by rw [he]; rfl
  have hlast : x'.e.lastPeer = f.streamId := by rw [he]
  have hout : x'.outgoing = x.outgoing := by rw [Party.outgoing, hxw, he]; rfl
  have hnk : ¬x.e.Known f.streamId := by
    unfold Endpoint.Known
    rw [if_pos hp]
    omega
  have hyk : y.e.Known f.streamId := by
    have hmem : f.streamId ∈ openIds y.outgoing :=
      mem_openIds (by simp [Party.outgoing, hw]) ht
    have := (List.pairwise_append.mp (List.pairwise_cons.mp B.order).2).2.2 _ hmem _
      (List.mem_singleton_self y.e.next)
    unfold Endpoint.Known
    rw [if_neg (by rw [hp, hroles]; simp)]
    exact this
  have hgrant : grants f.streamId (Party.outgoing { y with wire := w }) = 0 :=
    grants_eq_zero fun g hg ht h => hnk (h ▸ (B.updates g (by
      rw [Party.outgoing, hw]
      exact List.mem_cons_of_mem _ hg) ht).2)
  have hself : x'.e.Known f.streamId := by
    unfold Endpoint.Known
    rw [hserver, if_pos hp, hlast]
  have L' := L.peerConsumed hw (by rw [ht]; rintro ⟨⟩)
  refine ⟨?_, ?_, fun g hg => L'.updates g (hout ▸ hg), fun i => ?_⟩
  · rw [hxw, he]
    exact L'.phase
  · rw [hout, hnext]
    exact L'.order
  · have hC := L'.channel i
    rw [hout, hsent]
    by_cases hi : i = f.streamId
    · subst hi
      rw [hgrant] at hC ⊢
      rw [show x'.e.sendHalf f.streamId = some (.fresh P.initialWindow.toNat true) from
        Endpoint.sendHalf_some (h := h) (by rw [he]; exact Function.update_self ..)]
      exact (hC.opened hnk (Endpoint.view_ne_unknown hyk)).learn fun _ => hself
    · rw [Endpoint.sendHalf_congr (e := x.e) (by rw [he]; exact Function.update_of_ne hi ..)]
      refine hC.learn fun hk => hk.mono hserver (by rw [hnext]) ?_
      rw [hlast]
      exact Nat.le_of_lt hl

/-- The sender reads a WINDOW_UPDATE. -/
theorem granted (L : Link P x y) (Gx : x.Good P) (Gy : y.Good P) {w : List Frame}
    {wu : WindowUpdate} (hw : y.wire = f :: w) (ht : f.frameType = .windowUpdate)
    (hd : ThirdParty.windowUpdate.decode f.payload = some wu) :
    Link P { x with e := x.e.set f.streamId ((x.e.streams f.streamId).map fun z =>
      ({ z.1 with credit := satAdd32 z.1.credit wu.credit.toNat }, z.2)) } { y with wire := w } := by
  have hg : ∀ i, grants i y.outgoing = f.grant i + grants i (w ++ y.e.control) := by
    simp [Party.outgoing, hw]
  refine ⟨L.phase, L.order, L.updates, fun i => ?_⟩
  have hC := L.channel i
  rw [hg] at hC
  by_cases hi : i = f.streamId
  · subst hi
    have hgrant : f.grant f.streamId = wu.credit.toNat := by simp [Frame.grant, ht, hd]
    cases hx : x.e.streams f.streamId with
    | none =>
      rw [Endpoint.sendHalf_none hx] at hC
      have hhalf : (x.e.set f.streamId none).sendHalf f.streamId = none := by
        simp [Endpoint.sendHalf, Endpoint.set]
      exact hhalf ▸ hC.regrant
    | some z =>
      obtain ⟨s, h⟩ := z
      have hhalf : x.e.sendHalf f.streamId = some s := by rw [Endpoint.sendHalf, hx]; rfl
      have hhalf' : (x.e.set f.streamId (some
          ({ s with credit := satAdd32 s.credit wu.credit.toNat }, h))).sendHalf f.streamId =
          some { s with credit := satAdd32 s.credit wu.credit.toNat } := by
        simp [Endpoint.sendHalf, Endpoint.set]
      rw [hhalf] at hC
      obtain ⟨_, _, hgood⟩ := Gx.endpoint.streams _ _ _ hx
      -- no saturation: the credit in circulation fits in the window
      have hsat : y.e.view f.streamId ≠ .gone →
          satAdd32 s.credit wu.credit.toNat = s.credit + wu.credit.toNat := by
        intro hv
        have hle := hC.credit_le hv hgood.bytes fun h hh => by
          unfold Endpoint.view at hh
          split at hh
          · rename_i s' h' hy
            cases hh
            exact (Gy.endpoint.streams _ _ _ hy).2.2.conserved.remaining_le
          · split at hh <;> cases hh
        have := P.initialWindow.toNat_lt
        simp only [satAdd32, u32Max]
        omega
      rw [hgrant] at hC
      exact hhalf' ▸ hC.grant hsat
  · have hhalf : (x.e.set f.streamId ((x.e.streams f.streamId).map fun z =>
        ({ z.1 with credit := satAdd32 z.1.credit wu.credit.toNat }, z.2))).sendHalf i =
        x.e.sendHalf i := by
      simp [Endpoint.sendHalf, Endpoint.set, Function.update_of_ne hi]
    rw [Frame.grant_of_ne (Ne.symm hi), Nat.zero_add] at hC
    exact hhalf ▸ hC

/-! ## The acting endpoint receives -/

/-- Only stream `i` changes for the receiver `x`. -/
theorem reread (L : Link P y x) (hhs : x'.e.hs = x.e.hs) (hl : x'.e.lastPeer = x.e.lastPeer)
    (hserver : x'.e.server = x.e.server) (hknown : ∀ j, x.e.Known j → x'.e.Known j)
    (hother : ∀ j ≠ i, x'.e.view j = x.e.view j ∧ grants j x'.outgoing = grants j x.outgoing ∧
      x'.taken j = x.taken j)
    (hc : Channel P x.e.server i (x'.e.view i) (streamFrames i y.outgoing) (y.e.sendHalf i)
      (y.e.Known i) (grants i x'.outgoing) (y.sent i) (x'.taken i)) : Link P y x' := by
  refine ⟨?_, ?_, fun f hf ht => ?_, fun j => ?_⟩
  · rw [hhs]
    exact L.phase
  · rw [hl]
    exact L.order
  · obtain ⟨hd, hk⟩ := L.updates f hf ht
    exact ⟨hd, hknown _ hk⟩
  · rw [hserver]
    by_cases hj : j = i
    · subst hj
      exact hc
    · obtain ⟨h1, h2, h3⟩ := hother j hj
      rw [h1, h2, h3]
      exact L.channel j

/-- Nothing changes for the receiver `x`. -/
theorem recongr (L : Link P y x) (hhs : x'.e.hs = x.e.hs) (hl : x'.e.lastPeer = x.e.lastPeer)
    (hserver : x'.e.server = x.e.server) (hknown : ∀ j, x.e.Known j → x'.e.Known j)
    (hview : ∀ j, x'.e.view j = x.e.view j) (hgrants : ∀ j, grants j x'.outgoing = grants j x.outgoing)
    (htaken : x'.taken = x.taken) : Link P y x' :=
  L.reread (i := 0) hhs hl hserver hknown (fun j _ => ⟨hview j, hgrants j, by rw [htaken]⟩) (by
    rw [hview, hgrants, htaken]
    exact L.channel 0)

theorem phase_cons (L : Link P y x) {w : List Frame} (hw : y.wire = f :: w) :
    ∃ q, PhaseStep P f x.e.hs q ∧ ∃ p, PhaseRun P q (w ++ y.e.prio) p ∧
      (y.e.closed = false → p = y.e.peerPhase) := by
  obtain ⟨p, hrun, hpeer⟩ := L.phase
  rw [hw] at hrun
  cases hrun with
  | cons hs hrun => exact ⟨_, hs, p, hrun, hpeer⟩

/-- The receiver reads a frame that concerns no stream's view. -/
theorem consumeOther (L : Link P y x) {w : List Frame} (hw : y.wire = f :: w)
    (ht : f.frameType.isStream = false)
    (hphase : ∃ p, PhaseRun P (.hs x'.e.hs) (w ++ y.e.prio) p ∧
      (y.e.closed = false → p = y.e.peerPhase))
    (hl : x'.e.lastPeer = x.e.lastPeer) (hserver : x'.e.server = x.e.server)
    (hknown : ∀ j, x.e.Known j → x'.e.Known j) (hview : ∀ j, x'.e.view j = x.e.view j)
    (hgrants : ∀ j, grants j x'.outgoing = grants j x.outgoing) (htaken : x'.taken = x.taken) :
    Link P { y with wire := w } x' := by
  have hout : y.outgoing = f :: (w ++ y.e.control) := by simp [Party.outgoing, hw]
  refine ⟨hphase, ?_, fun g hg hgt => ?_, fun j => ?_⟩
  · have horder := L.order
    rw [hout, openIds_cons_ne (by rintro h; rw [h] at ht; cases ht)] at horder
    rw [hl]
    exact horder
  · obtain ⟨hd, hk⟩ := L.updates g (by rw [hout]; exact List.mem_cons_of_mem _ hg) hgt
    exact ⟨hd, hknown _ hk⟩
  · have hC := L.channel j
    rw [hout, streamFrames_cons_other ht] at hC
    rw [hserver, hview, hgrants, htaken]
    exact hC

theorem phase_ordinary (L : Link P y x) {w : List Frame} (hw : y.wire = f :: w) (hr : x.e.Ready)
    (ht : f.frameType ≠ .goaway) :
    ∃ p, PhaseRun P (.hs x.e.hs) (w ++ y.e.prio) p ∧ (y.e.closed = false → p = y.e.peerPhase) := by
  obtain ⟨q, hq, hrun⟩ := L.phase_cons hw
  rw [hr.done] at hq ⊢
  rwa [hq.of_done ht] at hrun

/-- The receiver learns of a stream. -/
theorem consumeOpen (L : Link P y x) {w : List Frame} (hw : y.wire = f :: w) (hr : x.e.Ready)
    (ht : f.frameType = .open) (hp : (f.streamId % 2 == 1) = x.e.server)
    (hl : x.e.lastPeer < f.streamId) (Gx : x.Good P) {s : SendHalf}
    (he : x'.e = { x.e.set f.streamId (some (s, .fresh P.initialWindow.toNat)) with
      lastPeer := f.streamId })
    (hxw : x'.wire = x.wire) (htaken : x'.taken = x.taken) : Link P { y with wire := w } x' := by
  have hserver : x'.e.server = x.e.server := by rw [he]; rfl
  have hnext : x'.e.next = x.e.next := by rw [he]; rfl
  have hlast : x'.e.lastPeer = f.streamId := by rw [he]
  have hxout : x'.outgoing = x.outgoing := by rw [Party.outgoing, hxw, he]; rfl
  have hout : y.outgoing = f :: (w ++ y.e.control) := by simp [Party.outgoing, hw]
  have hnk : ¬x.e.Known f.streamId := by
    unfold Endpoint.Known
    rw [if_pos hp]
    omega
  have hknown : ∀ {j}, x.e.Known j → x'.e.Known j := fun h =>
    h.mono hserver (by rw [hnext]) (by rw [hlast]; exact Nat.le_of_lt hl)
  have horder := L.order
  rw [hout, openIds_cons_open ht, List.cons_append] at horder
  have horder := (List.pairwise_cons.mp horder).2
  refine ⟨?_, ?_, fun g hg hgt => ?_, fun j => ?_⟩
  · rw [he]
    exact L.phase_ordinary hw hr (by rw [ht]; rintro ⟨⟩)
  · rw [hlast]
    exact horder
  · obtain ⟨hd, hk⟩ := L.updates g (by rw [hout]; exact List.mem_cons_of_mem _ hg) hgt
    exact ⟨hd, hknown hk⟩
  · have hC := L.channel j
    rw [hout] at hC
    rw [hserver, hxout, htaken]
    by_cases hj : j = f.streamId
    · subst hj
      rw [streamFrames_cons_self (by rw [ht]; rfl), Gx.endpoint.view_of_not_known hnk] at hC
      obtain ⟨_, v, hv, hC⟩ := hC.step
      obtain ⟨_, rfl⟩ := View.step_unknown hv
      rw [show x'.e.view f.streamId = .live (.fresh P.initialWindow.toNat) from
        Endpoint.view_live (s := s) (by rw [he]; exact Function.update_self ..)]
      exact hC
    · have hstreams : x'.e.streams j = x.e.streams j := by
        rw [he]
        exact Function.update_of_ne hj ..
      rw [streamFrames_cons_ne (Ne.symm hj)] at hC
      by_cases hk : x'.e.Known j ↔ x.e.Known j
      · rw [Endpoint.view_congr hstreams hk]
        exact hC
      · -- the id is skipped: OPEN frames still to come are for later ids
        have hk' : x'.e.Known j ∧ ¬x.e.Known j := by
          by_cases h : x.e.Known j
          · exact absurd ⟨fun _ => h, fun _ => hknown h⟩ hk
          · by_cases h' : x'.e.Known j
            · exact ⟨h', h⟩
            · exact absurd ⟨fun a => absurd a h', fun a => absurd a h⟩ hk
        have hlt : j < f.streamId := by
          obtain ⟨h1, h2⟩ := hk'
          unfold Endpoint.Known at h1 h2
          rw [hserver, hlast, hnext] at h1
          split at h1
          · exact Nat.lt_of_le_of_ne h1 hj
          · rename_i hpar
            rw [if_neg hpar] at h2
            exact absurd h1 h2
        have hunk := Gx.endpoint.view_of_not_known hk'.2
        have hnone : x.e.streams j = none := by
          unfold Endpoint.view at hunk
          split at hunk
          · cases hunk
          · assumption
        rw [Endpoint.view_gone (hstreams.trans hnone) hk'.1]
        rw [hunk] at hC
        refine hC.skip fun g hg hgt => ?_
        obtain ⟨hg, hgj⟩ := List.mem_filter.mp hg
        simp only [decide_eq_true_eq] at hgj
        have := (List.pairwise_cons.mp horder).1 g.streamId
          (List.mem_append_left _ (mem_openIds hg hgt))
        rw [hgj.1] at this
        exact absurd hlt (Nat.lt_asymm this)

/-- The receiver reads a DATA, FIN or RST frame. -/
theorem consumeStream (L : Link P y x) {w : List Frame} (hw : y.wire = f :: w) (hr : x.e.Ready)
    (Gx : x.Good P) (ht : f.frameType.isStream = true) (hno : f.frameType ≠ .open) {v : View}
    (hv : View.step P x.e.server (x.e.view f.streamId) f = some v) :
    Link P { y with wire := w } { x with e := x.e.set f.streamId (x.e.seen f.streamId v) } := by
  have hout : y.outgoing = f :: (w ++ y.e.control) := by simp [Party.outgoing, hw]
  refine ⟨L.phase_ordinary hw hr (by rintro h; rw [h] at ht; cases ht), ?_,
    fun g hg => L.updates g (by rw [hout]; exact List.mem_cons_of_mem _ hg), fun j => ?_⟩
  · have horder := L.order
    rw [hout, openIds_cons_ne hno] at horder
    exact horder
  · have hC := L.channel j
    rw [hout] at hC
    by_cases hj : j = f.streamId
    · subst hj
      rw [streamFrames_cons_self ht] at hC
      obtain ⟨_, v', hv', hC⟩ := hC.step
      rw [hv] at hv'
      cases hv'
      have hself : (x.e.set f.streamId (x.e.seen f.streamId v)).streams f.streamId =
          x.e.seen f.streamId v := Function.update_self ..
      have hview : (x.e.set f.streamId (x.e.seen f.streamId v)).view f.streamId = v := by
        cases hx : x.e.streams f.streamId with
        | none =>
          by_cases hk : x.e.Known f.streamId
          · rw [Endpoint.view_gone hx hk] at hv
            obtain rfl := View.step_gone hv
            exact Endpoint.view_gone hself hk
          · rw [Gx.endpoint.view_of_not_known hk] at hv
            exact absurd (View.step_unknown hv).1 hno
        | some z =>
          have hk := (Gx.endpoint.streams _ _ _ hx).2.1
          rw [Endpoint.view_live hx] at hv
          rcases View.step_live hv with ⟨rfl, _⟩ | ⟨h', rfl, _⟩
          · exact Endpoint.view_gone hself hk
          · refine Endpoint.view_live (s := z.1) (hself.trans ?_)
            rw [Endpoint.seen, hx]
            rfl
      rw [← hview] at hC
      exact hC
    · rw [streamFrames_cons_ne (Ne.symm hj)] at hC
      have hview : (x.e.set f.streamId (x.e.seen f.streamId v)).view j = x.e.view j :=
        Endpoint.view_congr (Function.update_of_ne hj ..) Iff.rfl
      exact hview ▸ hC

end Link

end TunnelWeaver.Mux
