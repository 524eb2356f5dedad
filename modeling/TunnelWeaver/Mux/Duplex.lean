import TunnelWeaver.Mux.LinkSteps

/-! Every step of either endpoint keeps the invariant of the pair (`Duplex.step`), and what the
invariant says of a pair of endpoints. -/

namespace TunnelWeaver.Mux

open Endpoint (Label)

variable [ThirdParty] {P : Params} {x x' y y' : Party} {f : Frame} {i : Nat} {e : Endpoint}
  {l : Label}

/-! ## The ledgers -/

/-- The sender acts and accepts nothing. -/
theorem Ledger.sender (L : Ledger x y) (G : x.Good P) (H : x.e.Step P l e) (x' y' : Party)
    (he : x'.e = e) (hsent : x'.sent = x.sent) (hy : y'.e.finished = y.e.finished) (hyt : y'.taken = y.taken)
    (hyp : y'.polled = y.polled) : Ledger x' y' := by
  subst he
  refine ⟨by rw [hsent, hyt]; exact L.taken, fun i hi => ?_⟩
  rw [hy, hyp] at hi
  obtain ⟨heq, hk, hclosed⟩ := L.finished i hi
  refine ⟨by rw [hsent, hyt]; exact heq, H.known hk, fun s' hs' => ?_⟩
  obtain ⟨s, hs, himp⟩ := H.halfClosed G.endpoint hk hs'
  exact himp (hclosed s hs)

/-- The sender accepts a message on a stream it has not half-closed. -/
theorem Ledger.accept (L : Ledger x y) (G : x.Good P) {m : Bytes} {s : SendHalf}
    (H : x.e.Step P (.accept i m) e) (hi : x.e.sendHalf i = some s) (ho : s.localOpen = true) :
    Ledger { x with e, sent := Function.update x.sent i (x.sent i ++ [m]) } y := by
  refine ⟨fun j => ?_, fun j hj => ?_⟩
  · by_cases hj : j = i
    · subst hj
      dsimp only
      rw [Function.update_self]
      exact (L.taken j).trans (List.prefix_append ..)
    · dsimp only
      rw [Function.update_of_ne hj]
      exact L.taken j
  · obtain ⟨heq, hk, hclosed⟩ := L.finished j hj
    by_cases hji : j = i
    · subst hji
      simp [hclosed s hi] at ho
    · refine ⟨by dsimp only; rw [Function.update_of_ne hji]; exact heq, H.known hk, fun s' hs' => ?_⟩
      obtain ⟨s, hs, himp⟩ := H.halfClosed G.endpoint hk hs'
      exact himp (hclosed s hs)

omit [ThirdParty] in
/-- The receiver acts; nothing was taken from it and no event was added. -/
theorem Ledger.receiver (L : Ledger y x) (htaken : x'.taken = x.taken)
    (hfin : ∀ i ∈ x'.e.finished ++ x'.polled, i ∈ x.e.finished ++ x.polled) (hy : y'.e = y.e)
    (hys : y'.sent = y.sent) : Ledger y' x' :=
  ⟨by rw [htaken, hys]; exact L.taken, fun i hi => by
    rw [htaken, hys, hy]
    exact L.finished i (hfin i hi)⟩

/-! ## Steps -/

namespace Endpoint

omit [ThirdParty] in
/-- A change of the sending half does not show in the view. -/
theorem view_set_sendHalf {s s' : SendHalf} {h : RecvHalf} (hi : e.streams i = some (s, h))
    (j : StreamId) : (e.set i (some (s', h))).view j = e.view j := by
  by_cases hj : j = i
  · subst hj
    rw [view_live hi, view_live (s := s') (Function.update_self ..)]
  · exact view_congr (Function.update_of_ne hj ..) Iff.rfl

omit [ThirdParty] in
theorem view_set_none (hk : e.Known i) : (e.set i none).view i = .gone :=
  view_gone (Function.update_self ..) hk

theorem grants_push {fs : List Frame} (hfs : ∀ f ∈ fs, f.frameType ≠ .windowUpdate)
    (l : List Frame) (j : StreamId) : grants j (l ++ fs) = grants j l := by
  rw [grants_append, grants_eq_zero fun f hf ht => absurd ht (hfs f hf), Nat.add_zero]

end Endpoint

namespace Duplex

/-- What is left to prove when `x` acts. -/
theorem of_step (D : Duplex P x y) (hP : P.InRange) (H : x.e.Step P l e) (he : x'.e = e)
    (hwire : ∀ f ∈ x'.wire, f ∈ x.wire ∨
      f.streamId < 2 ^ 32 ∧ (f.frameType = .data → f.payload.length < 2 ^ 32))
    (hy : y'.e = y.e) (hyw : ∀ f ∈ y'.wire, f ∈ y.wire) (hback : x'.e.lastPeer < y.e.next)
    (link : y.e.closed = false → Link P x' y') (back : x'.e.closed = false → Link P y' x')
    (ledger : Ledger x' y') (backLedger : Ledger y' x') : Duplex P x' y' where
  left := by
    refine ⟨by rw [he]; exact D.left.endpoint.step hP H, fun f hf => ?_⟩
    rcases hwire f hf with hf | hf
    · exact D.left.wire f hf
    · exact hf
  right := ⟨by rw [hy]; exact D.right.endpoint, fun f hf => D.right.wire f (hyw f hf)⟩
  roles := by rw [hy, he, H.server]; exact D.roles
  ahead := by
    rw [hy, he]
    refine Nat.lt_of_lt_of_le D.ahead ?_
    cases H <;> first | exact Nat.le.refl | exact Nat.le_add_right ..
  backAhead := by rw [hy]; exact hback
  link := by rw [hy]; exact link
  back := back
  ledger := ledger
  backLedger := backLedger

theorem emit (D : Duplex P x y) (hP : P.InRange) (H : x.e.Step P (.emit f) e) :
    Duplex P { x with e, wire := x.wire ++ [f] } y := by
  have G := D.left.endpoint
  have hled := D.ledger.sender D.left H { x with e, wire := x.wire ++ [f] } y rfl rfl rfl rfl
    rfl
  have key : ∀ {x'}, x' = { x with e, wire := x.wire ++ [f] } →
      f.streamId < 2 ^ 32 ∧ (f.frameType = .data → f.payload.length < 2 ^ 32) →
      e.lastPeer = x.e.lastPeer → e.finished = x.e.finished →
      (y.e.closed = false → Link P x' y) → (x'.e.closed = false → Link P y x') →
      Duplex P x' y := by
    rintro x' rfl hf hl hfin link back
    refine D.of_step hP H rfl (fun g hg => ?_) rfl (fun _ => id) ?_ link back hled
      (D.backLedger.receiver rfl ?_ rfl rfl)
    · rcases List.mem_append.mp hg with hg | hg
      · exact .inl hg
      · rw [List.mem_singleton.mp hg]
        exact .inr hf
    · dsimp only
      rw [hl]
      exact D.backAhead
    · dsimp only
      rw [hfin]
      exact fun _ => id
  cases H with
  | emitPriority hp =>
    obtain ⟨h0, hty⟩ := G.prio f (by simp [hp])
    have hne := FrameType.ne_of_isPriority hty
    refine key rfl ⟨by rw [h0]; decide, fun h => absurd h hne.2.2⟩ rfl rfl
      (fun hc => (D.link hc).emitPriority D.left hp) fun hc => ?_
    refine (D.back hc).recongr rfl rfl rfl (fun _ => id) (fun _ => rfl) (fun j => ?_) rfl
    simp [Party.outgoing, Frame.grant_of_type hne.2.1]
  | @emitControl f rest hp hc =>
    obtain ⟨_, hdata, hk⟩ := G.control f (by simp [hc])
    refine key rfl ⟨G.known_lt hk, fun h => absurd h hdata⟩ rfl rfl
      (fun hcl => (D.link hcl).emitControl D.left hp hc) fun hcl => ?_
    refine (D.back hcl).recongr rfl rfl rfl (fun _ => id) (fun j => ?_) (fun j => ?_) rfl
    · cases hx : x.e.streams f.streamId with
      | none =>
        refine Endpoint.view_congr ?_ Iff.rfl
        by_cases hj : j = f.streamId
        · subst hj
          simp [hx]
        · simp [Function.update_of_ne hj]
      | some z => exact Endpoint.view_set_sendHalf hx j
    · simp [Party.outgoing, hc]
  | @emitData i s h p rest hp hi hs hb =>
    obtain ⟨h0, hk, hg⟩ := G.streams i s h hi
    have hr := G.ready hi
    have hbytes := hg.bytes
    rw [hb, wireBytes_cons] at hbytes
    have hqueue := hg.sent (.inr (by simp [hb])) hs
    have hfin : ∀ f ∈ if rest = [] ∧ s.localOpen = false then [finFrame i] else [],
        f.streamId = i ∧ f.frameType ≠ .open ∧ f.frameType ≠ .windowUpdate := by
      intro f hf
      split at hf
      · rw [List.mem_singleton.mp hf]
        exact ⟨rfl, (by rintro ⟨⟩), (by rintro ⟨⟩)⟩
      · cases hf
    refine key rfl ⟨G.known_lt hk, fun _ => hg.small p (by simp [hb])⟩ rfl rfl (fun hcl => ?_)
      fun hcl => ?_
    · have L := D.link hcl
      refine L.setPush (i := i) [⟨i, .data, p⟩] _ rfl rfl
        (L.phase_concat hr hp (.stream h0 (.inl rfl))) (fun f hf => ?_) (fun _ _ => rfl) ?_
      · rcases List.mem_append.mp hf with hf | hf
        · rw [List.mem_singleton.mp hf]
          exact ⟨rfl, (by rintro ⟨⟩), (by rintro ⟨⟩)⟩
        · exact hfin f hf
      · have hC := L.channel i
        rw [Endpoint.sendHalf_some hi, Party.outgoing, streamFrames_append, hqueue,
          List.append_nil] at hC
        have hE := hC.emit hb (by omega) hg.outbox_le
        have hdata : streamFrames i [⟨i, .data, p⟩] = [⟨i, .data, p⟩] := by
          simp [streamFrames_cons, FrameType.isStream]
        have hfs : streamFrames i (if rest = [] ∧ s.localOpen = false then [finFrame i] else []) =
            if rest = [] ∧ s.localOpen = false then [finFrame i] else [] := by
          split
          · simp [streamFrames_cons, FrameType.isStream, finFrame]
          · rfl
        rw [hqueue, hdata, hfs]
        simpa using hE
    · refine (D.back hcl).recongr rfl rfl rfl (fun _ => id)
        (fun j => Endpoint.view_set_sendHalf hi j) (fun j => ?_) rfl
      simp only [Party.outgoing, Endpoint.push, Endpoint.set]
      rw [← List.append_assoc, Endpoint.grants_push fun f hf => (hfin f hf).2.2]
      simp [Frame.grant]

theorem tau (D : Duplex P x y) (hP : P.InRange) (H : x.e.Step P .tau e) :
    Duplex P { x with e } y := by
  have G := D.left.endpoint
  have hled := D.ledger.sender D.left H { x with e } y rfl rfl rfl rfl rfl
  have key : ∀ {x'}, x' = { x with e } → e.lastPeer = x.e.lastPeer →
      (y.e.closed = false → Link P x' y) → (x'.e.closed = false → Link P y x') → Ledger y x' →
      Duplex P x' y := by
    rintro x' rfl hl link back hbl
    refine D.of_step hP H rfl (fun _ => .inl) rfl (fun _ => id) ?_ link back hled hbl
    dsimp only
    rw [hl]
    exact D.backAhead
  have hbl : e.finished = x.e.finished → Ledger y { x with e } := fun hfin =>
    D.backLedger.receiver rfl (fun i hi => by
      dsimp only at hi
      rwa [hfin] at hi) rfl rfl
  cases H with
  | @«open» cls hr hcls hle =>
    have B := D.back hr.isOpen
    have hnk : ¬y.e.Known x.e.next := by
      have := D.ahead
      unfold Endpoint.Known
      rw [if_pos (by rw [G.next_parity, D.roles])]
      omega
    refine key rfl rfl (fun hc => (D.link hc).open B D.left D.right D.roles hcls rfl rfl rfl)
      (fun _ => ?_) (hbl rfl)
    refine B.reread (i := x.e.next) rfl rfl rfl
      (fun j h => Endpoint.Known.mono (e := x.e) rfl (Nat.le_add_right ..) Nat.le.refl h)
      (fun j hj => ⟨?_, ?_, rfl⟩) ?_
    · exact Endpoint.view_congr (Function.update_of_ne hj ..) (G.known_of_next rfl rfl rfl hj)
    · simp [Party.outgoing, Endpoint.push, Endpoint.set, Frame.grant]
    · have hC := B.channel x.e.next
      rw [G.view_of_not_known G.not_known_next] at hC
      rw [Endpoint.view_live (s := .fresh P.initialWindow.toNat false) (Function.update_self ..)]
      exact hC.start hnk
  | @finish i s h hi ho =>
    have hfin : ∀ f ∈ if s.outbox = [] then [finFrame i] else [],
        f.streamId = i ∧ f.frameType ≠ .open ∧ f.frameType ≠ .windowUpdate := by
      intro f hf
      split at hf
      · rw [List.mem_singleton.mp hf]
        exact ⟨rfl, (by rintro ⟨⟩), (by rintro ⟨⟩)⟩
      · cases hf
    refine key rfl rfl (fun hc => ?_) (fun hc => ?_) (hbl rfl)
    · have L := D.link hc
      refine L.setPush (i := i) [] _ rfl (List.append_nil _).symm
        (by rw [List.append_nil]; exact L.phase) hfin (fun _ _ => rfl) ?_
      have hC := L.channel i
      rw [Endpoint.sendHalf_some hi, Party.outgoing, streamFrames_append] at hC
      have hfs : streamFrames i (if s.outbox = [] then [finFrame i] else []) =
          if s.outbox = [] then [finFrame i] else [] := by
        split
        · simp [streamFrames_cons, FrameType.isStream, finFrame]
        · rfl
      rw [hfs, streamFrames_nil, List.append_nil, ← List.append_assoc]
      exact hC.finish ho
    · refine (D.back hc).recongr rfl rfl rfl (fun _ => id)
        (fun j => Endpoint.view_set_sendHalf hi j) (fun j => ?_) rfl
      simp only [Party.outgoing, Endpoint.push, Endpoint.set]
      rw [← List.append_assoc, Endpoint.grants_push fun f hf => (hfin f hf).2.2]
  | @reset i s h code hi =>
    have hk := (G.streams i s h hi).2.1
    refine key rfl rfl (fun hc => ?_) (fun hc => ?_) (hbl rfl)
    · have L := D.link hc
      refine L.setPush (i := i) [] _ rfl (List.append_nil _).symm
        (by rw [List.append_nil]; exact L.phase) (fun f hf => ?_) (fun _ _ => rfl) ?_
      · rw [List.mem_singleton.mp hf]
        exact ⟨rfl, (by rintro ⟨⟩), (by rintro ⟨⟩)⟩
      · have hC := L.channel i
        rw [Endpoint.sendHalf_some hi, Party.outgoing, streamFrames_append] at hC
        have hfs : streamFrames i [⟨i, .rst, ThirdParty.rst.encode ⟨code⟩⟩] =
            [⟨i, .rst, ThirdParty.rst.encode ⟨code⟩⟩] := by
          simp [streamFrames_cons, FrameType.isStream]
        rw [hfs, streamFrames_nil, List.append_nil, ← List.append_assoc]
        exact hC.reset
    · refine (D.back hc).reread (i := i) rfl rfl rfl (fun _ => id) (fun j hj => ⟨?_, ?_, rfl⟩) ?_
      · exact Endpoint.view_congr (Function.update_of_ne hj ..) Iff.rfl
      · simp [Party.outgoing, Endpoint.push, Endpoint.set, Frame.grant]
      · have hC := (D.back hc).channel i
        have hg : grants i (x.wire ++ (x.e.control ++ [⟨i, .rst, ThirdParty.rst.encode ⟨code⟩⟩])) =
            grants i x.outgoing := by
          simp [Party.outgoing, Frame.grant]
        have hC := hC.forget (Endpoint.view_ne_unknown hk)
        rw [← hg, ← Endpoint.view_set_none hk] at hC
        exact hC
  | @drop i s h hi =>
    have hk := (G.streams i s h hi).2.1
    refine key rfl rfl (fun hc => ?_) (fun hc => ?_) (hbl rfl)
    · have L := D.link hc
      refine L.setPush (i := i) [] [] Endpoint.push_nil.symm
        (List.append_nil _).symm (by rw [List.append_nil]; exact L.phase) (by rintro _ ⟨⟩)
        (fun _ _ => rfl) ?_
      have hC := L.channel i
      rw [Party.outgoing, streamFrames_append] at hC
      simpa using hC.drop
    · refine (D.back hc).reread (i := i) rfl rfl rfl (fun _ => id) (fun j hj => ⟨?_, rfl, rfl⟩) ?_
      · exact Endpoint.view_congr (Function.update_of_ne hj ..) Iff.rfl
      · rw [Endpoint.view_set_none hk]
        exact ((D.back hc).channel i).forget (Endpoint.view_ne_unknown hk)
  | @finished i s h hi ho hin =>
    have B := D.back (G.ready hi).isOpen
    refine key rfl rfl (fun hc => (D.link hc).push [] rfl (List.append_nil _).symm rfl rfl
      rfl rfl (fun _ => Iff.rfl) (fun _ => rfl) rfl (by rintro _ ⟨⟩)) (fun hc => ?_) ⟨D.backLedger.taken, ?_⟩
    · exact (D.back hc).recongr rfl rfl rfl (fun _ => id) (fun _ => rfl) (fun _ => rfl) rfl
    · intro j hj
      simp only [List.append_assoc, List.mem_append, List.mem_singleton] at hj
      by_cases hji : j = i
      · subst hji
        have hC := B.channel j
        rw [Endpoint.view_live hi] at hC
        obtain ⟨heq, hk, hs⟩ := hC.finished ho
        refine ⟨?_, hk, hs⟩
        simpa [RecvHalf.messages, hin] using heq
      · refine D.backLedger.finished j ?_
        simp only [List.mem_append]
        tauto
  | @conn f hr h0 ht hd =>
    have hns : f.frameType.isStream = false ∧ f.frameType ≠ .windowUpdate := by
      rcases ht with ht | ht <;> rw [ht] <;> exact ⟨rfl, (by rintro ⟨⟩)⟩
    refine key rfl rfl (fun hc => (D.link hc).push [f] rfl rfl rfl rfl rfl rfl
      (fun _ => Iff.rfl) (fun _ => rfl) rfl fun g hg => ?_) (fun hc => ?_) (hbl rfl)
    · rw [List.mem_singleton.mp hg]
      exact ⟨hns.1, fun h => absurd h hns.2⟩
    · refine (D.back hc).recongr rfl rfl rfl (fun _ => id) (fun _ => rfl) (fun j => ?_) rfl
      simp [Party.outgoing, Endpoint.push, Frame.grant_of_type hns.2]
  | @close r hcl =>
    refine key rfl rfl (fun hc => (D.link hc).shut ?_) (by rintro ⟨⟩) (hbl rfl)
    obtain ⟨p, hrun, _⟩ := (D.link hc).phase
    obtain ⟨q, hq, _⟩ := hrun.split
    exact ⟨_, hq.goaway r⟩

theorem accept (D : Duplex P x y) (hP : P.InRange) {m : Bytes} (H : x.e.Step P (.accept i m) e) :
    Duplex P { x with e, sent := Function.update x.sent i (x.sent i ++ [m]) } y := by
  have hstep := H
  cases H with
  | @send i s h m ps hi ho hsplit hsmall hle hm =>
    refine D.of_step hP hstep rfl (fun _ => .inl) rfl (fun _ => id) D.backAhead (fun hc => ?_)
      (fun hc => ?_) (D.ledger.accept D.left hstep (Endpoint.sendHalf_some hi) ho)
      (D.backLedger.receiver rfl (fun _ => id) rfl rfl)
    · have L := D.link hc
      refine L.setPush (i := i) [] [] Endpoint.push_nil.symm
        (List.append_nil _).symm (by rw [List.append_nil]; exact L.phase) (by rintro _ ⟨⟩)
        (fun _ hj => Function.update_of_ne hj ..) ?_
      have hC := L.channel i
      rw [Endpoint.sendHalf_some hi, Party.outgoing, streamFrames_append] at hC
      simpa using hC.send ho hsplit hle hm
    · exact (D.back hc).recongr rfl rfl rfl (fun _ => id)
        (fun j => Endpoint.view_set_sendHalf hi j) (fun _ => rfl) rfl

theorem take (D : Duplex P x y) (hP : P.InRange) {m : Bytes} (H : x.e.Step P (.take i m) e) :
    Duplex P { x with e, taken := Function.update x.taken i (x.taken i ++ [m]) } y := by
  have hstep := H
  have G := D.left.endpoint
  cases H with
  | @take i s h m w rest c cr hi hin hcons =>
    obtain ⟨h0, hk, hg⟩ := G.streams i s h hi
    have B := D.back (G.ready hi).isOpen
    have hC := B.channel i
    rw [Endpoint.view_live hi] at hC
    obtain ⟨hyk, hC'⟩ := hC.take c cr hin
    have hcr := (hg.conserved.pop hin hcons).2
    have hfs : ∀ f ∈ if cr = 0 then [] else [Endpoint.grantFrame i cr],
        f = Endpoint.grantFrame i cr := by
      intro f hf
      split at hf
      · cases hf
      · exact List.mem_singleton.mp hf
    have hgrants : ∀ j, grants j (if cr = 0 then [] else [Endpoint.grantFrame i cr]) =
        if j = i then cr else 0 := by
      intro j
      have hlt := P.initialWindow.toNat_lt
      by_cases hz : cr = 0
      · simp [hz]
      · by_cases hj : j = i
        · simp only [hz, if_false, grants_cons, grants_nil, Nat.add_zero, hj, if_true, Frame.grant,
            Endpoint.grantFrame, true_and, Codec.decode_encode]
          rw [UInt32.toNat_ofNat']
          omega
        · simp [hz, hj, Frame.grant, Endpoint.grantFrame, Ne.symm hj]
    refine D.of_step hP hstep rfl (fun _ => .inl) rfl (fun _ => id) D.backAhead (fun hc => ?_)
      (fun hc => ?_) (D.ledger.sender D.left hstep _ _ rfl rfl rfl rfl rfl) ⟨fun j => ?_, fun j hj => ?_⟩
    · refine (D.link hc).push (if cr = 0 then [] else [Endpoint.grantFrame i cr]) rfl rfl rfl
        rfl rfl rfl (fun _ => Iff.rfl) (fun j => ?_) rfl fun f hf => ?_
      · by_cases hj : j = i
        · subst hj
          rw [Endpoint.sendHalf_some hi, Endpoint.sendHalf_some (h := h.pop c cr)
            (Function.update_self ..)]
        · exact Endpoint.sendHalf_congr (Function.update_of_ne hj ..)
      · rw [hfs f hf]
        exact ⟨rfl, fun _ => ⟨⟨_, Codec.decode_encode ..⟩, hyk⟩⟩
    · refine B.reread (i := i) rfl rfl rfl (fun _ => id) (fun j hj => ⟨?_, ?_, ?_⟩) ?_
      · exact Endpoint.view_congr (Function.update_of_ne hj ..) Iff.rfl
      · simp only [Party.outgoing, Endpoint.push, Endpoint.set]
        rw [← List.append_assoc, grants_append, hgrants, if_neg hj, Nat.add_zero]
      · exact Function.update_of_ne hj ..
      · have hout : grants i (Party.outgoing { x with
            e := (x.e.set i (some (s, h.pop c cr))).push
              (if cr = 0 then [] else [Endpoint.grantFrame i cr])
            taken := Function.update x.taken i (x.taken i ++ [m]) }) = grants i x.outgoing + cr := by
          simp only [Party.outgoing, Endpoint.push, Endpoint.set]
          rw [← List.append_assoc, grants_append, hgrants, if_pos rfl]
        rw [hout, Endpoint.view_live (s := s) (h := h.pop c cr) (Function.update_self ..)]
        dsimp only
        rw [Function.update_self]
        exact hC'
    · dsimp only
      by_cases hj : j = i
      · subst hj
        rw [Function.update_self]
        obtain ⟨t, ht⟩ := hC'.taken_isPrefix
        exact ⟨_, (List.append_assoc ..).symm.trans ht⟩
      · rw [Function.update_of_ne hj]
        exact D.backLedger.taken j
    · dsimp only at hj ⊢
      obtain ⟨heq, hk', hs⟩ := D.backLedger.finished j hj
      by_cases hji : j = i
      · -- a finished stream has nothing left to take
        subst hji
        have hpre := hC'.taken_isPrefix.length_le
        rw [heq] at hpre
        simp only [List.length_append, List.length_singleton] at hpre
        omega
      · rw [Function.update_of_ne hji]
        exact ⟨heq, hk', hs⟩

theorem poll (D : Duplex P x y) (hP : P.InRange) (H : x.e.Step P (.polled i) e) :
    Duplex P { x with e, polled := x.polled ++ [i] } y := by
  have hstep := H
  cases H with
  | @polled i rest hq =>
    refine D.of_step hP hstep rfl (fun _ => .inl) rfl (fun _ => id) D.backAhead
      (fun hc => (D.link hc).push [] rfl (List.append_nil _).symm rfl rfl rfl rfl
        (fun _ => Iff.rfl) (fun _ => rfl) rfl (by rintro _ ⟨⟩))
      (fun hc => (D.back hc).recongr rfl rfl rfl (fun _ => id) (fun _ => rfl) (fun _ => rfl) rfl)
      (D.ledger.sender D.left hstep _ _ rfl rfl rfl rfl rfl)
      (D.backLedger.receiver rfl (fun j hj => ?_) rfl rfl)
    simp only [hq, List.mem_append, List.mem_cons, List.mem_nil_iff] at hj ⊢
    tauto

theorem consume (D : Duplex P x y) (hP : P.InRange) {w : List Frame} (hw : y.wire = f :: w)
    (H : x.e.Step P (.consume f) e) : Duplex P { x with e } { y with wire := w } := by
  have hstep := H
  have G := D.left.endpoint
  have hled := D.ledger.sender D.left H { x with e } { y with wire := w } rfl rfl rfl rfl rfl
  have key : e.finished = x.e.finished → e.lastPeer < y.e.next →
      (y.e.closed = false → Link P { x with e } { y with wire := w }) →
      (e.closed = false → Link P { y with wire := w } { x with e }) →
      Duplex P { x with e } { y with wire := w } := fun hfin hl link back =>
    D.of_step hP hstep rfl (fun _ => .inl) rfl
      (fun g hg => by rw [hw]; exact List.mem_cons_of_mem _ hg) hl link back hled
      (D.backLedger.receiver rfl (fun i hi => by
        dsimp only at hi
        rwa [hfin] at hi) rfl rfl)
  -- a sender that closes while it reads
  have closing : ∀ {prio}, e = x.e.shut prio → f.frameType ≠ .windowUpdate →
      (∀ p, PhaseRun P (.hs y.e.hs) (x.wire ++ x.e.prio) p →
        (x.e.closed = false → p = x.e.peerPhase) →
        ∃ p, PhaseRun P (.hs y.e.hs) (x.wire ++ prio) p) →
      Duplex P { x with e } { y with wire := w } := by
    rintro prio rfl ht hphase
    refine key rfl D.backAhead (fun hc => ?_) (by rintro ⟨⟩)
    have L := (D.link hc).peerConsumed hw ht
    obtain ⟨p, hrun, hpeer⟩ := L.phase
    exact L.shut (hphase p hrun hpeer)
  cases H with
  | ignore hcl =>
    refine key rfl D.backAhead (fun hc => (D.link hc).peerConsumed_idle fun i => ?_)
      fun h => by rw [hcl] at h; cases h
    exact (G.idle fun hr => by simp [hr.isOpen] at hcl).1 i
  | @challenge _ hello hcl hs ht =>
    have hserver : x.e.server = false := by
      have := G.role
      cases h : x.e.server <;> simp_all
    refine key rfl D.backAhead (fun hc => ?_) fun _ => ?_
    · have L := (D.link hc).peerConsumed hw (by rw [ht]; rintro ⟨⟩)
      refine L.handshake ?_
      obtain ⟨p, hrun, hpeer⟩ := L.phase
      rw [hpeer hcl, show x.e.peerPhase = .hs .challengeSent by
        simp [Endpoint.peerPhase, hserver, hs]] at hrun
      refine ⟨.hs .done, ?_, fun _ => by simp [Endpoint.peerPhase, hserver]⟩
      rw [← List.append_assoc]
      exact hrun.append (.cons (.hello rfl rfl (Codec.decode_encode ..)) .nil)
    · refine (D.back hcl).consumeOther hw (by rw [ht]; rfl) ?_ rfl rfl (fun _ => id) (fun _ => rfl)
        (fun _ => rfl) rfl
      obtain ⟨q, hq, hrun⟩ := (D.back hcl).phase_cons hw
      rw [hs] at hq
      cases hq with
      | goaway _ h => rw [ht] at h; cases h
      | challenge => exact hrun
  | giveUp hcl hs ht =>
    refine closing rfl (by rw [ht]; rintro ⟨⟩) fun p hrun _ => ?_
    obtain ⟨q, hq, _⟩ := hrun.split
    exact ⟨_, hq.goaway _⟩
  | @hello _ version hcl hs ht hv =>
    have hserver : x.e.server = true := by
      have := G.role
      cases h : x.e.server <;> simp_all
    refine key rfl D.backAhead (fun hc => ?_) fun _ => ?_
    · have L := (D.link hc).peerConsumed hw (by rw [ht]; rintro ⟨⟩)
      refine L.handshake ?_
      obtain ⟨p, hrun, hpeer⟩ := L.phase
      rw [hpeer hcl, show x.e.peerPhase = .hs .helloSent by
        simp [Endpoint.peerPhase, hserver, hs]] at hrun
      refine ⟨.hs .done, ?_, fun _ => by simp [Endpoint.peerPhase, hserver]⟩
      rw [← List.append_assoc]
      exact hrun.append (.cons (.welcome rfl rfl (Codec.decode_encode ..) hv) .nil)
    · refine (D.back hcl).consumeOther hw (by rw [ht]; rfl) ?_ rfl rfl (fun _ => id) (fun _ => rfl)
        (fun _ => rfl) rfl
      obtain ⟨q, hq, hrun⟩ := (D.back hcl).phase_cons hw
      rw [hs] at hq
      cases hq with
      | goaway _ h => rw [ht] at h; cases h
      | hello => exact hrun
  | refuse hcl hs ht =>
    have hserver : x.e.server = true := by
      have := G.role
      cases h : x.e.server <;> simp_all
    refine closing rfl (by rw [ht]; rintro ⟨⟩) fun p hrun hpeer => ?_
    rw [hpeer hcl, show x.e.peerPhase = .hs .helloSent by
      simp [Endpoint.peerPhase, hserver, hs]] at hrun
    rw [← List.append_assoc]
    exact ⟨_, hrun.append (.cons (.reject rfl rfl (Codec.decode_encode ..)) .nil)⟩
  | welcome hcl hs ht =>
    have hserver : x.e.server = false := by
      have := G.role
      cases h : x.e.server <;> simp_all
    refine key rfl D.backAhead (fun hc => ?_) fun _ => ?_
    · have L := (D.link hc).peerConsumed hw (by rw [ht]; rintro ⟨⟩)
      refine L.handshake ?_
      obtain ⟨p, hrun, hpeer⟩ := L.phase
      refine ⟨p, hrun, fun h => (hpeer h).trans ?_⟩
      simp [Endpoint.peerPhase, hserver, hs]
    · refine (D.back hcl).consumeOther hw (by rw [ht]; rfl) ?_ rfl rfl (fun _ => id) (fun _ => rfl)
        (fun _ => rfl) rfl
      obtain ⟨q, hq, hrun⟩ := (D.back hcl).phase_cons hw
      rw [hs] at hq
      cases hq with
      | goaway _ h => rw [ht] at h; cases h
      | welcome => exact hrun
      | reject _ h => rw [ht] at h; cases h
  | bye hcl ht =>
    refine closing rfl (by rcases ht with ht | ht <;> rw [ht] <;> rintro ⟨⟩) fun p hrun _ => ⟨p, hrun⟩
  | pinged hr ht =>
    have hne : f.frameType.isStream = false ∧ f.frameType ≠ .windowUpdate ∧
        f.frameType ≠ .goaway := by
      rcases ht with ht | ht <;> rw [ht] <;> exact ⟨rfl, (by rintro ⟨⟩), (by rintro ⟨⟩)⟩
    exact key rfl D.backAhead (fun hc => (D.link hc).peerConsumed hw hne.2.1) fun hcl =>
      (D.back hcl).consumeOther hw hne.1 ((D.back hcl).phase_ordinary hw hr hne.2.2) rfl rfl
        (fun _ => id) (fun _ => rfl) (fun _ => rfl) rfl
  | opened hr ht hp hlt hl =>
    have B := D.back hr.isOpen
    have hnext : f.streamId < y.e.next :=
      (List.pairwise_append.mp (List.pairwise_cons.mp B.order).2).2.2 _
        (mem_openIds (by simp [Party.outgoing, hw]) ht) _ (List.mem_singleton_self _)
    exact key rfl hnext (fun hc => (D.link hc).opened B D.roles hw ht hp hl rfl rfl rfl) fun _ =>
      B.consumeOpen hw hr ht hp hl D.left rfl rfl rfl
  | @framed _ v hr ht hno hv =>
    refine key rfl D.backAhead (fun hc => ?_) fun hcl =>
      (D.back hcl).consumeStream hw hr D.left ht hno hv
    have L := (D.link hc).peerConsumed hw (by rintro h; rw [h] at ht; cases ht)
    refine L.setPush (i := f.streamId) [] [] Endpoint.push_nil.symm
      (List.append_nil _).symm (by rw [List.append_nil]; exact L.phase) (by rintro _ ⟨⟩) (fun _ _ => rfl) ?_
    have hC := L.channel f.streamId
    rw [Party.outgoing, streamFrames_append] at hC
    rw [streamFrames_nil, List.append_nil, List.append_nil]
    cases v with
    | unknown | gone => exact hC.drop
    | live h' =>
      have : (x.e.seen f.streamId (.live h')).map (·.1) = x.e.sendHalf f.streamId := by
        cases h : x.e.streams f.streamId <;> simp [Endpoint.seen, Endpoint.sendHalf, h]
      rw [this]
      exact hC
  | @granted _ wu hr ht hd =>
    refine key rfl D.backAhead (fun hc => (D.link hc).granted D.left D.right hw ht hd) fun hcl => ?_
    refine (D.back hcl).consumeOther hw (by rw [ht]; rfl)
      ((D.back hcl).phase_ordinary hw hr (by rw [ht]; rintro ⟨⟩)) rfl rfl (fun _ => id) (fun j => ?_)
      (fun _ => rfl) rfl
    cases hx : x.e.streams f.streamId with
    | none =>
      refine Endpoint.view_congr ?_ Iff.rfl
      by_cases hj : j = f.streamId
      · subst hj
        rw [hx]
        exact Function.update_self ..
      · exact Function.update_of_ne hj ..
    | some z => exact Endpoint.view_set_sendHalf hx j

/-- Every step of `x` keeps the invariant. -/
theorem step (D : Duplex P x y) (hP : P.InRange) (H : x.Step P y x' y') : Duplex P x' y' := by
  cases H with
  | tau H => exact D.tau hP H
  | emit H => exact D.emit hP H
  | consume H hw => exact D.consume hP hw H
  | accept H => exact D.accept hP H
  | take H => exact D.take hP H
  | polled H => exact D.poll hP H

end Duplex

end TunnelWeaver.Mux
