import TunnelWeaver.Mux.Front
import TunnelWeaver.Mux.Synced

/-! What a class is charged. The top scheduler advances a class by the length it announced, and what
a class sends is the front of its inner scheduler. The two agree as long as the front stays where it
was announced: it may not be taken away while others of its class wait, and no scheduler may be near
the end of its range. -/

namespace TunnelWeaver.Mux

theorem asU32_lt (n : Nat) : asU32 n < 2 ^ 32 := Nat.mod_lt n (Nat.two_pow_pos 32)

/-! ## Timestamps that are not near the end -/

namespace Qfq
variable {K : Type} [DecidableEq K] {q : Qfq K} {k : K} {b n len : Nat} {flow : Flow}

/-- All timestamps are below `b`. -/
structure Early (b : Nat) (q : Qfq K) : Prop where
  clock : q.v < b
  start : ∀ k flow, q.flows.lookup k = some flow → flow.s < b
  finish : ∀ k flow, q.flows.lookup k = some flow → flow.f < b
  invW : ∀ k flow, q.flows.lookup k = some flow → flow.invW ≤ 2 ^ 20

/-- All timestamps are below `b`, entry by entry. -/
def Low (b : Nat) (q : Qfq K) : Prop := q.v < b ∧ ∀ e ∈ q.flows.entries, e.2.s < b ∧ e.2.f < b

instance (b : Nat) (q : Qfq K) : Decidable (q.Low b) := inferInstanceAs (Decidable (_ ∧ _))

theorem Early.lower {b' : Nat} (E : Early b q) (h : q.Low b') : Early b' q :=
  ⟨h.1, fun _ _ hk => (h.2 _ (AList.mem_lookup_iff.mp hk)).1,
    fun _ _ hk => (h.2 _ (AList.mem_lookup_iff.mp hk)).2, E.invW⟩

theorem Early.mono {b' : Nat} (E : Early b q) (h : b ≤ b') : Early b' q :=
  ⟨E.clock.trans_le h, fun k flow hk => (E.start k flow hk).trans_le h,
    fun k flow hk => (E.finish k flow hk).trans_le h, E.invW⟩

theorem Early.insert {flow' : Flow} {groups : OrdMap (Group K)} {v wsum : Nat} (E : Early b q)
    (hv : v < b) (hs : flow'.s < b) (hf : flow'.f < b) (hw : flow'.invW ≤ 2 ^ 20) :
    Early b ⟨q.flows.insert k flow', groups, v, wsum⟩ := by
  refine ⟨hv, ?_, ?_, ?_⟩ <;> intro a f ha <;> rw [Map.lookup_insert_ite] at ha <;> split at ha
  · cases ha
    exact hs
  · exact E.start a f ha
  · cases ha
    exact hf
  · exact E.finish a f ha
  · cases ha
    exact hw
  · exact E.invW a f ha

/-- A packet takes at most `2 ^ 52`. -/
theorem packet_le {invW : Nat} (hn : n < 2 ^ 32) (hw : invW ≤ 2 ^ 20) : n * invW ≤ 2 ^ 52 :=
  (Nat.mul_le_mul hn.le hw).trans_eq (by decide)

/-- An activation neither overflows nor rebases. -/
theorem Early.activated (E : Early b q) (hb : b + 2 ^ 52 ≤ 2 ^ 62) (hn : n < 2 ^ 32)
    (hk : q.flows.lookup k = some flow) :
    (q.activated k flow n).maybeRebase = q.activated k flow n ∧
    Early (b + 2 ^ 52) (q.activated k flow n) ∧
    (flow.activated q.v n).f = (flow.activated q.v n).s + n * flow.invW := by
  have hclock := E.clock
  have hpacket := packet_le hn (E.invW k flow hk)
  have hstart : max flow.f q.v < b := Nat.max_lt.mpr ⟨E.finish k flow hk, hclock⟩
  have hv : (q.activated k flow n).v < b := by
    unfold Qfq.activated
    dsimp only
    split
    · exact Nat.max_lt.mpr ⟨hclock, hstart⟩
    · exact hclock
  have hwrap : wrap64 (max flow.f q.v + n * flow.invW) = max flow.f q.v + n * flow.invW :=
    Nat.mod_eq_of_lt (by omega)
  refine ⟨if_pos (hv.trans_le (by unfold rebaseAt; omega)), ?_, hwrap⟩
  refine (E.mono (Nat.le_add_right b _)).insert (hv.trans_le (Nat.le_add_right b _)) ?_ ?_
    (E.invW k flow hk)
  · exact hstart.trans_le (Nat.le_add_right b _)
  · simp only [Flow.activated, hwrap]
    omega

/-- A service neither overflows nor rebases. -/
theorem Early.advanced {nextLen : Option Nat} (E : Early b q) (hb : b + 2 ^ 52 ≤ 2 ^ 62)
    (hlen : len < 2 ^ 32) (hnext : ∀ n ∈ nextLen, n < 2 ^ 32) (hk : q.flows.lookup k = some flow) :
    (q.advanced k flow len nextLen).maybeRebase = q.advanced k flow len nextLen ∧
    Early (b + 2 ^ 52) (q.advanced k flow len nextLen) ∧
    ∀ n ∈ nextLen, (flow.advanced nextLen).f = flow.f + n * flow.invW := by
  have hclock := E.clock
  have hfinish := E.finish k flow hk
  have hw := E.invW k flow hk
  have hv : (q.advanced k flow len nextLen).v < b + 2 ^ 52 := by
    have hstep : len * oneFp / q.wsum ≤ 2 ^ 52 :=
      (Nat.div_le_self ..).trans (packet_le hlen (Nat.le_refl _))
    unfold Qfq.advanced
    dsimp only
    split
    · omega
    · exact (Nat.mod_le ..).trans_lt (by omega)
  have hadvanced : ∀ n ∈ nextLen, (flow.advanced nextLen).f = flow.f + n * flow.invW := by
    rintro n ⟨⟩
    have := packet_le (hnext n rfl) hw
    exact Nat.mod_eq_of_lt (by omega)
  refine ⟨if_pos (hv.trans_le hb), ?_, hadvanced⟩
  refine (E.mono (Nat.le_add_right b _)).insert hv ?_ ?_ ?_
  · have hs : (flow.advanced nextLen).s = flow.f := by cases nextLen <;> rfl
    rw [hs]
    omega
  · cases nextLen with
    | none => exact hfinish.trans_le (Nat.le_add_right b _)
    | some n =>
      rw [hadvanced n rfl]
      have := packet_le (hnext n rfl) hw
      omega
  · cases nextLen <;> exact hw

theorem Early.deactivate (E : Early b q) (k : K) : Early b (q.deactivate k) := by
  obtain h | ⟨flow, hk, -, h⟩ := deactivate_cases q k <;> rw [h]
  · exact E
  · exact E.insert E.clock (E.start k flow hk) (E.finish k flow hk) (E.invW k flow hk)

theorem Early.addFlow {weight lmax : Nat} (E : Early b q) : Early b (q.addFlow k weight lmax) := by
  have hpos : 0 < b := (Nat.zero_le q.v).trans_lt E.clock
  have hw : oneFp / max weight 1 ≤ 2 ^ 20 := Nat.div_le_self oneFp _
  exact E.insert E.clock (show 0 < b from hpos) (show 0 < b from hpos) hw

/-- The other flows stay as they are. -/
theorem lookup_deactivate_of_ne {a : K} (h : a ≠ k) :
    (q.deactivate k).flows.lookup a = q.flows.lookup a := by
  obtain heq | ⟨flow, -, -, heq⟩ := deactivate_cases q k <;> rw [heq]
  exact (Map.lookup_insert_ite ..).trans (if_neg h)

theorem Early.peek (E : Early b q) (W : q.Wf) : Early b q.peek.1 := by
  refine ⟨?_, by rw [peek_flows]; exact E.start, by rw [peek_flows]; exact E.finish,
    by rw [peek_flows]; exact E.invW⟩
  have hraised := raised_peek q
  by_cases hstarted : ∃ idx s, Starts q.groups idx s ∧ s ≤ q.v
  · rw [hraised.started hstarted]
    exact E.clock
  by_cases hsome : ∃ idx s, Starts q.groups idx s
  · obtain ⟨idx, s, hs⟩ := hsome
    obtain ⟨-, i, hi⟩ := hraised.least hstarted idx s hs
    obtain ⟨k, flow, hk, -, heq⟩ := W.of_starts hi
    rw [heq]
    exact (slotKey_le flow.s i).trans_lt (E.start k flow hk)
  · rw [hraised.idle fun idx s hs => hsome ⟨idx, s, hs⟩]
    exact E.clock

end Qfq

/-! ## The tree -/

/-- Of a class that is backlogged, where it started then and the bytes it has sent since. -/
abbrev Bill := Class → Option (Nat × Nat)

/-- A class sends `len` more bytes. -/
def Bill.add (L : Bill) (cls : Class) (len : Nat) : Bill :=
  fun c => if c = cls then (L c).map fun e => (e.1, e.2 + len) else L c

namespace SchedTree
variable {t : SchedTree} {L : Bill} {b len : Nat} {cls : Class} {id : StreamId}

/-- The group of the streams: all have weight 1 and the same largest frame. -/
def streamGroup (t : SchedTree) : Nat := groupIndex (max t.maxFrame 1) (oneFp / max 1 1)

/-- The top flow of a class has paid for what the class sent, and is to pay for the front. -/
structure Pays (L : Bill) (cls : Class) (frontLen : Option Nat) (flow : Flow) : Prop where
  finish : flow.f = flow.s + flow.headLen * flow.invW
  announced : frontLen = some flow.headLen
  paid : ∀ s n, L cls = some (s, n) → flow.s = s + flow.invW * n

structure Billed (L : Bill) (b : Nat) (t : SchedTree) : Prop where
  wf : t.Wf
  early : t.top.Early b
  streams : ∀ cls, Qfq.OneGroup t.streamGroup (t.inner cls)
  short : ∀ cls id n, (t.inner cls).headLenOf id = some n → n < 2 ^ 32
  pays : ∀ cls, cls ≠ .control → ∀ flow, t.top.flows.lookup cls = some flow →
    flow.backlogged = true → Pays L cls (t.inner cls).frontLen flow

namespace Billed

theorem new (weights : Weights) (maxFrame : Nat) (hb : 0 < b) :
    Billed (fun _ => none) b (.new weights maxFrame) where
  wf := wf_new weights maxFrame
  early := by
    have E : (Qfq.new : Qfq Class).Early b := by
      refine ⟨hb, ?_, ?_, ?_⟩ <;> rintro k flow ⟨⟩
    exact E.addFlow.addFlow.addFlow.addFlow
  streams _ := by
    refine ⟨?_, ?_⟩
    · rintro k flow ⟨⟩
    · rintro idx s ⟨g, hg, -⟩
      cases hg
  short _ _ _ h := by cases h
  pays cls _ flow hflow hback := by
    have hidle : (SchedTree.new weights maxFrame).top.isActive cls = false := by cases cls <;> rfl
    rw [Qfq.isActive, hflow, Option.any_some, hback] at hidle
    cases hidle

theorem mono {b' : Nat} (B : Billed L b t) (h : b ≤ b') : Billed L b' t :=
  { B with early := B.early.mono h }

theorem frontLen_lt (B : Billed L b t) {n : Nat} (h : (t.inner cls).frontLen = some n) :
    n < 2 ^ 32 := by
  obtain ⟨k, -, hk⟩ := Option.bind_eq_some_iff.mp h
  exact B.short cls k n hk

/-- One inner scheduler changes, and the top at most in the flow of its class. -/
theorem update {b' : Nat} {q : Qfq StreamId} {u : Qfq Class} {L' : Bill} (B : Billed L b t)
    (W : Wf { t.setInner cls q with top := u }) (hu : u.Early b')
    (hq : Qfq.OneGroup t.streamGroup q) (hshort : ∀ id n, q.headLenOf id = some n → n < 2 ^ 32)
    (hL : ∀ c, c ≠ cls → L' c = L c)
    (hother : ∀ c, c ≠ cls → u.flows.lookup c = t.top.flows.lookup c)
    (hself : cls ≠ .control → ∀ flow, u.flows.lookup cls = some flow → flow.backlogged = true →
      Pays L' cls q.frontLen flow) : Billed L' b' { t.setInner cls q with top := u } where
  wf := W
  early := hu
  streams c := by
    change Qfq.OneGroup t.streamGroup ((t.setInner cls q).inner c)
    rw [inner_setInner]
    split
    · exact hq
    · exact B.streams c
  short c id n h := by
    change ((t.setInner cls q).inner c).headLenOf id = some n at h
    rw [inner_setInner] at h
    split at h
    · exact hshort id n h
    · exact B.short c id n h
  pays c hc flow hflow hb := by
    change Pays L' c ((t.setInner cls q).inner c).frontLen flow
    rw [inner_setInner]
    split
    · rename_i h
      subst h
      exact hself hc flow hflow hb
    · rename_i h
      have hflow : u.flows.lookup c = some flow := hflow
      rw [hother c h] at hflow
      have P := B.pays c hc flow hflow hb
      exact ⟨P.finish, P.announced, by rw [hL c h]; exact P.paid⟩

/-- Only the top changes, and no data class in it. -/
theorem setTop {b' : Nat} {u : Qfq Class} {control : List Frame} (B : Billed L b t)
    (W : Wf { t with top := u, control }) (hu : u.Early b')
    (h : ∀ c, c ≠ .control → u.flows.lookup c = t.top.flows.lookup c) :
    Billed L b' { t with top := u, control } where
  wf := W
  early := hu
  streams := B.streams
  short := B.short
  pays c hc flow hflow hb := B.pays c hc flow (h c hc ▸ hflow) hb

theorem setControl (B : Billed L b t) (control : List Frame) : Billed L b { t with control } :=
  B.setTop (B.wf.setControl control) B.early fun _ _ => rfl

theorem pushControl (B : Billed L b t) (hb : b + 2 ^ 52 ≤ 2 ^ 62) (f : Frame) :
    Billed L (b + 2 ^ 52) (t.pushControl f) := by
  have W := B.wf.pushControl f
  unfold SchedTree.pushControl at W ⊢
  obtain h | ⟨flow, hk, -, h⟩ := t.top.activate_cases .control (asU32 f.wireLen)
  · rw [h] at W ⊢
    exact (B.setTop W B.early fun _ _ => rfl).mono (Nat.le_add_right ..)
  · obtain ⟨hrebase, E, -⟩ := B.early.activated hb (asU32_lt f.wireLen) hk
    rw [h, hrebase] at W ⊢
    refine B.setTop W E fun c hc => ?_
    exact (Map.lookup_insert_ite ..).trans (if_neg hc)

/-- No more than a frame is queued where there is one already. -/
theorem pushControl_busy (B : Billed L b t) (h : t.top.isActive .control = true) (f : Frame) :
    Billed L b (t.pushControl f) := by
  have W := B.wf.pushControl f
  have hsame : t.top.activate .control (asU32 f.wireLen) = t.top := by
    obtain ⟨flow, hk, hb⟩ := (Option.any_eq_true _ _).mp h
    simp only [Qfq.activate, hk, hb, if_true]
  unfold SchedTree.pushControl at W ⊢
  rw [hsame] at W ⊢
  exact B.setTop W B.early fun _ _ => rfl

theorem servedControl (B : Billed L b t) (hb : b + 2 ^ 52 ≤ 2 ^ 62) (hlen : len < 2 ^ 32)
    (next : Option Nat) : Billed L (b + 2 ^ 52) (t.served .control cls len next) := by
  have W := B.wf.servedControl cls len next
  unfold SchedTree.served at W ⊢
  dsimp only at W ⊢
  have hnext : ∀ n ∈ t.control.head?.map fun f => asU32 f.wireLen, n < 2 ^ 32 := by
    intro n hn
    obtain ⟨f, -, rfl⟩ := Option.map_eq_some_iff.mp hn
    exact asU32_lt _
  obtain h | ⟨flow, hk, -, h⟩ := t.top.served_cases .control len
    (t.control.head?.map fun f => asU32 f.wireLen)
  · rw [h] at W ⊢
    exact (B.setTop W B.early fun _ _ => rfl).mono (Nat.le_add_right ..)
  · obtain ⟨hrebase, E, -⟩ := B.early.advanced hb hlen hnext hk
    rw [h, hrebase] at W ⊢
    refine B.setTop W E fun c hc => ?_
    exact (Map.lookup_insert_ite ..).trans (if_neg hc)

theorem clearControl (B : Billed L b t) : Billed L b t.clearControl :=
  B.setTop B.wf.clearControl (B.early.deactivate .control) fun _ hc => Qfq.lookup_deactivate_of_ne hc

theorem addStream (B : Billed L b t) (hc : (t.inner cls).contains id = false) :
    Billed L b (t.addStream id cls) := by
  have W := B.wf.addStream hc
  obtain ⟨O, hfront⟩ := (B.streams cls).addFlow (B.wf.inner cls) hc (Eq.refl t.streamGroup)
  refine B.update W B.early O (fun i n hi => ?_) (fun _ _ => rfl) (fun _ _ => rfl)
    fun hcls flow hflow hb => ?_
  · by_cases h : i = id
    · rw [h] at hi
      simp only [Qfq.headLenOf, Qfq.addFlow, AList.lookup_insert, Option.map_some,
        Option.some.injEq] at hi
      omega
    · rw [Qfq.headLenOf_addFlow h] at hi
      exact B.short cls i n hi
  · rw [hfront]
    exact B.pays cls hcls flow hflow hb

/-- A stream leaves: not from the front while others wait. -/
theorem removeStream (B : Billed L b t) (hspare : (t.inner cls).front = some id →
    ((t.inner cls).removeFlow id).hasBacklog = false) : Billed L b (t.removeStream id cls) := by
  have W := B.wf.removeStream id cls
  have hshort : ∀ i n, ((t.inner cls).removeFlow id).headLenOf i = some n → n < 2 ^ 32 := by
    intro i n hi
    by_cases h : i = id
    · have hnone : ((t.inner cls).removeFlow id).contains id = false := by simp
      rw [h, Qfq.headLenOf, Option.map_eq_some_iff] at hi
      obtain ⟨flow, hflow, -⟩ := hi
      simp [Qfq.contains, hflow] at hnone
    · rw [Qfq.headLenOf_removeFlow h] at hi
      exact B.short cls i n hi
  unfold SchedTree.removeStream at W ⊢
  dsimp only at W ⊢
  split
  · rename_i hb
    rw [if_pos hb] at W
    obtain ⟨O, hfront⟩ := (B.streams cls).removeFlow (B.wf.inner cls) fun h => by
      rw [hspare h] at hb
      cases hb
    refine B.update (u := t.top) W B.early O hshort (fun _ _ => rfl) (fun _ _ => rfl)
      fun hcls flow hflow hb => ?_
    rw [hfront]
    exact B.pays cls hcls flow hflow hb
  · rename_i hb
    rw [if_neg hb] at W
    refine B.update W (B.early.deactivate cls)
      ((B.streams cls).removeFlow_idle (Bool.eq_false_iff.mpr hb)) hshort (fun _ _ => rfl)
      (fun c hne => ?_) fun hcls flow hflow hback => ?_
    · exact Qfq.lookup_deactivate_of_ne hne
    · have hflow : (t.top.deactivate cls).flows.lookup cls = some flow := hflow
      have hidle : (t.top.deactivate cls).isActive cls = false := by simp
      rw [Qfq.isActive, hflow, Option.any_some, hback] at hidle
      cases hidle

/-- A stream has something to send. A class that was idle announces it, one that was not stays with
what it announced. -/
theorem activateStream (B : Billed L b t) (hb : b + 2 ^ 52 ≤ 2 ^ 62)
    (hc : (t.inner cls).contains id = true) (hlen : len < 2 ^ 32)
    (hv : (t.inner cls).hasBacklog = true → (t.inner cls).v < rebaseAt)
    (hL : cls ≠ .control → (t.inner cls).hasBacklog = false → L cls = none) :
    Billed L (b + 2 ^ 52) (t.activateStream id cls len) := by
  have W := B.wf.activateStream hc len
  have Wq := (B.wf.inner cls).activate id len
  have hshort : ∀ i n, ((t.inner cls).activate id len).headLenOf i = some n → n < 2 ^ 32 := by
    intro i n hi
    rw [Qfq.headLenOf_activate] at hi
    split at hi
    · cases hi
      exact hlen
    · exact B.short cls i n hi
  unfold SchedTree.activateStream at W ⊢
  dsimp only at W ⊢
  split
  · rename_i hidle
    have hidle : (t.inner cls).hasBacklog = false := by simpa using hidle
    rw [if_pos (by simp [hidle])] at W
    have hgroup := (B.streams cls).group_activate (k := id) len
    have hnext := Qfq.nextHeadLen_eq_frontLen Wq hgroup
    have hfront : ((t.inner cls).activate id len).nextHeadLen.1.frontLen =
        ((t.inner cls).activate id len).frontLen := Qfq.frontLen_peek _
    have hshort' : ∀ i n, ((t.inner cls).activate id len).nextHeadLen.1.headLenOf i = some n →
        n < 2 ^ 32 := by
      change ∀ i n, ((t.inner cls).activate id len).peek.1.headLenOf i = some n → n < 2 ^ 32
      rw [Qfq.headLenOf_peek]
      exact hshort
    have hsome := Wq.nextHeadLen_isSome
    rw [Wq.hasBacklog_iff.mpr ⟨id, by simp [Qfq.isActive_activate, hc]⟩, hnext] at hsome
    obtain ⟨n, hn⟩ := Option.isSome_iff_exists.mp hsome
    have hn32 : n < 2 ^ 32 := by
      obtain ⟨k, -, hk⟩ := Option.bind_eq_some_iff.mp hn
      exact hshort k n hk
    rw [hnext, hn, Option.getD_some] at W ⊢
    have hinactive : cls ≠ .control → t.top.isActive cls = false := fun h =>
      (B.wf.data cls h).trans hidle
    obtain h | ⟨flow, hk, -, h⟩ := t.top.activate_cases cls n
    · rw [top_setInner, h] at W ⊢
      refine B.update W (B.early.mono (Nat.le_add_right ..)) (Qfq.oneGroup_peek Wq hgroup) hshort'
        (fun _ _ => rfl) (fun _ _ => rfl) fun hcls flow hflow hback => ?_
      have hcontra := hinactive hcls
      rw [Qfq.isActive, hflow, Option.any_some, hback] at hcontra
      cases hcontra
    · obtain ⟨hrebase, E, hf⟩ := B.early.activated hb hn32 hk
      rw [top_setInner, h, hrebase] at W ⊢
      refine B.update W E (Qfq.oneGroup_peek Wq hgroup) hshort' (fun _ _ => rfl)
        (fun c hne => (Map.lookup_insert_ite ..).trans (if_neg hne)) fun hcls flow' hflow _ => ?_
      rw [Qfq.activated, AList.lookup_insert, Option.some.injEq] at hflow
      subst hflow
      exact ⟨hf, hfront.trans hn, fun s m hs => by rw [hL hcls hidle] at hs; cases hs⟩
  · rename_i hbusy
    have hbusy' : (t.inner cls).hasBacklog = true := by simpa using hbusy
    rw [if_neg hbusy] at W
    obtain ⟨O, hfront⟩ := (B.streams cls).activate (k := id) (n := len) (B.wf.inner cls) hbusy' (hv hbusy')
    refine B.update (u := t.top) W (B.early.mono (Nat.le_add_right ..)) O hshort (fun _ _ => rfl)
      (fun _ _ => rfl) fun hcls flow hflow hback => ?_
    rw [hfront]
    exact B.pays cls hcls flow hflow hback

theorem reclass {src dst : Class} {head : Option Nat} (B : Billed L b t) (hb : b + 2 ^ 52 ≤ 2 ^ 62)
    (hc : (t.inner dst).contains id = false) (hlen : ∀ n ∈ head, n < 2 ^ 32)
    (hspare : src ≠ dst → (t.inner src).front = some id →
      ((t.inner src).removeFlow id).hasBacklog = false)
    (hv : src ≠ dst → (t.inner dst).hasBacklog = true → (t.inner dst).v < rebaseAt)
    (hL : dst ≠ .control → (t.inner dst).hasBacklog = false → L dst = none) :
    Billed L (b + 2 ^ 52) (t.reclass id src dst head) := by
  unfold SchedTree.reclass
  split
  · exact B.mono (Nat.le_add_right ..)
  rename_i hne
  have hinner : (t.removeStream id src).inner dst = t.inner dst :=
    inner_removeStream.trans (if_neg (Ne.symm hne))
  have B₁ := (B.removeStream (hspare hne)).addStream (by rw [hinner]; exact hc)
  cases head with
  | none => exact B₁.mono (Nat.le_add_right ..)
  | some n =>
    have hdst : ((t.removeStream id src).addStream id dst).inner dst =
        (t.inner dst).addFlow id 1 (t.removeStream id src).maxFrame := by
      rw [SchedTree.addStream, inner_setInner, if_pos rfl, hinner]
    refine B₁.activateStream hb (by simp) (hlen n rfl) ?_ ?_ <;> rw [hdst]
    · exact hv hne
    · exact hL

theorem pick (B : Billed L b t) : Billed L b t.pick.1 := by
  have W := B.wf.pick
  have hkeep : ∀ c, t.top.peek.1.flows.lookup c = t.top.flows.lookup c := fun c => by
    rw [Qfq.peek_flows]
  have B₁ : Wf { t with top := t.top.peek.1 } → Billed L b { t with top := t.top.peek.1 } :=
    fun W => B.setTop W (B.early.peek B.wf.top) fun c _ => hkeep c
  unfold SchedTree.pick at W ⊢
  dsimp only at W ⊢
  split at W
  · exact B₁ W
  · exact B₁ W
  · rename_i cls _ _
    refine B.update W (B.early.peek B.wf.top)
      (Qfq.oneGroup_peek (B.wf.inner cls) (B.streams cls).group) (fun i n hi => ?_) (fun _ _ => rfl)
      (fun c _ => hkeep c) fun hcls flow hflow hback => ?_
    · rw [Qfq.headLenOf_peek] at hi
      exact B.short cls i n hi
    · rw [Qfq.frontLen_peek]
      exact B.pays cls hcls flow ((hkeep cls).symm.trans hflow) hback

/-- The front of a class is sent, and the class announces what is the front then. -/
theorem servedStream {next : Option Nat} (B : Billed L b t) (hb : b + 2 ^ 52 ≤ 2 ^ 62)
    (hcls : cls ≠ .control) (hlen : len < 2 ^ 32) (hnext : ∀ n ∈ next, n < 2 ^ 32) (hfront : (t.inner cls).front = some id)
    (hhead : (t.inner cls).headLenOf id = some len) :
    Billed (L.add cls len) (b + 2 ^ 52) (t.served (.stream id) cls len next) := by
  have W := B.wf.servedStream id cls len next
  have hact : (t.inner cls).isActive id = true :=
    (B.wf.inner cls).isActive_of_peek
      ((Qfq.peek_eq_front (B.wf.inner cls) (B.streams cls).group).trans hfront)
  have Wq := (B.wf.inner cls).served id len next
  have hgroup := (B.streams cls).group_served (k := id) len next
  have hshort : ∀ i n, ((t.inner cls).served id len next).headLenOf i = some n → n < 2 ^ 32 := by
    intro i n hi
    rw [Qfq.headLenOf_served hact] at hi
    split at hi
    · cases hi
      cases next with
      | none => exact Nat.two_pow_pos 32
      | some m => exact hnext m rfl
    · exact B.short cls i n hi
  have hahead := Qfq.nextHeadLen_eq_frontLen Wq hgroup
  have hfront' : ((t.inner cls).served id len next).nextHeadLen.1.frontLen =
      ((t.inner cls).served id len next).frontLen := Qfq.frontLen_peek _
  have hshort' : ∀ i n, ((t.inner cls).served id len next).nextHeadLen.1.headLenOf i = some n →
      n < 2 ^ 32 := by
    change ∀ i n, ((t.inner cls).served id len next).peek.1.headLenOf i = some n → n < 2 ^ 32
    rw [Qfq.headLenOf_peek]
    exact hshort
  have hnext' : ∀ n ∈ ((t.inner cls).served id len next).frontLen, n < 2 ^ 32 := by
    intro n hn
    obtain ⟨k, -, hk⟩ := Option.bind_eq_some_iff.mp hn
    exact hshort k n hk
  have hL : ∀ c, c ≠ cls → L.add cls len c = L c := fun c hne => if_neg hne
  unfold SchedTree.served at W ⊢
  dsimp only at W ⊢
  rw [hahead, top_setInner] at W ⊢
  have hbusy : t.top.isActive cls = true :=
    (B.wf.data cls hcls).trans ((B.wf.inner cls).hasBacklog_iff.mpr ⟨id, hact⟩)
  obtain ⟨flow, hk, hback⟩ := (Option.any_eq_true _ _).mp hbusy
  obtain ⟨hrebase, E, hf⟩ := B.early.advanced hb hlen hnext' hk
  rw [Qfq.served_eq hk hback, hrebase] at W ⊢
  refine B.update W E (Qfq.oneGroup_peek Wq hgroup) hshort' hL
    (fun c hne => (Map.lookup_insert_ite ..).trans (if_neg hne)) fun _ flow' hflow hback' => ?_
  have P := B.pays cls hcls flow hk hback
  have hheadLen : flow.headLen = len := by
    have hlen := P.announced
    rw [Qfq.frontLen, hfront, Option.bind_some, hhead, Option.some.injEq] at hlen
    exact hlen.symm
  rw [Qfq.advanced, AList.lookup_insert, Option.some.injEq] at hflow
  subst hflow
  rw [hfront']
  cases hahead : ((t.inner cls).served id len next).frontLen with
  | none =>
    rw [hahead] at hback'
    cases hback'
  | some n =>
    rw [hahead] at hf
    refine ⟨hf n rfl, rfl, fun s m hs => ?_⟩
    rw [Bill.add, if_pos rfl] at hs
    obtain ⟨⟨s₀, m₀⟩, hs₀, heq⟩ := Option.map_eq_some_iff.mp hs
    cases heq
    have hpaid := P.paid s₀ m₀ hs₀
    calc flow.f = flow.s + flow.headLen * flow.invW := P.finish
      _ = s₀ + flow.invW * (m₀ + len) := by rw [hpaid, hheadLen]; ring

end Billed

/-! ## Runs -/

/-- What `Connection` asks of its tree. -/
inductive Op where
  | pushControl (frame : Frame)
  | popControl
  | clearControl
  | addStream (id : StreamId) (cls : Class)
  | removeStream (id : StreamId) (cls : Class)
  | activateStream (id : StreamId) (cls : Class) (headLen : UInt32)
  | reclass (id : StreamId) (src dst : Class) (headLen : Option UInt32)
  | pick
  | servedControl (len : UInt32)
  /-- A pick of the stream `id`, whose first packet leaves. -/
  | sendStream (id : StreamId) (cls : Class) (len : UInt32) (nextLen : Option UInt32)

/-- The tree after an operation, unless `Connection` would not ask for it: a stream is added to a
class that does not hold it, becomes pending in the class that holds it, and when it is picked
sends the packet whose length it gave. -/
def drive (t : SchedTree) : Op → Option SchedTree
  | .pushControl frame => some (t.pushControl frame)
  | .popControl => some t.popControl.1
  | .clearControl => some t.clearControl
  | .addStream id cls => if (t.inner cls).contains id then none else some (t.addStream id cls)
  | .removeStream id cls => some (t.removeStream id cls)
  | .activateStream id cls headLen =>
    if (t.inner cls).contains id then some (t.activateStream id cls headLen.toNat) else none
  | .reclass id src dst headLen =>
    if (t.inner dst).contains id then none
    else some (t.reclass id src dst (headLen.map UInt32.toNat))
  | .pick => some t.pick.1
  | .servedControl len => some (t.served .control .control len.toNat none)
  | .sendStream id cls len nextLen =>
    if t.top.peek.2 = some cls ∧ t.pick.2 = some (.stream id) ∧
        (t.inner cls).headLenOf id = some len.toNat then
      some (t.pick.1.served (.stream id) cls len.toNat (nextLen.map UInt32.toNat))
    else none

/-- An entry for each class that is backlogged, a new one if there is none. -/
def settle (t : SchedTree) (L : Bill) : Bill := fun cls =>
  ((t.top.flows.lookup cls).filter (·.backlogged)).map fun flow => (L cls).getD (flow.s, 0)

/-- The bytes that an operation sends. -/
def Op.charge (L : Bill) : Op → Bill
  | .sendStream _ cls len _ => L.add cls len.toNat
  | _ => L

end SchedTree

/-- A tree, and what each class that is backlogged in it has sent. -/
structure Meter where
  tree : SchedTree
  bill : Bill

namespace Meter
open SchedTree (Op)

def new (weights : Weights) (maxFrame : Nat) : Meter := ⟨.new weights maxFrame, fun _ => none⟩

def step (m : Meter) (op : Op) : Option Meter :=
  (m.tree.drive op).map fun t => ⟨t, t.settle (op.charge m.bill)⟩

/-- The flow of a data class has advanced by `invW` for each byte the class has sent since it was
backlogged. -/
def Charged (m : Meter) : Prop :=
  ∀ cls, cls ≠ .control → ∀ flow, m.tree.top.flows.lookup cls = some flow → flow.backlogged = true →
    ∃ s n, m.bill cls = some (s, n) ∧ flow.s = s + flow.invW * n

end Meter

namespace SchedTree

/-- A stream that leaves is not the one its class would send from next, or waits alone. -/
def Spares (t : SchedTree) (id : StreamId) (cls : Class) : Prop :=
  (t.inner cls).peek.2 = some id → ((t.inner cls).removeFlow id).hasBacklog = false

/-- A stream that becomes pending does not make its class rebase while others wait. -/
def Joins (t : SchedTree) (cls : Class) : Prop :=
  (t.inner cls).hasBacklog = true → (t.inner cls).v < rebaseAt

instance (t : SchedTree) (id : StreamId) (cls : Class) : Decidable (t.Spares id cls) :=
  inferInstanceAs (Decidable (_ → _))

instance (t : SchedTree) (cls : Class) : Decidable (t.Joins cls) :=
  inferInstanceAs (Decidable (_ → _))

/-- The front of no class that stays backlogged changes unannounced, and the top does not rebase. -/
def Steady (t : SchedTree) (op : Op) : Prop :=
  t.top.Low (2 ^ 62 - 2 ^ 52) ∧
  match op with
  | .removeStream id cls => t.Spares id cls
  | .activateStream _ cls _ => t.Joins cls
  | .reclass id src dst _ => t.Spares id src ∧ t.Joins dst
  | _ => True

instance decidableSteady (t : SchedTree) : (op : Op) → Decidable (t.Steady op)
  | .removeStream id cls => inferInstanceAs (Decidable (_ ∧ t.Spares id cls))
  | .activateStream _ cls _ => inferInstanceAs (Decidable (_ ∧ t.Joins cls))
  | .reclass id src dst _ => inferInstanceAs (Decidable (_ ∧ t.Spares id src ∧ t.Joins dst))
  | .pushControl _ | .popControl | .clearControl | .addStream .. | .pick | .servedControl _
  | .sendStream .. => inferInstanceAs (Decidable (_ ∧ True))

end SchedTree

namespace SchedTree.Billed
variable {t t' : SchedTree} {L : Bill} {b : Nat}

/-- What an operation does to the bill. -/
theorem drive {op : Op} (B : Billed L b t) (hsteady : t.Steady op)
    (hidle : ∀ cls, cls ≠ .control → (t.inner cls).hasBacklog = false → L cls = none)
    (h : t.drive op = some t') : ∃ b', Billed (op.charge L) b' t' := by
  obtain ⟨hlow, hop⟩ := hsteady
  have B : Billed L (2 ^ 62 - 2 ^ 52) t := { B with early := B.early.lower hlow }
  have hb : 2 ^ 62 - 2 ^ 52 + 2 ^ 52 ≤ 2 ^ 62 := by decide
  have hfront : ∀ cls, (t.inner cls).peek.2 = (t.inner cls).front := fun cls =>
    Qfq.peek_eq_front (B.wf.inner cls) (B.streams cls).group
  cases op with
  | pushControl frame =>
    cases h
    exact ⟨_, B.pushControl hb frame⟩
  | popControl =>
    cases h
    refine ⟨2 ^ 62 - 2 ^ 52, ?_⟩
    unfold SchedTree.popControl
    split
    · exact B
    · exact B.setControl _
  | clearControl =>
    cases h
    exact ⟨_, B.clearControl⟩
  | addStream id cls =>
    obtain ⟨hc, h⟩ := Option.ite_none_left_eq_some.mp h
    cases h
    exact ⟨_, B.addStream (Bool.eq_false_iff.mpr hc)⟩
  | removeStream id cls =>
    cases h
    exact ⟨_, B.removeStream fun hf => hop ((hfront cls).trans hf)⟩
  | activateStream id cls headLen =>
    obtain ⟨hc, h⟩ := Option.ite_none_right_eq_some.mp h
    cases h
    exact ⟨_, B.activateStream hb hc headLen.toNat_lt hop fun hcls => hidle cls hcls⟩
  | reclass id src dst headLen =>
    obtain ⟨hc, h⟩ := Option.ite_none_left_eq_some.mp h
    cases h
    refine ⟨_, B.reclass hb (Bool.eq_false_iff.mpr hc) (fun n hn => ?_)
      (fun _ hf => hop.1 ((hfront src).trans hf)) (fun _ => hop.2) fun hcls => hidle dst hcls⟩
    obtain ⟨l, -, rfl⟩ := Option.map_eq_some_iff.mp hn
    exact l.toNat_lt
  | pick =>
    cases h
    exact ⟨_, B.pick⟩
  | servedControl len =>
    cases h
    exact ⟨_, B.servedControl hb len.toNat_lt none⟩
  | sendStream id cls len nextLen =>
    obtain ⟨⟨htop, hpick, hhead⟩, h⟩ := Option.ite_none_right_eq_some.mp h
    cases h
    have hcls : cls ≠ .control := by
      rintro rfl
      simp [SchedTree.pick, htop] at hpick
    have hinner : t.pick.1.inner cls = (t.inner cls).peek.1 := by
      cases cls <;> simp [SchedTree.pick, htop, inner_setInner] at hcls ⊢
    have hid : (t.inner cls).peek.2 = some id := by
      cases cls <;> simp [SchedTree.pick, htop] at hcls hpick <;> exact hpick
    refine ⟨_, B.pick.servedStream hb hcls len.toNat_lt (fun n hn => ?_) ?_ ?_⟩
    · obtain ⟨l, -, rfl⟩ := Option.map_eq_some_iff.mp hn
      exact l.toNat_lt
    · rw [hinner, Qfq.front_peek, ← hfront cls]
      exact hid
    · rw [hinner, Qfq.headLenOf_peek]
      exact hhead

/-- A class that becomes backlogged has sent nothing since. -/
theorem settle (B : Billed L b t) : Billed (t.settle L) b t :=
  { B with
    pays := fun cls hcls flow hflow hback => by
      have P := B.pays cls hcls flow hflow hback
      refine ⟨P.finish, P.announced, fun s n hs => ?_⟩
      simp only [SchedTree.settle, hflow, Option.filter_some, hback, if_true, Option.map_some,
        Option.some.injEq] at hs
      cases hL : L cls with
      | none =>
        rw [hL] at hs
        cases hs
        exact (Nat.add_zero _).symm
      | some e =>
        rw [hL] at hs
        exact P.paid s n (hL.trans (congrArg some hs)) }

end SchedTree.Billed

namespace Meter
open SchedTree (Op)

variable {m m' : Meter} {op : Op} {ops : List Op}

/-- What each steady step keeps. -/
structure Good (m : Meter) : Prop where
  billed : ∃ b, SchedTree.Billed m.bill b m.tree
  idle : ∀ cls, cls ≠ .control → (m.tree.inner cls).hasBacklog = false → m.bill cls = none
  busy : ∀ cls flow, m.tree.top.flows.lookup cls = some flow → flow.backlogged = true →
    (m.bill cls).isSome = true

theorem good_new (weights : Weights) (maxFrame : Nat) : (new weights maxFrame).Good where
  billed := ⟨1, .new weights maxFrame Nat.one_pos⟩
  idle _ _ _ := rfl
  busy cls flow hflow hback := by
    have hflow : (SchedTree.new weights maxFrame).top.flows.lookup cls = some flow := hflow
    have hidle : (SchedTree.new weights maxFrame).top.isActive cls = false := by cases cls <;> rfl
    rw [Qfq.isActive, hflow, Option.any_some, hback] at hidle
    cases hidle

theorem Good.step (G : m.Good) (hsteady : m.tree.Steady op) (h : m.step op = some m') : m'.Good := by
  obtain ⟨t, ht, rfl⟩ := Option.map_eq_some_iff.mp h
  obtain ⟨b, B⟩ := G.billed
  obtain ⟨b', B'⟩ := B.drive hsteady G.idle ht
  refine ⟨⟨b', B'.settle⟩, fun cls hcls hidle => ?_, fun cls flow hflow hback => ?_⟩
  · have hinactive := (B'.wf.data cls hcls).trans hidle
    obtain ⟨flow, hflow⟩ := Option.isSome_iff_exists.mp (B'.wf.classes cls)
    rw [Qfq.isActive, hflow, Option.any_some] at hinactive
    simp [SchedTree.settle, hflow, hinactive]
  · have hflow : t.top.flows.lookup cls = some flow := hflow
    simp [SchedTree.settle, hflow, hback]

theorem Good.charged (G : m.Good) : m.Charged := by
  rintro cls hcls flow hflow hback
  obtain ⟨⟨s, n⟩, hbill⟩ := Option.isSome_iff_exists.mp (G.busy cls flow hflow hback)
  obtain ⟨b, B⟩ := G.billed
  exact ⟨s, n, hbill, (B.pays cls hcls flow hflow hback).paid s n hbill⟩

/-- A class is charged for what it sends, in every run in which no class that stays backlogged loses
its front unannounced and no clock is near the end of its range. -/
theorem class_charged_for_sent {weights : Weights} {maxFrame : Nat}
    (hrun : Automaton.run step (new weights maxFrame) ops = some m)
    (hsteady : Automaton.Meets step (fun m op => m.tree.Steady op) (new weights maxFrame) ops) :
    m.Charged :=
  Good.charged <| Automaton.run_invariant_of_meets (fun G hop h => Good.step G hop h) hsteady
    (good_new weights maxFrame) hrun

end Meter

namespace Sample

/-- Two streams of the peer become pending, and the class announces the packet of the first. -/
def pendingTwo : List SchedTree.Op :=
  [.addStream 1 .interactive, .activateStream 1 .interactive 100, .addStream 3 .interactive,
    .activateStream 3 .interactive 1000]

/-- The first sends a packet and is out of the way, the second sends its first packet. -/
def servedTwo : List SchedTree.Op :=
  pendingTwo ++ [.sendStream 1 .interactive 100 none, .sendStream 3 .interactive 1000 (some 500),
    .removeStream 1 .interactive]

/-- The first is reset, the RST leaves, and the second sends its first packet. -/
def resetFirst : List SchedTree.Op :=
  pendingTwo ++ [.removeStream 1 .interactive, .pushControl ⟨1, .rst, [0]⟩, .pick, .popControl,
    .servedControl 10, .sendStream 3 .interactive 1000 (some 500)]

end Sample

namespace Meter

theorem class_charged_for_sent_served : ∃ m, Automaton.run step (new {} 16384) Sample.servedTwo = some m ∧
    m.bill .interactive = some (0, 1100) ∧ m.Charged := by
  have h : (Automaton.run step (new {} 16384) Sample.servedTwo).any (fun m =>
      m.bill .interactive == some (0, 1100)) = true := by decide +kernel
  obtain ⟨m, hrun, hbill⟩ := (Option.any_eq_true _ _).mp h
  exact ⟨m, hrun, by simpa using hbill, class_charged_for_sent hrun (by decide +kernel)⟩

/-- The class pays for the packet of the stream that was reset, and sends that of another. -/
theorem charged_for_reset : ∃ m, Automaton.run step (new {} 16384) Sample.resetFirst = some m ∧
    m.bill .interactive = some (0, 1000) ∧
    (m.tree.top.flows.lookup .interactive).any (fun flow => flow.backlogged &&
      flow.s == flow.invW * 100) = true ∧ ¬m.Charged := by
  have h : (Automaton.run step (new {} 16384) Sample.resetFirst).any (fun m =>
      m.bill .interactive == some (0, 1000) &&
      (m.tree.top.flows.lookup .interactive).any fun flow => flow.backlogged &&
        flow.s == flow.invW * 100 && flow.invW != 0) = true := by decide +kernel
  obtain ⟨m, hrun, h⟩ := (Option.any_eq_true _ _).mp h
  obtain ⟨hbill, h⟩ := Bool.and_eq_true_iff.mp h
  obtain ⟨flow, hflow, h⟩ := (Option.any_eq_true _ _).mp h
  simp only [Bool.and_eq_true, beq_iff_eq, bne_iff_ne] at hbill h
  obtain ⟨⟨hback, hs⟩, hw⟩ := h
  refine ⟨m, hrun, hbill, by simp [hflow, hback, hs], fun hcharged => ?_⟩
  obtain ⟨s, n, hsn, hpaid⟩ := hcharged .interactive (by decide) flow hflow hback
  rw [hbill] at hsn
  cases hsn
  rw [hs, Nat.zero_add] at hpaid
  have := Nat.eq_of_mul_eq_mul_left (Nat.pos_of_ne_zero hw) hpaid
  omega

end Meter

end TunnelWeaver.Mux
