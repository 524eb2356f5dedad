import TunnelWeaver.Abuse.Scanner

/-! Percent-encoding does not change a verdict. Two passes undo every mixture of escapes of depth
two, up to what the lossy conversions between them make of bytes that are not ASCII, and the rules
look at such bytes only to see that they are none of the ASCII characters they look for. -/

namespace TunnelWeaver.Abuse.Scanner

variable {b : UInt8} {bs x y p q w : Bytes}

/-! ## Escapes -/

/-- The percent escape of a byte, with hexadecimal digits of either case. -/
def Escape (b : UInt8) (w : Bytes) : Prop :=
  ∃ hi lo, w = [0x25, hi, lo] ∧ hex hi = some (b >>> 4) ∧ hex lo = some (b &&& 0xf)

/-- A byte as it is, or its escape. -/
def Once (b : UInt8) (w : Bytes) : Prop := w = [b] ∨ Escape b w

/-- A byte as it is, or its escape, in which any characters are escaped themselves. -/
def Twice (b : UInt8) (w : Bytes) : Prop :=
  w = [b] ∨ ∃ hi lo w₀ w₁ w₂, Escape b [0x25, hi, lo] ∧ Once 0x25 w₀ ∧ Once hi w₁ ∧ Once lo w₂ ∧
    w = w₀ ++ w₁ ++ w₂

/-- Each byte of a string replaced by itself. -/
inductive Replaced (R : UInt8 → Bytes → Prop) : Bytes → Bytes → Prop
  | nil : Replaced R [] []
  | cons {b : UInt8} {w p q : Bytes} : R b w → Replaced R p q → Replaced R (b :: p) (w ++ q)

theorem hex_bounds {d v : UInt8} (h : hex d = some v) :
    d ≠ 0x25 ∧ d < 0x80 ∧ isPathEnd d = false := by
  have hbytes : ∀ d : UInt8, (hex d).isSome = true → d ≠ 0x25 ∧ d < 0x80 ∧ isPathEnd d = false := by
    decide +kernel
  exact hbytes d (by rw [h]; rfl)

theorem nibbles (b : UInt8) : b >>> 4 <<< 4 ||| b &&& 0xf = b := by
  revert b
  decide +kernel

theorem percentDecode_cons (b hi lo : UInt8) (rest : Bytes) :
    percentDecode (b :: hi :: lo :: rest) =
      if b = 0x25 then
        match hex hi, hex lo with
        | some h, some l => (h <<< 4 ||| l) :: percentDecode rest
        | _, _ => b :: percentDecode (hi :: lo :: rest)
      else b :: percentDecode (hi :: lo :: rest) := rfl

/-- What the bytes in front decode to, if they are an escape. -/
theorem percentDecode_escape (h : Escape b w) (q : Bytes) :
    percentDecode (w ++ q) = b :: percentDecode q := by
  obtain ⟨hi, lo, rfl, hhi, hlo⟩ := h
  rw [List.cons_append, List.cons_append, List.cons_append, List.nil_append, percentDecode_cons,
    if_pos rfl, hhi, hlo]
  dsimp only
  rw [nibbles]

theorem percentDecode_cons_of_ne (h : b ≠ 0x25) (q : Bytes) :
    percentDecode (b :: q) = b :: percentDecode q := by
  rcases q with _ | ⟨c, _ | ⟨d, q⟩⟩
  · rfl
  · rfl
  · rw [percentDecode_cons, if_neg h]

/-- A percent sign with no digit behind it is kept. -/
theorem percentDecode_percent {c : UInt8} (h : hex c = none) (q : Bytes) :
    percentDecode (b :: c :: q) = b :: percentDecode (c :: q) := by
  rcases q with _ | ⟨d, q⟩
  · rfl
  · rw [percentDecode_cons, h]
    split <;> rfl

theorem percentDecode_digit {c d : UInt8} (h : hex d = none) (q : Bytes) :
    percentDecode (b :: c :: d :: q) = b :: percentDecode (c :: d :: q) := by
  rw [percentDecode_cons, h]
  split
  · split
    · rename_i heq
      cases heq
    · rfl
  · rfl

theorem percentDecode_once (hb : b ≠ 0x25) (h : Once b w) (q : Bytes) :
    percentDecode (w ++ q) = b :: percentDecode q := by
  rcases h with rfl | h
  · exact percentDecode_cons_of_ne hb q
  · exact percentDecode_escape h q

/-- The second pass undoes escapes. -/
theorem percentDecode_replaced (hp : ∀ b ∈ p, b ≠ 0x25) (h : Replaced Once p q) :
    percentDecode q = p := by
  induction h with
  | nil => rfl
  | cons hw _ ih =>
    obtain ⟨hb, hp⟩ := List.forall_mem_cons.mp hp
    rw [percentDecode_once hb hw, ih hp]

theorem hex_percent : hex 0x25 = none := rfl

/-- The first pass leaves a byte or its escape. -/
theorem percentDecode_twice (hb : b ≠ 0x25) (h : Twice b w) (q : Bytes) :
    ∃ w', Once b w' ∧ percentDecode (w ++ q) = w' ++ percentDecode q := by
  rcases h with rfl | ⟨hi, lo, w₀, w₁, w₂, hesc, h₀, h₁, h₂, rfl⟩
  · exact ⟨[b], .inl rfl, percentDecode_cons_of_ne hb q⟩
  obtain ⟨_, _, heq, hhi, hlo⟩ := id hesc
  cases heq
  have hhi' := (hex_bounds hhi).1
  have hlo' := (hex_bounds hlo).1
  have hdigits : percentDecode (w₁ ++ (w₂ ++ q)) = [hi, lo] ++ percentDecode q := by
    rw [percentDecode_once hhi' h₁, percentDecode_once hlo' h₂]
    rfl
  have hkept : percentDecode (w₀ ++ (w₁ ++ (w₂ ++ q))) = 0x25 :: percentDecode (w₁ ++ (w₂ ++ q)) →
      ∃ w', Once b w' ∧ percentDecode (w₀ ++ w₁ ++ w₂ ++ q) = w' ++ percentDecode q := by
    intro h
    refine ⟨[0x25, hi, lo], .inr hesc, ?_⟩
    rw [List.append_assoc, List.append_assoc, h, hdigits]
    rfl
  rcases h₀ with rfl | h₀
  · rcases h₁ with rfl | ⟨_, _, rfl, -, -⟩
    · rcases h₂ with rfl | ⟨_, _, rfl, -, -⟩
      · -- nothing is escaped twice
        exact ⟨[b], .inl rfl, percentDecode_escape hesc q⟩
      · exact hkept (percentDecode_digit hex_percent _)
    · exact hkept (percentDecode_percent hex_percent _)
  · exact hkept (percentDecode_escape h₀ _)

/-- Both passes undo escapes of depth two. -/
theorem percentDecode_percentDecode (hp : ∀ b ∈ p, b ≠ 0x25) (h : Replaced Twice p q) :
    percentDecode (percentDecode q) = p := by
  have hfirst : Replaced Once p (percentDecode q) := by
    induction h with
    | nil => exact .nil
    | cons hw _ ih =>
      obtain ⟨hb, hp⟩ := List.forall_mem_cons.mp hp
      obtain ⟨w', hw', heq⟩ := percentDecode_twice hb hw _
      rw [heq]
      exact .cons hw' (ih hp)
  exact percentDecode_replaced hp hfirst

theorem percentDecode_of_notMem (h : 0x25 ∉ x) : percentDecode x = x := by
  induction x with
  | nil => rfl
  | cons b bs ih =>
    rw [List.mem_cons, not_or] at h
    rw [percentDecode_cons_of_ne (Ne.symm h.1), ih h.2]

theorem once_pathEnd (hb : isPathEnd b = false) (h : Once b w) : ∀ d ∈ w, isPathEnd d = false := by
  rcases h with rfl | ⟨hi, lo, rfl, hhi, hlo⟩
  · simpa using hb
  · refine List.forall_mem_cons.mpr ⟨rfl, List.forall_mem_cons.mpr ⟨(hex_bounds hhi).2.2, ?_⟩⟩
    simpa using (hex_bounds hlo).2.2

/-- Escapes hide no end of the path. -/
theorem replaced_pathEnd (hp : ∀ b ∈ p, isPathEnd b = false) (h : Replaced Twice p q) :
    ∀ b ∈ q, isPathEnd b = false := by
  induction h with
  | nil => simp
  | cons hw _ ih =>
    obtain ⟨hb, hp⟩ := List.forall_mem_cons.mp hp
    refine List.forall_mem_append.mpr ⟨?_, ih hp⟩
    rcases hw with rfl | ⟨hi, lo, w₀, w₁, w₂, ⟨_, _, heq, hhi, hlo⟩, h₀, h₁, h₂, rfl⟩
    · simpa using hb
    · cases heq
      refine List.forall_mem_append.mpr ⟨List.forall_mem_append.mpr ⟨once_pathEnd rfl h₀, ?_⟩, ?_⟩
      · exact once_pathEnd (hex_bounds hhi).2.2 h₁
      · exact once_pathEnd (hex_bounds hlo).2.2 h₂

/-! ## The ASCII skeleton -/

/-- Put a byte in front of a skeleton: all bytes of a run that is not ASCII count as one. -/
def push (b : UInt8) (l : Bytes) : Bytes :=
  if b < 0x80 then b :: l
  else if l.head?.any (0x80 ≤ ·) then l
  else 0x80 :: l

/-- The ASCII characters of a string, and where something else stands between them. -/
def skeleton (x : Bytes) : Bytes := x.foldr push []

@[simp] theorem skeleton_nil : skeleton [] = [] := rfl

theorem skeleton_cons (b : UInt8) (x : Bytes) : skeleton (b :: x) = push b (skeleton x) := rfl

theorem push_of_lt (h : b < 0x80) (l : Bytes) : push b l = b :: l := if_pos h

theorem skeleton_cons_of_lt (h : b < 0x80) (x : Bytes) : skeleton (b :: x) = b :: skeleton x :=
  push_of_lt h _

/-- What is not ASCII is all the same. -/
theorem push_of_ge (h : ¬b < 0x80) (l : Bytes) : push b l = push 0x80 l := by
  simp [push, h]

/-- A string that begins with something else than ASCII takes up more of it. -/
theorem push_push {c : UInt8} (hb : ¬b < 0x80) (hc : ¬c < 0x80) (l : Bytes) :
    push b (push c l) = push c l := by
  have hany : (push c l).head?.any (0x80 ≤ ·) = true := by
    unfold push
    rw [if_neg hc]
    split
    · assumption
    · rfl
  rw [push, if_neg hb, if_pos hany]

theorem push_cases (b : UInt8) (l : Bytes) : (b < 0x80 ∧ push b l = b :: l) ∨
    (¬b < 0x80 ∧ ∃ c l', ¬c < 0x80 ∧ l = c :: l' ∧ push b l = l) ∨
    ¬b < 0x80 ∧ l.head?.any (0x80 ≤ ·) = false ∧ push b l = 0x80 :: l := by
  unfold push
  split
  · exact .inl ⟨‹_›, rfl⟩
  · split
    · rename_i hb h
      refine .inr (.inl ⟨hb, ?_⟩)
      obtain ⟨c, hc, hle⟩ := (Option.any_eq_true _ _).mp h
      obtain ⟨l', rfl⟩ := List.head?_eq_some_iff.mp hc
      exact ⟨c, l', UInt8.not_lt.mpr (by simpa using hle), rfl, rfl⟩
    · rename_i hb h
      exact .inr (.inr ⟨hb, Bool.eq_false_iff.mpr h, rfl⟩)

/-! ### Decoding -/

theorem skeleton_append_of_ge {x : Bytes} (hne : x ≠ []) (hx : ∀ b ∈ x, ¬b < 0x80) (y : Bytes) :
    skeleton (x ++ y) = push 0x80 (skeleton y) := by
  induction x with
  | nil => exact absurd rfl hne
  | cons b bs ih =>
    obtain ⟨hb, hbs⟩ := List.forall_mem_cons.mp hx
    rw [List.cons_append, skeleton_cons, push_of_ge hb]
    rcases bs with _ | ⟨c, bs⟩
    · rfl
    · rw [ih (by simp) hbs, push_push (by decide) (by decide)]

theorem not_lt_of_le {lo : UInt8} (hlo : ¬lo < 0x80) (h : lo ≤ b) : ¬b < 0x80 :=
  UInt8.not_lt.mpr (UInt8.le_trans (UInt8.not_lt.mp hlo) h)

/-- A character that is not complete is not ASCII, and nor is what continues it. -/
structure Incomplete.Wide (p : Incomplete) : Prop where
  ne : p.bytes ≠ []
  bytes : ∀ b ∈ p.bytes, ¬b < 0x80
  ranges : ∀ r ∈ p.next :: p.later, ¬r.1 < 0x80

theorem continuation_wide (b : UInt8) : ∀ r ∈ continuation b, ¬r.1 < 0x80 := by
  unfold continuation
  split_ifs <;> simp

theorem skeleton_replacement (y : Bytes) : skeleton (replacement ++ y) = push 0x80 (skeleton y) :=
  skeleton_append_of_ge (by simp [replacement]) (by simp [replacement]) y

theorem wide_beginChar {p : Incomplete} (h : (beginChar b).2 = some p) : p.Wide := by
  unfold beginChar at h
  split at h
  · cases h
  · rename_i hb
    split at h
    · cases h
    · rename_i r rs hc
      cases h
      exact ⟨by simp, by simpa using UInt8.not_lt.mp hb, hc ▸ continuation_wide b⟩

/-- What a lossy conversion does to a character that is not ASCII, is to put something that is not
ASCII there. -/
theorem skeleton_lossy (st : Option Incomplete) (hst : ∀ p ∈ st, p.Wide) (x : Bytes) :
    skeleton (lossy st x) = if st.isSome then push 0x80 (skeleton x) else skeleton x := by
  induction x generalizing st with
  | nil =>
    cases st with
    | none => rfl
    | some p => rfl
  | cons b x ih =>
    have hbegin : skeleton ((beginChar b).1 ++ lossy (beginChar b).2 x) = push b (skeleton x) := by
      have ih := ih (beginChar b).2 fun p hp => wide_beginChar hp
      unfold beginChar at ih ⊢
      split at ih
      · rename_i hb
        rw [if_pos hb]
        exact (skeleton_cons b _).trans (congrArg (push b) ih)
      · rename_i hb
        rw [if_neg hb, push_of_ge hb]
        split at ih
        · exact (skeleton_replacement _).trans (congrArg (push 0x80) ih)
        · exact ih
    cases st with
    | none => exact hbegin
    | some p =>
      obtain ⟨hne, hbytes, hranges⟩ := hst p rfl
      obtain ⟨hnext, hlater⟩ := List.forall_mem_cons.mp hranges
      rw [Option.isSome_some, if_pos rfl, skeleton_cons]
      unfold lossy
      split
      · rename_i hin
        have hb : ¬b < 0x80 := not_lt_of_le hnext hin.1
        have hsnoc : ∀ d ∈ p.bytes ++ [b], ¬d < 0x80 := by
          rintro d hd
          rcases List.mem_append.mp hd with hd | hd
          · exact hbytes d hd
          · exact List.mem_singleton.mp hd ▸ hb
        rw [push_of_ge hb, push_push (by decide) (by decide)]
        split
        · rename_i hp
          have hcons : p.bytes ++ b :: lossy none x = (p.bytes ++ [b]) ++ lossy none x := by simp
          rw [hcons, skeleton_append_of_ge (by simp) hsnoc, ih none (by simp)]
          rfl
        · rename_i r rs hp
          refine ih _ ?_
          rintro _ ⟨⟩
          exact ⟨by simp, hsnoc, hp ▸ hlater⟩
      · rw [List.append_assoc, skeleton_replacement, hbegin]

theorem skeleton_fromUtf8Lossy (x : Bytes) : skeleton (fromUtf8Lossy x) = skeleton x :=
  skeleton_lossy none (by simp) x

theorem skeleton_push (b : UInt8) (l : Bytes) : skeleton (push b l) = push b (skeleton l) := by
  rcases push_cases b l with ⟨hb, h⟩ | ⟨hb, c, l', hc, rfl, h⟩ | ⟨hb, -, h⟩ <;> rw [h]
  · rfl
  · rw [skeleton_cons, push_push hb hc]
  · rw [skeleton_cons, push_of_ge hb]

@[simp] theorem skeleton_skeleton (x : Bytes) : skeleton (skeleton x) = skeleton x := by
  induction x with
  | nil => rfl
  | cons b x ih => rw [skeleton_cons, skeleton_push, ih]

theorem skeleton_eq_cons {c : UInt8} {l : Bytes} (hc : c < 0x80) (h : skeleton x = c :: l) :
    ∃ x', x = c :: x' ∧ skeleton x' = l := by
  cases x with
  | nil => cases h
  | cons b x =>
    rw [skeleton_cons] at h
    rcases push_cases b (skeleton x) with ⟨-, hpush⟩ | ⟨-, d, l', hd, hl, hpush⟩ | ⟨-, -, hpush⟩ <;>
      rw [hpush] at h
    · cases h
      exact ⟨x, rfl, rfl⟩
    · rw [hl] at h
      cases h
      exact absurd hc hd
    · cases h
      exact absurd hc (by decide)

theorem skeleton_eq_nil : skeleton x = [] ↔ x = [] := by
  cases x with
  | nil => simp
  | cons b x =>
    rcases push_cases b (skeleton x) with ⟨-, h⟩ | ⟨-, c, l, -, hl, h⟩ | ⟨-, -, h⟩ <;>
      rw [skeleton_cons, h]
    · simp
    · simp [hl]
    · simp

/-- The front is a complete escape. -/
def Starts (b : UInt8) (q : Bytes) : Prop :=
  ∃ hi lo rest h l, b = 0x25 ∧ q = hi :: lo :: rest ∧ hex hi = some h ∧ hex lo = some l

theorem percentDecode_of_not_starts (h : ¬Starts b q) :
    percentDecode (b :: q) = b :: percentDecode q := by
  rcases q with _ | ⟨hi, _ | ⟨lo, rest⟩⟩
  · rfl
  · rfl
  · rw [percentDecode_cons]
    split
    · rename_i hb
      split
      · rename_i h' l hhi hlo
        exact absurd ⟨hi, lo, rest, h', l, hb, rfl, hhi, hlo⟩ h
      · rfl
    · rfl

theorem Starts.of_skeleton (h : Starts b (skeleton x)) : Starts b x := by
  obtain ⟨hi, lo, rest, h, l, hb, hx, hhi, hlo⟩ := h
  obtain ⟨x', rfl, hx'⟩ := skeleton_eq_cons (hex_bounds hhi).2.1 hx
  obtain ⟨x'', rfl, -⟩ := skeleton_eq_cons (hex_bounds hlo).2.1 hx'
  exact ⟨hi, lo, x'', h, l, hb, rfl, hhi, hlo⟩

theorem ne_percent_of_ge (h : ¬b < 0x80) : b ≠ 0x25 := by
  rintro rfl
  exact h (by decide)

theorem skeleton_percentDecode_push (hb : ¬b < 0x80) (l : Bytes) :
    skeleton (percentDecode (push b l)) = push b (skeleton (percentDecode l)) := by
  rcases push_cases b l with ⟨hb', -⟩ | ⟨-, c, l', hc, rfl, h⟩ | ⟨-, -, h⟩
  · exact absurd hb' hb
  · rw [h, percentDecode_cons_of_ne (ne_percent_of_ge hc), skeleton_cons, push_push hb hc]
  · rw [h, percentDecode_cons_of_ne (by decide), skeleton_cons, push_of_ge hb]

/-- Which escapes there are, and what stands between them, shows in the skeleton. -/
theorem skeleton_percentDecode_skeleton (x : Bytes) :
    skeleton (percentDecode (skeleton x)) = skeleton (percentDecode x) := by
  induction hn : x.length using Nat.strong_induction_on generalizing x with
  | _ n ih =>
  cases x with
  | nil => rfl
  | cons b x =>
    rw [List.length_cons] at hn
    have ihx := ih x.length (by omega) x rfl
    by_cases hb : b < 0x80
    · rw [skeleton_cons_of_lt hb]
      by_cases hstarts : Starts b x
      · obtain ⟨hi, lo, rest, h, l, rfl, rfl, hhi, hlo⟩ := hstarts
        rw [List.length_cons, List.length_cons] at hn
        rw [skeleton_cons_of_lt (hex_bounds hhi).2.1, skeleton_cons_of_lt (hex_bounds hlo).2.1]
        rw [percentDecode_cons, percentDecode_cons, if_pos rfl, if_pos rfl, hhi, hlo]
        dsimp only
        rw [skeleton_cons, skeleton_cons, ih rest.length (by omega) rest rfl]
      · rw [percentDecode_of_not_starts hstarts,
          percentDecode_of_not_starts fun h => hstarts h.of_skeleton, skeleton_cons, skeleton_cons,
          ihx]
    · rw [skeleton_cons, skeleton_percentDecode_push hb, ihx,
        percentDecode_cons_of_ne (ne_percent_of_ge hb), skeleton_cons]

theorem mem_skeleton (hb : b < 0x80) : b ∈ skeleton x ↔ b ∈ x := by
  induction x with
  | nil => simp
  | cons c x ih =>
    have hne : ∀ d : UInt8, ¬d < 0x80 → b ≠ d := by
      rintro d hd rfl
      exact hd hb
    rw [skeleton_cons, List.mem_cons, ← ih]
    rcases push_cases c (skeleton x) with ⟨-, h⟩ | ⟨hc, -, -, -, -, h⟩ | ⟨hc, -, h⟩ <;> rw [h]
    · exact List.mem_cons
    · simp [hne c hc]
    · simp [hne c hc, hne 0x80 (by decide)]

/-- Both passes, whether the second runs or not. -/
theorem skeleton_decodeTwice (x : Bytes) :
    skeleton (decodeTwice x) = skeleton (percentDecode (percentDecode x)) := by
  unfold decodeTwice
  split
  · have honce : skeleton (percentDecodeLossy x) = skeleton (percentDecode x) :=
      skeleton_fromUtf8Lossy _
    dsimp only
    split
    · rw [percentDecodeLossy, skeleton_fromUtf8Lossy, ← skeleton_percentDecode_skeleton, honce,
        skeleton_percentDecode_skeleton]
    · rename_i h
      rw [honce, percentDecode_of_notMem (x := percentDecode x)]
      rw [List.contains_iff_mem, ← mem_skeleton (by decide), honce, mem_skeleton (by decide)] at h
      exact h
  · rename_i h
    rw [List.contains_iff_mem] at h
    rw [percentDecode_of_notMem h, percentDecode_of_notMem h]

/-! ### The rules see only the skeleton -/

theorem any_skeleton {f : UInt8 → Bool} (hf : ∀ b, ¬b < 0x80 → f b = false) (x : Bytes) :
    (skeleton x).any f = x.any f := by
  induction x with
  | nil => rfl
  | cons b x ih =>
    rw [skeleton_cons, List.any_cons, ← ih]
    rcases push_cases b (skeleton x) with ⟨-, h⟩ | ⟨hb, -, -, -, -, h⟩ | ⟨hb, -, h⟩ <;> rw [h]
    · exact List.any_cons
    · rw [hf b hb, Bool.false_or]
    · rw [List.any_cons, hf b hb, hf 0x80 (by decide)]

theorem map_skeleton {f : UInt8 → UInt8} (hlt : ∀ b, b < 0x80 → f b < 0x80)
    (hge : ∀ b, ¬b < 0x80 → f b = b) (x : Bytes) : skeleton (x.map f) = (skeleton x).map f := by
  induction x with
  | nil => rfl
  | cons b x ih =>
    rw [List.map_cons, skeleton_cons, skeleton_cons, ih]
    rcases push_cases b (skeleton x) with ⟨hb, h⟩ | ⟨hb, c, l', hc, hl, h⟩ | ⟨hb, hl, h⟩ <;> rw [h]
    · rw [push_of_lt (hlt b hb), List.map_cons]
    · have hhead : ((skeleton x).map f).head?.any (0x80 ≤ ·) = true := by
        rw [hl, List.map_cons, List.head?_cons, Option.any_some, hge c hc]
        simpa using UInt8.not_lt.mp hc
      rw [push, hge b hb, if_neg hb, if_pos hhead]
    · have hhead : ((skeleton x).map f).head?.any (0x80 ≤ ·) = false := by
        cases hx : skeleton x with
        | nil => rfl
        | cons c l =>
          rw [hx, List.head?_cons, Option.any_some, decide_eq_false_iff_not, UInt8.not_le] at hl
          simpa using UInt8.not_le.mpr (hlt c hl)
      rw [push, hge b hb, if_neg hb, if_neg (by rw [hhead]; decide), List.map_cons,
        hge 0x80 (by decide)]

/-- All ASCII. -/
def Plain (w : Bytes) : Prop := ∀ b ∈ w, b < 0x80

theorem plain_ascii (s : String) : Plain (ascii s) := by
  intro b hb
  obtain ⟨c, hc, rfl⟩ := List.mem_map.mp hb
  have hlt : c.toNat < 128 := by simpa using (List.mem_filter.mp hc).2
  exact UInt8.lt_iff_toNat_lt.mpr ((Ascii.byte_toNat hlt).trans_lt hlt)

theorem plain_table (table : List String) : ∀ w ∈ table.map ascii, Plain w := by
  rintro w hw
  obtain ⟨s, -, rfl⟩ := List.mem_map.mp hw
  exact plain_ascii s

theorem Plain.skeleton_eq (hw : Plain w) : skeleton w = w := by
  induction w with
  | nil => rfl
  | cons b w ih =>
    obtain ⟨hb, hw⟩ := List.forall_mem_cons.mp hw
    rw [skeleton_cons_of_lt hb, ih hw]

theorem Plain.skeleton_eq_iff (hw : Plain w) : skeleton x = w ↔ x = w := by
  constructor
  · intro h
    induction w generalizing x with
    | nil => exact skeleton_eq_nil.mp h
    | cons b w ih =>
      obtain ⟨hb, hw⟩ := List.forall_mem_cons.mp hw
      obtain ⟨x', rfl, hx'⟩ := skeleton_eq_cons hb h
      rw [ih hw hx']
  · rintro rfl
    exact hw.skeleton_eq

theorem Plain.isPrefixOf (hw : Plain w) (x : Bytes) :
    w.isPrefixOf (skeleton x) = w.isPrefixOf x := by
  induction w generalizing x with
  | nil => simp
  | cons c w ih =>
    obtain ⟨hc, hw⟩ := List.forall_mem_cons.mp hw
    have hne : ∀ d : UInt8, ¬d < 0x80 → (c == d) = false := by
      rintro d hd
      exact beq_eq_false_iff_ne.mpr fun h => hd (h ▸ hc)
    cases x with
    | nil => rfl
    | cons b x =>
      rcases push_cases b (skeleton x) with ⟨-, h⟩ | ⟨hb, d, l', hd, hl, h⟩ | ⟨hb, -, h⟩ <;>
        rw [skeleton_cons, h]
      · rw [List.isPrefixOf, List.isPrefixOf, ih hw]
      · rw [hl, List.isPrefixOf, List.isPrefixOf, hne b hb, hne d hd, Bool.false_and, Bool.false_and]
      · rw [List.isPrefixOf, List.isPrefixOf, hne b hb, hne 0x80 (by decide), Bool.false_and,
          Bool.false_and]

theorem Plain.suffix (hw : Plain w) : w <:+ skeleton x ↔ w <:+ x := by
  constructor
  · intro h
    induction x with
    | nil => exact h
    | cons b x ih =>
      rw [skeleton_cons] at h
      rcases push_cases b (skeleton x) with ⟨hb, hpush⟩ | ⟨-, -, -, -, -, hpush⟩ | ⟨-, -, hpush⟩ <;>
        rw [hpush] at h
      · rcases List.suffix_cons_iff.mp h with heq | h
        · have hx := hw.skeleton_eq_iff.mp ((skeleton_cons_of_lt hb x).trans heq.symm)
          exact hx ▸ List.suffix_refl _
        · exact (ih h).trans (List.suffix_cons b x)
      · exact (ih h).trans (List.suffix_cons b x)
      · rcases List.suffix_cons_iff.mp h with heq | h
        · exact absurd (hw 0x80 (heq ▸ List.mem_cons_self)) (by decide)
        · exact (ih h).trans (List.suffix_cons b x)
  · rintro ⟨u, rfl⟩
    induction u with
    | nil =>
      rw [List.nil_append, hw.skeleton_eq]
    | cons b u ih =>
      rw [List.cons_append, skeleton_cons]
      rcases push_cases b (skeleton (u ++ w)) with ⟨-, h⟩ | ⟨-, -, -, -, -, h⟩ | ⟨-, -, h⟩ <;> rw [h]
      · exact ih.trans (List.suffix_cons _ _)
      · exact ih
      · exact ih.trans (List.suffix_cons _ _)

theorem Plain.isSuffixOf (hw : Plain w) (x : Bytes) :
    w.isSuffixOf (skeleton x) = w.isSuffixOf x := by
  rw [Bool.eq_iff_iff, List.isSuffixOf_iff_suffix, List.isSuffixOf_iff_suffix]
  exact hw.suffix

theorem contains_skeleton {table : List Bytes} (h : ∀ w ∈ table, Plain w) (x : Bytes) :
    table.contains (skeleton x) = table.contains x := by
  rw [Bool.eq_iff_iff, List.contains_iff_mem, List.contains_iff_mem]
  constructor
  · intro hx
    rwa [(h _ hx).skeleton_eq_iff.mp rfl]
  · intro hx
    rwa [(h _ hx).skeleton_eq]

/-! ### Segments -/

theorem splitOnP_push {f : UInt8 → Bool} (hf : ∀ b, ¬b < 0x80 → f b = false) (hb : ¬b < 0x80)
    (l : Bytes) : (push b l).splitOnP f = (l.splitOnP f).modifyHead (push b) := by
  rcases push_cases b l with ⟨hb', -⟩ | ⟨-, c, l', hc, rfl, h⟩ | ⟨-, hl, h⟩
  · exact absurd hb' hb
  · obtain ⟨seg, segs, hsegs⟩ := List.exists_cons_of_ne_nil (List.splitOnP_ne_nil f l')
    rw [h, List.splitOnP_cons_eq_if_modifyHead, hf c hc, hsegs]
    simp [push, hb, UInt8.not_lt.mp hc]
  · rw [h, List.splitOnP_cons_eq_if_modifyHead, hf 0x80 (by decide)]
    cases l with
    | nil => simp [List.splitOnP_nil, push, hb]
    | cons c l =>
      rw [List.head?_cons, Option.any_some] at hl
      rw [List.splitOnP_cons_eq_if_modifyHead]
      cases hfc : f c with
      | true => simp [push, hb]
      | false =>
        obtain ⟨seg, segs, hsegs⟩ := List.exists_cons_of_ne_nil (List.splitOnP_ne_nil f l)
        rw [hsegs]
        simp [push, hb, hl]

/-- The segments of the skeleton are the skeletons of the segments. -/
theorem splitOnP_skeleton {f : UInt8 → Bool} (hf : ∀ b, ¬b < 0x80 → f b = false) (x : Bytes) :
    (skeleton x).splitOnP f = (x.splitOnP f).map skeleton := by
  induction x with
  | nil => simp
  | cons b x ih =>
    obtain ⟨seg, segs, hsegs⟩ := List.exists_cons_of_ne_nil (List.splitOnP_ne_nil f x)
    rw [hsegs] at ih
    by_cases hb : b < 0x80
    · rw [skeleton_cons_of_lt hb, List.splitOnP_cons_eq_if_modifyHead,
        List.splitOnP_cons_eq_if_modifyHead, ih, hsegs]
      split
      · rfl
      · simp [skeleton_cons_of_lt hb]
    · rw [skeleton_cons, splitOnP_push hf hb, ih, List.splitOnP_cons_eq_if_modifyHead, hf b hb,
        hsegs]
      rfl

theorem filter_map_skeleton (segs : List Bytes) :
    (segs.map skeleton).filter (fun seg => !seg.isEmpty) =
      (segs.filter fun seg => !seg.isEmpty).map skeleton := by
  have hempty : ((fun seg : Bytes => !seg.isEmpty) ∘ skeleton) = fun seg => !seg.isEmpty := by
    funext seg
    have h := skeleton_eq_nil (x := seg)
    rw [← List.isEmpty_iff, ← List.isEmpty_iff, ← Bool.eq_iff_iff] at h
    exact congrArg Bool.not h
  rw [List.filter_map, hempty]

theorem isEmpty_skeleton (x : Bytes) : (skeleton x).isEmpty = x.isEmpty := by
  rw [Bool.eq_iff_iff, List.isEmpty_iff, List.isEmpty_iff]
  exact skeleton_eq_nil

theorem isRiskyDotfile_skeleton (x : Bytes) : isRiskyDotfile (skeleton x) = isRiskyDotfile x := by
  unfold isRiskyDotfile
  have hprefixes : ∀ w ∈ dotfileRiskPrefixes, w.isPrefixOf (skeleton x) = w.isPrefixOf x :=
    fun w hw => (plain_table _ w hw).isPrefixOf x
  rw [riskyDotfiles, contains_skeleton (plain_table _)]
  congr 1
  rw [Bool.eq_iff_iff, List.any_eq_true, List.any_eq_true]
  exact exists_congr fun w => and_congr_right fun hw => by rw [hprefixes w hw]

def Seen.skeleton (seen : Seen) : Seen :=
  { seen with
    first := Scanner.skeleton seen.first
    second := Scanner.skeleton seen.second
    last := Scanner.skeleton seen.last }

theorem scanSegments_skeleton (segs : List Bytes) (idx : Nat) (seen : Seen) :
    scanSegments idx seen.skeleton (segs.map skeleton) =
      (scanSegments idx seen segs).map Seen.skeleton := by
  induction segs generalizing idx seen with
  | nil => rfl
  | cons seg segs ih =>
    have hdots : skeleton seg = ascii ".." ↔ seg = ascii ".." :=
      (plain_ascii _).skeleton_eq_iff
    have hknown : (skeleton seg == ascii ".well-known") = (seg == ascii ".well-known") := by
      rw [Bool.eq_iff_iff, beq_iff_eq, beq_iff_eq]
      exact (plain_ascii _).skeleton_eq_iff
    rw [List.map_cons, scanSegments, scanSegments]
    by_cases h : seg = ascii ".."
    · rw [if_pos h, if_pos (hdots.mpr h)]
      rfl
    · rw [if_neg h, if_neg fun h' => h (hdots.mp h'), ← ih, hknown, isRiskyDotfile_skeleton,
        (plain_ascii _).isPrefixOf]
      congr 1
      simp only [Seen.skeleton, Seen.mk.injEq, and_true]
      exact ⟨by split <;> rfl, by split <;> rfl⟩

theorem extension_skeleton (x : Bytes) : extension (skeleton x) = (extension x).map skeleton := by
  induction x with
  | nil => rfl
  | cons b x ih =>
    have hge : ∀ (d : UInt8) (l : Bytes), ¬d < 0x80 → extension (d :: l) = extension l := by
      intro d l hd
      have hdot : d ≠ 0x2e := by
        rintro rfl
        exact hd (by decide)
      rw [extension]
      split
      · rename_i h
        exact h.symm
      · rename_i h
        rw [if_neg hdot, h]
    rw [skeleton_cons]
    rcases push_cases b (skeleton x) with ⟨-, h⟩ | ⟨hb, -, -, -, -, h⟩ | ⟨hb, -, h⟩ <;> rw [h]
    · rw [extension, extension, ih]
      cases extension x with
      | some ext => rfl
      | none =>
        dsimp only [Option.map_none]
        split <;> rfl
    · rw [hge b x hb, ih]
    · rw [hge b x hb, hge _ _ (by decide), ih]

theorem inspectLast_skeleton (x : Bytes) : inspectLast (skeleton x) = inspectLast x := by
  have hgz : ∀ ext : Bytes, skeleton ext = ascii "gz" ↔ ext = ascii "gz" := fun ext =>
    (plain_ascii _).skeleton_eq_iff
  unfold inspectLast
  rw [isEmpty_skeleton, (plain_ascii _).isSuffixOf, (plain_ascii _).isSuffixOf,
    (plain_ascii _).isSuffixOf, extension_skeleton, (plain_ascii _).isSuffixOf]
  cases extension x with
  | none => rfl
  | some ext =>
    simp only [Option.map_some, Option.bind_some, hgz]
    rw [leftoverExtensions, secretExtensions, contains_skeleton (plain_table _),
      contains_skeleton (plain_table _)]

theorem debugPairs_skeleton (x y : Bytes) :
    debugPairs.contains (skeleton x, skeleton y) = debugPairs.contains (x, y) := by
  have hplain : ∀ w ∈ debugPairs, Plain w.1 ∧ Plain w.2 := by
    rintro w hw
    obtain ⟨p, -, rfl⟩ := List.mem_map.mp hw
    exact ⟨plain_ascii _, plain_ascii _⟩
  rw [Bool.eq_iff_iff, List.contains_iff_mem, List.contains_iff_mem]
  constructor
  · intro h
    obtain ⟨hx, hy⟩ := hplain _ h
    rwa [hx.skeleton_eq_iff.mp rfl, hy.skeleton_eq_iff.mp rfl]
  · intro h
    obtain ⟨hx, hy⟩ := hplain _ h
    rwa [hx.skeleton_eq, hy.skeleton_eq]

theorem inspectLower_skeleton (x : Bytes) : inspectLower (skeleton x) = inspectLower x := by
  have hsep : ∀ b, ¬b < 0x80 → isSeparator b = false := by decide +kernel
  have hscan := scanSegments_skeleton ((x.splitOnP isSeparator).filter fun seg => !seg.isEmpty) 0
    ⟨[], [], [], false⟩
  unfold inspectLower
  rw [splitOnP_skeleton hsep, filter_map_skeleton]
  have hnew : (⟨[], [], [], false⟩ : Seen).skeleton = ⟨[], [], [], false⟩ := rfl
  rw [hnew] at hscan
  rw [hscan]
  cases scanSegments 0 ⟨[], [], [], false⟩ _ with
  | none => rfl
  | some seen =>
    dsimp only [Option.map_some, Seen.skeleton]
    rw [inspectLast_skeleton, isEmpty_skeleton, isEmpty_skeleton, debugPairs_skeleton,
      debugRoots, pairRoots, contains_skeleton (plain_table _), contains_skeleton (plain_table _)]

/-- The verdict on a decoded path depends on its skeleton alone. -/
theorem inspectDecoded_skeleton (x : Bytes) : inspectDecoded (skeleton x) = inspectDecoded x := by
  have hclassify : classify (skeleton x) = classify x := by
    rw [classify_eq_classifyRef, classify_eq_classifyRef, classifyRef, classifyRef,
      foldl_classifyByte, foldl_classifyByte, any_skeleton (by decide +kernel),
      any_skeleton (by decide +kernel)]
  have hlower : (skeleton x).map toAsciiLower = skeleton (x.map toAsciiLower) :=
    (map_skeleton (by decide +kernel) (by decide +kernel) x).symm
  unfold inspectDecoded
  dsimp only
  rw [hclassify, hlower, ← apply_ite skeleton, inspectLower_skeleton]

/-- Percent-encoding does not evade the rules. -/
theorem inspect_encoded (method : String) (hp : ∀ b ∈ p, b ≠ 0x25 ∧ b ≠ 0x3f ∧ b ≠ 0x23)
    (h : Replaced Twice p q) : inspect method q = inspect method p := by
  have hend : ∀ b ∈ p, isPathEnd b = false := fun b hb => by simp [isPathEnd, hp b hb]
  have hwhole : ∀ x : Bytes, (∀ b ∈ x, isPathEnd b = false) →
      x.takeWhile (fun b => !isPathEnd b) = x := fun x hx =>
    List.takeWhile_eq_self_iff.mpr fun b hb => by simp [hx b hb]
  have hpercent : ∀ b ∈ p, b ≠ 0x25 := fun b hb => (hp b hb).1
  have hplain : decodeTwice p = p := by
    unfold decodeTwice
    rw [if_neg]
    rw [List.contains_iff_mem]
    exact fun hmem => hpercent _ hmem rfl
  unfold inspect
  rw [hwhole p hend, hwhole q (replaced_pathEnd hend h), hplain, ← inspectDecoded_skeleton,
    skeleton_decodeTwice, percentDecode_percentDecode hpercent h, inspectDecoded_skeleton]

/-- `/.env`, its dot escaped once, and each character of the escape of its `e`. -/
theorem inspect_encoded_env : inspect "GET" ([0x2f] ++ ([0x25, 0x32, 0x45] ++ ([0x25, 0x32, 0x35] ++
      [0x25, 0x33, 0x36] ++ [0x25, 0x33, 0x35] ++ ([0x6e] ++ ([0x76] ++ []))))) =
    inspect "GET" [0x2f, 0x2e, 0x65, 0x6e, 0x76] := by
  have hdot : Twice 0x2e [0x25, 0x32, 0x45] :=
    .inr ⟨0x32, 0x45, _, _, _, ⟨_, _, rfl, rfl, rfl⟩, .inl rfl, .inl rfl, .inl rfl, rfl⟩
  have he : Twice 0x65 ([0x25, 0x32, 0x35] ++ [0x25, 0x33, 0x36] ++ [0x25, 0x33, 0x35]) :=
    .inr ⟨0x36, 0x35, _, _, _, ⟨_, _, rfl, rfl, rfl⟩, .inr ⟨_, _, rfl, rfl, rfl⟩,
      .inr ⟨_, _, rfl, rfl, rfl⟩, .inr ⟨_, _, rfl, rfl, rfl⟩, rfl⟩
  exact inspect_encoded "GET" (by simp) <|
    .cons (.inl rfl) <| .cons hdot <| .cons he <| .cons (.inl rfl) <| .cons (.inl rfl) .nil

end TunnelWeaver.Abuse.Scanner
