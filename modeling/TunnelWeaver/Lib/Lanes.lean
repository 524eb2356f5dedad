import Mathlib

/-! Eight bytes in one 64-bit word. Bitwise operations act on each byte by itself, and so does a
subtraction that borrows in no byte. The word that is subtracted from to find a zero byte does
borrow, but only above the first zero. -/

namespace TunnelWeaver.Lanes

/-- The number whose digits to the base 256 are the bytes, the least significant one first. -/
def pack : List UInt8 → Nat
  | [] => 0
  | b :: bs => b.toNat + 256 * pack bs

variable {c : List UInt8} {f g : UInt8 → UInt8}

theorem pack_lt : ∀ c : List UInt8, pack c < 256 ^ c.length
  | [] => by simp [pack]
  | b :: bs => by
    have hb := b.toNat_lt
    have ih := pack_lt bs
    rw [pack, List.length_cons, pow_succ]
    omega

/-! ## One digit at a time -/

/-- An operation that works digit by digit in the base 256. -/
structure Digitwise (op : Nat → Nat → Nat) : Prop where
  mod : ∀ x y, op x y % 256 = op (x % 256) (y % 256)
  div : ∀ x y, op x y / 256 = op (x / 256) (y / 256)

theorem digitwise_and : Digitwise (· &&& ·) :=
  ⟨fun _ _ => @Nat.and_mod_two_pow _ _ 8, fun _ _ => @Nat.and_div_two_pow _ _ 8⟩

theorem digitwise_or : Digitwise (· ||| ·) :=
  ⟨fun _ _ => @Nat.or_mod_two_pow _ _ 8, fun _ _ => @Nat.or_div_two_pow _ _ 8⟩

theorem digitwise_xor : Digitwise (· ^^^ ·) :=
  ⟨fun _ _ => @Nat.xor_mod_two_pow _ _ 8, fun _ _ => @Nat.xor_div_two_pow _ _ 8⟩

theorem Digitwise.zero {op : Nat → Nat → Nat} (D : Digitwise op) : op 0 0 = 0 := by
  have hdiv := D.div 0 0
  have hzero : 0 / 256 = 0 := rfl
  rw [hzero] at hdiv
  omega

theorem Digitwise.add_mul {op : Nat → Nat → Nat} (D : Digitwise op) {a b x y : Nat} (ha : a < 256)
    (hb : b < 256) : op (a + 256 * x) (b + 256 * y) = op a b + 256 * op x y := by
  have hmod := D.mod (a + 256 * x) (b + 256 * y)
  have hdiv := D.div (a + 256 * x) (b + 256 * y)
  have hx : (a + 256 * x) / 256 = x := by omega
  have hy : (b + 256 * y) / 256 = y := by omega
  have ha' : (a + 256 * x) % 256 = a := by omega
  have hb' : (b + 256 * y) % 256 = b := by omega
  rw [ha', hb'] at hmod
  rw [hx, hy] at hdiv
  omega

theorem Digitwise.pack_map {op : Nat → Nat → Nat} {op₈ : UInt8 → UInt8 → UInt8} (D : Digitwise op)
    (hop : ∀ a b, (op₈ a b).toNat = op a.toNat b.toNat) (c : List UInt8) (f g : UInt8 → UInt8) :
    op (pack (c.map f)) (pack (c.map g)) = pack (c.map fun b => op₈ (f b) (g b)) := by
  induction c with
  | nil => exact D.zero
  | cons b bs ih =>
    simp only [List.map_cons, pack]
    rw [D.add_mul (f b).toNat_lt (g b).toNat_lt, ih, hop]

theorem pack_map_not (c : List UInt8) (f : UInt8 → UInt8) :
    256 ^ c.length - 1 - pack (c.map f) = pack (c.map fun b => ~~~f b) := by
  induction c with
  | nil => rfl
  | cons b bs ih =>
    have hb := (f b).toNat_lt
    have hlt := pack_lt (bs.map f)
    have hnot : (~~~f b).toNat = 255 - (f b).toNat := UInt8.toNat_not _
    rw [List.length_map] at hlt
    simp only [List.map_cons, List.length_cons, pack, pow_succ, hnot]
    omega

/-- No byte borrows from the next. -/
theorem pack_map_sub (h : ∀ b, g b ≤ f b) (c : List UInt8) :
    pack (c.map g) + pack (c.map fun b => f b - g b) = pack (c.map f) := by
  induction c with
  | nil => rfl
  | cons b bs ih =>
    have hle := UInt8.le_iff_toNat_le.mp (h b)
    simp only [List.map_cons, pack, UInt8.toNat_sub_of_le _ _ (h b)]
    omega

theorem pack_map_eq_zero (c : List UInt8) (f : UInt8 → UInt8) :
    pack (c.map f) = 0 ↔ ∀ b ∈ c, f b = 0 := by
  induction c with
  | nil => simp [pack]
  | cons b bs ih =>
    rw [List.forall_mem_cons, ← ih, ← UInt8.toNat_inj]
    simp only [List.map_cons, pack, UInt8.toNat_zero]
    omega

/-- Below the first zero byte nothing is borrowed, and there the low byte of each lane keeps its
high bit only if the lane is zero. -/
theorem pack_zero_byte (c : List UInt8) (f : UInt8 → UInt8) :
    ((pack (c.map f) + 256 ^ c.length - pack (c.map fun _ => 1)) % 256 ^ c.length &&&
      (256 ^ c.length - 1 - pack (c.map f)) &&& pack (c.map fun _ => 0x80)) = 0 ↔
    ∀ b ∈ c, f b ≠ 0 := by
  induction c with
  | nil => simp [pack]
  | cons b bs ih =>
    rw [List.forall_mem_cons, ← ih]
    have hb := (f b).toNat_lt
    have hy := pack_lt (bs.map f)
    have ho := pack_lt (bs.map fun _ => 1)
    rw [List.length_map] at hy ho
    have hlow : ∀ n < 256, n ≠ 0 → (n - 1) &&& (255 - n) &&& 128 = 0 := by decide +kernel
    simp only [List.map_cons, List.length_cons, pack, pow_succ]
    obtain ⟨M, hM⟩ : ∃ M, 256 ^ bs.length = M := ⟨_, rfl⟩
    obtain ⟨y, hy'⟩ : ∃ y, pack (bs.map f) = y := ⟨_, rfl⟩
    obtain ⟨o, ho'⟩ : ∃ o, pack (bs.map fun _ => (1 : UInt8)) = o := ⟨_, rfl⟩
    obtain ⟨n, hn⟩ : ∃ n, (f b).toNat = n := ⟨_, rfl⟩
    rw [hM] at hy ho ⊢
    rw [hy'] at hy ⊢
    rw [ho'] at ho ⊢
    rw [hn] at hb ⊢
    have hnot : M * 256 - 1 - (n + 256 * y) = (255 - n) + 256 * (M - 1 - y) := by omega
    have hone : (1 : UInt8).toNat = 1 := rfl
    have hhigh : (0x80 : UInt8).toNat = 128 := rfl
    rw [hnot, hone, hhigh]
    by_cases hzero : n = 0
    · subst hzero
      have hmod : (0 + 256 * y + M * 256 - (1 + 256 * o)) % (M * 256) % 256 = 255 := by
        rw [Nat.mod_mod_of_dvd _ (Nat.dvd_mul_left 256 M)]
        omega
      have hne : f b = 0 := UInt8.toNat_inj.mp (hn.trans rfl)
      refine iff_of_false (fun h => ?_) fun h => h.1 hne
      have hones : (255 - 0 + 256 * (M - 1 - y)) % 256 = 255 := by omega
      have hsign : (128 + 256 * pack (bs.map fun _ => 0x80)) % 256 = 128 := by omega
      have hand := congrArg (· % 256) h
      rw [digitwise_and.mod, digitwise_and.mod, hmod, hones, hsign] at hand
      exact absurd hand (by decide)
    · have hne : f b ≠ 0 := fun h => hzero (by rw [← hn, h]; rfl)
      have hsub : n + 256 * y + M * 256 - (1 + 256 * o) = (n - 1) + 256 * (y + M - o) := by omega
      have hmod : ((n - 1) + 256 * (y + M - o)) % (M * 256) =
          (n - 1) + 256 * ((y + M - o) % M) := by
        have hdigit : (n - 1 + 256 * (y + M - o)) % 256 = n - 1 := by omega
        have hrest : (n - 1 + 256 * (y + M - o)) / 256 = y + M - o := by omega
        rw [Nat.mul_comm M, Nat.mod_mul, hdigit, hrest]
      rw [hsub, hmod, digitwise_and.add_mul (by omega) (by omega),
        digitwise_and.add_mul (Nat.and_lt_two_pow _ (show 255 - n < 2 ^ 8 by omega)) (by decide),
        hlow n hb hzero]
      simp [hne]

/-! ## Words -/

/-- `u64::from_le_bytes`. -/
def ofLeBytes (c : List UInt8) : UInt64 := UInt64.ofNat (pack c)

/-- The word has `f b` where `c` has the byte `b`. -/
structure Holds (x : UInt64) (c : List UInt8) (f : UInt8 → UInt8) : Prop where
  length : c.length = 8
  toNat : x.toNat = pack (c.map f)

namespace Holds
variable {x y : UInt64}

theorem ofLeBytes (h : c.length = 8) : Holds (ofLeBytes c) c id where
  length := h
  toNat := by
    have hlt := pack_lt c
    rw [h] at hlt
    rw [List.map_id, Lanes.ofLeBytes, UInt64.toNat_ofNat_of_lt' (hlt.trans_le (by decide))]

theorem const {k : UInt8} (h : c.length = 8) (hx : x.toNat = pack (List.replicate 8 k)) :
    Holds x c fun _ => k :=
  ⟨h, by rw [hx, List.map_const', h]⟩

theorem and (hx : Holds x c f) (hy : Holds y c g) : Holds (x &&& y) c fun b => f b &&& g b :=
  ⟨hx.length, by
    rw [UInt64.toNat_and, hx.toNat, hy.toNat]
    exact digitwise_and.pack_map UInt8.toNat_and c f g⟩

theorem or (hx : Holds x c f) (hy : Holds y c g) : Holds (x ||| y) c fun b => f b ||| g b :=
  ⟨hx.length, by
    rw [UInt64.toNat_or, hx.toNat, hy.toNat]
    exact digitwise_or.pack_map UInt8.toNat_or c f g⟩

theorem xor (hx : Holds x c f) (hy : Holds y c g) : Holds (x ^^^ y) c fun b => f b ^^^ g b :=
  ⟨hx.length, by
    rw [UInt64.toNat_xor, hx.toNat, hy.toNat]
    exact digitwise_xor.pack_map UInt8.toNat_xor c f g⟩

theorem not (hx : Holds x c f) : Holds (~~~x) c fun b => ~~~f b :=
  ⟨hx.length, by
    have h := pack_map_not c f
    rw [hx.length] at h
    rw [UInt64.toNat_not, hx.toNat, ← h]
    rfl⟩

/-- A subtraction that borrows in no byte. -/
theorem sub (hx : Holds x c f) (hy : Holds y c g) (h : ∀ b, g b ≤ f b) :
    Holds (x - y) c fun b => f b - g b :=
  ⟨hx.length, by
    have hsum := pack_map_sub h c
    have hle : y ≤ x := UInt64.le_iff_toNat_le.mpr (by rw [hx.toNat, hy.toNat]; omega)
    rw [UInt64.toNat_sub_of_le _ _ hle, hx.toNat, hy.toNat]
    omega⟩

theorem eq_zero_iff (hx : Holds x c f) : x = 0 ↔ ∀ b ∈ c, f b = 0 := by
  rw [← pack_map_eq_zero, ← hx.toNat, ← UInt64.toNat_inj]
  rfl

/-- The test for a zero byte, whatever it borrows. -/
theorem zero_byte_iff {ones highs : UInt64} (hx : Holds x c f) (hones : Holds ones c fun _ => 1)
    (hhighs : Holds highs c fun _ => 0x80) :
    (x - ones) &&& ~~~x &&& highs = 0 ↔ ∀ b ∈ c, f b ≠ 0 := by
  have h := pack_zero_byte c f
  rw [← hx.toNat, ← hones.toNat, ← hhighs.toNat, hx.length] at h
  have hlt := ones.toNat_lt
  have hsub : 2 ^ 64 - ones.toNat + x.toNat = x.toNat + 256 ^ 8 - ones.toNat := by omega
  rw [← h, ← UInt64.toNat_inj, UInt64.toNat_and, UInt64.toNat_and, UInt64.toNat_not,
    UInt64.toNat_sub, hsub]
  rfl

end Holds

end TunnelWeaver.Lanes
