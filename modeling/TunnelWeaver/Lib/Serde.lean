import Mathlib

/-! Self-delimiting byte formats: what `take` reads is what `put` wrote, and the bytes after it are
left alone. Formats of products and of ranges of numbers are built from smaller ones. -/

namespace TunnelWeaver.Serde

structure Format (α : Type) where
  put : α → List UInt8
  take : List UInt8 → Option (α × List UInt8)
  take_put : ∀ a rest, take (put a ++ rest) = some (a, rest)

variable {α β : Type}

/-- Trailing bytes are ignored. -/
def Format.decode (F : Format α) (bytes : List UInt8) : Option α := (F.take bytes).map (·.1)

theorem Format.decode_put (F : Format α) (a : α) : F.decode (F.put a) = some a := by
  have h := F.take_put a []
  rw [List.append_nil] at h
  simp [decode, h]

def Format.pair (F : Format α) (G : Format β) : Format (α × β) where
  put x := F.put x.1 ++ G.put x.2
  take bytes := (F.take bytes).bind fun x => (G.take x.2).map fun y => ((x.1, y.1), y.2)
  take_put x rest := by simp [F.take_put, G.take_put]

/-- The values of `F` that stand for values of another type. -/
def Format.via (F : Format α) (read : α → Option β) (write : β → α)
    (h : ∀ b, read (write b) = some b) : Format β where
  put b := F.put (write b)
  take bytes := (F.take bytes).bind fun x => (read x.1).map fun b => (b, x.2)
  take_put b rest := by simp [F.take_put, h]

/-- Exactly `n` bytes. -/
def exact (n : Nat) : Format { l : List UInt8 // l.length = n } where
  put l := l.1
  take bytes := if h : (bytes.take n).length = n then some (⟨bytes.take n, h⟩, bytes.drop n) else none
  take_put l rest := by
    have h : (l.1 ++ rest).take n = l.1 := by simp [← l.2]
    rw [dif_pos (by rw [h, l.2])]
    simp only [h, Option.some.injEq, Prod.mk.injEq, Subtype.eta, true_and]
    simp [← l.2]

/-! ## Variable-length numbers -/

/-- Seven bits a byte, lowest first, in at most `k` bytes. -/
def putVarint : Nat → Nat → List UInt8
  | 0, _ => []
  | k + 1, n =>
    if n < 128 then [UInt8.ofNat n] else UInt8.ofNat (n % 128 + 128) :: putVarint k (n / 128)

def takeVarint : Nat → List UInt8 → Option (Nat × List UInt8)
  | 0, _ | _, [] => none
  | k + 1, b :: bytes =>
    if b.toNat < 128 then some (b.toNat, bytes)
    else (takeVarint k bytes).map fun x => (b.toNat - 128 + 128 * x.1, x.2)

theorem takeVarint_putVarint {j k n : Nat} (hn : n < 128 ^ (j + 1)) (hk : j ≤ k)
    (rest : List UInt8) : takeVarint (k + 1) (putVarint (j + 1) n ++ rest) = some (n, rest) := by
  induction j generalizing k n with
  | zero =>
    have hn : n < 128 := by simpa using hn
    have hbyte : (UInt8.ofNat n).toNat = n := by simp; omega
    simp [putVarint, takeVarint, hn, hbyte]
  | succ j ih =>
    unfold putVarint
    split
    · rename_i hlt
      have hbyte : (UInt8.ofNat n).toNat = n := by simp; omega
      simp [takeVarint, hlt, hbyte]
    · rename_i hge
      obtain ⟨k, rfl⟩ : ∃ k', k = k' + 1 := ⟨k - 1, by omega⟩
      have hbyte : (UInt8.ofNat (n % 128 + 128)).toNat = n % 128 + 128 := by simp; omega
      have hdiv : n / 128 < 128 ^ (j + 1) := by
        rw [Nat.div_lt_iff_lt_mul (by omega)]
        exact hn
      rw [List.cons_append, takeVarint, hbyte, if_neg (by omega), ih hdiv (by omega)]
      simp only [Option.map_some, Option.some.injEq, Prod.mk.injEq, and_true]
      omega

/-- A number below `bound` in at most `k + 1` bytes. -/
def varint (k bound : Nat) (h : bound ≤ 128 ^ (k + 1)) : Format (Fin bound) where
  put n := putVarint (k + 1) n
  take bytes := (takeVarint (k + 1) bytes).bind fun x =>
    if h : x.1 < bound then some (⟨x.1, h⟩, x.2) else none
  take_put n rest := by
    simp [takeVarint_putVarint (Nat.lt_of_lt_of_le n.2 h) Nat.le.refl]

/-- A list of bytes after its length. -/
def counted : Format (List UInt8) where
  put l := putVarint (l.length + 1) l.length ++ l
  take bytes := (takeVarint bytes.length bytes).bind fun x =>
    if x.1 ≤ x.2.length then some (x.2.take x.1, x.2.drop x.1) else none
  take_put l rest := by
    have hpos : 1 ≤ (putVarint (l.length + 1) l.length).length := by
      unfold putVarint
      split <;> simp
    obtain ⟨k, hk⟩ : ∃ k, (putVarint (l.length + 1) l.length ++ l ++ rest).length = k + 1 :=
      ⟨(putVarint (l.length + 1) l.length ++ l ++ rest).length - 1, by
        simp only [List.length_append]; omega⟩
    have hlt : l.length < 128 ^ (l.length + 1) :=
      Nat.lt_trans Nat.lt_two_pow_self (Nat.lt_of_lt_of_le
        (Nat.pow_lt_pow_right (by decide) (Nat.lt_succ_self _)) (Nat.pow_le_pow_left (by decide) _))
    have hle : l.length ≤ k := by
      simp only [List.length_append] at hk
      omega
    rw [hk, List.append_assoc, takeVarint_putVarint hlt hle]
    simp

end TunnelWeaver.Serde
