import Mathlib.Data.List.Basic
import Mathlib.Data.Nat.Basic

/-! Strings of printable ASCII, and their bytes. -/

namespace TunnelWeaver.Ascii

/-! ## Bytes -/

theorem toList_loop (bs : ByteArray) (i : Nat) (acc : List UInt8) :
    ByteArray.toList.loop bs i acc = acc.reverse ++ bs.data.toList.drop i := by
  fun_induction ByteArray.toList.loop bs i acc with
  | case1 i acc h ih =>
    have hlt : i < bs.data.toList.length := by simpa using h
    rw [ih, List.drop_eq_getElem_cons hlt]
    simp [ByteArray.get!, h]
  | case2 i acc h =>
    have hle : bs.data.toList.length ≤ i := by simpa using h
    rw [List.drop_eq_nil_of_le hle, List.append_nil]

theorem toList_eq (bs : ByteArray) : bs.toList = bs.data.toList := by
  rw [ByteArray.toList, toList_loop]
  rfl

variable {c : Char} {s t : String}

/-- The byte of an ASCII character. -/
def byte (c : Char) : UInt8 := c.val.toUInt8

theorem utf8Size_eq_one (h : c.toNat < 128) : c.utf8Size = 1 := by
  rw [Char.utf8Size_eq_one_iff, UInt32.le_iff_toNat_le]
  exact Nat.le_of_lt_succ h

/-- The bytes of an ASCII string. -/
theorem toList_toUTF8 (h : ∀ c ∈ s.toList, c.toNat < 128) :
    s.toUTF8.toList = s.toList.map byte := by
  have hencode : ∀ l : List Char, (∀ c ∈ l, c.toNat < 128) →
      l.flatMap String.utf8EncodeChar = l.map byte := by
    intro l hl
    induction l with
    | nil => rfl
    | cons c l ih =>
      have hsingle := String.utf8EncodeChar_eq_singleton (utf8Size_eq_one (hl c List.mem_cons_self))
      rw [List.flatMap_cons, hsingle, ih fun d hd => hl d (List.mem_cons_of_mem c hd)]
      rfl
  rw [toList_eq, ← hencode s.toList h]
  conv_lhs => rw [← String.ofList_toList (s := s)]
  exact List.toList_data_toByteArray

theorem byte_toNat (h : c.toNat < 128) : (byte c).toNat = c.toNat := by
  show c.val.toUInt8.toNat = c.toNat
  rw [UInt32.toNat_toUInt8]
  exact Nat.mod_eq_of_lt (Nat.lt_trans h (by decide))

theorem toNat_ofNat {n : Nat} (h : n < 128) : (Char.ofNat n).toNat = n := by
  have hvalid : n.isValidChar := .inl (Nat.lt_trans h (by decide))
  rw [Char.ofNat, dif_pos hvalid]
  rfl

/-- The byte of an ASCII character is its own encoding. -/
theorem fromUTF8?_byte (h : c.toNat < 128) :
    String.fromUTF8? (ByteArray.mk [byte c].toArray) = some (.ofList [c]) := by
  have hbytes : ByteArray.mk [byte c].toArray = (String.ofList [c]).toUTF8 := by
    apply ByteArray.ext
    apply Array.toList_inj.mp
    rw [← toList_eq (String.ofList [c]).toUTF8, toList_toUTF8 (by simpa using h)]
    simp
  have hvalid : (String.ofList [c]).toUTF8.IsValidUTF8 := (String.ofList [c]).isValidUTF8
  rw [hbytes, String.fromUTF8?, dif_pos hvalid]
  rfl

/-! ## Printable text -/

/-- Visible characters and spaces. -/
def Printable (s : String) : Prop := ∀ c ∈ s.toList, 32 ≤ c.toNat ∧ c.toNat < 127

instance : Decidable (Printable s) := List.decidableBAll (fun c : Char => 32 ≤ c.toNat ∧ c.toNat < 127) s.toList

theorem Printable.ascii (h : Printable s) : ∀ c ∈ s.toList, c.toNat < 128 :=
  fun c hc => Nat.lt_succ_of_lt (h c hc).2

theorem Printable.append (hs : Printable s) (ht : Printable t) : Printable (s ++ t) := by
  intro c hc
  rw [String.toList_append, List.mem_append] at hc
  exact hc.elim (hs c) (ht c)

theorem Printable.intercalate {sep : String} (hsep : Printable sep) {parts : List String}
    (h : ∀ part ∈ parts, Printable part) : Printable (sep.intercalate parts) := by
  induction parts with
  | nil => simp [Printable]
  | cons part parts ih =>
    have hpart := h part List.mem_cons_self
    have hrest := ih fun other hother => h other (List.mem_cons_of_mem part hother)
    cases parts with
    | nil => simpa using hpart
    | cons next parts =>
      rw [String.intercalate_cons_cons]
      exact (hpart.append hsep).append hrest

/-- The bytes of printable text. -/
theorem Printable.byte (h : Printable s) {b : UInt8} (hb : b ∈ s.toUTF8.toList) :
    32 ≤ b.toNat ∧ b.toNat < 127 := by
  rw [toList_toUTF8 h.ascii] at hb
  obtain ⟨c, hc, rfl⟩ := List.mem_map.mp hb
  rw [byte_toNat (h.ascii c hc)]
  exact h c hc

theorem printable_digitChar (n : Nat) :
    32 ≤ (Nat.digitChar n).toNat ∧ (Nat.digitChar n).toNat < 127 := by
  by_cases h : n < 16
  · have hall : ∀ m < 16, 32 ≤ (Nat.digitChar m).toNat ∧ (Nat.digitChar m).toNat < 127 := by decide
    exact hall n h
  · have hother : Nat.digitChar n = '*' := by
      unfold Nat.digitChar
      repeat rw [if_neg (by omega)]
    rw [hother]
    decide

/-- The digits of a number. -/
theorem printable_toDigits {base : Nat} (hbase : 1 < base) (n : Nat) :
    Printable (.ofList (Nat.toDigits base n)) := by
  intro c hc
  rw [String.toList_ofList] at hc
  induction n using Nat.strongRecOn with
  | ind n ih =>
    rw [Nat.toDigits_eq_if hbase] at hc
    split at hc
    · rw [List.mem_singleton.mp hc]
      exact printable_digitChar n
    · rcases List.mem_append.mp hc with hc | hc
      · exact ih (n / base) (Nat.div_lt_self (by omega) hbase) hc
      · rw [List.mem_singleton.mp hc]
        exact printable_digitChar _

end TunnelWeaver.Ascii
