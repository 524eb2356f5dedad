import TunnelWeaver.Lib.Ascii
import TunnelWeaver.Mux.Frame

/-! The text form of a key (`wire.rs`): `p256:<hex>` or `ed25519:<hex>`, what the relay stores and
shows, and what the client remembers. The digits are read as UTF-8 bytes, two to a byte of the
key. -/

namespace TunnelWeaver.Mux

/-! ## Printing and parsing -/

/-- The algorithm and the bytes of a key. -/
def KeyId.parts : KeyId → String × Bytes
  | .p256 key => ("p256", key.1)
  | .ed25519 key => ("ed25519", key.1)

/-- `Display`. -/
def KeyId.toString (key : KeyId) : String :=
  key.parts.1 ++ ":" ++ String.join (key.parts.2.map hexByte)

/-- Text that is not a key's `Display` form. -/
inductive ParseKeyIdError
  | notAKey
  deriving DecidableEq

def ParseKeyIdError.text : ParseKeyIdError → String
  | .notAKey => "not a key: expected p256:<66 hex> or ed25519:<64 hex>"

/-- One lowercase hexadecimal digit. -/
def nibble (c : UInt8) : Except ParseKeyIdError UInt8 :=
  if 48 ≤ c ∧ c ≤ 57 then .ok (c - 48)
  else if 97 ≤ c ∧ c ≤ 102 then .ok (c - 97 + 10)
  else .error .notAKey

/-- `str::split_once` at one character. -/
def splitOnce (c : Char) (text : String) : Option (String × String) :=
  match text.toList.dropWhile (· ≠ c) with
  | [] => none
  | _ :: rest => some (.ofList (text.toList.takeWhile (· ≠ c)), .ofList rest)

/-- The chunks of `as_chunks::<2>`, without the remainder. -/
def chunks2 : Bytes → List (UInt8 × UInt8)
  | hi :: lo :: rest => (hi, lo) :: chunks2 rest
  | _ => []

/-- Two digits as one byte. -/
def hexPair (pair : UInt8 × UInt8) : Except ParseKeyIdError UInt8 := do
  return (← nibble pair.1) <<< 4 ||| (← nibble pair.2)

/-- `<[u8; n]>::try_from`. -/
def ByteArr.tryFrom (n : Nat) (bytes : Bytes) : Except ParseKeyIdError (ByteArr n) :=
  if h : bytes.length = n then .ok ⟨bytes, h⟩ else .error .notAKey

/-- The bytes as a key of the algorithm. -/
def KeyId.tryFrom (algorithm : String) (bytes : Bytes) : Except ParseKeyIdError KeyId :=
  if algorithm = "p256" then (ByteArr.tryFrom 33 bytes).map .p256
  else if algorithm = "ed25519" then (ByteArr.tryFrom 32 bytes).map .ed25519
  else .error .notAKey

/-- `FromStr`. -/
def KeyId.fromStr (text : String) : Except ParseKeyIdError KeyId :=
  match splitOnce ':' text with
  | none => .error .notAKey
  | some (algorithm, hex) =>
    let hex := hex.toUTF8.toList
    if hex.length % 2 ≠ 0 then .error .notAKey
    else ((chunks2 hex).mapM hexPair).bind (KeyId.tryFrom algorithm)

/-! ## Digits -/

/-- The two digits of a byte, as bytes of the text. -/
def hexDigits (b : UInt8) : Bytes :=
  [Ascii.byte (hexDigit (b.toNat / 16)), Ascii.byte (hexDigit (b.toNat % 16))]

theorem hexDigit_ascii {n : Nat} (h : n < 16) : (hexDigit n).toNat < 128 := by
  have hall : ∀ m < 16, (hexDigit m).toNat < 128 := by decide
  exact hall n h

theorem nibble_eq_ok {c n : UInt8} :
    nibble c = .ok n ↔ n.toNat < 16 ∧ c = Ascii.byte (hexDigit n.toNat) := by
  have hread : ∀ c : Fin 256, ∀ n, nibble (.ofFin c) = .ok n →
      n.toNat < 16 ∧ UInt8.ofFin c = Ascii.byte (hexDigit n.toNat) := by
    intro c n h
    have hall : ∀ c : Fin 256, ((nibble (.ofFin c)).toOption.all fun n =>
        decide (n.toNat < 16 ∧ UInt8.ofFin c = Ascii.byte (hexDigit n.toNat))) = true := by
      decide +kernel
    simpa [h, Except.toOption] using hall c
  have hwritten : ∀ n : Fin 16, nibble (Ascii.byte (hexDigit n)) = .ok (.ofNat n) := by
    decide +kernel
  constructor
  · exact hread c.toFin n
  · rintro ⟨hn, rfl⟩
    have hn' := hwritten ⟨n.toNat, hn⟩
    rwa [UInt8.ofNat_toNat] at hn'

/-- The two halves of a byte. -/
theorem halves_eq_iff {b hi lo : UInt8} (hhi : hi.toNat < 16) (hlo : lo.toNat < 16) :
    hi <<< 4 ||| lo = b ↔ hi.toNat = b.toNat / 16 ∧ lo.toNat = b.toNat % 16 := by
  have hsum : (hi <<< 4 ||| lo).toNat = 16 * hi.toNat + lo.toNat := by
    have hall : ∀ hi lo : Fin 16,
        (UInt8.ofNat hi <<< 4 ||| UInt8.ofNat lo).toNat = 16 * hi.val + lo.val := by
      decide +kernel
    have h := hall ⟨hi.toNat, hhi⟩ ⟨lo.toNat, hlo⟩
    rwa [UInt8.ofNat_toNat, UInt8.ofNat_toNat] at h
  rw [← UInt8.toNat_inj, hsum]
  omega

theorem hexPair_eq_ok_iff {hi lo b : UInt8} :
    hexPair (hi, lo) = .ok b ↔
      ∃ x y, nibble hi = .ok x ∧ nibble lo = .ok y ∧ x <<< 4 ||| y = b := by
  unfold hexPair
  cases nibble hi with
  | error e => simp [Bind.bind, Except.bind]
  | ok x =>
    cases nibble lo with
    | error e => simp [Bind.bind, Except.bind]
    | ok y => simp [Bind.bind, Except.bind, Pure.pure, Except.pure]

theorem hexPair_eq_ok {hi lo b : UInt8} :
    hexPair (hi, lo) = .ok b ↔ [hi, lo] = hexDigits b := by
  have hb : b.toNat < 256 := b.toNat_lt
  simp only [hexPair_eq_ok_iff, hexDigits, List.cons.injEq, and_true]
  constructor
  · rintro ⟨x, y, hx, hy, h⟩
    obtain ⟨hxlt, rfl⟩ := nibble_eq_ok.mp hx
    obtain ⟨hylt, rfl⟩ := nibble_eq_ok.mp hy
    obtain ⟨hxb, hyb⟩ := (halves_eq_iff hxlt hylt).mp h
    exact ⟨by rw [← hxb], by rw [← hyb]⟩
  · rintro ⟨rfl, rfl⟩
    have hx : (UInt8.ofNat (b.toNat / 16)).toNat = b.toNat / 16 :=
      UInt8.toNat_ofNat_of_lt' (by show _ < 256; omega)
    have hy : (UInt8.ofNat (b.toNat % 16)).toNat = b.toNat % 16 :=
      UInt8.toNat_ofNat_of_lt' (by show _ < 256; omega)
    exact ⟨_, _, nibble_eq_ok.mpr ⟨by omega, by rw [hx]⟩, nibble_eq_ok.mpr ⟨by omega, by rw [hy]⟩,
      (halves_eq_iff (by omega) (by omega)).mpr ⟨hx, hy⟩⟩

/-- Reading an even number of digits is the inverse of writing bytes. -/
theorem mapM_chunks2 {hex bytes : Bytes} (heven : hex.length % 2 = 0) :
    (chunks2 hex).mapM hexPair = .ok bytes ↔ hex = bytes.flatMap hexDigits := by
  fun_induction chunks2 hex generalizing bytes with
  | case1 hi lo rest ih =>
    have heven' : rest.length % 2 = 0 := by
      simp only [List.length_cons] at heven
      omega
    cases bytes with
    | nil =>
      rw [List.mapM_cons]
      cases hexPair (hi, lo) <;>
        cases (chunks2 rest).mapM hexPair <;>
        simp [Bind.bind, Except.bind, Pure.pure, Except.pure]
    | cons b bytes =>
      have hcons : (hi :: lo :: rest = (b :: bytes).flatMap hexDigits) ↔
          [hi, lo] = hexDigits b ∧ rest = bytes.flatMap hexDigits := by
        simp [hexDigits, and_assoc]
      rw [hcons, ← hexPair_eq_ok, ← ih heven', List.mapM_cons]
      cases hexPair (hi, lo) with
      | error e => simp [Bind.bind, Except.bind]
      | ok x =>
        cases (chunks2 rest).mapM hexPair <;>
          simp [Bind.bind, Except.bind, Pure.pure, Except.pure]
  | case2 hex hshort =>
    have hnil : hex = [] := by
      cases hex with
      | nil => rfl
      | cons x rest =>
        cases rest with
        | nil => simp at heven
        | cons y rest => exact absurd rfl (hshort x y rest)
    subst hnil
    cases bytes with
    | nil => simp [Pure.pure, Except.pure]
    | cons b bytes => simp [Pure.pure, Except.pure, hexDigits]

/-! ## The text of a key -/

/-- The bytes of a printed body. -/
theorem toUTF8_join_hexByte (bytes : Bytes) :
    (String.join (bytes.map hexByte)).toUTF8.toList = bytes.flatMap hexDigits := by
  have hlist : (String.join (bytes.map hexByte)).toList =
      bytes.flatMap fun b => [hexDigit (b.toNat / 16), hexDigit (b.toNat % 16)] := by
    rw [String.toList_join, List.flatMap_map]
    simp only [hexByte, String.toList_ofList]
  rw [Ascii.toList_toUTF8, hlist, List.map_flatMap]
  · rfl
  · intro c hc
    rw [hlist, List.mem_flatMap] at hc
    obtain ⟨b, -, hc⟩ := hc
    have hb : b.toNat < 256 := b.toNat_lt
    rcases List.mem_pair.mp hc with rfl | rfl
    · exact hexDigit_ascii (by omega)
    · exact hexDigit_ascii (by omega)

theorem toUTF8_toList_inj {s t : String} : s.toUTF8.toList = t.toUTF8.toList ↔ s = t := by
  constructor
  · intro h
    rw [Ascii.toList_eq, Ascii.toList_eq, Array.toList_inj] at h
    exact String.toByteArray_inj.mp (ByteArray.ext h)
  · rintro rfl
    rfl

/-- Splitting at the first of a character undoes joining with it. -/
theorem splitOnce_eq_some {text a h : String} :
    splitOnce ':' text = some (a, h) ↔ ':' ∉ a.toList ∧ a ++ ":" ++ h = text := by
  have hsplit := List.takeWhile_append_dropWhile (p := fun c => decide (c ≠ ':')) (l := text.toList)
  unfold splitOnce
  constructor
  · intro heq
    split at heq
    · cases heq
    · rename_i c rest hdrop
      cases heq
      have hc : c = ':' := by
        have hhead := List.head?_dropWhile_not (fun c => decide (c ≠ ':')) text.toList
        rw [hdrop] at hhead
        simpa using hhead
      subst hc
      refine ⟨fun hmem => ?_, ?_⟩
      · rw [String.toList_ofList] at hmem
        simpa using List.mem_takeWhile_imp hmem
      · rw [hdrop] at hsplit
        rw [← String.toList_inj, ← hsplit, String.toList_append, String.toList_append,
          String.toList_ofList, String.toList_ofList, hsplit]
        simpa using hsplit
  · rintro ⟨hnot, rfl⟩
    have hall : ∀ c ∈ a.toList, decide (c ≠ ':') = true := by
      intro c hc
      exact decide_eq_true fun heq => hnot (heq ▸ hc)
    have hlist : (a ++ ":" ++ h).toList = a.toList ++ ':' :: h.toList := by simp
    rw [hlist, List.dropWhile_append_of_pos hall, List.takeWhile_append_of_pos hall]
    simp

theorem ByteArr.tryFrom_eq_ok {n : Nat} {bytes : Bytes} {key : ByteArr n} :
    ByteArr.tryFrom n bytes = .ok key ↔ key.1 = bytes := by
  unfold ByteArr.tryFrom
  constructor
  · intro h
    split at h
    · cases h
      rfl
    · cases h
  · rintro rfl
    exact dif_pos key.2

/-- The algorithm decides the length. -/
theorem KeyId.tryFrom_eq_ok {algorithm : String} {bytes : Bytes} {key : KeyId} :
    KeyId.tryFrom algorithm bytes = .ok key ↔ key.parts = (algorithm, bytes) := by
  have hmap : ∀ {n : Nat} {f : ByteArr n → KeyId}, (ByteArr.tryFrom n bytes).map f = .ok key ↔
      ∃ arr : ByteArr n, arr.1 = bytes ∧ f arr = key := by
    intro n f
    simp only [← ByteArr.tryFrom_eq_ok]
    cases ByteArr.tryFrom n bytes <;> simp [Except.map]
  unfold KeyId.tryFrom
  split
  · rename_i halg
    subst halg
    rw [hmap]
    cases key with
    | ed25519 key => simp [KeyId.parts]
    | p256 key => simp [KeyId.parts]
  · rename_i hp
    split
    · rename_i halg
      subst halg
      rw [hmap]
      cases key with
      | ed25519 key => simp [KeyId.parts]
      | p256 key => simp [KeyId.parts]
    · rename_i he
      cases key with
      | ed25519 key => simp [KeyId.parts, Ne.symm he]
      | p256 key => simp [KeyId.parts, Ne.symm hp]

/-- What is parsed is the algorithm, a colon and the digits of the key. -/
theorem fromStr_eq_ok {text : String} {key : KeyId} :
    KeyId.fromStr text = .ok key ↔ ∃ hex, splitOnce ':' text = some (key.parts.1, hex) ∧
      hex.toUTF8.toList = key.parts.2.flatMap hexDigits := by
  have hdigits : ∀ bytes : Bytes, (bytes.flatMap hexDigits).length % 2 = 0 := by
    intro bytes
    simp [List.length_flatMap, hexDigits]
  unfold KeyId.fromStr
  cases hsplit : splitOnce ':' text with
  | none => simp
  | some p =>
    obtain ⟨algorithm, hex⟩ := p
    dsimp only
    split
    · rename_i hodd
      constructor
      · intro h
        cases h
      · rintro ⟨hex', h, hbytes⟩
        cases h
        rw [hbytes] at hodd
        exact absurd (hdigits _) hodd
    · rename_i heven
      have hread := @mapM_chunks2 _ key.parts.2 (not_not.mp heven)
      constructor
      · intro h
        cases hbytes : (chunks2 hex.toUTF8.toList).mapM hexPair with
        | error e =>
          rw [hbytes] at h
          cases h
        | ok bytes =>
          rw [hbytes] at h
          have hparts := KeyId.tryFrom_eq_ok.mp h
          rw [hparts] at hread
          exact ⟨hex, by rw [hparts], by rw [hparts]; exact hread.mp hbytes⟩
      · rintro ⟨hex', h, hbytes⟩
        cases h
        rw [hread.mpr hbytes]
        exact KeyId.tryFrom_eq_ok.mpr rfl

/-- Every key is read back from its text, and the text of a key is the only one it is read from. -/
theorem keyId_text_round_trips :
    (∀ key : KeyId, KeyId.fromStr key.toString = .ok key) ∧
      (∀ text key, KeyId.fromStr text = .ok key → key.toString = text) ∧
      ∀ key : KeyId, ∃! text, KeyId.fromStr text = .ok key := by
  have hiff : ∀ text key, KeyId.fromStr text = .ok key ↔ key.toString = text := by
    intro text key
    rw [fromStr_eq_ok]
    have hnot : ':' ∉ key.parts.1.toList := by
      cases key with
      | ed25519 key => exact (by decide : ':' ∉ "ed25519".toList)
      | p256 key => exact (by decide : ':' ∉ "p256".toList)
    constructor
    · rintro ⟨hex, hsplit, hbytes⟩
      rw [← toUTF8_join_hexByte, toUTF8_toList_inj] at hbytes
      rw [KeyId.toString, ← hbytes]
      exact (splitOnce_eq_some.mp hsplit).2
    · intro htext
      exact ⟨_, splitOnce_eq_some.mpr ⟨hnot, htext⟩, toUTF8_join_hexByte _⟩
  refine ⟨fun key => (hiff _ key).mpr rfl, fun text key => (hiff text key).mp, fun key => ?_⟩
  exact ⟨key.toString, (hiff _ key).mpr rfl, fun text h => ((hiff text key).mp h).symm⟩

end TunnelWeaver.Mux
