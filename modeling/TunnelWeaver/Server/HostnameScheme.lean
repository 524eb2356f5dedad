import TunnelWeaver.Client.ProxyHandler
import TunnelWeaver.Server.Hostnames
import TunnelWeaver.Server.ManagedCerts

/-! The flat hostname `<person>-<machine>-<service>.<root>` as each part of the program reads it: the
store that builds it, the DNS responder, the catalog of certificates and the client. -/

namespace TunnelWeaver.Server

open Client (afterDash resolveService serviceOf)
open Proto (ControlHead isValidServiceName serviceNameMax toAsciiLowercase)
open Proto.Policy (isWhitespace trim)

/-- What a name is in the tunnel zone (`dns/mod.rs`). -/
inductive ZoneName where
  | apex
  | host
  | notAHost
  | outside
  deriving DecidableEq

/-- `TunnelDomains::zone_name`, at a normalized name. -/
def Domains.zoneName (d : Domains) (name : String) : ZoneName :=
  let tunnel := normalizeDomain d.tunnelDomain
  if name == tunnel then .apex
  else match stripSuffix ("." ++ tunnel) name with
    | some label =>
      if label ≠ "" && !label.toList.contains '.' then
        if label.toList.all fun c => c.isAlphanum || c == '-' then .host else .notAHost
      else .outside
    | none => .outside

/-- What stands before the first dot. -/
def firstLabel (host : String) : String := String.ofList (host.toList.takeWhile (· ≠ '.'))

/-- Letters, digits and dashes, no dash at either end, at most 63 bytes. -/
def isDnsLabel (label : String) : Bool :=
  label ≠ "" && label.utf8ByteSize ≤ 63 &&
    (label.toList.all fun c => c.isAlphanum || c == '-') &&
    label.toList.head? ≠ some '-' && label.toList.getLast? ≠ some '-'

/-! ## Lists of characters -/

section
variable {α : Type} [BEq α] [LawfulBEq α]

theorem isPrefixOf?_append (l l' : List α) : l.isPrefixOf? (l ++ l') = some l' := by
  induction l with
  | nil => simp [List.isPrefixOf?]
  | cons c l ih => simp [List.isPrefixOf?, ih]

theorem isSuffixOf?_append (l l' : List α) : l'.isSuffixOf? (l ++ l') = some l := by
  rw [List.isSuffixOf?, List.reverse_append, isPrefixOf?_append, Option.map_some,
    List.reverse_reverse]

theorem append_of_isPrefixOf? {l l' rest : List α} (h : l.isPrefixOf? l' = some rest) :
    l' = l ++ rest := by
  induction l generalizing l' with
  | nil =>
    simp only [List.isPrefixOf?, Option.some.injEq] at h
    exact h
  | cons c l ih =>
    cases l' with
    | nil => simp [List.isPrefixOf?] at h
    | cons c' l' =>
      simp only [List.isPrefixOf?] at h
      split at h
      · rename_i hc
        rw [ih h, eq_of_beq hc]
        rfl
      · cases h

omit [BEq α] [LawfulBEq α] in
theorem mem_intercalate {sep : List α} {ls : List (List α)} {a : α}
    (h : a ∈ sep.intercalate ls) : a ∈ sep ∨ ∃ l ∈ ls, a ∈ l := by
  induction ls with
  | nil => cases h
  | cons l ls ih =>
    cases ls with
    | nil =>
      rw [List.intercalate_singleton] at h
      exact .inr ⟨l, List.mem_cons_self, h⟩
    | cons l' ls =>
      rw [List.intercalate_cons_cons] at h
      rcases List.mem_append.mp h with h | h
      · rcases List.mem_append.mp h with h | h
        · exact .inr ⟨l, List.mem_cons_self, h⟩
        · exact .inl h
      · rcases ih h with h | ⟨l'', hmem, h⟩
        · exact .inl h
        · exact .inr ⟨l'', List.mem_cons_of_mem _ hmem, h⟩

end

theorem stripSuffix_append (front back : String) :
    stripSuffix back (front ++ back) = some front := by
  rw [stripSuffix, String.toList_append, isSuffixOf?_append, Option.map_some, String.ofList_toList]

/-! ## Names -/

/-- A character of a name. -/
def isPlain (c : Char) : Bool := c.isLower || c.isDigit

theorem toNat_of_isPlain {c : Char} (h : isPlain c = true) :
    97 ≤ c.toNat ∧ c.toNat ≤ 122 ∨ 48 ≤ c.toNat ∧ c.toNat ≤ 57 := by
  rcases Bool.or_eq_true_iff.mp h with h | h
  · simp only [Char.isLower, UInt32.le_iff_toNat_le, ge_iff_le, Bool.and_eq_true,
      decide_eq_true_eq] at h
    exact .inl h
  · simp only [Char.isDigit, UInt32.le_iff_toNat_le, ge_iff_le, Bool.and_eq_true,
      decide_eq_true_eq] at h
    exact .inr h

/-- The characters of a label, and those that stand apart from them. -/
theorem ne_of_isPlain {c c' : Char} (h : isPlain c = true) (hc : isPlain c' = false) : c ≠ c' := by
  rintro rfl
  rw [h] at hc
  cases hc

theorem toLower_of_isPlain {c : Char} (h : isPlain c = true) : c.toLower = c := by
  rw [Char.toLower, dif_neg]
  simp only [ge_iff_le, UInt32.le_iff_toNat_le]
  rintro ⟨h₁, h₂⟩
  have h₁ : 65 ≤ c.toNat := h₁
  have h₂ : c.toNat ≤ 90 := h₂
  have hc := toNat_of_isPlain h
  omega

theorem isWhitespace_of_isPlain {c : Char} (h : isPlain c = true) : isWhitespace c = false := by
  have hc := toNat_of_isPlain h
  unfold isWhitespace
  simp
  omega

theorem isAlphanum_of_isPlain {c : Char} (h : isPlain c = true) : c.isAlphanum = true := by
  unfold isPlain at h
  simp only [Char.isAlphanum, Char.isAlpha]
  rcases Bool.or_eq_true_iff.mp h with h | h <;> simp [h]

/-- A domain name has no blanks. -/
def IsDomain (s : String) : Prop := ∀ c ∈ s.toList, isWhitespace c = false

/-- Letters in lower case and digits, some. -/
structure IsName (name : String) (max : Nat) : Prop where
  nonempty : name.toList ≠ []
  size : name.utf8ByteSize ≤ max
  plain : ∀ c ∈ name.toList, isPlain c = true

theorem isName_of_isValid {name : String} (h : isValidPersonOrMachine name = true) :
    IsName name personMachineMax := by
  simp only [isValidPersonOrMachine, Bool.and_eq_true, decide_eq_true_eq, List.all_eq_true] at h
  obtain ⟨⟨hne, hsize⟩, hplain⟩ := h
  exact ⟨fun hnil => hne (String.toList_inj.mp (hnil.trans rfl)), hsize, hplain⟩

theorem IsName.toLower {name : String} {max : Nat} (N : IsName name max) :
    toAsciiLowercase name = name := by
  apply String.toList_inj.mp
  rw [toAsciiLowercase, String.toList_map]
  exact (List.map_congr_left fun c hc => toLower_of_isPlain (N.plain c hc)).trans (List.map_id _)

/-- Names with single dashes between them. -/
structure IsService (name : String) : Prop where
  nonempty : name.toList ≠ []
  size : name.utf8ByteSize ≤ serviceNameMax
  plain : ∀ c ∈ name.toList, isPlain c = true ∨ c = '-'
  last : name.toList.getLast? ≠ some '-'

theorem isService_of_isValid {name : String} (h : isValidServiceName name = true) :
    IsService name := by
  simp only [isValidServiceName, Bool.and_eq_true, decide_eq_true_eq, List.all_eq_true] at h
  obtain ⟨hsize, hruns⟩ := h
  have hrun : ∀ run ∈ name.toList.splitOn '-', run ≠ [] ∧ ∀ c ∈ run, isPlain c = true := by
    intro run hmem
    have h := hruns run hmem
    simp only [Bool.not_eq_true', List.isEmpty_eq_false_iff] at h
    exact h
  refine ⟨fun hnil => ?_, hsize, fun c hc => ?_, fun hlast => ?_⟩
  · rw [hnil] at hrun
    exact (hrun [] (by simp)).1 rfl
  · rw [← @List.intercalate_splitOn _ name.toList _ _ '-'] at hc
    rcases mem_intercalate hc with hc | ⟨run, hmem, hc⟩
    · exact .inr (List.mem_singleton.mp hc)
    · exact .inl ((hrun run hmem).2 c hc)
  · obtain ⟨front, hfront⟩ := List.getLast?_eq_some_iff.mp hlast
    have hsplit : name.toList.splitOn '-' = front.splitOn '-' ++ [[]] := by
      rw [hfront, List.splitOn_append_cons_self]
      rfl
    exact (hrun [] (by rw [hsplit]; simp)).1 rfl

/-! ## The label -/

def hostLabel (person machine service : String) : String :=
  person ++ "-" ++ machine ++ "-" ++ service

theorem toList_hostLabel (person machine service : String) :
    (hostLabel person machine service).toList =
      person.toList ++ '-' :: (machine.toList ++ '-' :: service.toList) := by
  simp [hostLabel, String.toList_append]

/-- A name ends at its first dash. -/
theorem eq_of_append_dash {l l' rest rest' : List Char} (hl : ∀ c ∈ l, isPlain c = true)
    (hl' : ∀ c ∈ l', isPlain c = true) (h : l ++ '-' :: rest = l' ++ '-' :: rest') :
    l = l' ∧ rest = rest' := by
  induction l generalizing l' with
  | nil =>
    cases l' with
    | nil => exact ⟨rfl, (List.cons.inj h).2⟩
    | cons c l' => exact absurd (List.cons.inj h).1.symm (ne_of_isPlain (hl' c List.mem_cons_self) rfl)
  | cons c l ih =>
    cases l' with
    | nil => exact absurd (List.cons.inj h).1 (ne_of_isPlain (hl c List.mem_cons_self) rfl)
    | cons c' l' =>
      obtain ⟨hc, h⟩ := List.cons.inj h
      obtain ⟨heq, hrest⟩ := ih (fun c hmem => hl c (List.mem_cons_of_mem _ hmem))
        (fun c hmem => hl' c (List.mem_cons_of_mem _ hmem)) h
      exact ⟨by rw [hc, heq], hrest⟩

/-- Three names that make a hostname. -/
structure LabelNames (person machine service : String) : Prop where
  person : IsName person personMachineMax
  machine : IsName machine personMachineMax
  service : IsService service

namespace LabelNames

variable {person machine service : String} (N : LabelNames person machine service)
include N

theorem flatHostname_eq (root : String) : flatHostname person machine service root =
    hostLabel person machine service ++ "." ++ toAsciiLowercase root := by
  have hservice : toAsciiLowercase service = service := by
    apply String.toList_inj.mp
    rw [toAsciiLowercase, String.toList_map]
    refine (List.map_congr_left fun c hc => ?_).trans (List.map_id _)
    rcases N.service.plain c hc with hc | rfl
    · exact toLower_of_isPlain hc
    · rfl
  rw [flatHostname, N.person.toLower, N.machine.toLower, hservice]
  rfl

theorem mem_hostLabel {c : Char} (hc : c ∈ (hostLabel person machine service).toList) :
    isPlain c = true ∨ c = '-' := by
  rw [toList_hostLabel] at hc
  simp only [List.mem_append, List.mem_cons] at hc
  rcases hc with hc | hc | hc | hc | hc
  · exact .inl (N.person.plain c hc)
  · exact .inr hc
  · exact .inl (N.machine.plain c hc)
  · exact .inr hc
  · exact N.service.plain c hc

/-- What is neither part of a name nor a dash does not stand in the label. -/
theorem not_mem_hostLabel {c : Char} (hplain : isPlain c = false) (hdash : c ≠ '-') :
    c ∉ (hostLabel person machine service).toList := by
  intro hc
  rcases N.mem_hostLabel hc with h | h
  · rw [hplain] at h
    cases h
  · exact hdash h

theorem size_hostLabel : (hostLabel person machine service).utf8ByteSize ≤ 63 := by
  have hp := N.person.size
  have hm := N.machine.size
  have hs := N.service.size
  have hdash : "-".utf8ByteSize = 1 := by decide
  simp only [personMachineMax, serviceNameMax] at hp hm hs
  simp only [hostLabel, String.utf8ByteSize_append, hdash]
  omega

theorem hostLabel_chars : ((hostLabel person machine service).toList.all
    fun c => c.isAlphanum || c == '-') = true := by
  refine List.all_eq_true.mpr fun c hc => ?_
  rcases N.mem_hostLabel hc with h | rfl
  · rw [isAlphanum_of_isPlain h]
    rfl
  · rfl

omit N in
theorem hostLabel_ne : hostLabel person machine service ≠ "" := by
  intro h
  have hnil := toList_hostLabel person machine service
  rw [h] at hnil
  simp at hnil

theorem toAsciiLowercase_hostLabel :
    toAsciiLowercase (hostLabel person machine service) = hostLabel person machine service := by
  apply String.toList_inj.mp
  rw [toAsciiLowercase, String.toList_map]
  refine (List.map_congr_left fun c hc => ?_).trans (List.map_id _)
  rcases N.mem_hostLabel hc with h | rfl
  · exact toLower_of_isPlain h
  · rfl

theorem isDnsLabel_hostLabel : isDnsLabel (hostLabel person machine service) = true := by
  have hhead : (hostLabel person machine service).toList.head? ≠ some '-' := by
    obtain ⟨c, rest, hcons⟩ := List.exists_cons_of_ne_nil N.person.nonempty
    rw [toList_hostLabel, hcons]
    intro h
    have hc : c = '-' := Option.some.inj h
    exact ne_of_isPlain (N.person.plain c (by rw [hcons]; exact List.mem_cons_self)) rfl hc
  have hlast : (hostLabel person machine service).toList.getLast? ≠ some '-' := by
    have h : (hostLabel person machine service).toList.getLast? = service.toList.getLast? := by
      rw [toList_hostLabel, List.getLast?_append_of_ne_nil _ (List.cons_ne_nil _ _),
        List.getLast?_cons_of_ne_nil (by simp), List.getLast?_append_of_ne_nil _
        (List.cons_ne_nil _ _), List.getLast?_cons_of_ne_nil N.service.nonempty]
    rw [h]
    exact N.service.last
  simp only [isDnsLabel, hostLabel_ne, N.size_hostLabel, N.hostLabel_chars, hhead, hlast, ne_eq,
    not_false_eq_true, decide_true, Bool.and_true]

/-- The names can be read off a label. -/
theorem hostLabel_inj {person' machine' service' : String} (N' : LabelNames person' machine' service')
    (h : hostLabel person machine service = hostLabel person' machine' service') :
    person = person' ∧ machine = machine' ∧ service = service' := by
  have hlist := congrArg String.toList h
  rw [toList_hostLabel, toList_hostLabel] at hlist
  obtain ⟨hp, hrest⟩ := eq_of_append_dash N.person.plain N'.person.plain hlist
  obtain ⟨hm, hs⟩ := eq_of_append_dash N.machine.plain N'.machine.plain hrest
  exact ⟨String.toList_inj.mp hp, String.toList_inj.mp hm, String.toList_inj.mp hs⟩

theorem isDomain_hostLabel : IsDomain (hostLabel person machine service) := by
  intro c hc
  rcases N.mem_hostLabel hc with h | rfl
  · exact isWhitespace_of_isPlain h
  · rfl

end LabelNames

/-! ## Domains -/

theorem firstLabel_append {front : String} (hfront : '.' ∉ front.toList) (rest : String) :
    firstLabel (front ++ "." ++ rest) = front := by
  have hlist : (front ++ "." ++ rest).toList = front.toList ++ '.' :: rest.toList := by
    simp [String.toList_append]
  rw [firstLabel, hlist, List.takeWhile_append_of_pos, List.takeWhile_cons_of_neg (by decide),
    List.append_nil, String.ofList_toList]
  intro c hc
  rw [decide_eq_true_eq]
  rintro rfl
  exact hfront hc

/-- Only a capital letter is changed, to one that stands 32 behind it. -/
theorem toLower_cases (c : Char) :
    c.toLower = c ∨ 65 ≤ c.toNat ∧ c.toNat ≤ 90 ∧ c.toLower.toNat = c.toNat + 32 := by
  by_cases h : c.val ≥ 'A'.val ∧ c.val ≤ 'Z'.val
  · have h₁ : 65 ≤ c.toNat := UInt32.le_iff_toNat_le.mp h.1
    have h₂ : c.toNat ≤ 90 := UInt32.le_iff_toNat_le.mp h.2
    have hlow : c.toLower.val = c.val + 32 := by
      rw [Char.toLower, dif_pos h]
      rfl
    refine .inr ⟨h₁, h₂, ?_⟩
    have hval : c.val.toNat ≤ 90 := h₂
    rw [Char.toNat, hlow, UInt32.toNat_add]
    simp only [UInt32.reduceToNat, Char.toNat]
    omega
  · left
    rw [Char.toLower, dif_neg h]

theorem toLower_eq_iff {c c' : Char} (hc : c'.toNat < 65) : c.toLower = c' ↔ c = c' := by
  constructor
  · intro h
    rcases toLower_cases c with hsame | ⟨h₁, h₂, hlow⟩
    · exact hsame.symm.trans h
    · rw [h] at hlow
      omega
  · intro h
    rcases toLower_cases c with hsame | ⟨h₁, h₂, hlow⟩
    · exact hsame.trans h
    · rw [h] at h₁
      omega

theorem isWhitespace_toLower (c : Char) : isWhitespace c.toLower = isWhitespace c := by
  rcases toLower_cases c with hsame | ⟨h₁, h₂, hlow⟩
  · rw [hsame]
  · have hnot (c : Char) (h : 65 ≤ c.toNat) (h' : c.toNat ≤ 122) : isWhitespace c = false := by
      unfold isWhitespace
      simp
      omega
    rw [hnot c h₁ (by omega), hnot c.toLower (by omega) (by omega)]

theorem toAsciiLowercase_ofList (l : List Char) :
    toAsciiLowercase (String.ofList l) = String.ofList (l.map Char.toLower) := by
  apply String.toList_inj.mp
  rw [toAsciiLowercase, String.toList_map, String.toList_ofList, String.toList_ofList]

theorem trim_of_isDomain {l : List Char} (h : ∀ c ∈ l, isWhitespace c = false) : trim l = l := by
  have hdrop (l : List Char) (h : ∀ c ∈ l, isWhitespace c = false) :
      l.dropWhile isWhitespace = l := by
    cases l with
    | nil => rfl
    | cons c l =>
      rw [List.dropWhile_cons_of_neg]
      rw [h c List.mem_cons_self]
      exact Bool.false_ne_true
  rw [trim, hdrop l h, hdrop l.reverse fun c hc => h c (List.mem_reverse.mp hc),
    List.reverse_reverse]

theorem toList_normalizeDomain {s : String} (h : IsDomain s) :
    (normalizeDomain s).toList = (s.toList.rdropWhile (· == '.')).map Char.toLower := by
  rw [normalizeDomain, trim_of_isDomain h, toAsciiLowercase, String.toList_map, String.toList_ofList]

theorem isDomain_normalizeDomain {s : String} (h : IsDomain s) : IsDomain (normalizeDomain s) := by
  intro c hc
  rw [toList_normalizeDomain h] at hc
  obtain ⟨c, hmem, rfl⟩ := List.mem_map.mp hc
  rw [isWhitespace_toLower]
  exact h c ((List.rdropWhile_prefix _ _).subset hmem)

theorem rdropWhile_append {p : Char → Bool} {l' : List Char} (l : List Char)
    (h : l'.rdropWhile p ≠ []) : (l ++ l').rdropWhile p = l ++ l'.rdropWhile p := by
  have hne : (l'.reverse.dropWhile p).isEmpty = false :=
    List.isEmpty_eq_false_iff.mpr fun hnil => h (by rw [List.rdropWhile, hnil]; rfl)
  rw [List.rdropWhile, List.reverse_append, List.dropWhile_append, hne, if_neg Bool.false_ne_true,
    List.reverse_append, List.reverse_reverse]
  rfl

theorem rdropWhile_map_toLower (l : List Char) : (l.map Char.toLower).rdropWhile (· == '.') =
    (l.rdropWhile (· == '.')).map Char.toLower := by
  have hcomp : ((· == '.') ∘ Char.toLower : Char → Bool) = (· == '.') := by
    funext c
    exact Bool.eq_iff_iff.mpr (by simp [toLower_eq_iff (show '.'.toNat < 65 by decide)])
  rw [List.rdropWhile, ← List.map_reverse, List.dropWhile_map, hcomp, ← List.map_reverse]
  rfl

@[simp] theorem normalizeDomain_idem {s : String} (h : IsDomain s) :
    normalizeDomain (normalizeDomain s) = normalizeDomain s := by
  apply String.toList_inj.mp
  rw [toList_normalizeDomain (isDomain_normalizeDomain h), toList_normalizeDomain h,
    rdropWhile_map_toLower, List.rdropWhile_idempotent, List.map_map]
  exact List.map_congr_left fun c _ => toLower_toLower c

/-- The domain under which a name stands is normalized on its own. -/
theorem normalizeDomain_beneath {front root : String} (hfront : IsDomain front)
    (hroot : IsDomain root) (hne : normalizeDomain root ≠ "") :
    normalizeDomain (front ++ "." ++ root) =
      toAsciiLowercase front ++ "." ++ normalizeDomain root := by
  have hdomain : IsDomain (front ++ "." ++ root) := by
    intro c hc
    simp only [String.toList_append, List.mem_append] at hc
    rcases hc with (hc | hc) | hc
    · exact hfront c hc
    · rw [List.mem_singleton.mp hc]
      rfl
    · exact hroot c hc
  have hrest : root.toList.rdropWhile (· == '.') ≠ [] := by
    intro hnil
    apply hne
    apply String.toList_inj.mp
    rw [toList_normalizeDomain hroot, hnil]
    rfl
  apply String.toList_inj.mp
  rw [toList_normalizeDomain hdomain]
  simp only [String.toList_append, toList_normalizeDomain hroot, toAsciiLowercase, String.toList_map]
  rw [rdropWhile_append _ hrest, List.map_append, List.map_append]
  rfl

theorem isDomain_toAsciiLowercase {s : String} (h : IsDomain s) : IsDomain (toAsciiLowercase s) := by
  intro c hc
  rw [toAsciiLowercase, String.toList_map] at hc
  obtain ⟨c, hmem, rfl⟩ := List.mem_map.mp hc
  rw [isWhitespace_toLower]
  exact h c hmem

theorem normalizeDomain_toAsciiLowercase {s : String} (h : IsDomain s) :
    normalizeDomain (toAsciiLowercase s) = normalizeDomain s := by
  apply String.toList_inj.mp
  rw [toList_normalizeDomain (isDomain_toAsciiLowercase h), toList_normalizeDomain h,
    toAsciiLowercase, String.toList_map, rdropWhile_map_toLower, List.map_map]
  exact List.map_congr_left fun c _ => toLower_toLower c

namespace Domains

variable {d : Domains}

/-- The names that a checked configuration has. -/
structure Split (d : Domains) : Prop where
  root : normalizeDomain d.tunnelDomain ≠ ""
  beneath : stripSuffix ("." ++ normalizeDomain d.tunnelDomain) (normalizeDomain d.adminDomain) = none

theorem split_of_splitIssue (h : d.splitIssue = none) : d.Split := by
  unfold splitIssue at h
  simp only at h
  split_ifs at h with hempty hsame hbeneath
  simp only [Bool.or_eq_true, beq_iff_eq, not_or] at hempty
  exact ⟨hempty.2, Option.not_isSome_iff_eq_none.mp hbeneath⟩

theorem zoneName_beneath {label : String} (hne : label ≠ "") (hdot : '.' ∉ label.toList)
    (hchars : (label.toList.all fun c => c.isAlphanum || c == '-') = true) :
    d.zoneName (label ++ "." ++ normalizeDomain d.tunnelDomain) = .host := by
  have hapex : (label ++ "." ++ normalizeDomain d.tunnelDomain == normalizeDomain d.tunnelDomain)
      = false := by
    rw [beq_eq_false_iff_ne]
    intro h
    have hlen := congrArg (·.toList.length) h
    simp only [String.toList_append, List.length_append] at hlen
    have hdot : ".".toList.length = 1 := rfl
    omega
  rw [zoneName, hapex, if_neg Bool.false_ne_true, String.append_assoc, stripSuffix_append]
  simp [hne, hdot, hchars]

end Domains

theorem append_of_stripSuffix {back s front : String} (h : stripSuffix back s = some front) :
    s = front ++ back := by
  obtain ⟨l, hl, rfl⟩ := Option.map_eq_some_iff.mp h
  have hrev : s.toList.reverse = back.toList.reverse ++ l.reverse := by
    rw [List.isSuffixOf?] at hl
    obtain ⟨l', hl', rfl⟩ := Option.map_eq_some_iff.mp hl
    rw [append_of_isPrefixOf? hl', List.reverse_reverse]
  apply String.toList_inj.mp
  rw [String.toList_append, String.toList_ofList, ← List.reverse_reverse s.toList, hrev,
    List.reverse_append, List.reverse_reverse, List.reverse_reverse]

/-- A wildcard covers what stands one label beneath its base. -/
theorem identifierCovers_wildcard {pattern host base : String}
    (hpattern : normalizeDomain pattern = "*." ++ base) :
    identifierCovers pattern host = true ↔ base ≠ "" ∧ ∃ label, label ≠ "" ∧
      '.' ∉ label.toList ∧ normalizeDomain host = label ++ "." ++ base := by
  have hbase : "*.".toList.isPrefixOf? (normalizeDomain pattern).toList = some base.toList := by
    rw [hpattern, String.toList_append, isPrefixOf?_append]
  have hne : base.toList ≠ [] ↔ base ≠ "" := not_congr String.toList_eq_nil_iff
  simp only [identifierCovers, hbase, String.ofList_toList, Bool.and_eq_true, decide_eq_true_eq,
    hne, Option.any_eq_true, Bool.not_eq_true', and_congr_right_iff]
  intro _
  constructor
  · rintro ⟨front, hfront, label, hlabel, hne, hdot⟩
    refine ⟨label, hne, ?_, ?_⟩
    · rw [← List.contains_iff_mem, hdot]
      exact Bool.false_ne_true
    · rw [append_of_stripSuffix hfront, append_of_stripSuffix hlabel]
  · rintro ⟨label, hne, hdot, hhost⟩
    refine ⟨label ++ ".", ?_, label, stripSuffix_append label ".", hne, ?_⟩
    · rw [hhost]
      exact stripSuffix_append (label ++ ".") base
    · rw [← Bool.not_eq_true, List.contains_iff_mem]
      exact hdot

theorem identifierCovers_exact {pattern host : String}
    (hpattern : "*.".toList.isPrefixOf? (normalizeDomain pattern).toList = none) :
    identifierCovers pattern host = true ↔ normalizeDomain host = normalizeDomain pattern := by
  simp only [identifierCovers, hpattern, beq_iff_eq]

/-- The first dot splits a name. -/
theorem eq_of_append_dot {label label' base base' : String} (h : '.' ∉ label.toList)
    (h' : '.' ∉ label'.toList) (heq : label ++ "." ++ base = label' ++ "." ++ base') :
    label = label' ∧ base = base' := by
  have hlabel : label = label' := by
    rw [← firstLabel_append h base, heq, firstLabel_append h' base']
  refine ⟨hlabel, ?_⟩
  rw [hlabel] at heq
  exact String.append_right_inj _ |>.mp heq

namespace Domains

variable {d : Domains} {label host : String}

theorem not_covers_adminCert (h : d.Split) (ha : IsDomain d.adminDomain) (hdot : '.' ∉ label.toList)
    (hhost : normalizeDomain host = label ++ "." ++ normalizeDomain d.tunnelDomain) :
    d.adminCert.covers host = false := by
  rw [ManagedCert.covers, adminCert, List.any_cons, List.any_nil, Bool.or_false, ← Bool.not_eq_true]
  intro hcovers
  have hbeneath (front : String)
      (hadmin : normalizeDomain d.adminDomain = front ++ "." ++ normalizeDomain d.tunnelDomain) :
      False := by
    have hnone := h.beneath
    rw [hadmin, String.append_assoc, stripSuffix_append] at hnone
    cases hnone
  cases hstar : "*.".toList.isPrefixOf? (normalizeDomain (normalizeDomain d.adminDomain)).toList with
  | none =>
    rw [identifierCovers_exact hstar, normalizeDomain_idem ha] at hcovers
    exact hbeneath label (hcovers.symm.trans hhost)
  | some base =>
    have hadmin : normalizeDomain (normalizeDomain d.adminDomain) = "*." ++ String.ofList base := by
      apply String.toList_inj.mp
      rw [append_of_isPrefixOf? hstar, String.toList_append, @String.toList_ofList base]
    obtain ⟨_, label', hne, hdot', hhost'⟩ := (identifierCovers_wildcard hadmin).mp hcovers
    obtain ⟨rfl, hbase⟩ := eq_of_append_dot hdot hdot' (hhost.symm.trans hhost')
    rw [normalizeDomain_idem ha, ← hbase] at hadmin
    exact hbeneath "*" hadmin

theorem covers_tunnelCert (h : d.Split) (ht : IsDomain d.tunnelDomain) (hne : label ≠ "")
    (hdot : '.' ∉ label.toList)
    (hhost : normalizeDomain host = label ++ "." ++ normalizeDomain d.tunnelDomain) :
    d.tunnelCert.covers host = true := by
  have hstar : IsDomain "*" := by
    intro c hc
    rw [List.mem_singleton.mp hc]
    rfl
  have hpattern : normalizeDomain ("*" ++ "." ++ normalizeDomain d.tunnelDomain) =
      "*." ++ normalizeDomain d.tunnelDomain := by
    rw [normalizeDomain_beneath hstar (isDomain_normalizeDomain ht)
      (by rw [normalizeDomain_idem ht]; exact h.root), normalizeDomain_idem ht,
      show toAsciiLowercase "*" = "*" by decide +kernel, show "*" ++ "." = "*." from rfl]
  have hcovers := (identifierCovers_wildcard hpattern).mpr ⟨h.root, label, hne, hdot, hhost⟩
  refine List.any_eq_true.mpr ⟨_, ?_, hcovers⟩
  exact List.mem_cons_of_mem _ List.mem_cons_self

theorem certFor_beneath (h : d.Split) (ht : IsDomain d.tunnelDomain) (ha : IsDomain d.adminDomain)
    (hne : label ≠ "") (hdot : '.' ∉ label.toList)
    (hhost : normalizeDomain host = label ++ "." ++ normalizeDomain d.tunnelDomain) :
    d.certFor host = some d.tunnelCert := by
  rw [certFor, managed, List.find?_cons_of_neg, List.find?_cons_of_pos]
  · exact d.covers_tunnelCert h ht hne hdot hhost
  · rw [not_covers_adminCert h ha hdot hhost]
    exact Bool.false_ne_true

end Domains

/-! ## The client -/

theorem serviceOf_eq {authority rest : String} {person machine service : String}
    (N : LabelNames person machine service)
    (h : toAsciiLowercase authority = hostLabel person machine service ++ "." ++ rest) :
    serviceOf authority = some service := by
  have hend (c : Char) : (c.toLower ≠ '.' ∧ c.toLower ≠ ':') ↔ (c ≠ '.' ∧ c ≠ ':') := by
    rw [Ne, Ne, toLower_eq_iff (by decide), toLower_eq_iff (by decide)]
  have hlabel : (authority.toList.takeWhile fun c => c ≠ '.' && c ≠ ':').map Char.toLower =
      (hostLabel person machine service).toList := by
    have hcomp : (fun c : Char => c ≠ '.' && c ≠ ':') ∘ Char.toLower =
        fun c => c ≠ '.' && c ≠ ':' := by
      funext c
      exact Bool.eq_iff_iff.mpr (by simpa using hend c)
    have hlist : authority.toList.map Char.toLower =
        (hostLabel person machine service).toList ++ '.' :: rest.toList := by
      have := congrArg String.toList h
      rw [toAsciiLowercase, String.toList_map] at this
      rw [this]
      simp [String.toList_append]
    rw [← hcomp, ← List.takeWhile_map, hlist, List.takeWhile_append_of_pos,
      List.takeWhile_cons_of_neg (by decide), List.append_nil]
    intro c hc
    have hdot : c ≠ '.' := fun heq => N.not_mem_hostLabel rfl (by decide) (heq ▸ hc)
    have hcolon : c ≠ ':' := fun heq => N.not_mem_hostLabel rfl (by decide) (heq ▸ hc)
    simp [hdot, hcolon]
  have hafter {front back : List Char} (hplain : ∀ c ∈ front, isPlain c = true) :
      afterDash (front ++ '-' :: back) = some back := by
    rw [afterDash, List.dropWhile_append_of_pos, List.dropWhile_cons_of_neg (by decide)]
    · rfl
    · intro c hc
      rw [decide_eq_true_eq]
      exact ne_of_isPlain (hplain c hc) rfl
  rw [serviceOf, hlabel, toList_hostLabel, hafter N.person.plain]
  simp only [Option.bind_eq_bind, Option.bind_some, hafter N.machine.plain, Option.pure_def,
    String.ofList_toList]

theorem LabelNames.normalizeDomain_flatHostname {person machine service root : String}
    (N : LabelNames person machine service) (hroot : IsDomain root) (hne : normalizeDomain root ≠ "") :
    normalizeDomain (flatHostname person machine service root) =
      hostLabel person machine service ++ "." ++ normalizeDomain root := by
  rw [N.flatHostname_eq, normalizeDomain_beneath N.isDomain_hostLabel
    (isDomain_toAsciiLowercase hroot) (by rw [normalizeDomain_toAsciiLowercase hroot]; exact hne),
    N.toAsciiLowercase_hostLabel, normalizeDomain_toAsciiLowercase hroot]

theorem find?_of_mem {services : List String} {service : String} (h : service ∈ services) :
    services.find? (· == service) = some service := by
  cases hfind : services.find? (· == service) with
  | none => exact absurd (beq_self_eq_true service) (List.find?_eq_none.mp hfind service h)
  | some found => rw [eq_of_beq (@List.find?_some _ (· == service) _ _ hfind)]

theorem labelNames_of_valid {person machine service : String} {version : UInt16}
    (hp : isValidPersonOrMachine person = true) (hm : isValidPersonOrMachine machine = true)
    (hs : (ControlHead.register version service).validate = .ok ()) :
    LabelNames person machine service := by
  refine ⟨isName_of_isValid hp, isName_of_isValid hm, isService_of_isValid ?_⟩
  unfold ControlHead.validate at hs
  simp only at hs
  split at hs
  · cases hs
  · rename_i hversion
    cases hvalid : isValidServiceName service with
    | true => rfl
    | false =>
      rw [hvalid] at hs
      cases hs

/-- The hostname of a service with valid names: it belongs to that service only, its first label is
a DNS label, the client finds the service in it, and under the tunnel domain of a checked
configuration the DNS responder has it as a host and the wildcard certificate covers it. -/
theorem flatHostname_scheme {person machine service : String} {version : UInt16}
    (hp : isValidPersonOrMachine person = true) (hm : isValidPersonOrMachine machine = true)
    (hs : (ControlHead.register version service).validate = .ok ()) (root : String) :
    (∀ person' machine' service' version', isValidPersonOrMachine person' = true →
      isValidPersonOrMachine machine' = true →
      (ControlHead.register version' service').validate = .ok () →
      flatHostname person machine service root = flatHostname person' machine' service' root →
      person = person' ∧ machine = machine' ∧ service = service') ∧
    isDnsLabel (firstLabel (flatHostname person machine service root)) = true ∧
    (∀ authority port services,
      toAsciiLowercase authority = flatHostname person machine service root ++ port →
      serviceOf authority = some service ∧
        (service ∈ services → resolveService services authority = some service)) ∧
    ∀ d : Domains, d.tunnelDomain = root → IsDomain root → IsDomain d.adminDomain →
      d.splitIssue = none →
      d.zoneName (normalizeDomain (flatHostname person machine service root)) = .host ∧
        d.certFor (flatHostname person machine service root) = some d.tunnelCert := by
  have N := labelNames_of_valid hp hm hs
  have hdot : '.' ∉ (hostLabel person machine service).toList :=
    N.not_mem_hostLabel rfl (by decide)
  refine ⟨?_, ?_, ?_, ?_⟩
  · intro person' machine' service' version' hp' hm' hs' heq
    have N' := labelNames_of_valid hp' hm' hs'
    rw [N.flatHostname_eq, N'.flatHostname_eq] at heq
    exact N.hostLabel_inj N'
      (eq_of_append_dot hdot (N'.not_mem_hostLabel rfl (by decide)) heq).1
  · rw [N.flatHostname_eq, firstLabel_append hdot]
    exact N.isDnsLabel_hostLabel
  · intro authority port services hauthority
    rw [N.flatHostname_eq, String.append_assoc] at hauthority
    have hservice := serviceOf_eq N hauthority
    refine ⟨hservice, fun hmem => ?_⟩
    rw [resolveService, hservice]
    exact find?_of_mem hmem
  · rintro d rfl ht ha hsplit
    have S := Domains.split_of_splitIssue hsplit
    have hhost := N.normalizeDomain_flatHostname ht S.root
    refine ⟨?_, Domains.certFor_beneath S ht ha LabelNames.hostLabel_ne hdot hhost⟩
    rw [hhost]
    exact Domains.zoneName_beneath LabelNames.hostLabel_ne hdot N.hostLabel_chars

theorem flatHostname_scheme_laptop : resolveService ["api", "web"]
      "Ann-Laptop-WEB.tunnel.example:8443" = some "web" ∧
    Domains.certFor ⟨"Tunnel.example", "admin.example"⟩
        (flatHostname "ann" "laptop" "web" "Tunnel.example") =
      some (Domains.tunnelCert ⟨"Tunnel.example", "admin.example"⟩) := by
  have hp : isValidPersonOrMachine "ann" = true := by decide +kernel
  have hm : isValidPersonOrMachine "laptop" = true := by decide +kernel
  have hs : (ControlHead.register 1 "web").validate = .ok () := by decide +kernel
  have ht : ("Tunnel.example".toList.all fun c => isWhitespace c == false) = true := by decide +kernel
  have ha : ("admin.example".toList.all fun c => isWhitespace c == false) = true := by decide +kernel
  have hsplit : Domains.splitIssue ⟨"Tunnel.example", "admin.example"⟩ = none := by
    unfold Domains.splitIssue normalizeDomain
    simp only [toAsciiLowercase_ofList]
    decide +kernel
  have hhost : toAsciiLowercase "Ann-Laptop-WEB.tunnel.example:8443" =
      flatHostname "ann" "laptop" "web" "Tunnel.example" ++ ":8443" := by
    apply String.toList_inj.mp
    simp only [flatHostname, String.toList_append, toAsciiLowercase, String.toList_map]
    decide +kernel
  obtain ⟨_, _, hclient, hdomains⟩ := flatHostname_scheme hp hm hs "Tunnel.example"
  refine ⟨?_, ?_⟩
  · exact (hclient _ _ ["api", "web"] hhost).2 (by simp)
  · have ht' : IsDomain "Tunnel.example" := fun c hc => eq_of_beq (List.all_eq_true.mp ht c hc)
    have ha' : IsDomain "admin.example" := fun c hc => eq_of_beq (List.all_eq_true.mp ha c hc)
    exact (hdomains ⟨"Tunnel.example", "admin.example"⟩ rfl ht' ha' hsplit).2

end TunnelWeaver.Server
