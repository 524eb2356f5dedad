import TunnelWeaver.Server.Pairing

/-! The names proposed for persons and machines (`store/names.rs`, `first_free_name` of
`store/mod.rs`): slugs, and the first candidate that is free. The number of a candidate is a `u32`,
so there are finitely many candidates; after the last one the counter wraps around, or panics where
overflow checks are on. -/

namespace TunnelWeaver.Server

variable {text : TextFns} {raw base name : String} {taken : List String} {fuel first n m : Nat}

/-- The proposed person slug for a display name. -/
def slugifyPerson (text : TextFns) (displayName : String) : String :=
  slugify text displayName "person"

theorem isBase_person : IsBase "person" := by
  have hlist : "person".toList = ['p', 'e', 'r', 's', 'o', 'n'] := String.toList_ofList
  refine ⟨by decide, ?_, ?_⟩
  · rw [hlist]
    decide
  · rw [hlist]
    simp [isNameChar, Char.isLower]

theorem isBase_slugifyPerson (text : TextFns) (raw : String) : IsBase (slugifyPerson text raw) :=
  isBase_slugify text raw isBase_person

/-! ## The search -/

/-- One probe: the first of a batch of candidates that no row has. -/
def probeNames (taken : List String) (base : String) (first : Nat) : Option String :=
  ((List.range nameProbeBatch).map fun i => candidate base (first + i)).find? (· ∉ taken)

/-- `first_free_name` from the candidate `first` on, for at most `fuel` probes. -/
def firstFreeName (taken : List String) (base : String) : (fuel first : Nat) → Option String
  | 0, _ => none
  | fuel + 1, first =>
    match probeNames taken base first with
    | some free => some free
    | none => firstFreeName taken base fuel (first + nameProbeBatch)

/-- The machines of a person are what a proposed machine name is probed against. -/
theorem probe_eq (d : Directory) (person : Nat) (base : String) (first : Nat) :
    probe d person base first = probeNames
      ((d.machines.rows.filter fun e => e.2.personId = person).map (·.2.name)) base first := by
  refine List.find?_congr fun name _ => ?_
  rw [Bool.eq_iff_iff, Option.isNone_iff_eq_none, Table.find?, List.find?_eq_none,
    decide_eq_true_iff]
  constructor
  · intro h hmem
    obtain ⟨e, he, rfl⟩ := List.mem_map.mp hmem
    obtain ⟨he, hperson⟩ := List.mem_filter.mp he
    exact h e he (by simpa using hperson)
  · intro h e he hmatch
    obtain ⟨hperson, hname⟩ := (Bool.and_eq_true ..).mp hmatch
    exact h (List.mem_map.mpr ⟨e, List.mem_filter.mpr ⟨he, hperson⟩, of_decide_eq_true hname⟩)

/-- `name` is the first candidate, in order, that is not taken. -/
def FirstFree (taken : List String) (base name : String) : Prop :=
  ∃ n, name = candidate base n ∧ name ∉ taken ∧ ∀ m < n, candidate base m ∈ taken

theorem probeNames_eq_none :
    probeNames taken base first = none ↔ ∀ i < nameProbeBatch, candidate base (first + i) ∈ taken := by
  simp [probeNames]

theorem probeNames_eq_some (h : probeNames taken base first = some name) :
    ∃ i < nameProbeBatch, name = candidate base (first + i) ∧ name ∉ taken ∧
      ∀ j < i, candidate base (first + j) ∈ taken := by
  obtain ⟨hfree, i, hi, hget, hless⟩ := List.find?_eq_some_iff_getElem.mp h
  rw [List.length_map, List.length_range] at hi
  simp only [List.getElem_map, List.getElem_range] at hget hless
  refine ⟨i, hi, hget.symm, by simpa using hfree, fun j hj => by simpa using hless j hj⟩

theorem firstFreeName_firstFree (hbefore : ∀ m < first, candidate base m ∈ taken)
    (h : firstFreeName taken base fuel first = some name) : FirstFree taken base name := by
  induction fuel generalizing first with
  | zero => cases h
  | succ fuel ih =>
    rw [firstFreeName] at h
    split at h
    · rename_i free hprobe
      cases h
      obtain ⟨i, -, rfl, hfree, hless⟩ := probeNames_eq_some hprobe
      refine ⟨first + i, rfl, hfree, fun m hm => ?_⟩
      rcases Nat.lt_or_ge m first with hlt | hge
      · exact hbefore m hlt
      · rw [← Nat.add_sub_cancel' hge]
        exact hless _ (by omega)
    · rename_i hprobe
      refine ih (fun m hm => ?_) h
      rcases Nat.lt_or_ge m first with hlt | hge
      · exact hbefore m hlt
      · rw [← Nat.add_sub_cancel' hge]
        exact probeNames_eq_none.mp hprobe _ (by omega)

/-- Enough probes find a free candidate. -/
theorem exists_firstFreeName (hfirst : first ≤ n) (hfuel : n < first + nameProbeBatch * fuel)
    (hfree : candidate base n ∉ taken) : ∃ name, firstFreeName taken base fuel first = some name := by
  induction fuel generalizing first with
  | zero => omega
  | succ fuel ih =>
    rw [firstFreeName]
    split
    · exact ⟨_, rfl⟩
    · rename_i hprobe
      refine ih (Nat.le_of_not_lt fun hlt => hfree ?_) (by rw [Nat.mul_succ] at hfuel; omega)
      rw [← Nat.add_sub_cancel' hfirst]
      exact probeNames_eq_none.mp hprobe _ (by omega)

/-! ## The candidates are many -/

/-- The candidates with ten digits, up to the last number whose probe does not overflow. -/
def tenDigitCandidates : Nat := 2 ^ 32 - 10 ^ 9 - nameProbeBatch

theorem candidate_of_ten_digits (h : 10 ^ 9 ≤ n + 1) (h' : n + 1 < 2 ^ 32) :
    candidate base n = .ofList (base.toList.take 5) ++ (n + 1).repr ∧ (n + 1).repr.length = 10 := by
  have hlen : (n + 1).repr.length = 10 := by
    have hle := (Nat.length_repr_le_iff (n := n + 1) (k := 10) (by decide)).mpr (by omega)
    have hgt := mt (Nat.length_repr_le_iff (n := n + 1) (k := 9) (by decide)).mp (by omega)
    omega
  refine ⟨?_, hlen⟩
  have hne : n ≠ 0 := by omega
  rw [candidate, if_neg hne, Nat.mod_eq_of_lt h', Nat.toString_eq_repr]
  dsimp only
  rw [hlen]
  rfl

/-- Candidates with ten digits differ when their numbers do. -/
theorem candidate_injective {n m : Nat} (hn : 10 ^ 9 ≤ n + 1) (hn' : n + 1 < 2 ^ 32)
    (hm : 10 ^ 9 ≤ m + 1) (hm' : m + 1 < 2 ^ 32) (h : candidate base n = candidate base m) :
    n = m := by
  rw [(candidate_of_ten_digits hn hn').1, (candidate_of_ten_digits hm hm').1] at h
  have hlist := congrArg String.toList h
  rw [String.toList_append, String.toList_append] at hlist
  have hrepr := Nat.repr_injective (String.toList_inj.mp (List.append_cancel_left hlist))
  omega

/-- So few names do not take every candidate. -/
theorem exists_free (base : String) (h : taken.length < tenDigitCandidates) :
    ∃ n, n + nameProbeBatch < 2 ^ 32 ∧ candidate base n ∉ taken := by
  by_contra hall
  push Not at hall
  have hbound {i : Nat} (hi : i < tenDigitCandidates) :
      10 ^ 9 - 1 + i + nameProbeBatch < 2 ^ 32 := by
    simp only [tenDigitCandidates, nameProbeBatch] at hi ⊢
    omega
  have hpos : 0 < nameProbeBatch := by decide
  generalize tenDigitCandidates = count at h hbound
  have hnodup : ((List.range count).map fun i => candidate base (10 ^ 9 - 1 + i)).Nodup := by
    refine List.nodup_range.map_on fun i hi j hj heq => ?_
    have hi := hbound (List.mem_range.mp hi)
    have hj := hbound (List.mem_range.mp hj)
    have := candidate_injective (by omega) (by omega) (by omega) (by omega) heq
    omega
  have hsub : ((List.range count).map fun i => candidate base (10 ^ 9 - 1 + i)) ⊆ taken := by
    intro name hname
    obtain ⟨i, hi, rfl⟩ := List.mem_map.mp hname
    exact hall _ (hbound (List.mem_range.mp hi))
  have hle := (hnodup.subperm hsub).length_le
  rw [List.length_map, List.length_range] at hle
  omega

/-- The counter comes back to the numbers it has had. -/
theorem candidate_eq (h : n ≠ 0) (h' : m ≠ 0) (hmod : (n + 1) % 2 ^ 32 = (m + 1) % 2 ^ 32) :
    candidate base n = candidate base m := by
  rw [candidate, if_neg h, candidate, if_neg h', hmod]

/-- A proposed name is valid, and so are all its candidates; the first free candidate is found
whenever there is one, and before the counter overflows unless billions of names are taken. -/
theorem proposed_name_free (text : TextFns) (raw : String)
    (hbase : base = slugifyPerson text raw ∨ base = slugifyMachine text raw) :
    isValidPersonOrMachine base = true ∧ (∀ n, isValidPersonOrMachine (candidate base n) = true) ∧
    ∀ taken,
      (∀ fuel name, firstFreeName taken base fuel 0 = some name → FirstFree taken base name) ∧
      ((∃ fuel name, firstFreeName taken base fuel 0 = some name) ↔
        ∃ n, candidate base n ∉ taken) ∧
      (taken.length < tenDigitCandidates → ∃ fuel name, nameProbeBatch * fuel < 2 ^ 32 ∧
        firstFreeName taken base fuel 0 = some name) := by
  have hisBase : IsBase base := by
    rcases hbase with rfl | rfl
    · exact isBase_slugifyPerson text raw
    · exact isBase_slugifyMachine text raw
  -- the probe that asks about the candidate `n`
  have hprobe (n : Nat) : n < 0 + nameProbeBatch * (n / nameProbeBatch + 1) ∧
      nameProbeBatch * (n / nameProbeBatch + 1) ≤ n + nameProbeBatch := by
    simp only [nameProbeBatch]
    omega
  refine ⟨hisBase.isValid, fun n => (hisBase.isBase_candidate n).isValid, fun taken => ?_⟩
  have hfirst {fuel name} (h : firstFreeName taken base fuel 0 = some name) :
      FirstFree taken base name :=
    firstFreeName_firstFree (fun m hm => absurd hm (Nat.not_lt_zero m)) h
  refine ⟨fun _ _ => hfirst, ⟨?_, ?_⟩, fun hcount => ?_⟩
  · rintro ⟨fuel, name, h⟩
    obtain ⟨n, rfl, hfree, -⟩ := hfirst h
    exact ⟨n, hfree⟩
  · rintro ⟨n, hfree⟩
    exact ⟨_, exists_firstFreeName (Nat.zero_le n) (hprobe n).1 hfree⟩
  · obtain ⟨n, hn, hfree⟩ := exists_free base hcount
    obtain ⟨name, h⟩ := exists_firstFreeName (Nat.zero_le n) (hprobe n).1 hfree
    exact ⟨_, name, Nat.lt_of_le_of_lt (hprobe n).2 hn, h⟩

theorem proposed_name_free_sample :
    slugifyPerson ⟨id, id⟩ "ann b." = "annb" ∧
    firstFreeName ["annb", "annb2"] "annb" 1 0 = some "annb3" ∧
    FirstFree ["annb", "annb2"] "annb" "annb3" := by
  have hslug : slugifyPerson ⟨id, id⟩ "ann b." = "annb" := by decide +kernel
  have hname : firstFreeName ["annb", "annb2"] "annb" 1 0 = some "annb3" := by decide +kernel
  exact ⟨hslug, hname,
    ((proposed_name_free ⟨id, id⟩ "ann b." (.inl hslug.symm)).2.2 _).1 1 "annb3" hname⟩

/-- Once every number of the counter is taken, no probe finds a name. -/
theorem proposed_name_never : ∃ taken : List String, ∀ fuel,
    firstFreeName taken (slugifyPerson ⟨id, id⟩ "") fuel 0 = none := by
  generalize slugifyPerson ⟨id, id⟩ "" = base
  refine ⟨(List.range (2 ^ 32 + 1)).map (candidate base), fun fuel => ?_⟩
  generalize hcount : 2 ^ 32 = count
  have htaken (n : Nat) : candidate base n ∈ (List.range (count + 1)).map (candidate base) := by
    have hmem {m : Nat} (h : m < count + 1) :
        candidate base m ∈ (List.range (count + 1)).map (candidate base) :=
      List.mem_map.mpr ⟨m, List.mem_range.mpr h, rfl⟩
    rcases Nat.eq_zero_or_pos n with rfl | hn
    · exact hmem (by omega)
    · rcases Nat.eq_zero_or_pos (n % count) with hzero | hpos
      · have hmod : (n + 1) % 2 ^ 32 = (count + 1) % 2 ^ 32 := by
          rw [hcount, Nat.add_mod, hzero, Nat.add_mod count, Nat.mod_self]
        rw [candidate_eq (by omega) (by omega) hmod]
        exact hmem (by omega)
      · have hmod : (n + 1) % 2 ^ 32 = (n % count + 1) % 2 ^ 32 := by
          rw [hcount, Nat.mod_add_mod]
        rw [candidate_eq (by omega) (by omega) hmod]
        exact hmem (Nat.lt_succ_of_lt (Nat.mod_lt n (by omega)))
  cases hfound : firstFreeName ((List.range (count + 1)).map (candidate base)) base fuel 0 with
  | none => rfl
  | some name =>
    obtain ⟨n, rfl, hfree, -⟩ :=
      firstFreeName_firstFree (fun m hm => absurd hm (Nat.not_lt_zero m)) hfound
    exact absurd (htaken n) hfree

end TunnelWeaver.Server
