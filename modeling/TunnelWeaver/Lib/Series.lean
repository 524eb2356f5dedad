import TunnelWeaver.Lib.Map

/-! Series of sums: a buffer of values, to which each entry adds its amount at the index of its slot,
if it has one; and tables of sums, to which each entry adds its amount under its key. -/

namespace TunnelWeaver.Series

variable {K M : Type} [AddCommMonoid M]

/-- Adds the amount of an entry at the index of its slot. -/
def add (index : K → Option Nat) (buffer : List M) (e : K × M) : List M :=
  match index e.1 with
  | some i => buffer.modify i (· + e.2)
  | none => buffer

def fill (index : K → Option Nat) (buffer : List M) (entries : List (K × M)) : List M :=
  entries.foldl (add index) buffer

/-- What the entries of a slot amount to. -/
def sumAt [DecidableEq K] (entries : List (K × M)) (slot : K) : M :=
  (entries.map fun e => if e.1 = slot then e.2 else 0).sum

variable {index : K → Option Nat} {buffer : List M} {entries : List (K × M)}

theorem getElem?_add (e : K × M) (j : Nat) :
    (add index buffer e)[j]? = buffer[j]?.map (· + if index e.1 = some j then e.2 else 0) := by
  rw [add]
  split
  · rename_i i hi
    rw [List.getElem?_modify, hi]
    by_cases hij : i = j
    · subst hij
      simp
    · simp [hij]
  · rename_i hnone
    simp [hnone]

/-- A buffer holds at each index what was added there. -/
theorem getElem?_fill (j : Nat) : (fill index buffer entries)[j]? =
    buffer[j]?.map (· + (entries.map fun e => if index e.1 = some j then e.2 else 0).sum) := by
  induction entries generalizing buffer with
  | nil => simp [fill]
  | cons e entries ih =>
    rw [fill, List.foldl_cons, ← fill, ih, getElem?_add, Option.map_map]
    refine congrFun (congrArg Option.map (funext fun v => ?_)) _
    rw [Function.comp_apply, List.map_cons, List.sum_cons, add_assoc]

/-- A series that starts from zeroes, where the slots and the indices of the buffer match. -/
theorem fill_zeroes [DecidableEq K] {n : Nat} {slot : Nat → K}
    (hslot : ∀ j < n, ∀ k, index k = some j ↔ k = slot j) :
    fill index (List.replicate n 0) entries = (List.range n).map fun j => sumAt entries (slot j) := by
  refine List.ext_getElem? fun j => ?_
  rw [getElem?_fill, List.getElem?_replicate, List.getElem?_map]
  by_cases hj : j < n
  · rw [if_pos hj, List.getElem?_range hj, Option.map_some, Option.map_some, zero_add, sumAt]
    refine congrArg (fun l : List M => some l.sum) (List.map_congr_left fun e _ => ?_)
    exact if_congr (hslot j hj e.1) rfl rfl
  · rw [if_neg hj, List.getElem?_eq_none (by simpa using hj)]
    rfl

theorem sum_map_filter {α : Type} (l : List α) (p : α → Bool) (f : α → M) :
    ((l.filter p).map f).sum = (l.map fun a => if p a = true then f a else 0).sum := by
  induction l with
  | nil => rfl
  | cons a l ih =>
    rw [List.filter_cons, List.map_cons, List.sum_cons, ← ih]
    split
    · rw [List.map_cons, List.sum_cons]
    · rw [zero_add]

variable [DecidableEq K] {slot : K}

@[simp] theorem sumAt_nil : sumAt ([] : List (K × M)) slot = 0 := rfl

theorem sumAt_cons (e : K × M) (entries : List (K × M)) :
    sumAt (e :: entries) slot = (if e.1 = slot then e.2 else 0) + sumAt entries slot := rfl

theorem sumAt_eq_zero {entries : List (K × M)} (h : ∀ e ∈ entries, e.1 ≠ slot) :
    sumAt entries slot = 0 := by
  refine List.sum_eq_zero fun v hv => ?_
  obtain ⟨e, he, rfl⟩ := List.mem_map.mp hv
  exact if_neg (h e he)

/-- Entries of one slot. -/
theorem sumAt_map_const {α : Type} (l : List α) (k : K) (v : α → M) :
    sumAt (l.map fun a => (k, v a)) slot = if k = slot then (l.map v).sum else 0 := by
  split
  · rename_i hk
    rw [sumAt, List.map_map]
    exact congrArg List.sum (List.map_congr_left fun a _ => if_pos hk)
  · rename_i hk
    refine sumAt_eq_zero fun e he => ?_
    obtain ⟨a, -, rfl⟩ := List.mem_map.mp he
    exact hk

theorem sumAt_append (entries more : List (K × M)) :
    sumAt (entries ++ more) slot = sumAt entries slot + sumAt more slot := by
  rw [sumAt, List.map_append, List.sum_append, sumAt, sumAt]

theorem sumAt_flatMap {α : Type} (l : List α) (f : α → List (K × M)) :
    sumAt (l.flatMap f) slot = (l.map fun a => sumAt (f a) slot).sum := by
  induction l with
  | nil => rfl
  | cons a l ih => rw [List.flatMap_cons, sumAt_append, ih, List.map_cons, List.sum_cons]

/-- Of the parts of a list without repetition, one has entries of the slot. -/
theorem sumAt_flatMap_of_nodup {α : Type} [DecidableEq α] {l : List α} (hnd : l.Nodup) {a : α}
    {f : α → List (K × M)} (hother : ∀ b ∈ l, b ≠ a → sumAt (f b) slot = 0) :
    sumAt (l.flatMap f) slot = if a ∈ l then sumAt (f a) slot else 0 := by
  rw [sumAt_flatMap, List.sum_map_eq_nsmul_single a _ fun b hne hb => hother b hb hne]
  split
  · rename_i ha
    rw [List.count_eq_one_of_mem hnd ha, one_nsmul]
  · rename_i ha
    rw [List.count_eq_zero_of_not_mem ha, zero_nsmul]

/-! ## Sums over integers -/

/-- The sum over consecutive integers. -/
theorem sum_range_add (a : Int) (n : Nat) (f : Int → M) :
    ∑ j ∈ Finset.range n, f (a + j) = ∑ x ∈ Finset.Ico a (a + n), f x := by
  refine Finset.sum_nbij' (fun j => a + j) (fun x => (x - a).toNat) ?_ ?_ ?_ ?_ fun _ _ => rfl
  · intro j hj
    have := Finset.mem_range.mp hj
    exact Finset.mem_Ico.mpr ⟨by omega, by omega⟩
  · intro x hx
    have := Finset.mem_Ico.mp hx
    exact Finset.mem_range.mpr (by omega)
  · intro j _
    omega
  · intro x hx
    have := Finset.mem_Ico.mp hx
    omega

/-- The sum over the integers of consecutive blocks of one width. -/
theorem sum_blocks {w : Nat} (hw : 0 < w) (a b : Int) (f : Int → M) :
    ∑ x ∈ Finset.Ico a b, ∑ i ∈ Finset.range w, f (x * w + i) =
      ∑ m ∈ Finset.Ico (a * w) (b * w), f m := by
  have hpos : (0 : Int) < w := Int.ofNat_lt.mpr hw
  have hmaps (m : Int) (hm : m ∈ Finset.Ico (a * w) (b * w)) : m / w ∈ Finset.Ico a b := by
    obtain ⟨hle, hlt⟩ := Finset.mem_Ico.mp hm
    exact Finset.mem_Ico.mpr
      ⟨(Int.le_ediv_iff_mul_le hpos).mpr hle, (Int.ediv_lt_iff_lt_mul hpos).mpr hlt⟩
  rw [← Finset.sum_fiberwise_of_maps_to hmaps]
  refine Finset.sum_congr rfl fun x hx => ?_
  rw [sum_range_add]
  refine Finset.sum_congr (Finset.ext fun m => ?_) fun _ _ => rfl
  rw [Finset.mem_Ico, Finset.mem_filter, Finset.mem_Ico]
  have hx := Finset.mem_Ico.mp hx
  have hsucc : (x + 1) * (w : Int) = x * w + w := by ring
  constructor
  · rintro ⟨hle, hlt⟩
    have hdiv : m / w = x := (Int.ediv_eq_iff_of_pos hpos).mpr ⟨hle, hsucc ▸ hlt⟩
    exact ⟨⟨(Int.mul_le_mul_of_nonneg_right hx.1 hpos.le).trans hle,
      (hsucc ▸ hlt).trans_le (Int.mul_le_mul_of_nonneg_right hx.2 hpos.le)⟩, hdiv⟩
  · rintro ⟨-, hdiv⟩
    have := (Int.ediv_eq_iff_of_pos hpos).mp hdiv
    exact ⟨this.1, hsucc ▸ this.2⟩

/-- Of the pairs of a list without repetition, the sum over those of one first part. -/
theorem sum_pairs {α β : Type} [DecidableEq α] [DecidableEq β] {l : List (α × β)} (hl : l.Nodup)
    {a : α} {D : Finset β} {f : β → M} (hin : ∀ d, (a, d) ∈ l → d ∈ D)
    (hzero : ∀ d ∈ D, (a, d) ∉ l → f d = 0) :
    (l.map fun p => if p.1 = a then f p.2 else 0).sum = ∑ d ∈ D, f d := by
  rw [← List.sum_toFinset _ hl, ← Finset.sum_filter]
  have hinj : Set.InjOn Prod.snd (l.toFinset.filter fun p => p.1 = a : Set (α × β)) := by
    intro p hp q hq heq
    have hp := (Finset.mem_filter.mp hp).2
    have hq := (Finset.mem_filter.mp hq).2
    exact Prod.ext (hp.trans hq.symm) heq
  rw [← Finset.sum_image (f := f) (g := Prod.snd) hinj]
  refine Finset.sum_subset (fun d hd => ?_) fun d hd hnot => hzero d hd fun hmem => hnot ?_
  · obtain ⟨p, hp, rfl⟩ := Finset.mem_image.mp hd
    obtain ⟨hmem, rfl⟩ := Finset.mem_filter.mp hp
    exact hin p.2 (List.mem_toFinset.mp hmem)
  · exact Finset.mem_image.mpr ⟨(a, d), Finset.mem_filter.mpr ⟨List.mem_toFinset.mpr hmem, rfl⟩, rfl⟩

/-! ## Tables of sums -/

/-- Adds an amount to the total of its key, of a key that is asked for. -/
def tally (totals : Map K M) (e : K × M) : Map K M :=
  match totals.lookup e.1 with
  | some total => totals.insert e.1 (total + e.2)
  | none => totals

theorem lookup_tally (totals : Map K M) (e : K × M) (k : K) : (tally totals e).lookup k =
    (totals.lookup k).map (· + if e.1 = k then e.2 else 0) := by
  rw [tally]
  split
  · rename_i total hlook
    rw [Map.lookup_insert_ite]
    by_cases hk : e.1 = k
    · rw [if_pos hk.symm, if_pos hk, ← hk, hlook]
      rfl
    · simp [hk, Ne.symm hk]
  · rename_i hnone
    by_cases hk : e.1 = k
    · rw [← hk, hnone]
      rfl
    · simp [hk]

theorem lookup_foldl_tally (entries : List (K × M)) (totals : Map K M) (k : K) :
    (entries.foldl tally totals).lookup k = (totals.lookup k).map (· + sumAt entries k) := by
  induction entries generalizing totals with
  | nil => simp
  | cons e entries ih =>
    rw [List.foldl_cons, ih, lookup_tally, Option.map_map]
    refine congrFun (congrArg Option.map (funext fun v => ?_)) _
    rw [Function.comp_apply, sumAt_cons, add_assoc]

end TunnelWeaver.Series

namespace TunnelWeaver.Map
variable {K V : Type} [DecidableEq K]

/-- Updates of one key each, of keys that differ: a key is updated once, or not at all. -/
theorem lookup_foldl_of_nodup {E : Type} {step : Map K V → E → Map K V} {key : E → K}
    {g : E → Option V → Option V}
    (hstep : ∀ m e k, (step m e).lookup k = if key e = k then g e (m.lookup k) else m.lookup k)
    {l : List E} (hnodup : (l.map key).Nodup) (m : Map K V) :
    (∀ k, (∀ e ∈ l, key e ≠ k) → (l.foldl step m).lookup k = m.lookup k) ∧
      ∀ e ∈ l, (l.foldl step m).lookup (key e) = g e (m.lookup (key e)) := by
  induction l generalizing m with
  | nil => exact ⟨fun _ _ => rfl, fun e he => by cases he⟩
  | cons a l ih =>
    obtain ⟨hnot, hnodup⟩ := List.nodup_cons.mp hnodup
    obtain ⟨hother, hvalue⟩ := ih hnodup (step m a)
    refine ⟨fun k hk => ?_, fun e he => ?_⟩
    · rw [List.foldl_cons, hother k fun e he => hk e (.tail _ he), hstep, if_neg (hk a (.head _))]
    · rw [List.foldl_cons]
      rcases List.mem_cons.mp he with rfl | he
      · rw [hother _ fun b hb heq => hnot (List.mem_map.mpr ⟨b, hb, heq⟩), hstep, if_pos rfl]
      · rw [hvalue e he, hstep, if_neg fun heq => hnot (List.mem_map.mpr ⟨e, he, heq.symm⟩)]

end TunnelWeaver.Map
