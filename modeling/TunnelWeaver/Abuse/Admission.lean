import TunnelWeaver.Abuse.Gate

/-! What an admission does to the buckets, and how long a refused request has to wait. -/

namespace TunnelWeaver.Abuse

open I64 (saturatingAdd saturatingSub)

namespace Buckets

variable {b : Buckets} {scope : PolicyId} {cost : Nat} {now retryCapMs : Int} {e : Key × Quota}
  {budgets : List (Key × Quota)}

/-- The bucket of a budget admits. -/
def admits (b : Buckets) (scope : PolicyId) (now : Int) (e : Key × Quota) : Bool :=
  (b.gcra scope e.1).admits e.2 now

/-! ## The transaction -/

theorem charge_apply (p : PolicyId × Key) (hp : p ≠ (scope, e.1)) :
    (b.charge scope cost now retryCapMs e).1 p = b p :=
  Function.update_of_ne hp _ _

theorem charge_self : (b.charge scope cost now retryCapMs e).1 (scope, e.1) =
    some ⟨((b.gcra scope e.1).check e.2 cost now retryCapMs).1.tatMs.getD now, now⟩ :=
  Function.update_self _ _ _

theorem charge_snd : (b.charge scope cost now retryCapMs e).2 =
    ((b.gcra scope e.1).check e.2 cost now retryCapMs).2 := rfl

theorem gcra_charge_self (hnow : 0 ≤ now) : (b.charge scope cost now retryCapMs e).1.gcra scope e.1 =
    ((b.gcra scope e.1).check e.2 cost now retryCapMs).1 := by
  obtain ⟨tat, htat⟩ : ∃ tat, ((b.gcra scope e.1).check e.2 cost now retryCapMs).1 = ⟨some tat⟩ :=
    Gcra.check_tatMs hnow
  rw [gcra, charge_self, htat]
  rfl

theorem gcra_charge_of_ne {scope' : PolicyId} {key : Key} (h : (scope', key) ≠ (scope, e.1)) :
    (b.charge scope cost now retryCapMs e).1.gcra scope' key = b.gcra scope' key := by
  rw [gcra, charge_apply _ h, gcra]

theorem chargeAll_apply (p : PolicyId × Key) (hp : ∀ e ∈ budgets, p ≠ (scope, e.1)) :
    (b.chargeAll scope cost now retryCapMs budgets).1 p = b p := by
  induction budgets generalizing b with
  | nil => rfl
  | cons e budgets ih =>
    obtain ⟨he, hrest⟩ := List.forall_mem_cons.mp hp
    rw [chargeAll, ih hrest, charge_apply p he]

theorem gcra_chargeAll_of_not_mem {scope' : PolicyId} {key : Key}
    (h : ∀ e ∈ budgets, (scope', key) ≠ (scope, e.1)) :
    (b.chargeAll scope cost now retryCapMs budgets).1.gcra scope' key = b.gcra scope' key := by
  rw [gcra, chargeAll_apply _ h, gcra]

theorem ne_of_not_mem {scope' : PolicyId} {key : Key} (h : key ∉ budgets.map Prod.fst) :
    ∀ e ∈ budgets, (scope', key) ≠ (scope, e.1) := by
  intro e he heq
  cases heq
  exact h (List.mem_map_of_mem he)

/-- If no key occurs twice, each bucket is checked as the transaction found it. -/
theorem chargeAll_of_nodup (hnow : 0 ≤ now) (hnodup : (budgets.map Prod.fst).Nodup) :
    (∀ e ∈ budgets, (b.chargeAll scope cost now retryCapMs budgets).1.gcra scope e.1 =
      ((b.gcra scope e.1).check e.2 cost now retryCapMs).1) ∧
    (b.chargeAll scope cost now retryCapMs budgets).2 =
      budgets.map fun e => ((b.gcra scope e.1).check e.2 cost now retryCapMs).2 := by
  induction budgets generalizing b with
  | nil => exact ⟨fun _ he => absurd he List.not_mem_nil, rfl⟩
  | cons e budgets ih =>
    obtain ⟨hfresh, hnodup⟩ := List.nodup_cons.mp hnodup
    obtain ⟨hgcra, hcharges⟩ := ih (b := (b.charge scope cost now retryCapMs e).1) hnodup
    have hrest : ∀ e' ∈ budgets, (b.charge scope cost now retryCapMs e).1.gcra scope e'.1 =
        b.gcra scope e'.1 := by
      intro e' he'
      refine gcra_charge_of_ne fun heq => hfresh ?_
      rw [← (Prod.mk.inj heq).2]
      exact List.mem_map_of_mem he'
    constructor
    · intro e' he'
      rw [chargeAll]
      rcases List.mem_cons.mp he' with rfl | he'
      · exact (gcra_chargeAll_of_not_mem (ne_of_not_mem hfresh)).trans (gcra_charge_self hnow)
      · rw [hgcra e' he', hrest e' he']
    · rw [chargeAll, hcharges, List.map_cons]
      refine congrArg _ (List.map_congr_left fun e' he' => ?_)
      rw [hrest e' he']

end Buckets

/-! ## Delays -/

theorem longestDelay_eq_none {charges : List Charge} :
    longestDelay charges = none ↔ ∀ charge ∈ charges, charge.outcome = .admitted := by
  simp only [longestDelay, List.max?_eq_none_iff, List.map_eq_nil_iff, List.filter_eq_nil_iff,
    decide_eq_true_eq]
  refine forall₂_congr fun charge _ => ?_
  cases charge.outcome <;> decide

theorem longestDelay_eq_some {charges : List Charge} {r : Int} : longestDelay charges = some r ↔
    (∃ charge ∈ charges, charge.outcome = .throttled ∧ charge.retryAfterMs = r) ∧
      ∀ charge ∈ charges, charge.outcome = .throttled → charge.retryAfterMs ≤ r := by
  rw [longestDelay, List.max?_eq_some_iff]
  refine and_congr ?_ ?_
  · simp [and_assoc]
  · simp only [List.forall_mem_map, List.mem_filter, decide_eq_true_eq, and_imp]

/-! ## What an admission does -/

section
variable {gate : Gate} {b : Buckets} {policy : PolicyId} {configured : Policy} {fp : Fingerprint}
  {cost : Nat} {now : Int} {fails : Bool}

theorem Fingerprint.kind_of_get {kind : KeyKind} {key : Key} (h : fp.get kind = some key) :
    key.kind = kind := by
  rw [get] at h
  simpa using List.find?_some h

/-- A policy that names no kind twice selects no key twice. -/
theorem Policy.nodup_select (h : (configured.budgets.map (·.key)).Nodup) :
    ((configured.select fp).map Prod.fst).Nodup := by
  have hselect : (configured.select fp).map Prod.fst =
      (configured.budgets.map (·.key)).filterMap fp.get := by
    rw [Policy.select, List.map_filterMap, List.filterMap_map]
    refine List.filterMap_congr fun budget _ => ?_
    rw [Function.comp_apply]
    cases fp.get budget.key <;> rfl
  rw [hselect]
  refine h.filterMap fun kind kind' key hkey hkey' => ?_
  rw [← Fingerprint.kind_of_get hkey, ← Fingerprint.kind_of_get hkey']

/-- A store that fails keeps its rows, and the policy says what to make of it. -/
theorem Gate.admitAt_of_fails (hget : gate.policies.get policy = some configured) :
    gate.admitAt b policy fp cost now true = (b,
      if configured.select fp = [] then .ok () else .error (.store policy configured.onStoreError)) := by
  cases hselect : configured.select fp with
  | nil => simp [admitAt, hget, hselect]
  | cons e budgets => simp [admitAt, hget, hselect, Buckets.abuseCheckAll]

/-- An admission charges the selected buckets, and refuses if one of them does. -/
theorem Gate.admitAt_eq (hget : gate.policies.get policy = some configured) :
    gate.admitAt b policy fp cost now false =
      ((b.chargeAll policy cost now gate.retryCapMs (configured.select fp)).1,
        ((longestDelay (b.chargeAll policy cost now gate.retryCapMs (configured.select fp)).2).elim
          (.ok ()) fun r => .error (.throttled policy r))) := by
  cases hselect : configured.select fp with
  | nil => simp [admitAt, hget, hselect, Buckets.chargeAll, longestDelay]
  | cons e budgets =>
    simp only [admitAt, hget, hselect, List.isEmpty_cons, Bool.false_eq_true, if_false,
      Buckets.abuseCheckAll]
    cases longestDelay (b.chargeAll policy cost now gate.retryCapMs (e :: budgets)).2 <;> rfl

theorem Gate.admitAt_cases (hget : gate.policies.get policy = some configured) :
    (gate.admitAt b policy fp cost now false).2 = .ok () ∨
      ∃ r, (gate.admitAt b policy fp cost now false).2 = .error (.throttled policy r) := by
  rw [admitAt_eq hget]
  cases longestDelay (b.chargeAll policy cost now gate.retryCapMs (configured.select fp)).2 with
  | none => exact .inl rfl
  | some r => exact .inr ⟨r, rfl⟩

variable (hget : gate.policies.get policy = some configured)
  (hdistinct : (configured.budgets.map (·.key)).Nodup) (hnow : 0 ≤ now)
include hdistinct hnow

/-- What the checks of an admission say, each on the bucket that the admission found. -/
theorem Gate.charges_eq :
    (b.chargeAll policy cost now gate.retryCapMs (configured.select fp)).2 =
      (configured.select fp).map fun e =>
        ((b.gcra policy e.1).check e.2 cost now gate.retryCapMs).2 :=
  (Buckets.chargeAll_of_nodup hnow (Policy.nodup_select hdistinct)).2

include hget

theorem Gate.admitAt_ok_iff : (gate.admitAt b policy fp cost now false).2 = .ok () ↔
    ∀ e ∈ configured.select fp, b.admits policy now e = true := by
  have hnone : (gate.admitAt b policy fp cost now false).2 = .ok () ↔
      longestDelay (b.chargeAll policy cost now gate.retryCapMs (configured.select fp)).2 = none := by
    rw [admitAt_eq hget]
    cases longestDelay (b.chargeAll policy cost now gate.retryCapMs (configured.select fp)).2 with
    | none => exact iff_of_true rfl rfl
    | some r => exact iff_of_false (by simp) (by simp)
  rw [hnone, charges_eq hdistinct hnow, longestDelay_eq_none, List.forall_mem_map]
  refine forall₂_congr fun e _ => ?_
  cases h : b.admits policy now e with
  | true => simp [Gcra.check_of_admits h]
  | false => simp [Gcra.check_of_refuses h]

theorem Gate.admitAt_throttled_iff {r : Int} :
    (gate.admitAt b policy fp cost now false).2 = .error (.throttled policy r) ↔
      (∃ e ∈ configured.select fp, b.admits policy now e = false ∧
        (b.gcra policy e.1).retryAfter e.2 now gate.retryCapMs = r) ∧
      ∀ e ∈ configured.select fp, b.admits policy now e = false →
        (b.gcra policy e.1).retryAfter e.2 now gate.retryCapMs ≤ r := by
  have hsome : (gate.admitAt b policy fp cost now false).2 = .error (.throttled policy r) ↔
      longestDelay (b.chargeAll policy cost now gate.retryCapMs (configured.select fp)).2 =
        some r := by
    rw [admitAt_eq hget]
    cases longestDelay (b.chargeAll policy cost now gate.retryCapMs (configured.select fp)).2 with
    | none => exact iff_of_false (by simp) (by simp)
    | some r => simp
  have hcheck : ∀ e, (((b.gcra policy e.1).check e.2 cost now gate.retryCapMs).2.outcome =
      .throttled ↔ b.admits policy now e = false) ∧ (b.admits policy now e = false →
      ((b.gcra policy e.1).check e.2 cost now gate.retryCapMs).2.retryAfterMs =
        (b.gcra policy e.1).retryAfter e.2 now gate.retryCapMs) := by
    intro e
    cases h : b.admits policy now e with
    | true => simp [Gcra.check_of_admits h]
    | false => simp [Gcra.check_of_refuses h]
  rw [hsome, charges_eq hdistinct hnow, longestDelay_eq_some, List.forall_mem_map]
  constructor
  · rintro ⟨⟨_, hmem, hthrottled, rfl⟩, hle⟩
    obtain ⟨e, he, rfl⟩ := List.mem_map.mp hmem
    have hrefuses := (hcheck e).1.mp hthrottled
    refine ⟨⟨e, he, hrefuses, ((hcheck e).2 hrefuses).symm⟩, fun e' he' hrefuses' => ?_⟩
    rw [← (hcheck e').2 hrefuses']
    exact hle e' he' ((hcheck e').1.mpr hrefuses')
  · rintro ⟨⟨e, he, hrefuses, rfl⟩, hle⟩
    refine ⟨⟨_, List.mem_map_of_mem he, (hcheck e).1.mpr hrefuses, (hcheck e).2 hrefuses⟩, ?_⟩
    intro e' he' hthrottled
    have hrefuses' := (hcheck e').1.mp hthrottled
    rw [(hcheck e').2 hrefuses']
    exact hle e' he' hrefuses'

theorem Gate.gcra_admitAt {e : Key × Quota} (he : e ∈ configured.select fp) :
    (gate.admitAt b policy fp cost now false).1.gcra policy e.1 =
      if b.admits policy now e then (b.gcra policy e.1).charged e.2 cost now
      else b.gcra policy e.1 := by
  have hcharged : (gate.admitAt b policy fp cost now false).1.gcra policy e.1 =
      ((b.gcra policy e.1).check e.2 cost now gate.retryCapMs).1 := by
    rw [admitAt_eq hget]
    exact (Buckets.chargeAll_of_nodup hnow (Policy.nodup_select hdistinct)).1 e he
  rw [hcharged]
  cases h : b.admits policy now e with
  | true => simp [Gcra.check_of_admits h]
  | false => simp [Gcra.check_of_refuses h]

omit hdistinct hnow in
theorem Gate.gcra_admit_of_not_mem {scope : PolicyId} {key : Key}
    (h : ∀ e ∈ configured.select fp, (scope, key) ≠ (policy, e.1)) :
    (gate.admitAt b policy fp cost now false).1.gcra scope key = b.gcra scope key := by
  rw [admitAt_eq hget]
  exact Buckets.gcra_chargeAll_of_not_mem h

end

end TunnelWeaver.Abuse
