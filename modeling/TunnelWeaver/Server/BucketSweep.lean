import TunnelWeaver.Abuse.Admission
import TunnelWeaver.Server.Budgets

/-! The sweep of idle buckets (`housekeeping.rs`), and what it changes for later requests. -/

namespace TunnelWeaver.Server

open Abuse (Buckets BucketRow Charge Fingerprint Gate Gcra Key PolicyId Quota)
open I64 (saturatingAdd saturatingMul saturatingSub)

/-! ## The sweep -/

/-- `Store::abuse_sweep`. -/
def abuseSweep (b : Buckets) (cutoff : Int) : Buckets := fun p =>
  (b p).filter fun row => cutoff ≤ row.updatedAtMs

/-- The idle lifetime of a bucket. -/
def bucketTtlMs (abuse : AbuseConfig) : Int :=
  max (saturatingMul (I64.ofU64 abuse.bucketTtlSecs) 1000) 1

/-- `AbuseSweepTask::run`. -/
def runSweep (ttlMs : Int) (b : Buckets) (tick : Int) : Buckets :=
  abuseSweep b (saturatingSub (saturatingMul tick 1000) ttlMs)

/-! ## Runs -/

/-- A request is charged under a policy, or the sweep of a tick runs. -/
inductive BucketAction where
  | charge (policy : PolicyId) (fp : Fingerprint) (now : Int) (fails : Bool)
  | sweep (tick now : Int)

def BucketAction.isCharge : BucketAction → Bool
  | .charge .. => true
  | .sweep .. => false

/-- The budgets that a request is charged to. -/
def selectedBudgets (gate : Gate) (policy : PolicyId) (fp : Fingerprint) : List (Key × Quota) :=
  ((gate.policies.get policy).map fun configured => configured.select fp).getD []

/-- A step, with what the checks of a request decide and how long they delay it. -/
def bucketStep (gate : Gate) (ttlMs : Int) (b : Buckets) :
    BucketAction → Buckets × List (Option (List Charge))
  | .charge policy fp now fails =>
    let x := b.abuseCheckAll policy (selectedBudgets gate policy fp) 1 now gate.retryCapMs fails
    (x.1, [x.2])
  | .sweep tick _ => (runSweep ttlMs b tick, [])

/-- What the requests of a run are told. -/
def told (gate : Gate) (ttlMs : Int) : Buckets → List BucketAction → List (Option (List Charge))
  | _, [] => []
  | b, a :: actions =>
    let x := bucketStep gate ttlMs b a
    x.2 ++ told gate ttlMs x.1 actions

/-- The run without its sweeps. -/
def unswept (actions : List BucketAction) : List BucketAction :=
  actions.filter BucketAction.isCharge

/-- The clock does not go back, and no sweep runs before its tick. -/
def Timely : Int → List BucketAction → Prop
  | _, [] => True
  | clock, .charge _ _ now _ :: actions => clock ≤ now ∧ now ≤ I64.maxValue ∧ Timely now actions
  | clock, .sweep tick now :: actions => clock ≤ now ∧ tick * 1000 ≤ now ∧ Timely now actions

instance decidableTimely : (clock : Int) → (actions : List BucketAction) →
    Decidable (Timely clock actions)
  | _, [] => isTrue trivial
  | clock, .charge _ _ now _ :: actions =>
    have := decidableTimely now actions
    inferInstanceAs (Decidable (clock ≤ now ∧ now ≤ I64.maxValue ∧ Timely now actions))
  | clock, .sweep tick now :: actions =>
    have := decidableTimely now actions
    inferInstanceAs (Decidable (clock ≤ now ∧ tick * 1000 ≤ now ∧ Timely now actions))

/-! ## Idle buckets -/

/-- The longest that a bucket can run ahead of its last charge. -/
def debtMs (q : Quota) : Int := (q.burst - 1 : Nat) * q.emissionMs + q.emissionMs

/-- A row at an instant, not further ahead of its last update than `debt`. -/
structure BucketRow.Within (debt clock : Int) (row : BucketRow) : Prop where
  ahead : row.tatMs ≤ row.updatedAtMs + debt
  fits : row.tatMs ≤ I64.maxValue
  since : 0 ≤ row.updatedAtMs
  past : row.updatedAtMs ≤ clock

/-- Of two tables that have seen the same requests, the second has forgotten only buckets that would
be full again. -/
structure Forgets (debt clock : Int) (b b' : Buckets) : Prop where
  within : ∀ p, ∀ row ∈ b p, BucketRow.Within debt clock row
  same : ∀ p, b' p = b p ∨ b' p = none ∧ ∀ row ∈ b p, row.tatMs ≤ clock

section
variable {debt clock now retryCapMs : Int} {b b' : Buckets} {g : Gcra} {q : Quota}

/-- A check leaves a bucket no further ahead of its instant than the debt. -/
theorem check_within (hdebt : debtMs q ≤ debt) (hnow : 0 ≤ now) (hmax : now ≤ I64.maxValue)
    (hg : ∀ tat ∈ g.tatMs, tat ≤ now + debt ∧ tat ≤ I64.maxValue) :
    ∀ tat ∈ (g.check q 1 now retryCapMs).1.tatMs, tat ≤ now + debt ∧ tat ≤ I64.maxValue := by
  cases hadmits : g.admits q now with
  | false =>
    rw [Gcra.check_of_refuses hadmits]
    exact hg
  | true =>
    rw [Gcra.check_of_admits hadmits]
    intro tat htat
    cases htat
    have harrival : g.arrival now ≤ I64.maxValue := by
      rw [Gcra.arrival]
      cases htat : g.tatMs with
      | none => simpa using hmax
      | some tat => exact max_le (hg tat htat).2 hmax
    have hahead := Gcra.arrival_le_of_admits harrival hadmits
    have hcost := q.costMs_one_le
    have hnonneg : 0 ≤ g.arrival now + q.costMs 1 := by
      have hcost : 0 ≤ q.costMs 1 := I64.saturate_nonneg
        (mul_nonneg (Int.natCast_nonneg _) (by have := q.emissionMs_pos; omega))
      have hle : now ≤ g.arrival now := Gcra.le_arrival
      omega
    have hle : saturatingAdd (g.arrival now) (q.costMs 1) ≤ g.arrival now + q.costMs 1 :=
      I64.saturate_le (le_trans (by decide) hnonneg)
    refine ⟨?_, I64.saturate_le_max _⟩
    unfold debtMs at hdebt
    omega

/-- A bucket that is not ahead of an instant is checked like one that is full. -/
theorem check_of_tatMs_le (hnow : 0 ≤ now) (h : ∀ tat ∈ g.tatMs, tat ≤ now) :
    g.check q 1 now retryCapMs = (Gcra.mk none).check q 1 now retryCapMs := by
  have harrival : g.arrival now = now := by
    rw [Gcra.arrival]
    cases htat : g.tatMs with
    | none => simp
    | some tat => exact max_eq_right (h tat htat)
  have hfull : (Gcra.mk none).arrival now = now := by simp [Gcra.arrival]
  have hadmits : g.admits q now = true := (Gcra.admits_iff hnow).mpr fun tat htat =>
    Gcra.saturatingSub_toleranceMs_le hnow (h tat htat)
  rw [Gcra.check_of_admits hadmits,
    Gcra.check_of_admits (Gcra.admits_of_tatMs_eq_none hnow rfl), Gcra.charged, Gcra.charged,
    harrival, hfull]

theorem gcra_within (hwithin : ∀ p, ∀ row ∈ b p, BucketRow.Within debt clock row)
    (hclock : clock ≤ now) {scope : PolicyId} {key : Key} :
    ∀ tat ∈ (b.gcra scope key).tatMs, tat ≤ now + debt ∧ tat ≤ I64.maxValue := by
  intro tat htat
  obtain ⟨row, hrow, rfl⟩ := Option.mem_map.mp htat
  have hwithin := hwithin _ row hrow
  have := hwithin.ahead
  have := hwithin.past
  exact ⟨by omega, hwithin.fits⟩

/-- Whether a bucket has been forgotten does not show in a check. -/
theorem Forgets.check_eq (h : Forgets debt clock b b') (hnow : 0 ≤ now) (hclock : clock ≤ now)
    {scope : PolicyId} {key : Key} : (b'.gcra scope key).check q 1 now retryCapMs =
      (b.gcra scope key).check q 1 now retryCapMs := by
  rcases h.same (scope, key) with hsame | ⟨hnone, hpaid⟩
  · rw [Buckets.gcra, hsame, Buckets.gcra]
  · have hfull : b'.gcra scope key = ⟨none⟩ := by rw [Buckets.gcra, hnone, Option.map_none]
    rw [hfull]
    refine (check_of_tatMs_le hnow fun tat htat => ?_).symm
    obtain ⟨row, hrow, rfl⟩ := Option.mem_map.mp htat
    exact (hpaid row hrow).trans hclock

theorem Forgets.charge (h : Forgets debt clock b b') (retryCapMs : Int) (scope : PolicyId)
    (hnow : 0 ≤ now) (hclock : clock ≤ now) (hmax : now ≤ I64.maxValue) {e : Key × Quota}
    (hdebt : debtMs e.2 ≤ debt) :
    (b'.charge scope 1 now retryCapMs e).2 = (b.charge scope 1 now retryCapMs e).2 ∧
      Forgets debt now (b.charge scope 1 now retryCapMs e).1
        (b'.charge scope 1 now retryCapMs e).1 := by
  have hcheck : (b'.gcra scope e.1).check e.2 1 now retryCapMs =
      (b.gcra scope e.1).check e.2 1 now retryCapMs := h.check_eq hnow hclock
  refine ⟨by rw [Buckets.charge_snd, Buckets.charge_snd, hcheck], ?_, fun p => ?_⟩
  · intro p row hrow
    by_cases hp : p = (scope, e.1)
    · subst hp
      obtain ⟨tat, htat⟩ : ∃ tat, ((b.gcra scope e.1).check e.2 1 now retryCapMs).1 = ⟨some tat⟩ :=
        Gcra.check_tatMs hnow
      have hbound : tat ≤ now + debt ∧ tat ≤ I64.maxValue :=
        check_within hdebt hnow hmax (gcra_within h.within hclock) tat (by rw [htat]; rfl)
      rw [Buckets.charge_self, htat] at hrow
      cases hrow
      exact ⟨hbound.1, hbound.2, hnow, le_refl now⟩
    · rw [Buckets.charge_apply p hp] at hrow
      have hwithin := h.within p row hrow
      exact ⟨hwithin.ahead, hwithin.fits, hwithin.since, hwithin.past.trans hclock⟩
  · by_cases hp : p = (scope, e.1)
    · subst hp
      left
      rw [Buckets.charge_self, Buckets.charge_self, hcheck]
    · rw [Buckets.charge_apply p hp, Buckets.charge_apply p hp]
      exact (h.same p).imp_right fun hforgot =>
        ⟨hforgot.1, fun row hrow => (hforgot.2 row hrow).trans hclock⟩

theorem Forgets.mono (h : Forgets debt clock b b') (hclock : clock ≤ now) :
    Forgets debt now b b' where
  within p row hrow :=
    have hwithin := h.within p row hrow
    ⟨hwithin.ahead, hwithin.fits, hwithin.since, hwithin.past.trans hclock⟩
  same p := (h.same p).imp_right fun hforgot =>
    ⟨hforgot.1, fun row hrow => (hforgot.2 row hrow).trans hclock⟩

theorem Forgets.chargeAll (h : Forgets debt now b b') (retryCapMs : Int) (scope : PolicyId)
    (hnow : 0 ≤ now) (hmax : now ≤ I64.maxValue) {budgets : List (Key × Quota)} (hdebt : ∀ e ∈ budgets, debtMs e.2 ≤ debt) :
    (b'.chargeAll scope 1 now retryCapMs budgets).2 = (b.chargeAll scope 1 now retryCapMs budgets).2 ∧
      Forgets debt now (b.chargeAll scope 1 now retryCapMs budgets).1
        (b'.chargeAll scope 1 now retryCapMs budgets).1 := by
  induction budgets generalizing b b' with
  | nil => exact ⟨rfl, h⟩
  | cons e budgets ih =>
    obtain ⟨he, hrest⟩ := List.forall_mem_cons.mp hdebt
    obtain ⟨hcharge, hnext⟩ := h.charge retryCapMs scope hnow le_rfl hmax he
    obtain ⟨hcharges, hlast⟩ := ih hnext hrest
    exact ⟨congrArg₂ List.cons hcharge hcharges, hlast⟩

/-- The sweep deletes what its lifetime has let run dry. -/
theorem Forgets.sweep {ttlMs tick : Int} (h : Forgets debt clock b b') (httl : debt ≤ ttlMs + 1)
    (hpos : 1 ≤ ttlMs) (htick : tick * 1000 ≤ clock) : Forgets debt clock b (runSweep ttlMs b' tick) where
  within := h.within
  same p := by
    rcases h.same p with hsame | hforgot
    · rw [runSweep, abuseSweep, hsame]
      cases hrow : b p with
      | none => exact .inl rfl
      | some row =>
        by_cases hidle : saturatingSub (saturatingMul tick 1000) ttlMs ≤ row.updatedAtMs
        · exact .inl (Option.filter_some_pos (decide_eq_true hidle))
        · refine .inr ⟨Option.filter_some_neg (by simpa using hidle), fun row' hrow' => ?_⟩
          cases hrow'
          have hwithin := h.within p row hrow
          have := hwithin.ahead
          have := hwithin.since
          have hcutoff := I64.saturate_le_of_pos
            (x := saturatingMul tick 1000 - ttlMs) (by unfold saturatingSub at hidle; omega)
          have hscaled := I64.saturate_le_of_pos (x := tick * 1000)
            (by unfold saturatingSub saturatingMul at hidle; unfold saturatingMul at hcutoff; omega)
          unfold saturatingSub at hidle
          unfold saturatingMul at hidle hcutoff
          omega
    · right
      rw [runSweep, abuseSweep, hforgot.1]
      exact ⟨rfl, hforgot.2⟩

/-- A sweep does not show in what later requests are told. -/
theorem Forgets.told_eq {gate : Gate} {ttlMs : Int} (httl : debt ≤ ttlMs + 1) (hpos : 1 ≤ ttlMs)
    (hdebt : ∀ policy fp, ∀ e ∈ selectedBudgets gate policy fp, debtMs e.2 ≤ debt)
    {actions : List BucketAction} (hclock : 0 ≤ clock) (htimely : Timely clock actions)
    (h : Forgets debt clock b b') :
    told gate ttlMs b' actions = told gate ttlMs b (unswept actions) := by
  induction actions generalizing b b' clock with
  | nil => rfl
  | cons a actions ih =>
    cases a with
    | charge policy fp now fails =>
      obtain ⟨hle, hmax, htimely⟩ := htimely
      have hnow := hclock.trans hle
      have hforgets := h.mono hle
      have hcons : unswept (.charge policy fp now fails :: actions) =
          .charge policy fp now fails :: unswept actions := rfl
      rw [hcons, told, told]
      cases fails with
      | true => exact congrArg _ (ih hnow htimely hforgets)
      | false =>
        obtain ⟨hcharges, hnext⟩ :=
          hforgets.chargeAll gate.retryCapMs policy hnow hmax (hdebt policy fp)
        exact congrArg₂ (· ++ ·) (congrArg (fun x => [some x]) hcharges) (ih hnow htimely hnext)
    | sweep tick now =>
      obtain ⟨hle, htick, htimely⟩ := htimely
      exact ih (hclock.trans hle) htimely ((h.mono hle).sweep httl hpos htick)

end

theorem quota_of_mem_selectedBudgets {ps : List Abuse.Policy} {retryCapMs : Int} {policy : PolicyId}
    {fp : Fingerprint} {e : Key × Quota} (he : e ∈ selectedBudgets ⟨⟨ps⟩, retryCapMs⟩ policy fp) :
    ∃ configured ∈ ps, ∃ budget ∈ configured.budgets, budget.quota = e.2 := by
  rw [selectedBudgets] at he
  cases hget : (Abuse.PolicySet.mk ps).get policy with
  | none =>
    rw [hget] at he
    exact absurd he List.not_mem_nil
  | some configured =>
    rw [hget] at he
    obtain ⟨budget, hbudget, hkey⟩ := List.mem_filterMap.mp he
    obtain ⟨key, -, rfl⟩ := Option.map_eq_some_iff.mp hkey
    exact ⟨configured, List.mem_of_find?_eq_some hget, budget, hbudget, rfl⟩

/-- Sweeps are invisible if no installed quota takes longer to run dry than an idle bucket lives. -/
theorem sweep_invisible {abuse : AbuseConfig} {account : AccountBudgets}
    (hdebt : ∀ policy ∈ policies (some abuse) account, ∀ budget ∈ policy.budgets,
      debtMs budget.quota ≤ bucketTtlMs abuse + 1)
    {clock : Int} (hclock : 0 ≤ clock) {actions : List BucketAction} (htimely : Timely clock actions) :
    told (gate (some abuse) account) (bucketTtlMs abuse) (fun _ => none) actions =
      told (gate (some abuse) account) (bucketTtlMs abuse) (fun _ => none) (unswept actions) := by
  have hempty : Forgets (bucketTtlMs abuse + 1) clock (fun _ => none) (fun _ => none) := by
    refine ⟨fun _ _ hrow => ?_, fun _ => .inl rfl⟩
    cases hrow
  refine hempty.told_eq le_rfl (le_max_right _ _) (fun policy fp e he => ?_) hclock htimely
  obtain ⟨configured, hconfigured, budget, hbudget, hquota⟩ := quota_of_mem_selectedBudgets he
  rw [← hquota]
  exact hdebt configured hconfigured budget hbudget

namespace BucketSweep.Sample

def request (now : Int) : BucketAction :=
  .charge ⟨"relay-web"⟩ ⟨[⟨.peerHost, 1⟩, ⟨.peerNetwork, 2⟩]⟩ now false

/-- Two requests at once and then one an hour for each host. -/
def slow : AbuseConfig := { peerHost := ⟨2, 1, 3600⟩ }

/-- Two requests before midnight and two at midnight. -/
def night : List BucketAction :=
  [request 80000000, request 80000000, .sweep 86400 86400000, request 86400000, request 86400000]

end BucketSweep.Sample

theorem sweep_invisible_default : told (gate (some {}) {}) (bucketTtlMs {}) (fun _ => none)
      BucketSweep.Sample.night =
    told (gate (some {}) {}) (bucketTtlMs {}) (fun _ => none) (unswept BucketSweep.Sample.night) :=
  sweep_invisible (by decide +kernel) (le_refl 0) (by decide)

/-- The sweep of midnight deletes a bucket that is ahead until past midnight: the last request is
admitted, and would be refused without it. -/
theorem sweep_forgets_debt : validateAbuseConfig BucketSweep.Sample.slow = [] ∧
    Timely 0 BucketSweep.Sample.night ∧
    told (gate (some BucketSweep.Sample.slow) {}) (bucketTtlMs BucketSweep.Sample.slow)
        (fun _ => none) BucketSweep.Sample.night ≠
      told (gate (some BucketSweep.Sample.slow) {}) (bucketTtlMs BucketSweep.Sample.slow)
        (fun _ => none) (unswept BucketSweep.Sample.night) := by
  decide +kernel

end TunnelWeaver.Server
