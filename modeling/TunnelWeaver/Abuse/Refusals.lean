import TunnelWeaver.Abuse.Admission

/-! What a refused request has cost, and whether it may come back when it was told to. -/

namespace TunnelWeaver.Abuse

namespace Refusals.Sample

/-- One request a second for a host, and two at once and then one every 5 s for its network. -/
def gate : Gate where
  policies := ⟨[⟨⟨"relay-web"⟩, [⟨.peerHost, ⟨1, 1, 1000⟩⟩, ⟨.peerNetwork, ⟨2, 1, 5000⟩⟩], .degraded⟩]⟩
  retryCapMs := 600000

def fp : Fingerprint := ⟨[⟨.peerHost, 1⟩, ⟨.peerNetwork, 2⟩]⟩

def request (b : Buckets) (now : Int) : Buckets × Except GateError Unit :=
  gate.admitAt b ⟨"relay-web"⟩ fp 1 now false

/-- After a first request. -/
def used : Buckets := (request (fun _ => none) 0).1

def hostOnly : Gate where
  policies := ⟨[⟨⟨"relay-web"⟩, [⟨.peerHost, ⟨1, 1, 1000⟩⟩], .degraded⟩]⟩
  retryCapMs := 600000

/-- After a first request to the gate that has the budget of the host alone. -/
def hostUsed : Buckets := (hostOnly.admitAt (fun _ => none) ⟨"relay-web"⟩ fp 1 0 false).1

end Refusals.Sample

section
variable {gate : Gate} {b : Buckets} {policy : PolicyId} {configured : Policy} {fp : Fingerprint}
  {cost : Nat} {now : Int} {fails : Bool}

/-! ## All or nothing -/

/-- A throttled request leaves every bucket as it was, an admitted one charges each selected bucket
once and no other, and a failing store keeps its rows. -/
def AllOrNothing (gate : Gate) (b : Buckets) (policy : PolicyId) (configured : Policy)
    (fp : Fingerprint) (cost : Nat) (now : Int) (fails : Bool) : Prop :=
  let x := gate.admitAt b policy fp cost now fails
  ((∃ r, x.2 = .error (.throttled policy r)) → ∀ scope key, x.1.gcra scope key = b.gcra scope key) ∧
  (x.2 = .ok () →
    (∀ e ∈ configured.select fp,
      x.1.gcra policy e.1 = (b.gcra policy e.1).charged e.2 cost now) ∧
    ∀ scope key, (∀ e ∈ configured.select fp, (scope, key) ≠ (policy, e.1)) →
      x.1.gcra scope key = b.gcra scope key) ∧
  ((∃ decision, x.2 = .error (.store policy decision)) → x.1 = b)

/-- Where one selected bucket refuses, a charge leaves those that admit as they are. -/
def LeavesAdmitting (b : Buckets) (policy : PolicyId) (selected : List (Key × Quota)) (cost : Nat)
    (now : Int) : Prop :=
  (∃ e ∈ selected, b.admits policy now e = false) → ∀ e ∈ selected, b.admits policy now e = true →
    (b.gcra policy e.1).charged e.2 cost now = b.gcra policy e.1

section
variable (hget : gate.policies.get policy = some configured)
  (hdistinct : (configured.budgets.map (·.key)).Nodup) (hnow : 0 ≤ now)
include hget hdistinct hnow

theorem exists_throttled_iff :
    (∃ r, (gate.admitAt b policy fp cost now false).2 = .error (.throttled policy r)) ↔
      ∃ e ∈ configured.select fp, b.admits policy now e = false := by
  constructor
  · rintro ⟨r, hr⟩
    obtain ⟨⟨e, he, hrefuses, -⟩, -⟩ := (Gate.admitAt_throttled_iff hget hdistinct hnow).mp hr
    exact ⟨e, he, hrefuses⟩
  · rintro ⟨e, he, hrefuses⟩
    refine (Gate.admitAt_cases hget).resolve_left fun hok => ?_
    have hadmits := (Gate.admitAt_ok_iff hget hdistinct hnow).mp hok e he
    exact Bool.false_ne_true (hrefuses.symm.trans hadmits)

/-- What a throttled request leaves as it was. -/
theorem unchanged_iff : (∀ scope key,
    (gate.admitAt b policy fp cost now false).1.gcra scope key = b.gcra scope key) ↔
      ∀ e ∈ configured.select fp, b.admits policy now e = true →
        (b.gcra policy e.1).charged e.2 cost now = b.gcra policy e.1 := by
  constructor
  · intro h e he hadmits
    have heq := h policy e.1
    rwa [Gate.gcra_admitAt hget hdistinct hnow he, if_pos hadmits] at heq
  · intro h scope key
    by_cases hmem : ∀ e ∈ configured.select fp, (scope, key) ≠ (policy, e.1)
    · exact Gate.gcra_admit_of_not_mem hget hmem
    · obtain ⟨e, hmem⟩ := not_forall.mp hmem
      obtain ⟨he, heq⟩ := Classical.not_imp.mp hmem
      cases not_not.mp heq
      rw [Gate.gcra_admitAt hget hdistinct hnow he]
      split
      · next hadmits => exact h e he hadmits
      · rfl

theorem charged_of_ok (hok : (gate.admitAt b policy fp cost now false).2 = .ok ()) :
    ∀ e ∈ configured.select fp, (gate.admitAt b policy fp cost now false).1.gcra policy e.1 =
      (b.gcra policy e.1).charged e.2 cost now := by
  intro e he
  rw [Gate.gcra_admitAt hget hdistinct hnow he,
    if_pos ((Gate.admitAt_ok_iff hget hdistinct hnow).mp hok e he)]

end

/-- A request is charged all or nothing if the store fails, or a refusal comes with no charge to the
budgets that admit. -/
theorem allOrNothing_iff (hget : gate.policies.get policy = some configured)
    (hdistinct : (configured.budgets.map (·.key)).Nodup) (hnow : 0 ≤ now) :
    AllOrNothing gate b policy configured fp cost now fails ↔
      (fails = false → LeavesAdmitting b policy (configured.select fp) cost now) := by
  cases fails with
  | false =>
    constructor
    · rintro ⟨hthrottled, -, -⟩ - hrefuses
      exact (unchanged_iff hget hdistinct hnow).mp
        (hthrottled ((exists_throttled_iff hget hdistinct hnow).mpr hrefuses))
    · intro hleaves
      refine ⟨fun hthrottled => ?_, fun hok => ⟨charged_of_ok hget hdistinct hnow hok, ?_⟩, ?_⟩
      · exact (unchanged_iff hget hdistinct hnow).mpr
          (hleaves rfl ((exists_throttled_iff hget hdistinct hnow).mp hthrottled))
      · exact fun scope key hkey => Gate.gcra_admit_of_not_mem hget hkey
      · rintro ⟨decision, hstore⟩
        rcases Gate.admitAt_cases hget with hok | ⟨r, hr⟩
        · cases hok.symm.trans hstore
        · cases hr.symm.trans hstore
  | true =>
    refine iff_of_true ?_ fun h => by cases h
    rw [AllOrNothing, Gate.admitAt_of_fails hget]
    refine ⟨fun _ _ _ => rfl, fun hok => ?_, fun _ => rfl⟩
    split at hok
    · next hselect =>
      rw [hselect]
      exact ⟨fun _ he => absurd he List.not_mem_nil, fun _ _ _ => rfl⟩
    · cases hok

theorem allOrNothing_first_request : AllOrNothing Refusals.Sample.gate (fun _ => none)
    ⟨"relay-web"⟩ ⟨⟨"relay-web"⟩, [⟨.peerHost, ⟨1, 1, 1000⟩⟩, ⟨.peerNetwork, ⟨2, 1, 5000⟩⟩], .degraded⟩
    Refusals.Sample.fp 1 0 false :=
  (allOrNothing_iff rfl (by decide) (by decide)).mpr fun _ hrefuses => absurd hrefuses (by decide)

/-- A second request is refused by the budget of the host, and charges that of the network. -/
theorem refused_request_charges_network :
    (Refusals.Sample.request Refusals.Sample.used 0).2 =
        .error (.throttled ⟨"relay-web"⟩ 1000) ∧
      Refusals.Sample.used.gcra ⟨"relay-web"⟩ ⟨.peerNetwork, 2⟩ = ⟨some 5000⟩ ∧
      (Refusals.Sample.request Refusals.Sample.used 0).1.gcra ⟨"relay-web"⟩ ⟨.peerNetwork, 2⟩ =
        ⟨some 10000⟩ :=
  ⟨rfl, rfl, rfl⟩

/-! ## Retrying -/

/-- The cap cuts no delay of the refusals. -/
def Uncapped (gate : Gate) (b : Buckets) (policy : PolicyId) (selected : List (Key × Quota))
    (now : Int) : Prop :=
  ∀ e ∈ selected, b.admits policy now e = false →
    (b.gcra policy e.1).allowAt e.2 now - now ≤ max gate.retryCapMs 1

/-- A budget that admitted is ready again, after the charge of the refused request, as soon as some
budget that refused is. -/
def ReadyAgain (b : Buckets) (policy : PolicyId) (selected : List (Key × Quota)) (cost : Nat)
    (now : Int) : Prop :=
  ∀ e ∈ selected, b.admits policy now e = true →
    ∃ e' ∈ selected, b.admits policy now e' = false ∧
      ((b.gcra policy e.1).charged e.2 cost now).allowAt e.2 now ≤
        (b.gcra policy e'.1).allowAt e'.2 now

section
variable (hget : gate.policies.get policy = some configured)
  (hdistinct : (configured.budgets.map (·.key)).Nodup) (hnow : 0 ≤ now) {r : Int}
  (hthrottled : (gate.admitAt b policy fp cost now false).2 = .error (.throttled policy r))
  (hcap : Uncapped gate b policy (configured.select fp) now)
include hget hdistinct hnow hthrottled hcap

/-- The delay is the longest that a refusing budget asks for. -/
theorem allowAt_le : (∃ e ∈ configured.select fp, b.admits policy now e = false ∧
      (b.gcra policy e.1).allowAt e.2 now = now + r) ∧
    ∀ e ∈ configured.select fp, b.admits policy now e = false →
      (b.gcra policy e.1).allowAt e.2 now ≤ now + r := by
  obtain ⟨⟨e, he, hrefuses, hr⟩, hle⟩ := (Gate.admitAt_throttled_iff hget hdistinct hnow).mp hthrottled
  have hdelay {e : Key × Quota} (he : e ∈ configured.select fp)
      (h : b.admits policy now e = false) : (b.gcra policy e.1).retryAfter e.2 now gate.retryCapMs =
        (b.gcra policy e.1).allowAt e.2 now - now := Gcra.retryAfter_eq hnow h (hcap e he h)
  refine ⟨⟨e, he, hrefuses, ?_⟩, fun e' he' hrefuses' => ?_⟩
  · have := hdelay he hrefuses
    omega
  · have := hdelay he' hrefuses'
    have := hle e' he' hrefuses'
    omega

omit hthrottled hcap in
/-- A budget that refused admits again from when it allows. -/
theorem admits_again_iff {e : Key × Quota} (he : e ∈ configured.select fp)
    (hrefuses : b.admits policy now e = false) {t : Int} (ht : 0 ≤ t) :
    (gate.admitAt b policy fp cost now false).1.admits policy t e = true ↔
      (b.gcra policy e.1).allowAt e.2 now ≤ t := by
  obtain ⟨tat, htat, -⟩ := (Gcra.refuses_iff hnow).mp hrefuses
  rw [Buckets.admits, Gate.gcra_admitAt hget hdistinct hnow he, if_neg (by simp [hrefuses]),
    Gcra.admits_iff ht, htat, Gcra.allowAt_of_refuses hnow hrefuses htat]
  simp

omit hcap hthrottled in
/-- A budget that admitted, and was charged, admits again from when its new arrival time allows. -/
theorem admits_after_charge_iff {e : Key × Quota} (he : e ∈ configured.select fp)
    (hadmits : b.admits policy now e = true) (hmax : now ≤ I64.maxValue) {t : Int} (ht : 0 ≤ t) :
    (gate.admitAt b policy fp cost now false).1.admits policy t e = true ↔
      ((b.gcra policy e.1).charged e.2 cost now).allowAt e.2 now ≤ t := by
  rw [Buckets.admits, Gate.gcra_admitAt hget hdistinct hnow he, if_pos hadmits]
  exact Gcra.charged_admits_iff hnow hmax ht

/-- A refused request that comes back when it was told to is admitted if every budget that admitted is
ready again by then. With a single budget, it is refused if it comes back earlier. -/
theorem retry_admitted_iff :
    ((gate.admitAt (gate.admitAt b policy fp cost now false).1 policy fp cost (now + r) false).2 = .ok () ↔
      ReadyAgain b policy (configured.select fp) cost now) ∧
    ∀ e, configured.select fp = [e] → ∀ t, 0 ≤ t → t < now + r →
      ∃ r', (gate.admitAt (gate.admitAt b policy fp cost now false).1 policy fp cost t false).2 =
        .error (.throttled policy r') := by
  obtain ⟨⟨e₀, he₀, hrefuses₀, hr⟩, hle⟩ := allowAt_le hget hdistinct hnow hthrottled hcap
  have hlt : now < now + r := by
    rw [← hr]
    exact not_le.mp (decide_eq_false_iff_not.mp hrefuses₀)
  have hmax : now ≤ I64.maxValue := by
    have hallow : (b.gcra policy e₀.1).allowAt e₀.2 now ≤ I64.maxValue := I64.saturate_le_max _
    omega
  have ht : 0 ≤ now + r := by omega
  constructor
  · rw [Gate.admitAt_ok_iff hget hdistinct ht]
    constructor
    · intro hall e he hadmits
      refine ⟨e₀, he₀, hrefuses₀, ?_⟩
      rw [hr]
      exact (admits_after_charge_iff hget hdistinct hnow he hadmits hmax ht).mp (hall e he)
    · intro hready e he
      cases hadmits : b.admits policy now e with
      | true =>
        obtain ⟨e', he', hrefuses', hbefore⟩ := hready e he hadmits
        rw [admits_after_charge_iff hget hdistinct hnow he hadmits hmax ht]
        exact hbefore.trans (hle e' he' hrefuses')
      | false =>
        rw [admits_again_iff hget hdistinct hnow he hadmits ht]
        exact hle e he hadmits
  · intro e hselect t ht' hearly
    rw [exists_throttled_iff hget hdistinct ht']
    refine ⟨e₀, he₀, ?_⟩
    rw [← Bool.not_eq_true, admits_again_iff hget hdistinct hnow he₀ hrefuses₀ ht', hr]
    omega

end

end

theorem retry_admitted_host_only :
    ((Refusals.Sample.hostOnly.admitAt (Refusals.Sample.hostOnly.admitAt Refusals.Sample.hostUsed
      ⟨"relay-web"⟩ Refusals.Sample.fp 1 0 false).1 ⟨"relay-web"⟩ Refusals.Sample.fp 1 (0 + 1000)
      false).2 = .ok () ↔
      ReadyAgain Refusals.Sample.hostUsed ⟨"relay-web"⟩ [(⟨.peerHost, 1⟩, ⟨1, 1, 1000⟩)] 1 0) ∧
    ∃ r, (Refusals.Sample.hostOnly.admitAt (Refusals.Sample.hostOnly.admitAt Refusals.Sample.hostUsed
      ⟨"relay-web"⟩ Refusals.Sample.fp 1 0 false).1 ⟨"relay-web"⟩ Refusals.Sample.fp 1 999 false).2 =
        .error (.throttled ⟨"relay-web"⟩ r) := by
  have hget : Refusals.Sample.hostOnly.policies.get ⟨"relay-web"⟩ =
      some ⟨⟨"relay-web"⟩, [⟨.peerHost, ⟨1, 1, 1000⟩⟩], .degraded⟩ := rfl
  have hthrottled : (Refusals.Sample.hostOnly.admitAt Refusals.Sample.hostUsed ⟨"relay-web"⟩
      Refusals.Sample.fp 1 0 false).2 = .error (.throttled ⟨"relay-web"⟩ 1000) := rfl
  have hcap : Uncapped Refusals.Sample.hostOnly Refusals.Sample.hostUsed ⟨"relay-web"⟩
      [(⟨.peerHost, 1⟩, ⟨1, 1, 1000⟩)] 0 := by
    unfold Uncapped
    decide
  obtain ⟨hlater, hearlier⟩ := retry_admitted_iff hget (by decide) (le_refl 0) hthrottled hcap
  exact ⟨hlater, hearlier _ rfl 999 (by decide) (by decide)⟩

/-- The second request is told to come back in a second, and is refused then: it has charged the
budget of the network, which is 5 s ahead by then. -/
theorem refused_when_told_to_come_back :
    (Refusals.Sample.request Refusals.Sample.used 0).2 =
        .error (.throttled ⟨"relay-web"⟩ 1000) ∧
      (Refusals.Sample.request (Refusals.Sample.request Refusals.Sample.used 0).1 1000).2 =
        .error (.throttled ⟨"relay-web"⟩ 4000) :=
  ⟨rfl, rfl⟩

end TunnelWeaver.Abuse
