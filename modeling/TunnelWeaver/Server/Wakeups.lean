import TunnelWeaver.Server.Waiters

/-! The renewal job and its schedule. When it wakes is planned from the states and the stored rows;
what it orders then is decided from the rows alone. -/

namespace TunnelWeaver.Server

variable {C : Type}

/-- What `get_certificate` answers. -/
abbrev Rows (C : Type) := C → Except String (Option IssuedCertificate)

/-! ## The schedule -/

/-- The earlier of two instants, if any. -/
def earlier : Option Int → Option Int → Option Int
  | some a, some b => some (min a b)
  | a, b => a.or b

/-- When a certificate next needs the job. -/
def wakeAt (status : C → CertState) (read : Rows C) (c : C) : Option Int :=
  match status c with
  | .failed _ nextRetry => some nextRetry
  | _ =>
    match read c with
    | .ok (some row) => some (renewalAt row.notBefore row.notAfter)
    | _ => none

def nextRenewalAt (status : C → CertState) (read : Rows C) (all : List C) : Option Int :=
  all.foldl (fun earliest c => earlier earliest (wakeAt status read c)) none

/-- `UNKNOWN_RECHECK`. -/
def unknownRecheck : Int := 86400

/-- `CertRenewalTask::next_tick`; `planned` is what `next_renewal_at` says. -/
def nextTick (lastTick : Option Int) (now : Int) (planned : Option Int) : Int :=
  match lastTick with
  | none => now
  | some _ =>
    match planned with
    | some wake => if now < wake then wake else now + asI64 (computeBackoff 1 none)
    | none => now + unknownRecheck

/-! ## The job -/

/-- The job orders a certificate at a tick. -/
def eligible (read : Rows C) (tick : Int) (c : C) : Bool :=
  match read c with
  | .ok (some row) => shouldRenew row.notBefore row.notAfter tick
  | _ => false

/-- The certificates that `renew_eligible_at` orders, by what it reads of each. -/
def renewEligibleAt (read : Rows C) (tick : Int) (all : List C) : List C :=
  all.filter (eligible read tick)

/-- This is what a job does with the next certificate. -/
theorem CertManager.go_job [DecidableEq C] [CertifiedKeys] (m : CertManager C) (i : Nat) (tick : Int)
    (c : C) (rest : List C) : ∃ t, m.go i (.job tick (c :: rest)) = some (m.put i t) ∧
      (if eligible (fun c => .ok (m.rows c)) tick c then ∃ notAfter, t = .found tick c notAfter rest
        else t = .job tick rest) := by
  cases hrow : m.rows c with
  | none =>
    refine ⟨.job tick rest, by simp only [go, hrow], ?_⟩
    simp [eligible, hrow]
  | some row =>
    refine ⟨if shouldRenew row.notBefore row.notAfter tick then .found tick c row.notAfter rest
      else .job tick rest, by simp only [go, hrow], ?_⟩
    simp only [eligible, hrow]
    split
    · exact ⟨row.notAfter, rfl⟩
    · rfl

/-- A third of a lifetime is not too far below zero. -/
theorem third_ge (a b : Int) : -2 ^ 63 ≤ 3 * (saturatingSub a b).tdiv 3 := by
  have h : -2 ^ 63 ≤ saturatingSub a b := le_max_left ..
  have hsign : Int.sign 3 = 1 := rfl
  rw [Int.tdiv_eq_ediv, hsign]
  split <;> omega

/-- A certificate with a stored row is in its window sooner or later. -/
theorem shouldRenew_of_late {notBefore notAfter now : Int} (h : notAfter + 2 ^ 63 ≤ now) :
    shouldRenew notBefore notAfter now = true := by
  have hthird := third_ge notAfter notBefore
  simp only [shouldRenew, decide_eq_true_eq]
  generalize (saturatingSub notAfter notBefore).tdiv 3 = third at *
  simp only [saturatingSub, i64Max, max_le_iff, min_le_iff] at *
  omega

theorem mem_renewEligibleAt {read : Rows C} {tick : Int} {all : List C} {c : C} (hc : c ∈ all) :
    c ∈ renewEligibleAt read tick all ↔
      ∃ row, read c = .ok (some row) ∧ shouldRenew row.notBefore row.notAfter tick = true := by
  rw [renewEligibleAt, List.mem_filter, and_iff_right hc, eligible]
  constructor
  · intro h
    split at h
    · rename_i row hrow
      exact ⟨row, hrow, h⟩
    · cases h
  · rintro ⟨row, hrow, h⟩
    rw [hrow]
    exact h

/-! ## Wake-ups for a failed certificate -/

theorem earlier_le {a b : Option Int} {x : Int} (h : a = some x ∨ b = some x) :
    ∃ y ≤ x, earlier a b = some y := by
  cases a with
  | none =>
    cases b with
    | none => rcases h with h | h <;> cases h
    | some b =>
      rcases h with h | h
      · cases h
      · exact ⟨b, (Option.some.inj h).le, rfl⟩
  | some a =>
    cases b with
    | none =>
      rcases h with h | h
      · exact ⟨a, (Option.some.inj h).le, rfl⟩
      · cases h
    | some b =>
      refine ⟨min a b, ?_, rfl⟩
      rcases h with h | h
      · exact (min_le_left a b).trans (Option.some.inj h).le
      · exact (min_le_right a b).trans (Option.some.inj h).le

theorem foldl_earlier_le {status : C → CertState} {read : Rows C} {all : List C} {x : Int}
    (acc : Option Int) (h : acc = some x ∨ ∃ c ∈ all, wakeAt status read c = some x) :
    ∃ y ≤ x, all.foldl (fun earliest c => earlier earliest (wakeAt status read c)) acc = some y := by
  induction all generalizing acc x with
  | nil =>
    rcases h with h | ⟨c, hc, _⟩
    · exact ⟨x, le_rfl, h⟩
    · cases hc
  | cons c all ih =>
    rw [List.foldl_cons]
    rcases h with h | ⟨c', hc', hwake⟩
    · obtain ⟨y, hy, heq⟩ := earlier_le (b := wakeAt status read c) (.inl h)
      obtain ⟨z, hz, hfold⟩ := ih _ (.inl heq)
      exact ⟨z, hz.trans hy, hfold⟩
    · rcases List.mem_cons.mp hc' with rfl | hc'
      · obtain ⟨y, hy, heq⟩ := earlier_le (a := acc) (.inr hwake)
        obtain ⟨z, hz, hfold⟩ := ih _ (.inl heq)
        exact ⟨z, hz.trans hy, hfold⟩
      · exact ih _ (.inr ⟨c', hc', hwake⟩)

/-- A failed certificate whose retry is due is overdue for the schedule. -/
theorem nextTick_of_failed {status : C → CertState} {read : Rows C} {all : List C} {c : C}
    {error : String} {nextRetry last now : Int} (hc : c ∈ all)
    (hst : status c = .failed error nextRetry) (hnow : nextRetry ≤ now) :
    nextTick (some last) now (nextRenewalAt status read all) = now + 3600 := by
  have hwake : wakeAt status read c = some nextRetry := by rw [wakeAt, hst]
  obtain ⟨y, hy, hplan⟩ := foldl_earlier_le none (.inr ⟨c, hc, hwake⟩)
  have hbackoff : asI64 (computeBackoff 1 none) = 3600 := by decide
  rw [nextRenewalAt, hplan, nextTick, if_neg (not_lt.mpr (hy.trans hnow)), hbackoff]

/-- The job wakes for a certificate whose last order failed, at its retry time, and then again and
again while the certificate stays as it is: the first time it is ordered if and only if its row is
stored and in the renewal window, and at some time if and only if its row is stored. -/
theorem retried_iff {all : List C} {status : C → CertState} {read : Rows C} {c : C} {error : String}
    {tick : Int} (hc : c ∈ all) (hst : status c = .failed error tick) :
    (c ∈ renewEligibleAt read tick all ↔
      ∃ row, read c = .ok (some row) ∧ shouldRenew row.notBefore row.notAfter tick = true) ∧
    ∀ ticks dones : Nat → Int, ticks 0 = tick → (∀ k, ticks k ≤ dones k) →
      (∀ k, ticks (k + 1) = nextTick (some (ticks k)) (dones k) (nextRenewalAt status read all)) →
      ((∃ k, c ∈ renewEligibleAt read (ticks k) all) ↔ ∃ row, read c = .ok (some row)) := by
  refine ⟨mem_renewEligibleAt hc, fun ticks dones hzero hdones hnext => ?_⟩
  have hgrow (k : Nat) : tick + 3600 * k ≤ ticks k := by
    induction k with
    | zero => simp [hzero]
    | succ k ih =>
      have hk := hdones k
      rw [hnext k, nextTick_of_failed hc hst (by omega)]
      push_cast
      omega
  constructor
  · rintro ⟨k, hk⟩
    obtain ⟨row, hrow, _⟩ := (mem_renewEligibleAt hc).mp hk
    exact ⟨row, hrow⟩
  · rintro ⟨row, hrow⟩
    refine ⟨(row.notAfter + 2 ^ 63 - tick).toNat, (mem_renewEligibleAt hc).mpr ⟨row, hrow, ?_⟩⟩
    refine shouldRenew_of_late ?_
    have hk := hgrow (row.notAfter + 2 ^ 63 - tick).toNat
    omega

namespace CertManager.Sample

/-- The admin certificate is in order; the last order of the tunnels' failed. -/
def broken (c : ManagedCert) : CertState :=
  if c = domains.tunnelCert then .failed "busy" 3600 else .issued 9000000

def rows (tunnel : Option IssuedCertificate) : Rows ManagedCert := fun c =>
  .ok (if c = domains.tunnelCert then tunnel else some ⟨"chain", "key", 0, 9000000⟩)

theorem retried_expiring :
    domains.tunnelCert ∈ renewEligibleAt (rows (some ⟨"chain", "key", 0, 4000⟩)) 3600 domains.managed :=
  (retried_iff (List.mem_cons_of_mem _ List.mem_cons_self)
    (show broken domains.tunnelCert = .failed "busy" 3600 by decide +kernel)).1.mpr
    ⟨⟨"chain", "key", 0, 4000⟩, by rw [rows, if_pos rfl], by decide⟩

/-- The job wakes for a certificate that was never stored, or one that is outside its window, and does
not order it. -/
theorem unretried_unstored :
    nextRenewalAt broken (rows none) domains.managed = some 3600 ∧
    domains.tunnelCert ∉ renewEligibleAt (rows none) 3600 domains.managed ∧
    nextTick (some 3600) 3600 (nextRenewalAt broken (rows none) domains.managed) = 7200 ∧
    domains.tunnelCert ∉ renewEligibleAt (rows none) 7200 domains.managed ∧
    nextRenewalAt broken (rows (some ⟨"chain", "key", 0, 9000000⟩)) domains.managed = some 3600 ∧
    domains.tunnelCert ∉
      renewEligibleAt (rows (some ⟨"chain", "key", 0, 9000000⟩)) 3600 domains.managed := by
  decide +kernel

end CertManager.Sample

end TunnelWeaver.Server
