import TunnelWeaver.Server.OneOrder
import TunnelWeaver.Server.Wakeups

/-! The backoff after a failed order. Visits and the console look at the retry time before they order;
the renewal job does not, and who has looked may come to order after a failure it did not see. -/

namespace TunnelWeaver.Server

variable {C : Type}

/-- The failure that the next step of a task records: the certificate and its retry time. -/
def CertTask.failure : CertTask C → Option (C × Int)
  | .order ⟨c, _, .failing _ nextRetry⟩ => some (c, nextRetry)
  | _ => none

/-- The certificate that the renewal job takes up next. -/
def CertTask.takesUp : CertTask C → Option C
  | .found _ c _ _ => some c
  | _ => none

variable [DecidableEq C]

/-- A task that orders a certificate, or will without another look at its retry time. -/
def CertTask.presses (c : C) : CertTask C → Bool
  | .calling _ c' => decide (c' = c)
  | .ensuring _ c' => decide (c' = c)
  | .inspecting c' _ => decide (c' = c)
  | .asking c' force => decide (c' = c) && force
  | .agreed c' _ => decide (c' = c)
  | .announcing c' _ _ => decide (c' = c)
  | .order ⟨_, _, .reporting _⟩ => false
  | .order o => decide (o.cert = c)
  | _ => false

namespace CertManager

/-- The next step of a task begins an order of the certificate. -/
def PlacesOrder (m : CertManager C) (c : C) : CertAction C → Prop
  | .go i => ∃ t, m.tasks[i]? = some t ∧ (t.renews = some c ∨ t.ensures = some c ∧ m.inFlight c = none)
  | _ => False

/-- The renewal job does not take up what is backing off, and an order fails while nothing else is on
its way to order its certificate. -/
def Patient (m : CertManager C) : CertAction C → Prop
  | .go i => ∀ t ∈ m.tasks[i]?, (∀ c ∈ t.takesUp, m.backingOff c = false) ∧
    ∀ f ∈ t.failure, ∀ j < m.tasks.length, j ≠ i → ∀ t' ∈ m.tasks[j]?, t'.presses f.1 = false
  | _ => True

instance (m : CertManager C) (a : CertAction C) : Decidable (m.Patient a) :=
  match a with
  | .go i => inferInstanceAs (Decidable (∀ t ∈ m.tasks[i]?,
    (∀ c ∈ t.takesUp, m.backingOff c = false) ∧
    ∀ f ∈ t.failure, ∀ j < m.tasks.length, j ≠ i → ∀ t' ∈ m.tasks[j]?, t'.presses f.1 = false))
  | .tick _ | .ensure _ | .eager _ | .visit _ | .renew _ _ | .job _ => isTrue trivial
  | .storeFails _ | .answer _ _ | .timeout _ => isTrue trivial

end CertManager

/-- A manager, with the retry time that the last failure of a certificate recorded, until a
registration calls for it or a renewal is forced. -/
structure Retries (C : Type) where
  manager : CertManager C
  due : C → Option Int

namespace Retries

/-- What a step makes of the retry times. -/
def noted (K : Catalog C) (s : Retries C) : CertAction C → C → Option Int
  | .ensure host =>
    match K.certNameFor host with
    | some c => Function.update s.due c none
    | none => s.due
  | .renew host true =>
    match K.certNameFor host with
    | some c => Function.update s.due c none
    | none => s.due
  | .go i =>
    match s.manager.tasks[i]?.bind (·.failure) with
    | some f => Function.update s.due f.1 (some f.2)
    | none => s.due
  | _ => s.due

variable [CertifiedKeys]

def step (K : Catalog C) (s : Retries C) (a : CertAction C) : Option (Retries C) :=
  (s.manager.step K a).map fun manager => ⟨manager, s.noted K a⟩

def init (K : Catalog C) (rows : C → Option IssuedCertificate) (now : Int) : Retries C :=
  ⟨CertManager.init K rows now, fun _ => none⟩

def run (K : Catalog C) (s : Retries C) (actions : List (CertAction C)) : Option (Retries C) :=
  Automaton.run (step K) s actions

omit [CertifiedKeys] in
/-- No visit is ahead of the clock, and while a certificate is backing off nothing presses for it. -/
structure Waits (s : Retries C) (c : C) : Prop where
  visits : ∀ now, .visiting c now ∈ s.manager.tasks → now ≤ s.manager.now
  due : ∀ nextRetry, s.due c = some nextRetry → s.manager.now < nextRetry →
    (∃ error, s.manager.status c = .failed error nextRetry) ∧
      ∀ t ∈ s.manager.tasks, t.presses c = false

end Retries

namespace CertManager

variable {K : Catalog C} {m m' : CertManager C} {a : CertAction C} {c c' : C} {t t' : CertTask C}
  {i : Nat}

omit [DecidableEq C] in
theorem backingOff_of_failed {error : String} {nextRetry : Int}
    (hst : m.status c = .failed error nextRetry) (hnow : m.now < nextRetry) :
    m.backingOff c = true := by
  rw [backingOff, hst]
  exact decide_eq_true hnow

/-- What was not pressing does not press after a quiet step, while the certificate is backing off. -/
theorem Quiet.presses (h : Quiet m t t') (ht : t.presses c = false) {error : String}
    {nextRetry : Int} (hst : m.status c = .failed error nextRetry) (hnow : m.now < nextRetry)
    (hvisit : ∀ now, t = .visiting c now → now ≤ m.now) : t'.presses c = false := by
  cases h with
  | @touched c' now =>
    by_cases hc : c' = c
    · subst hc
      have hlate : ¬ nextRetry ≤ now := by
        have := hvisit now rfl
        omega
      simp only [CertManager.touched, hst, if_neg hlate]
      rfl
    · unfold CertManager.touched
      split <;> (try split) <;> simp [CertTask.presses, hc]
  | @agreed c' force hask =>
    rcases hask with rfl | hback
    · simpa [CertTask.presses] using ht
    · by_cases hc : c' = c
      · subst hc
        rw [backingOff_of_failed hst hnow] at hback
        cases hback
      · simp [CertTask.presses, hc]
  | asks => simp [CertTask.presses]
  | _ => first | exact ht | rfl

omit [DecidableEq C] in
theorem mem_put (h : t ∈ (m.put i t').tasks) : t = t' ∨ t ∈ m.tasks :=
  (List.mem_or_eq_of_mem_set h).symm

omit [DecidableEq C] in
theorem mem_spawn (h : t ∈ (m.spawn t').tasks) : t = t' ∨ t ∈ m.tasks := by
  rcases List.mem_append.mp h with h | h
  · exact .inr h
  · exact .inl (List.mem_singleton.mp h)

omit [DecidableEq C] in
/-- A quiet step records no failure. -/
theorem Quiet.failure (h : Quiet m t t') : t.failure = none := by
  cases h <;> rfl

variable [CertifiedKeys]

theorem Moved.now_le (h : Moved K m a m') : m.now ≤ m'.now := by
  cases h with
  | waited secs => exact Int.le_add_of_nonneg_right (Int.natCast_nonneg secs)
  | advanced ht ha => cases ha <;> exact le_rfl
  | ended ht he =>
    cases he with
    | unparsed => exact le_rfl
    | @reported r =>
      change m.now ≤ (m.report _ r).now
      unfold report
      split <;> exact le_rfl
  | _ => exact le_rfl

omit [DecidableEq C] [CertifiedKeys] in
theorem Quiet.not_visiting {now : Int} (h : Quiet m t t') : t' ≠ .visiting c now := by
  cases h with
  | touched =>
    unfold CertManager.touched
    split <;> (try split) <;> exact fun h => by cases h
  | _ => exact fun h => by cases h

/-- A visit reads the clock when it starts. -/
theorem Moved.of_visiting {now : Int} (h : Moved K m a m') (hmem : .visiting c now ∈ m'.tasks) :
    .visiting c now ∈ m.tasks ∨ now = m.now := by
  cases h with
  | waited => exact .inl hmem
  | started hs =>
    rcases mem_spawn hmem with heq | hmem
    · cases hs with
      | visit =>
        cases heq
        exact .inr rfl
      | _ => cases heq
    · exact .inl hmem
  | quiet _ ht hq =>
    rcases mem_put hmem with heq | hmem
    · exact absurd heq.symm hq.not_visiting
    · exact .inl hmem
  | opened ht =>
    rcases mem_put hmem with heq | hmem
    · cases heq
    · exact .inl hmem
  | announced ht =>
    rcases mem_put hmem with heq | hmem
    · cases heq
    · exact .inl hmem
  | advanced ht ha =>
    rcases mem_put hmem with heq | hmem
    · cases heq
    · exact .inl (ha.tasks ▸ hmem)
  | @ended i c' origin phase m₁ ht he =>
    rcases mem_put hmem with heq | hmem
    · cases origin <;> cases heq
    · refine .inl ?_
      rw [← he.tasks]
      exact hmem
  | @unsaved i c' origin cert ht =>
    rcases mem_put hmem with heq | hmem
    · cases origin <;> cases heq
    · exact .inl hmem

omit [CertifiedKeys] in
theorem presses_after {origin : Origin C} : (after origin).presses c = false := by
  cases origin <;> rfl

/-- What is left when an order records its failure with nothing else on its way. -/
theorem Moved.failed {nextRetry : Int} (h : Moved K m (.go i) m') (hp : m.Patient (.go i))
    (ht : m.tasks[i]? = some t) (hfail : t.failure = some (c, nextRetry)) :
    (∃ error, m'.status c = .failed error nextRetry) ∧ ∀ x ∈ m'.tasks, x.presses c = false := by
  cases h with
  | started hs => cases hs
  | quiet hi ht' hq =>
    cases hi
    cases ht'.symm.trans ht
    rw [hq.failure] at hfail
    cases hfail
  | opened ht' =>
    cases ht'.symm.trans ht
    cases hfail
  | announced ht' ha =>
    cases ht'.symm.trans ht
    cases ha <;> cases hfail
  | ended ht' he =>
    cases ht'.symm.trans ht
    cases he <;> cases hfail
  | advanced ht' ha =>
    cases ht'.symm.trans ht
    cases ha with
    | @failed err nextRetry' =>
      cases hfail
      refine ⟨⟨err.message, by rw [status_put, status_setState, if_pos rfl]⟩, fun x hx => ?_⟩
      obtain ⟨j, hj⟩ := List.mem_iff_getElem?.mp hx
      rcases of_put (m := m.setState c _) ht hj with ⟨_, rfl⟩ | ⟨hji, hj⟩
      · rfl
      · exact (hp _ ht).2 (c, nextRetry) rfl j (List.getElem?_eq_some_iff.mp hj).1 hji x hj
    | _ => cases hfail

/-- While a certificate is backing off nothing comes to press for it. -/
theorem Moved.waits (h : Moved K m a m') (hp : m.Patient a) {error : String} {nextRetry : Int}
    (hst : m.status c = .failed error nextRetry) (hnow : m.now < nextRetry)
    (hnone : ∀ t ∈ m.tasks, t.presses c = false)
    (hvisits : ∀ now, .visiting c now ∈ m.tasks → now ≤ m.now)
    (hensure : ∀ host, a = .ensure host → K.certNameFor host ≠ some c)
    (hforce : ∀ host, a = .renew host true → K.certNameFor host ≠ some c) :
    (∃ error, m'.status c = .failed error nextRetry) ∧ ∀ x ∈ m'.tasks, x.presses c = false := by
  have hput {m₁ : CertManager C} {i : Nat} {t' : CertTask C} (htasks : m₁.tasks = m.tasks)
      (ht' : t'.presses c = false) : ∀ x ∈ (m₁.put i t').tasks, x.presses c = false := by
    intro x hx
    rcases mem_put hx with rfl | hx
    · exact ht'
    · exact hnone x (htasks ▸ hx)
  have hother {i : Nat} {t : CertTask C} (ht : m.tasks[i]? = some t) (c' : C) (hpress : c' = c → t.presses c = true) :
      c ≠ c' := by
    rintro rfl
    have hfalse := hnone t (List.mem_of_getElem? ht)
    rw [hpress rfl] at hfalse
    cases hfalse
  cases h with
  | waited => exact ⟨⟨error, hst⟩, hnone⟩
  | @started a t hs =>
    have ht : t.presses c = false := by
      cases hs with
      | @ensure host c' hc' =>
        refine decide_eq_false ?_
        rintro rfl
        exact hensure host rfl hc'
      | @eager c' hpending =>
        refine decide_eq_false ?_
        rintro rfl
        rw [status, hpending] at hst
        cases hst
      | @renew host force c' hc' =>
        cases force with
        | false => exact Bool.and_false _
        | true =>
          rw [CertTask.presses, Bool.and_true]
          refine decide_eq_false ?_
          rintro rfl
          exact hforce host rfl hc'
      | visit => rfl
      | job => rfl
    refine ⟨⟨error, hst⟩, fun x hx => ?_⟩
    rcases mem_spawn hx with rfl | hx
    · exact ht
    · exact hnone x hx
  | quiet _ ht hq =>
    refine ⟨⟨error, hst⟩, hput rfl (hq.presses (hnone _ (List.mem_of_getElem? ht)) hst hnow ?_)⟩
    rintro now rfl
    exact hvisits now (List.mem_of_getElem? ht)
  | @opened i caller c' ht hfree =>
    have hc := hother ht c' fun heq => decide_eq_true heq
    exact ⟨⟨error, hst⟩, hput rfl (decide_eq_false (Ne.symm hc))⟩
  | @announced i t c' st origin ht ha =>
    have hc : c ≠ c' := by
      cases ha with
      | renewing => exact hother ht c' fun heq => decide_eq_true heq
      | ordering => exact hother ht c' fun heq => decide_eq_true heq
      | found =>
        rintro rfl
        have hback := (hp _ ht).1 c rfl
        rw [backingOff_of_failed hst hnow] at hback
        cases hback
    refine ⟨⟨error, ?_⟩, hput rfl (decide_eq_false (Ne.symm hc))⟩
    rw [status_put, status_setState, if_neg hc]
    exact hst
  | @advanced i c' origin p p' m₁ ht ha =>
    have hc := hother ht c' fun heq => by cases ha <;> exact decide_eq_true heq
    refine ⟨⟨error, ?_⟩, hput ha.tasks ?_⟩
    · rw [status_put, (ha.apart hc).status]
      exact hst
    · cases ha <;> first | rfl | exact decide_eq_false (Ne.symm hc)
  | @ended i c' origin p m₁ ht he =>
    exact ⟨⟨error, he.apart.status.trans hst⟩, hput he.tasks presses_after⟩
  | unsaved ht => exact ⟨⟨error, hst⟩, hput rfl presses_after⟩

end CertManager

namespace Retries

variable [CertifiedKeys] {K : Catalog C} {s s' : Retries C} {a : CertAction C} {c : C}
  {nextRetry : Int}

open CertManager

theorem waits_init {rows : C → Option IssuedCertificate} {now : Int} :
    Waits (init K rows now) c := by
  constructor
  · intro _ h
    cases h
  · intro _ h
    cases h

omit [CertifiedKeys] in
/-- A retry time is what the failure of this step records, or was there; then neither a registration
calls for the certificate in this step nor is a renewal of it forced. -/
theorem of_noted (h : s.noted K a c = some nextRetry) :
    (∃ i t, a = .go i ∧ s.manager.tasks[i]? = some t ∧ t.failure = some (c, nextRetry)) ∨
      s.due c = some nextRetry ∧ (∀ host, a = .ensure host → K.certNameFor host ≠ some c) ∧
        ∀ host, a = .renew host true → K.certNameFor host ≠ some c := by
  have hcall (host : String) {due : C → Option Int}
      (hdue : ∀ c', K.certNameFor host = some c' → due = Function.update s.due c' none)
      (hsame : K.certNameFor host = none → due = s.due) (h : due c = some nextRetry) :
      s.due c = some nextRetry ∧ K.certNameFor host ≠ some c := by
    cases hc' : K.certNameFor host with
    | none =>
      rw [hsame hc'] at h
      exact ⟨h, fun heq => by cases heq⟩
    | some c' =>
      rw [hdue c' hc'] at h
      by_cases hc : c = c'
      · subst hc
        rw [Function.update_self] at h
        cases h
      · rw [Function.update_of_ne hc] at h
        exact ⟨h, fun heq => hc (Option.some.inj heq).symm⟩
  cases a with
  | ensure host =>
    obtain ⟨hdue, hne⟩ := hcall host (fun c' hc' => by simp only [noted, hc'])
      (fun hnone => by simp only [noted, hnone]) h
    refine .inr ⟨hdue, ?_, fun _ heq => by cases heq⟩
    intro host' heq
    cases heq
    exact hne
  | renew host force =>
    cases force with
    | true =>
      obtain ⟨hdue, hne⟩ := hcall host (fun c' hc' => by simp only [noted, hc'])
        (fun hnone => by simp only [noted, hnone]) h
      refine .inr ⟨hdue, (fun _ heq => by cases heq), ?_⟩
      intro host' heq
      cases heq
      exact hne
    | false => exact .inr ⟨h, (fun _ heq => by cases heq), fun _ heq => by cases heq⟩
  | go i =>
    cases hf : s.manager.tasks[i]?.bind (·.failure) with
    | none =>
      simp only [noted, hf] at h
      exact .inr ⟨h, (fun _ heq => by cases heq), fun _ heq => by cases heq⟩
    | some f =>
      simp only [noted, hf] at h
      obtain ⟨t, ht, hfail⟩ := Option.bind_eq_some_iff.mp hf
      by_cases hc : c = f.1
      · subst hc
        rw [Function.update_self] at h
        refine .inl ⟨i, t, rfl, ht, ?_⟩
        rw [hfail, ← Option.some.inj h]
      · rw [Function.update_of_ne hc] at h
        exact .inr ⟨h, (fun _ heq => by cases heq), fun _ heq => by cases heq⟩
  | _ => exact .inr ⟨h, (fun _ heq => by cases heq), fun _ heq => by cases heq⟩

theorem Waits.step (h : Waits s c) (hp : s.manager.Patient a) (hstep : step K s a = some s') :
    Waits s' c := by
  obtain ⟨m', hm', rfl⟩ := Option.map_eq_some_iff.mp hstep
  have hm := CertManager.moved_of_step hm'
  refine ⟨fun now hmem => ?_, fun nextRetry hdue hnow => ?_⟩
  · rcases hm.of_visiting hmem with hmem | rfl
    · exact (h.visits now hmem).trans hm.now_le
    · exact hm.now_le
  · rcases of_noted hdue with ⟨i, t, rfl, ht, hfail⟩ | ⟨hdue, hensure, hforce⟩
    · exact hm.failed hp ht hfail
    · have hnow := hm.now_le.trans_lt hnow
      obtain ⟨⟨error, hst⟩, hnone⟩ := h.due nextRetry hdue hnow
      exact hm.waits hp hst hnow hnone h.visits hensure hforce

/-- Where the renewal job leaves certificates that are backing off alone and nothing else is on its
way when an order fails, the next order of the certificate is not placed before its retry time. -/
theorem backoff {rows : C → Option IssuedCertificate} {now : Int} {actions : List (CertAction C)}
    (hmeets : Automaton.Meets (step K) (fun s => s.manager.Patient) (init K rows now) (actions ++ [a]))
    (hrun : run K (init K rows now) actions = some s) (hstep : step K s a = some s')
    (hplaces : s.manager.PlacesOrder c a) (hdue : s.due c = some nextRetry) :
    nextRetry ≤ s.manager.now := by
  obtain ⟨hactions, hlast⟩ := (Automaton.meets_append hrun).mp hmeets
  have h : Waits s c := Automaton.run_invariant_of_meets
    (fun h hp hstep => Waits.step h hp hstep) hactions waits_init hrun
  by_contra hnow
  obtain ⟨⟨error, hst⟩, hnone⟩ := h.due nextRetry hdue (not_le.mp hnow)
  cases a with
  | go i =>
    obtain ⟨t, ht, hplaces⟩ := hplaces
    have hpress := hnone t (List.mem_of_getElem? ht)
    have htakes := (hlast.1 t ht).1
    cases t with
    | announcing c' force notAfter =>
      rcases hplaces with hc | ⟨hc, _⟩ <;> cases hc
      exact absurd hpress (by simp [CertTask.presses])
    | ensuring caller c' =>
      rcases hplaces with hc | ⟨hc, _⟩ <;> cases hc
      exact absurd hpress (by simp [CertTask.presses])
    | found tick c' notAfter rest =>
      rcases hplaces with hc | ⟨hc, _⟩ <;> cases hc
      have hback := htakes c rfl
      rw [CertManager.backingOff_of_failed hst (not_le.mp hnow)] at hback
      cases hback
    | _ => rcases hplaces with hc | ⟨hc, _⟩ <;> cases hc
  | _ => exact hplaces

end Retries

namespace Retries.Sample

open CertManager.Sample

/-- The tunnels' certificate (until 90) is in its window at 70, the admin certificate (until 255) gets
there at 170. -/
def pair : Retries ManagedCert := init domains.catalog
  (fun c => if c = domains.tunnelCert then some cert else some ⟨"chain", "key", 0, 255⟩) 70

/-- The renewal of the tunnels' certificate fails. -/
def failing : List (CertAction ManagedCert) :=
  [.job 70, .go 0, .go 0, .go 0, .go 0, .go 0, .answer 0 (.error (.serverError (some 503) "busy")),
    .go 0, .go 0, .go 0, .go 0, .go 0]

/-- The job wakes for the admin certificate, whose renewal fails too. -/
def waking : List (CertAction ManagedCert) :=
  [.tick 100, .job 170, .go 1, .go 1, .go 1, .go 1, .answer 1 (.error (.other "timeout")), .go 1, .go 1,
    .go 1, .go 1, .go 1]

/-- A visitor comes when it is time again. -/
def visiting : List (CertAction ManagedCert) :=
  failing ++ [.tick 3600, .visit "a-b-c.t.io", .go 1, .go 1]

theorem backoff_visiting : ∃ s, run domains.catalog pair visiting = some s ∧
    s.due domains.tunnelCert = some 3670 ∧ 3670 ≤ s.manager.now := by
  have hvisiting : (run domains.catalog pair visiting).any (fun s => decide
      (s.due domains.tunnelCert = some 3670 ∧
        s.manager.tasks[1]? = some (.ensuring .visit domains.tunnelCert) ∧
        s.manager.inFlight domains.tunnelCert = none ∧
        (step domains.catalog s (.go 1)).isSome = true)) = true := by decide +kernel
  obtain ⟨s, hrun, hs⟩ := (Option.any_eq_true _ _).mp hvisiting
  obtain ⟨hdue, htask, hfree, hstep⟩ := of_decide_eq_true hs
  obtain ⟨s', hstep⟩ := Option.isSome_iff_exists.mp hstep
  exact ⟨s, hrun, hdue, backoff (by decide +kernel) hrun hstep ⟨_, htask, .inr ⟨rfl, hfree⟩⟩ hdue⟩

/-- The job, awake for the other certificate, orders again an hour too early. -/
theorem hasty_waking : ∃ s s', run domains.catalog pair failing = some s ∧
    nextRenewalAt s.manager.status (fun c => .ok (s.manager.rows c)) domains.managed = some 170 ∧
    run domains.catalog s waking = some s' ∧ s'.manager.now = 170 ∧
    s'.due domains.tunnelCert = some 3670 ∧
    s'.manager.PlacesOrder domains.tunnelCert (.go 1) := by
  have hfailing : (run domains.catalog pair failing).any (fun s => decide
      (nextRenewalAt s.manager.status (fun c => .ok (s.manager.rows c)) domains.managed = some 170 ∧
        (run domains.catalog s waking).any (fun s' => decide
          (s'.manager.now = 170 ∧ s'.due domains.tunnelCert = some 3670 ∧
            s'.manager.tasks[1]? = some (.found 170 domains.tunnelCert 90 []))) = true)) = true := by
    decide +kernel
  obtain ⟨s, hrun, hs⟩ := (Option.any_eq_true _ _).mp hfailing
  obtain ⟨hplan, hwaking⟩ := of_decide_eq_true hs
  obtain ⟨s', hrun', hs'⟩ := (Option.any_eq_true _ _).mp hwaking
  obtain ⟨hnow, hdue, htask⟩ := of_decide_eq_true hs'
  exact ⟨s, s', hrun, hplan, hrun', hnow, hdue, _, htask, .inl rfl⟩

end Retries.Sample

end TunnelWeaver.Server
