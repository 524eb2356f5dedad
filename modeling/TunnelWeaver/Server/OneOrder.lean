import TunnelWeaver.Server.Waiters

/-! Orders of one certificate. The in-flight table keeps `ensure` callers from ordering twice; a
renewal neither looks at it nor enters itself. -/

namespace TunnelWeaver.Server

variable {C : Type}

/-- The certificate whose renewal a task announces next. -/
def CertTask.renews : CertTask C → Option C
  | .announcing c _ _ => some c
  | .found _ c _ _ => some c
  | _ => none

/-- The certificate a task looks up in the in-flight table next. -/
def CertTask.ensures : CertTask C → Option C
  | .ensuring _ c => some c
  | _ => none

/-- Not an order of an `ensure`. -/
def Origin.renewal : Origin C → Bool
  | .ensure _ => false
  | _ => true

variable [DecidableEq C]

/-- A renewal of a certificate. -/
def CertTask.renewal (c : C) : CertTask C → Bool
  | .order o => decide (o.cert = c) && o.origin.renewal
  | _ => false

namespace CertManager

/-- No order of the certificate is under way. -/
def Free (m : CertManager C) (c : C) : Prop := ∀ t ∈ m.tasks, t.orders c = false

instance (m : CertManager C) (c : C) : Decidable (m.Free c) := by
  unfold Free
  infer_instance

/-- A renewal starts when the in-flight table and the tasks have no order of its certificate, and an
`ensure` does not start an order while there is a renewal. -/
def Orderly (m : CertManager C) : CertAction C → Prop
  | .go i => ∀ t ∈ m.tasks[i]?,
    (∀ c ∈ t.renews, m.inFlight c = none ∧ m.Free c) ∧
    ∀ c ∈ t.ensures, m.inFlight c = none → ∀ t' ∈ m.tasks, t'.renewal c = false
  | _ => True

instance (m : CertManager C) (a : CertAction C) : Decidable (m.Orderly a) :=
  match a with
  | .go i => inferInstanceAs (Decidable (∀ t ∈ m.tasks[i]?,
    (∀ c ∈ t.renews, m.inFlight c = none ∧ m.Free c) ∧
    ∀ c ∈ t.ensures, m.inFlight c = none → ∀ t' ∈ m.tasks, t'.renewal c = false))
  | .tick _ | .ensure _ | .eager _ | .visit _ | .renew _ _ | .job _ => isTrue trivial
  | .storeFails _ | .answer _ _ | .timeout _ => isTrue trivial

/-- Each certificate has at most one order, and nobody is told of an order before its end. -/
structure OneOrder (m : CertManager C) : Prop where
  unique : ∀ (i j : Nat) o o', m.tasks[i]? = some (.order o) → m.tasks[j]? = some (.order o') →
    o.cert = o'.cert → i = j
  told : ∀ (owner : Nat) o, (m.results owner).isSome → m.tasks[owner]? ≠ some (.order o)

/-- From `m` to `m'`, at most the entry of task `i` is removed and its waiters told. -/
structure OwnEntry (m m' : CertManager C) (i : Nat) : Prop where
  entries : ∀ c, m'.inFlight c ≠ m.inFlight c → m.inFlight c = some i
  waiters : ∀ owner, m'.results owner ≠ m.results owner → owner = i

variable {m m' : CertManager C} {a : CertAction C} {K : Catalog C} {i j : Nat} {c : C}
  {t : CertTask C} {o : Order C}

omit [DecidableEq C] in
theorem Announces.renews {st : CertState} {origin : Origin C} (h : Announces t c st origin) :
    t.renews = some c ∧ origin.renewal = true := by
  cases h <;> exact ⟨rfl, rfl⟩

theorem Free.not_order (h : m.Free c) (hi : m.tasks[i]? = some (.order o)) : o.cert ≠ c := by
  intro hc
  have hother := h _ (List.mem_of_getElem? hi)
  simp [CertTask.orders, hc] at hother

variable [CertifiedKeys]

/-- An order was there, or is the one of the task that takes the step. -/
theorem Moved.of_order (h : Moved K m a m') (hj : m'.tasks[j]? = some (.order o)) :
    (∃ o', m.tasks[j]? = some (.order o') ∧ o'.cert = o.cert ∧ o'.origin = o.origin) ∨
      a = .go j ∧ ∃ t, m.tasks[j]? = some t ∧
        ((∃ caller, t = .ensuring caller o.cert ∧ m.inFlight o.cert = none ∧
          m'.inFlight o.cert = some j ∧ o.origin = .ensure caller) ∨
          t.renews = some o.cert ∧ o.origin.renewal = true) := by
  cases h with
  | waited => exact .inl ⟨o, hj, rfl, rfl⟩
  | started hs =>
    rcases of_spawn hj with hj | ho
    · exact .inl ⟨o, hj, rfl, rfl⟩
    · exact absurd ho.symm hs.not_order
  | quiet _ ht hq =>
    rcases of_put ht hj with ⟨rfl, rfl⟩ | ⟨_, hj⟩
    · obtain ⟨o', rfl⟩ := hq.to_order
      obtain ⟨o'', heq, hcert, horigin, _⟩ := hq.of_order
      cases heq
      exact .inl ⟨o', ht, hcert.symm, horigin.symm⟩
    · exact .inl ⟨o, hj, rfl, rfl⟩
  | opened ht hnone =>
    rcases of_put (m := { m with inFlight := _ }) ht hj with ⟨rfl, heq⟩ | ⟨_, hj⟩
    · cases heq
      exact .inr ⟨rfl, _, ht, .inl ⟨_, rfl, hnone, Function.update_self .., rfl⟩⟩
    · exact .inl ⟨o, hj, rfl, rfl⟩
  | announced ht ha =>
    rcases of_put (m := m.setState _ _) ht hj with ⟨rfl, heq⟩ | ⟨_, hj⟩
    · cases heq
      exact .inr ⟨rfl, _, ht, .inr ha.renews⟩
    · exact .inl ⟨o, hj, rfl, rfl⟩
  | advanced ht ha =>
    rcases of_put ((congrArg (·[_]?) ha.tasks).trans ht) hj with ⟨rfl, heq⟩ | ⟨_, hj⟩
    · cases heq
      exact .inl ⟨_, ht, rfl, rfl⟩
    · rw [ha.tasks] at hj
      exact .inl ⟨o, hj, rfl, rfl⟩
  | @ended _ _ _ _ m₁ ht he =>
    rcases of_put (m := { m₁ with permits := _ }) ((congrArg (·[_]?) he.tasks).trans ht) hj with
      ⟨rfl, heq⟩ | ⟨_, hj⟩
    · exact absurd heq.symm after_ne_order
    · rw [show ({ m₁ with permits := m₁.permits + 1 } : CertManager C).tasks = m₁.tasks from rfl,
        he.tasks] at hj
      exact .inl ⟨o, hj, rfl, rfl⟩
  | unsaved ht =>
    rcases of_put (m := { m with permits := _ }) ht hj with ⟨rfl, heq⟩ | ⟨_, hj⟩
    · exact absurd heq.symm after_ne_order
    · exact .inl ⟨o, hj, rfl, rfl⟩

/-- How the in-flight table changes. -/
theorem Moved.inFlight (h : Moved K m a m') : m'.inFlight c = m.inFlight c ∨
    (∃ i caller, a = .go i ∧ m.tasks[i]? = some (.ensuring caller c) ∧ m.inFlight c = none ∧
      m'.inFlight c = some i) ∨
    ∃ i o, a = .go i ∧ m.tasks[i]? = some (.order o) ∧ o.cert = c ∧ m'.inFlight c = none ∧
      ∀ o', m'.tasks[i]? ≠ some (.order o') := by
  cases h with
  | waited => exact .inl rfl
  | started => exact .inl rfl
  | quiet => exact .inl rfl
  | @opened i caller c' ht hnone =>
    by_cases hc : c = c'
    · subst hc
      exact .inr (.inl ⟨i, caller, rfl, ht, hnone, Function.update_self ..⟩)
    · exact .inl (Function.update_of_ne hc ..)
  | announced => exact .inl rfl
  | advanced ht ha => exact .inl (congrFun ha.inFlight c)
  | @ended i c' origin phase m₁ ht he =>
    cases he with
    | unparsed => exact .inl rfl
    | @reported r =>
      by_cases hc : c = c'
      · subst hc
        refine .inr (.inr ⟨i, _, rfl, ht, rfl, inFlight_report, fun o' => ?_⟩)
        have ht' : ({ m.report c r with permits := (m.report c r).permits + 1 } :
            CertManager C).tasks[i]? = some (.order ⟨c, origin, .reporting r⟩) :=
          (congrArg (·[i]?) tasks_report).trans ht
        rw [exit, getElem?_put ht', if_pos rfl]
        exact fun heq => after_ne_order (Option.some.inj heq)
      · left
        change (m.report c' r).inFlight c = m.inFlight c
        unfold report
        split
        · exact Function.update_of_ne hc ..
        · rfl
  | unsaved => exact .inl rfl

/-- Who was told has ended. -/
theorem Moved.told (h : Moved K m a m') {owner : Nat} : m'.results owner = m.results owner ∨
    ∃ i c origin r, a = .go i ∧ m.tasks[i]? = some (.order ⟨c, origin, .reporting r⟩) ∧
      m.inFlight c = some owner ∧ m'.tasks[i]? = some (after origin) := by
  cases h with
  | @ended i c origin phase m₁ ht he =>
    cases he with
    | unparsed => exact .inl rfl
    | @reported r =>
      have hafter : ((m.report c r).exit i ⟨c, origin, .reporting r⟩).tasks[i]? =
          some (after origin) := by
        have ht' : ({ m.report c r with permits := (m.report c r).permits + 1 } :
            CertManager C).tasks[i]? = some (.order ⟨c, origin, .reporting r⟩) :=
          (congrArg (·[i]?) tasks_report).trans ht
        rw [exit, getElem?_put ht', if_pos rfl]
      cases hin : m.inFlight c with
      | none =>
        left
        change (m.report c r).results owner = m.results owner
        rw [report, hin]
      | some owner' =>
        by_cases hne : owner = owner'
        · subst hne
          exact .inr ⟨i, c, origin, r, rfl, ht, hin, hafter⟩
        · left
          change (m.report c r).results owner = m.results owner
          rw [report, hin]
          exact Function.update_of_ne hne ..
  | advanced ht ha => exact .inl (congrFun ha.results owner)
  | _ => exact .inl rfl

/-- A step is one of one task at most. -/
theorem Moved.keeps (h : Moved K m a m') (hj : m.tasks[j]? = some t) (ha : a.task ≠ some j) :
    m'.tasks[j]? = some t := by
  have hput {i : Nat} {x x' : CertTask C} {m₁ : CertManager C} (hx : m.tasks[i]? = some x)
      (hi : a.task = some i) (htasks : m₁.tasks = m.tasks) :
      (m₁.put i x').tasks[j]? = some t := by
    rw [getElem?_put ((congrArg (·[i]?) htasks).trans hx), if_neg, htasks]
    · exact hj
    · rintro rfl
      exact ha hi
  cases h with
  | waited => exact hj
  | started hs => exact getElem?_spawn hj
  | quiet hi ht hq => exact hput ht hi rfl
  | opened ht => exact hput ht rfl rfl
  | announced ht => exact hput ht rfl rfl
  | advanced ht hadv => exact hput ht rfl hadv.tasks
  | ended ht he => exact hput ht rfl he.tasks
  | unsaved ht => exact hput ht rfl rfl

/-- A task that is over does nothing. -/
theorem Moved.ended' (h : Moved K m a m') (hj : m.tasks[j]? = some .ended) :
    m'.tasks[j]? = some .ended := by
  have hkept {i : Nat} {t t' : CertTask C} {m₁ : CertManager C} (ht : m.tasks[i]? = some t)
      (hne : t ≠ .ended) (htasks : m₁.tasks = m.tasks) : (m₁.put i t').tasks[j]? = some .ended := by
    have hji : j ≠ i := by
      rintro rfl
      exact hne (Option.some.inj (ht.symm.trans hj))
    rw [getElem?_put ((congrArg (·[i]?) htasks).trans ht), if_neg hji, htasks]
    exact hj
  cases h with
  | waited => exact hj
  | started => exact getElem?_spawn hj
  | quiet _ ht hq => exact hkept ht (by rintro rfl; cases hq) rfl
  | opened ht => exact hkept ht (by rintro ⟨⟩) rfl
  | announced ht ha => exact hkept ht (by rintro rfl; cases ha) rfl
  | advanced ht ha => exact hkept ht (by rintro ⟨⟩) ha.tasks
  | ended ht he => exact hkept ht (by rintro ⟨⟩) he.tasks
  | unsaved ht => exact hkept ht (by rintro ⟨⟩) rfl

/-- The entry of an order of `ensure` is its own, a renewal runs without one, and who was told has
ended. -/
structure Entered (m : CertManager C) : Prop where
  unique : ∀ (i j : Nat) o o', m.tasks[i]? = some (.order o) → m.tasks[j]? = some (.order o') →
    o.cert = o'.cert → i = j
  own : ∀ (i : Nat) o, m.tasks[i]? = some (.order o) → o.origin.renewal = false →
    m.inFlight o.cert = some i
  bare : ∀ (i : Nat) o, m.tasks[i]? = some (.order o) → o.origin.renewal = true →
    m.inFlight o.cert = none
  told : ∀ owner, (m.results owner).isSome → m.tasks[owner]? = some .ended

theorem entered_init {rows : C → Option IssuedCertificate} {now : Int} :
    Entered (init K rows now) := by
  constructor
  · intro i j o o' hi
    cases hi
  · intro i o hi
    cases hi
  · intro i o hi
    cases hi
  · intro owner h
    cases h

omit [CertifiedKeys] in
/-- Without an entry and a renewal, there is no order. -/
theorem Entered.free (h : m.Entered) (hnone : m.inFlight c = none)
    (hrenewal : ∀ t ∈ m.tasks, t.renewal c = false) : m.Free c := by
  intro t ht
  obtain ⟨i, hlen, rfl⟩ := List.getElem_of_mem ht
  have hi : m.tasks[i]? = some m.tasks[i] := List.getElem?_eq_getElem hlen
  cases hti : m.tasks[i] with
  | order o =>
    rw [hti] at hi ht
    by_contra horders
    have hc : o.cert = c := of_decide_eq_true (Bool.not_eq_false _ ▸ horders)
    cases hr : o.origin.renewal with
    | true =>
      have hother := hrenewal _ ht
      simp [CertTask.renewal, hc, hr] at hother
    | false =>
      have hin := h.own i o hi hr
      rw [hc, hnone] at hin
      cases hin
  | _ => rfl

omit [CertifiedKeys] in
/-- Where an order starts, there is none. -/
theorem Entered.started (h : m.Entered) (ho : m.Orderly (.go j)) (ht : m.tasks[j]? = some t)
    (hstart : (∃ caller, t = .ensuring caller c ∧ m.inFlight c = none) ∨ t.renews = some c) :
    m.Free c := by
  obtain ⟨hrenews, hensures⟩ := ho t ht
  rcases hstart with ⟨caller, rfl, hnone⟩ | hr
  · exact h.free hnone (hensures c rfl hnone)
  · exact (hrenews c hr).2

theorem Entered.step (h : m.Entered) (ho : m.Orderly a) (hm : Moved K m a m') : m'.Entered := by
  have hfree {j : Nat} {o : Order C} (hj : m'.tasks[j]? = some (.order o)) :
      (∃ o', m.tasks[j]? = some (.order o') ∧ o'.cert = o.cert ∧ o'.origin = o.origin) ∨
        a = .go j ∧ m.Free o.cert := by
    refine (hm.of_order hj).imp_right ?_
    rintro ⟨rfl, t, ht, hstart⟩
    refine ⟨rfl, h.started ho ht (hstart.imp ?_ fun hr => hr.1)⟩
    rintro ⟨caller, htask, hnone, _⟩
    exact ⟨caller, htask, hnone⟩
  constructor
  · intro i j o o' hi hj hc
    rcases hfree hi with ⟨p, hp, hpc, _⟩ | ⟨ha, hf⟩
    · rcases hfree hj with ⟨p', hp', hpc', _⟩ | ⟨_, hf⟩
      · exact h.unique i j p p' hp hp' (hpc.trans (hc.trans hpc'.symm))
      · exact absurd (hpc.trans hc) (hf.not_order hp)
    · rcases hfree hj with ⟨p', hp', hpc', _⟩ | ⟨ha', _⟩
      · exact absurd (hpc'.trans hc.symm) (hf.not_order hp')
      · exact CertAction.go.inj (ha.symm.trans ha')
  · intro i o hi hr
    rcases hm.of_order hi with ⟨p, hp, hpc, hpo⟩ | ⟨_, t, _, ⟨_, _, _, hin, _⟩ | ⟨_, hr'⟩⟩
    · have hin := h.own i p hp (by rw [hpo]; exact hr)
      rw [hpc] at hin
      rcases @Moved.inFlight _ _ _ _ _ _ o.cert _ hm with hsame | hopened | hremoved
      · exact hsame.trans hin
      · obtain ⟨_, _, _, _, hnone, _⟩ := hopened
        rw [hnone] at hin
        cases hin
      · obtain ⟨j, o', _, hj, hc, _, hgone⟩ := hremoved
        have hij := h.unique i j p o' hp hj (hpc.trans hc.symm)
        exact absurd hi (hij ▸ hgone o)
    · exact hin
    · rw [hr] at hr'
      cases hr'
  · intro i o hi hr
    rcases @Moved.inFlight _ _ _ _ _ _ o.cert _ hm with hsame | hopened | hremoved
    · rcases hm.of_order hi with ⟨p, hp, hpc, hpo⟩ | ⟨rfl, t, ht, ⟨_, _, _, _, ho'⟩ | ⟨hr', _⟩⟩
      · have hin := h.bare i p hp (by rw [hpo]; exact hr)
        rw [hpc] at hin
        exact hsame.trans hin
      · rw [ho'] at hr
        cases hr
      · exact hsame.trans ((ho t ht).1 o.cert hr').1
    · obtain ⟨j, caller, rfl, hj, hnone, _⟩ := hopened
      rcases hm.of_order hi with ⟨p, hp, hpc, hpo⟩ | ⟨hgo, t, ht, ⟨_, _, _, _, ho'⟩ | ⟨hr', _⟩⟩
      · have hother := (ho _ hj).2 o.cert rfl hnone _ (List.mem_of_getElem? hp)
        simp [CertTask.renewal, hpc, hpo, hr] at hother
      · rw [ho'] at hr
        cases hr
      · cases hgo
        cases hj.symm.trans ht
        cases hr'
    · obtain ⟨_, _, _, _, _, hnone, _⟩ := hremoved
      exact hnone
  · intro owner hres
    rcases @Moved.told _ _ _ _ _ _ _ hm owner with hsame | ⟨i, c, origin, r, _, hi, hin, hafter⟩
    · rw [hsame] at hres
      exact hm.ended' (h.told owner hres)
    · cases hr : origin.renewal with
      | true =>
        have hnone := h.bare i _ hi hr
        rw [hin] at hnone
        cases hnone
      | false =>
        have hown := h.own i _ hi hr
        obtain rfl := Option.some.inj (hin.symm.trans hown)
        rw [hafter]
        cases origin with
        | ensure => rfl
        | renew => cases hr
        | job => cases hr

omit [DecidableEq C] [CertifiedKeys] in
theorem Entered.atMostOne (h : m.Entered) : m.OneOrder := by
  refine ⟨h.unique, fun owner o hres hi => ?_⟩
  rw [h.told owner hres] at hi
  cases hi

/-- An order that ends removes the entry it opened, if it opened one. -/
theorem Entered.ownEntry (h : m.Entered) (hm : Moved K m a m') (hexits : Exits m m' i c) :
    OwnEntry m m' i := by
  obtain ⟨o, hi, _⟩ := hexits.before
  have hself : a.task = some i := by
    by_contra hne
    exact hexits.now o (hm.keeps hi hne)
  constructor
  · intro c' hne
    rcases @Moved.inFlight _ _ _ _ _ _ c' _ hm with hsame | hopened | hremoved
    · exact absurd hsame hne
    · obtain ⟨j, caller, rfl, hj, _⟩ := hopened
      cases hself
      cases hi.symm.trans hj
    · obtain ⟨j, o', rfl, hj, rfl, hnone, _⟩ := hremoved
      cases hself
      cases hr : o'.origin.renewal with
      | true => exact absurd (hnone.trans (h.bare i o' hj hr).symm) hne
      | false => exact h.own i o' hj hr
  · intro owner hne
    rcases @Moved.told _ _ _ _ _ _ _ hm owner with hsame | ⟨j, c', origin, r, rfl, hj, hin, _⟩
    · exact absurd hsame hne
    · cases hself
      cases hr : origin.renewal with
      | true =>
        have hnone := h.bare i _ hj hr
        rw [hin] at hnone
        cases hnone
      | false => exact Option.some.inj (hin.symm.trans (h.own i _ hj hr))

/-- Where renewals keep to the in-flight table, each certificate has one order at a time, and an
order that ends tells its own waiters only. -/
theorem oneOrder {rows : C → Option IssuedCertificate} {now : Int}
    {actions : List (CertAction C)}
    (hmeets : Automaton.Meets (step K) Orderly (init K rows now) actions)
    (hrun : run K (init K rows now) actions = some m) :
    m.OneOrder ∧ ∀ a m' i c, m.step K a = some m' → Exits m m' i c → OwnEntry m m' i := by
  have h : m.Entered := Automaton.run_invariant_of_meets
    (fun h ho hstep => Entered.step h ho (moved_of_step hstep)) hmeets entered_init hrun
  exact ⟨h.atMostOne, fun a m' i c hstep hexits => h.ownEntry (moved_of_step hstep) hexits⟩

end CertManager

namespace CertManager.Sample

theorem oneOrder_registering : ∃ m, run domains.catalog fresh registering = some m ∧ m.OneOrder := by
  obtain ⟨m, hrun⟩ := Option.isSome_iff_exists.mp
    (show (run domains.catalog fresh registering).isSome = true by decide +kernel)
  exact ⟨m, hrun, (oneOrder (by decide +kernel) hrun).1⟩

/-- A certificate in its renewal window. -/
def aged : CertManager ManagedCert :=
  init domains.catalog (fun c => if c = domains.tunnelCert then some cert else none) 70

/-- The renewal job orders it, and while it does so two services are registered. -/
def renewing : List (CertAction ManagedCert) :=
  [.job 70, .go 0, .go 0, .go 0, .ensure "a-b-c.t.io", .go 1, .go 1, .ensure "d-e-f.t.io", .go 2, .go 2,
    .go 0, .go 0, .answer 0 (.ok cert), .go 0, .go 0, .go 0, .go 0]

/-- The first registration starts another order, and the second, which waits for that one, is told
when the renewal ends. -/
theorem doubled_renewing : ∃ m m', run domains.catalog aged renewing = some m ∧
    m.step domains.catalog (.go 0) = some m' ∧
    m.tasks[0]? = some (.order ⟨domains.tunnelCert, .job 70 [], .reporting (.ok ())⟩) ∧
    m.tasks[1]? = some (.order ⟨domains.tunnelCert, .ensure .registration, .looking⟩) ∧
    m'.tasks[1]? = some (.order ⟨domains.tunnelCert, .ensure .registration, .looking⟩) ∧
    m'.tasks[2]? = some (.waiting .registration domains.tunnelCert 1) ∧
    (m'.results 1).isSome = true ∧ ¬ m.OneOrder ∧ ¬ m'.OneOrder := by
  have hrenewing : (run domains.catalog aged renewing).any (fun m => decide
      (m.tasks[0]? = some (.order ⟨domains.tunnelCert, .job 70 [], .reporting (.ok ())⟩) ∧
        m.tasks[1]? = some (.order ⟨domains.tunnelCert, .ensure .registration, .looking⟩) ∧
        (m.step domains.catalog (.go 0)).any (fun m' => decide
          (m'.tasks[1]? = some (.order ⟨domains.tunnelCert, .ensure .registration, .looking⟩) ∧
            m'.tasks[2]? = some (.waiting .registration domains.tunnelCert 1) ∧
            (m'.results 1).isSome = true)) = true)) = true := by decide +kernel
  obtain ⟨m, hrun, hm⟩ := (Option.any_eq_true _ _).mp hrenewing
  obtain ⟨h₀, h₁, hstep⟩ := of_decide_eq_true hm
  obtain ⟨m', hstep, hm'⟩ := (Option.any_eq_true _ _).mp hstep
  obtain ⟨h₁', h₂, hres⟩ := of_decide_eq_true hm'
  refine ⟨m, m', hrun, hstep, h₀, h₁, h₁', h₂, hres, fun h => ?_, fun h => ?_⟩
  · exact absurd (h.unique 0 1 _ _ h₀ h₁ rfl) (by decide)
  · exact h.told 1 _ hres h₁'

end CertManager.Sample

end TunnelWeaver.Server
