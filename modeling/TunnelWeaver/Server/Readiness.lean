import TunnelWeaver.Server.OneOrder

/-! When a registration has to wait. Whether a certificate is there is read off the map of states,
which a renewal changes at once, and not off the resolver, which serves the old certificate on. -/

namespace TunnelWeaver.Server

variable {C : Type} [DecidableEq C]

/-- What the next step of a task makes known of a certificate: the expiry with which it was issued,
or that an order of it was announced, begun or failed. -/
def CertTask.news (c : C) : CertTask C → Option (Option Int)
  | .announcing c' _ _ => if c' = c then some none else none
  | .found _ c' _ _ => if c' = c then some none else none
  | .order ⟨c', _, .entering⟩ => if c' = c then some none else none
  | .order ⟨c', _, .failing ..⟩ => if c' = c then some none else none
  | .order ⟨c', _, .storing notAfter⟩ => if c' = c then some (some notAfter) else none
  | _ => none

namespace CertManager

def news (m : CertManager C) (c : C) : CertAction C → Option (Option Int)
  | .go i => m.tasks[i]?.bind (·.news c)
  | _ => none

variable [CertifiedKeys]

/-- The expiry of a certificate whose issue, or whose load at the start, is the last that was heard of
it in a run; `last` is what was heard before. -/
def latest (K : Catalog C) (c : C) : CertManager C → Option Int → List (CertAction C) → Option Int
  | _, last, [] => last
  | m, last, a :: actions =>
    match m.step K a with
    | none => last
    | some m' => latest K c m' ((m.news c a).getD last) actions

/-- A registration that calls `ensure` for a hostname gets its answer at once, and nothing changes. -/
def Unhindered (K : Catalog C) (m : CertManager C) (host : String) : Prop :=
  run K m [.ensure host, .go m.tasks.length] = some (m.spawn .ended)

variable {K : Catalog C} {m m' : CertManager C} {a : CertAction C} {c : C} {host : String}

omit [CertifiedKeys] in
theorem Quiet.news {t t' : CertTask C} (h : Quiet m t t') : t.news c = none := by
  cases h <;> rfl

omit [CertifiedKeys] in
theorem news_go {i : Nat} {t : CertTask C} (ht : m.tasks[i]? = some t) :
    m.news c (.go i) = t.news c := by
  rw [CertManager.news, ht, Option.bind_some]

omit [CertifiedKeys] in
theorem Quiet.news_action {i : Nat} {t t' : CertTask C} (h : Quiet m t t')
    (ha : a.task = some i) (ht : m.tasks[i]? = some t) : m.news c a = none := by
  cases a with
  | go j =>
    cases ha
    rw [news_go ht, h.news]
  | _ => rfl

omit [CertifiedKeys] in
/-- A state is written with news, or left as it was. -/
theorem status_setState_issued {c' : C} {st : CertState} {notAfter : Int} (heard : Option Int)
    (hst : st = .issued notAfter ↔ heard = some notAfter) {i : Nat} {t t' : CertTask C}
    (ht : m.tasks[i]? = some t) (hnews : t.news c = if c' = c then some heard else none) :
    ((m.setState c' st).put i t').status c = .issued notAfter ↔
      ((m.news c (.go i) = none ∧ m.status c = .issued notAfter) ∨
        m.news c (.go i) = some (some notAfter)) := by
  rw [status_put, status_setState, news_go ht, hnews]
  by_cases hc : c' = c
  · simp [hc, hst]
  · simp [hc, Ne.symm hc]

/-- The map of states follows the news. -/
theorem Moved.status_iff (h : Moved K m a m') {notAfter : Int} : m'.status c = .issued notAfter ↔
    ((m.news c a = none ∧ m.status c = .issued notAfter) ∨ m.news c a = some (some notAfter)) := by
  have hsame (hst : m'.status c = m.status c) (hnews : m.news c a = none) :
      m'.status c = .issued notAfter ↔ ((m.news c a = none ∧ m.status c = .issued notAfter) ∨
        m.news c a = some (some notAfter)) := by
    rw [hst, hnews]
    simp
  cases h with
  | waited => exact hsame rfl rfl
  | started hs => exact hsame rfl (by cases hs <;> rfl)
  | quiet hi ht hq => exact hsame rfl (hq.news_action hi ht)
  | opened ht => exact hsame rfl (news_go ht)
  | announced ht ha =>
    refine status_setState_issued none ?_ ht ?_
    · rcases ha.state with rfl | ⟨_, rfl⟩ <;> simp
    · cases ha <;> rfl
  | advanced ht ha =>
    cases ha with
    | entering => exact status_setState_issued none (by simp) ht rfl
    | stored => exact status_setState_issued (some _) (by simp) ht rfl
    | failed => exact status_setState_issued none (by simp) ht rfl
    | _ => exact hsame rfl (news_go ht)
  | ended ht he =>
    cases he with
    | unparsed => exact hsame rfl (news_go ht)
    | reported => exact hsame apart_report.status (news_go ht)
  | unsaved ht => exact hsame rfl rfl

theorem latest_iff {last : Option Int} {actions : List (CertAction C)} {notAfter : Int}
    (hlast : ∀ notAfter, last = some notAfter ↔ m.status c = .issued notAfter)
    (hrun : run K m actions = some m') :
    latest K c m last actions = some notAfter ↔ m'.status c = .issued notAfter := by
  induction actions generalizing m last with
  | nil =>
    cases hrun
    exact hlast notAfter
  | cons a actions ih =>
    obtain ⟨m₁, hstep, hrun⟩ := Automaton.run_cons_eq_some.mp hrun
    rw [latest, hstep]
    refine ih (fun notAfter => ?_) hrun
    rw [(moved_of_step hstep).status_iff]
    cases m.news c a with
    | none => simpa using hlast notAfter
    | some heard => simp

theorem issued_init {rows : C → Option IssuedCertificate} {now notAfter : Int} :
    valid rows now c = some notAfter ↔ (init K rows now).status c = .issued notAfter := by
  cases hvalid : valid rows now c with
  | some expiry =>
    rw [status_init_of_some hvalid]
    simp only [Option.some.injEq, CertState.issued.injEq]
  | none =>
    rw [status_init_of_none hvalid]
    simp only [reduceCtorEq]

/-- `ensure` answers at once where the map of states says so. -/
theorem unhindered_iff_issued (hhost : K.certNameFor host = some c) :
    m.Unhindered K host ↔ ∃ notAfter, m.status c = .issued notAfter ∧ m.now < notAfter := by
  have hspawn : m.step K (.ensure host) = some (m.spawn (.calling .registration c)) := by
    rw [step, hhost, Option.map_some]
  have hlast : (m.spawn (.calling .registration c)).tasks[m.tasks.length]? =
      some (.calling .registration c) := List.getElem?_concat_length
  have hput (t : CertTask C) :
      (m.spawn (.calling .registration c)).put m.tasks.length t = m.spawn t := by
    rw [put, spawn, spawn, List.set_append_right _ _ le_rfl, Nat.sub_self]
    rfl
  have hrun : run K m [.ensure host, .go m.tasks.length] =
      some (m.spawn (if m.ready c then .ended else .ensuring .registration c)) := by
    rw [run, Automaton.run_cons, hspawn, Option.bind_some, Automaton.run_singleton, step, hlast,
      Option.bind_some, go, hput]
    rfl
  rw [Unhindered, hrun]
  have hready : m.ready c = true ↔ ∃ notAfter, m.status c = .issued notAfter ∧ m.now < notAfter := by
    rw [ready, CertManager.status]
    cases m.states c with
    | none => simp
    | some st => cases st <;> simp
  rw [← hready]
  cases m.ready c with
  | true => simp
  | false => simp [spawn]

/-- A state is pending only if it was, and no order has come far. -/
theorem Moved.of_pending (h : Moved K m a m') (hst : m'.status c = .pending) :
    m.status c = .pending := by
  have hset {c' : C} {st : CertState} {i : Nat} {t' : CertTask C} (hne : st ≠ .pending)
      (hst : ((m.setState c' st).put i t').status c = .pending) : m.status c = .pending := by
    rw [status_put, status_setState] at hst
    split at hst
    · exact absurd hst hne
    · exact hst
  cases h with
  | announced ht ha =>
    refine hset ?_ hst
    rcases ha.state with rfl | ⟨_, rfl⟩ <;> exact fun h => by cases h
  | advanced ht ha =>
    cases ha with
    | entering => exact hset (by rintro ⟨⟩) hst
    | stored => exact hset (by rintro ⟨⟩) hst
    | failed => exact hset (by rintro ⟨⟩) hst
    | _ => exact hst
  | ended ht he => exact (he.apart.status).symm.trans hst
  | _ => exact hst

/-- What the resolver serves is not pending. -/
def Known (m : CertManager C) (c : C) : Prop := (m.certs c).isSome = true → m.status c ≠ .pending

theorem known_init {rows : C → Option IssuedCertificate} {now : Int} :
    Known (init K rows now) c := by
  intro h hst
  obtain ⟨notAfter, hvalid⟩ := Option.isSome_iff_exists.mp h
  rw [issued_init.mp hvalid] at hst
  cases hst

theorem Known.step (h : Known m c) (hs : Settles m c) (hm : Moved K m a m') : Known m' c := by
  intro hcert hst
  have hpending := hm.of_pending hst
  have hold (hsame : m'.certs c = m.certs c) : False := h (hsame ▸ hcert) hpending
  cases hm with
  | advanced ht ha =>
    cases ha with
    | @parsed cert leaf hparse =>
      rename_i i c' origin
      by_cases hc : c = c'
      · subst hc
        exact absurd (hs.fresh hpending _ _ ht rfl) (by simp [OrderPhase.rank])
      · exact hold (Function.update_of_ne hc ..)
    | _ => exact hold rfl
  | ended ht he =>
    refine hold ?_
    cases he with
    | unparsed => rfl
    | @reported r =>
      change (m.report _ r).certs c = m.certs c
      unfold report
      split <;> rfl
  | _ => exact hold rfl

/-- While a certificate is served, a registration gets its answer at once if and only if the last that
was heard of the certificate is its issue, or its load at the start, with an expiry still to come.
Without an order under way, it is the last order that failed or the expiry that has passed. -/
theorem unhindered_iff {rows : C → Option IssuedCertificate} {now : Int}
    {actions : List (CertAction C)} (hrun : run K (init K rows now) actions = some m)
    (hhost : K.certNameFor host = some c) (hserves : m.serves c = true) :
    (m.Unhindered K host ↔ ∃ notAfter,
      latest K c (init K rows now) (valid rows now c) actions = some notAfter ∧ m.now < notAfter) ∧
    (Automaton.Meets (step K) Clean (init K rows now) actions → m.Free c → ¬ m.Unhindered K host →
      (∃ error nextRetry, m.status c = .failed error nextRetry) ∨
        ∃ notAfter, m.status c = .issued notAfter ∧ notAfter ≤ m.now) := by
  constructor
  · rw [unhindered_iff_issued hhost]
    exact exists_congr fun notAfter => and_congr_left' (latest_iff (fun _ => issued_init) hrun).symm
  · intro hmeets hfree hnot
    obtain ⟨hs, hknown⟩ : Settles m c ∧ Known m c := Automaton.run_invariant_of_meets
      (I := fun m => Settles m c ∧ Known m c)
      (fun h hc hstep => ⟨h.1.step hc hstep, h.2.step h.1 (moved_of_step hstep)⟩) hmeets
      ⟨settles_init, known_init⟩ hrun
    have hcert : (m.certs c).isSome = true := by
      cases hcert : m.certs c with
      | none =>
        rw [serves, hcert] at hserves
        cases hserves
      | some notAfter => rfl
    have hhas (hst : m.status c = .ordering ∨ ∃ notAfter, m.status c = .renewing notAfter) :
        False := by
      obtain ⟨j, o, hj, hc, _⟩ := hs.state hst
      exact hfree.not_order hj hc
    cases hst : m.status c with
    | pending => exact absurd hst (hknown hcert)
    | ordering => exact absurd (.inl hst) hhas
    | renewing notAfter => exact absurd (.inr ⟨notAfter, hst⟩) hhas
    | failed error nextRetry => exact .inl ⟨error, nextRetry, rfl⟩
    | issued notAfter =>
      refine .inr ⟨notAfter, rfl, ?_⟩
      by_contra hlt
      exact hnot ((unhindered_iff_issued hhost).mpr ⟨notAfter, hst, not_le.mp hlt⟩)

end CertManager

namespace CertManager.Sample

theorem covers_host : domains.catalog.certNameFor "a-b-c.t.io" = some domains.tunnelCert := by
  decide +kernel

/-- With time left, the certificate is there at once. -/
theorem unhindered_aged : aged.Unhindered domains.catalog "a-b-c.t.io" := by
  have hserves : aged.serves domains.tunnelCert = true := by decide +kernel
  have hlatest : latest domains.catalog domains.tunnelCert aged
      (valid (fun c => if c = domains.tunnelCert then some cert else none) 70 domains.tunnelCert) [] =
        some 90 := by decide +kernel
  have hrun : run domains.catalog (init domains.catalog
      (fun c => if c = domains.tunnelCert then some cert else none) 70) [] = some aged := rfl
  exact (unhindered_iff hrun covers_host hserves).1.mpr ⟨90, hlatest, by decide⟩

/-- The renewal of a certificate that is served, and its failure. -/
def announced : List (CertAction ManagedCert) := [.job 70, .go 0, .go 0, .go 0]

def failed : List (CertAction ManagedCert) := announced ++
  [.go 0, .go 0, .answer 0 (.error (.serverError (some 503) "busy")), .go 0, .go 0, .go 0]

theorem hindered_renewing : ∃ m m', run domains.catalog aged announced = some m ∧
    m.serves domains.tunnelCert = true ∧ ¬ m.Unhindered domains.catalog "a-b-c.t.io" ∧
    run domains.catalog aged failed = some m' ∧
    m'.serves domains.tunnelCert = true ∧ ¬ m'.Unhindered domains.catalog "a-b-c.t.io" := by
  have hannounced : (run domains.catalog aged announced).any (fun m => decide
      (m.serves domains.tunnelCert = true ∧ m.status domains.tunnelCert = .renewing 90)) = true := by
    decide +kernel
  have hfailed : (run domains.catalog aged failed).any (fun m => decide
      (m.serves domains.tunnelCert = true ∧ m.backingOff domains.tunnelCert = true)) = true := by
    decide +kernel
  obtain ⟨m, hrun, hm⟩ := (Option.any_eq_true _ _).mp hannounced
  obtain ⟨m', hrun', hm'⟩ := (Option.any_eq_true _ _).mp hfailed
  obtain ⟨hserves, hst⟩ := of_decide_eq_true hm
  obtain ⟨hserves', hback⟩ := of_decide_eq_true hm'
  refine ⟨m, m', hrun, hserves, fun h => ?_, hrun', hserves', fun h => ?_⟩
  · obtain ⟨notAfter, hissued, _⟩ := (unhindered_iff_issued covers_host).mp h
    rw [hst] at hissued
    cases hissued
  · obtain ⟨notAfter, hissued, _⟩ := (unhindered_iff_issued covers_host).mp h
    rw [backingOff, hissued] at hback
    cases hback

end CertManager.Sample

end TunnelWeaver.Server
