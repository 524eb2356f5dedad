import TunnelWeaver.Account.Effects

/-! Whose session a proof is recorded on. -/

namespace TunnelWeaver.Account

open Automaton

/-- The `state` of the flow of a kind that a request starts. -/
def Request.starts (r : Request) (kind : FlowKind) : Option String :=
  match r.body, kind with
  | .begin _ state _ _, .signIn => some state
  | .stepUp _ _ state _ _, .stepUp => some state
  | _, _ => none

namespace Site

variable {rt : Runtime} {p : RowId → ProofKind → Prop} {w w' : Site} {r : Request}
  {c : SessionContext}

open Store

/-! ## Flows -/

/-- What a request does to the flows: rows are kept, at most marked as spent, and a row is added
only by a request that starts a flow, under a handle no row has. -/
structure FlowStep (rt : Runtime) (w : Site) (r : Request) (s' : Store) : Prop where
  kept : ∀ {j f}, w.store.flows.get? j = some f →
    ∃ f', s'.flows.get? j = some f' ∧ f'.handle = f.handle
  old : ∀ {j f'}, s'.flows.get? j = some f' →
    (∃ f, w.store.flows.get? j = some f ∧ f'.handle = f.handle ∧ f'.kind = f.kind ∧
      f'.sessionId = f.sessionId ∧ (f.consumedAt.isSome → f'.consumedAt.isSome)) ∨
    j = w.store.flows.next ∧
      (∀ {j₀ f₀}, w.store.flows.get? j₀ = some f₀ → f₀.handle ≠ f'.handle) ∧
      r.starts f'.kind = some f'.handle ∧
      ∀ i, f'.sessionId = some i → (w.session rt r).any (·.sessionId = i) = true

theorem FlowStep.of_eq {s' : Store} (h : s'.flows = w.store.flows) : FlowStep rt w r s' :=
  ⟨fun hj => ⟨_, h ▸ hj, rfl⟩, fun hj => .inl ⟨_, h ▸ hj, rfl, rfl, rfl, id⟩⟩

theorem start_flowStep {provider : String} {kind : FlowKind} {o : Option SessionContext}
    {returnPath state nonce verifier : String} {prompt : Prompt}
    (h : r.starts kind = some state)
    (ho : ∀ c, o = some c → (w.session rt r).any (·.sessionId = c.sessionId) = true) :
    FlowStep rt w r
      (w.start rt r provider kind o returnPath state nonce verifier prompt).1.store := by
  rcases @start_cases rt w r provider kind o returnPath state nonce verifier prompt with
    heq | ⟨hfresh, f, hhandle, hkind, _, hsession, heq⟩
  · exact .of_eq (by rw [heq])
  rw [heq]
  constructor
  · intro j f₀ hj
    exact ⟨f₀, by rw [Table.get?_insert, if_neg (Nat.ne_of_lt (Table.lt_next hj)), hj], rfl⟩
  · intro j f' hj
    rw [Table.get?_insert] at hj
    split at hj
    · rename_i hnext
      cases hj
      refine .inr ⟨hnext, fun hj₀ => hhandle ▸ hfresh hj₀, by rw [hkind, hhandle, h], ?_⟩
      intro i hi
      rw [hsession] at hi
      obtain ⟨c, hc, rfl⟩ := Option.map_eq_some_iff.mp hi
      exact ho c hc
    · exact .inl ⟨f', hj, rfl, rfl, rfl, id⟩

theorem flowStep_take (state : String) (now : Int) :
    FlowStep rt w r (w.store.ssoFlowTake state now).1 := by
  have heq : (w.store.ssoFlowTake state now).1.flows =
      w.store.flows.update (redeemable state now) fun f => { f with consumedAt := some now } := by
    unfold Store.ssoFlowTake
    dsimp only
    split <;> rfl
  constructor
  · intro j f hj
    refine ⟨_, by rw [heq, Table.get?_update, hj, Option.map_some], ?_⟩
    split <;> rfl
  · intro j f' hj
    rw [heq, Table.get?_update] at hj
    obtain ⟨f, hf, rfl⟩ := Option.map_eq_some_iff.mp hj
    refine .inl ⟨f, hf, ?_⟩
    split <;> simp

/-! ## Serving a request -/

/-- The sessions a request may prove something on: the one its cookie resolves to, one it opened,
and the session of the step-up flow a callback completes. -/
def Own (rt : Runtime) (w : Site) (r : Request) (s' : Store) (i : RowId) : Prop :=
  (w.session rt r).any (·.sessionId = i) = true ∨
  (w.store.sessions.get? i = none ∧ (s'.sessions.get? i).isSome) ∨
  ∃ j f, w.completes rt r = some f.handle ∧ w.store.flows.get? j = some f ∧ f.kind = .stepUp ∧
    f.sessionId = some i

/-- What serving a request does to the flows and to the trail. -/
structure Served (rt : Runtime) (w : Site) (r : Request) (s' : Store) : Prop where
  flows : FlowStep rt w r s'
  proven : ∀ {j e k}, s'.events.get? j = some e → e.kind.proof = some k →
    w.store.events.get? j = some e ∨ ∃ i, e.sessionId = some i ∧ Own rt w r s' i

theorem Served.of_writes {s' : Store} (h : w.store.Writes p s')
    (hp : ∀ i k, p i k → Own rt w r s' i) : Served rt w r s' := by
  refine ⟨.of_eq h.flows, fun he hk => (h.events he hk).imp_right ?_⟩
  rintro ⟨i, hi, hpi⟩
  exact ⟨i, hi, hp i _ hpi⟩

theorem Served.refl : Served rt w r w.store :=
  .of_writes (p := fun _ _ => False) .refl fun _ _ h => h.elim

/-- Writes on the request's own session. -/
theorem Served.of_session {s' : Store} (hc : w.session rt r = some c)
    (h : w.store.Writes (fun i _ => i = c.sessionId) s') : Served rt w r s' :=
  .of_writes h fun i _ hi => .inl (by rw [hc, hi]; simp)

/-- A session that was opened was not there before. -/
theorem own_of_opened {s s' : Store} {account i : RowId} (hs : s.sessions = w.store.sessions)
    (h : Opened s s' account i) : Own rt w r s' i := by
  obtain ⟨rfl, b, hb, _⟩ := h
  exact .inr (.inl ⟨by rw [hs, Table.get?_next], by rw [hb]; rfl⟩)

/-- Writes after which the flows are as a step left them and the trail as it was. -/
theorem Served.of_writes_after {s₁ s' : Store} (hflow : FlowStep rt w r s₁)
    (hevents : s₁.events = w.store.events) (h : s₁.Writes p s')
    (hp : ∀ i k, p i k → Own rt w r s' i) : Served rt w r s' := by
  refine ⟨⟨?_, ?_⟩, ?_⟩
  · rw [h.flows]
    exact hflow.kept
  · rw [h.flows]
    exact hflow.old
  · intro j e k he hk
    rcases h.events he hk with he | ⟨i, hi, hpi⟩
    · exact .inl (hevents ▸ he)
    · exact .inr ⟨i, hi, hp i k hpi⟩

theorem callback_served {provider code state error token otp : String}
    (hbody : r.body = .callback provider code state error token otp) :
    Served rt w r (w.callback rt r provider code state error token otp).1.store := by
  obtain ⟨s₁, hs₁, hcases⟩ := callback_cases hbody rfl
  obtain ⟨hflow, hevents, hsessions⟩ : FlowStep rt w r s₁ ∧ s₁.events = w.store.events ∧
      s₁.sessions = w.store.sessions := by
    rcases hs₁ with ⟨rfl, _⟩ | rfl
    · exact ⟨.of_eq rfl, rfl, rfl⟩
    · refine ⟨flowStep_take state r.now, ?_, ?_⟩ <;> rw [ssoFlowTake_store]
  rcases hcases with h | ⟨j, f, hcompletes, hfind, hkind, h⟩ | ⟨req, s₂, rfl, hcases⟩
  · exact .of_writes_after hflow hevents h fun _ _ hf => hf.elim
  · obtain ⟨hj, hhandle⟩ := Table.find?_some hfind
    refine .of_writes_after hflow hevents h ?_
    rintro i k ⟨hi, _, _⟩
    have hstate : f.handle = state := by simpa using hhandle
    exact .inr (.inr ⟨j, f, by rw [hstate, hcompletes], hj, hkind, hi⟩)
  · obtain ⟨hf, hs, he⟩ := @resolve_same s₁ rt.normalize req
    have hflow₂ : FlowStep rt w r (s₁.externalIdentityResolveOrCreate rt.normalize req).1 :=
      ⟨fun hj => hf ▸ hflow.kept hj, fun hj => hflow.old (hf ▸ hj)⟩
    rcases hcases with h | ⟨account, j, identity, _, h⟩
    · exact .of_writes_after hflow₂ (he.trans hevents) h fun _ _ hf => hf.elim
    · exact .of_writes_after hflow₂ (he.trans hevents) h fun i k hi =>
        own_of_opened (hs.trans hsessions) hi.1

theorem start_served {provider : String} {kind : FlowKind} {o : Option SessionContext}
    {returnPath state nonce verifier : String} {prompt : Prompt}
    (h : r.starts kind = some state)
    (ho : ∀ c, o = some c → (w.session rt r).any (·.sessionId = c.sessionId) = true) :
    Served rt w r
      (w.start rt r provider kind o returnPath state nonce verifier prompt).1.store := by
  refine ⟨start_flowStep h ho, fun he _ => .inl ?_⟩
  rcases @start_cases rt w r provider kind o returnPath state nonce verifier prompt with
    heq | ⟨_, f, _, _, _, _, heq⟩ <;> rw [heq] at he <;> exact he

theorem loginVerify_served (hc : w.session rt r = some c) (code : String) :
    Served rt w r (w.loginVerify rt r c code).1.store := by
  rcases @loginVerify_cases rt w r c code _ rfl with h | ⟨_, _, s₁, _, _, _, h, heq⟩
  · exact .of_writes h fun _ _ hf => hf.elim
  · have hs₁ : Served rt w r s₁ := .of_session hc (h.mono fun _ _ hi => hi.1)
    rw [heq]
    split
    · exact ⟨⟨hs₁.flows.kept, hs₁.flows.old⟩, hs₁.proven⟩
    · exact hs₁

/-- What holds of the store as it is, and after the handler has served the session, holds after a
request behind the origin and CSRF checks. -/
theorem of_guarded (P : Store → Prop) {o : Option SessionContext}
    {served : SessionContext → Site × Reply} (hsame : P w.store)
    (h : ∀ c, o = some c → P (served c).1.store) : P (w.guarded r o served).1.store := by
  unfold guarded
  split
  · exact hsame
  cases o with
  | none => exact hsame
  | some c => exact h c rfl

theorem handle_served : Served rt w r (w.handle rt r (w.session rt r)).1.store := by
  unfold handle
  split
  · rename_i provider state nonce verifier hbody
    unfold begin
    split
    · exact start_served (by simp [Request.starts, hbody]) fun c hc => by cases hc
    · exact .refl
  · rename_i provider returnPath state nonce verifier hbody
    split
    · exact .refl
    · rename_i c hc
      unfold stepUp
      split
      · refine start_served (by simp [Request.starts, hbody]) fun c' hc' => ?_
        cases hc'
        simp [hc]
      · exact .refl
  · rename_i hbody
    exact callback_served hbody
  · exact of_guarded (Served rt w r) .refl fun c hc => loginVerify_served hc _
  · exact of_guarded (Served rt w r) .refl fun c hc => .of_session hc (loginResend_writes _)
  · exact of_guarded (Served rt w r) .refl fun c hc => .of_session hc (loginTotp_writes _)
  · exact of_guarded (Served rt w r) .refl fun c hc => .of_session hc (confirmPassword_writes _)
  · split
    · exact .refl
    · unfold passkeySigninBegin startCeremony
      dsimp only
      split
      · exact .refl
      split
      · exact .refl
      split
      · exact .refl
      split <;> exact .refl
  · split
    · exact .refl
    · obtain ⟨account, h⟩ := passkeySigninFinish_writes rfl
      exact .of_writes h fun i _ hi => own_of_opened rfl hi
  · refine of_guarded (Served rt w r) .refl fun c hc => ?_
    unfold passkeyStepupBegin
    split <;> exact .refl
  · exact of_guarded (Served rt w r) .refl fun c hc => .of_session hc (passkeyStepupFinish_writes _ _)
  · refine of_guarded (Served rt w r) .refl fun c hc => ?_
    unfold passkeyRegisterBegin
    split
    · exact .refl
    split <;> exact .refl
  · exact of_guarded (Served rt w r) .refl fun c hc => by rw [passkeyRegisterFinish_store]; exact .refl

theorem serve_served : Served rt w r (w.serve rt r).1.store := by
  unfold serve
  dsimp only
  split
  · exact handle_served
  split
  · exact .refl
  split
  · exact .refl
  · exact handle_served

theorem step_store (h : w.step rt r = some w') : w'.store = (w.serve rt r).1.store := by
  cases h
  rfl

theorem step_served (h : w.step rt r = some w') : Served rt w r w'.store :=
  step_store h ▸ serve_served

/-! ## Runs -/

/-- A step-up request of the run, whose cookie resolved to the session, started the flow. -/
def Started (rt : Runtime) (init : Site) (rs : List Request) (state : String) (i : RowId) : Prop :=
  ∃ pre r₀ post w₀, rs = pre ++ r₀ :: post ∧ run (step rt) init pre = some w₀ ∧
    r₀.starts .stepUp = some state ∧ (w₀.session rt r₀).any (·.sessionId = i) = true

theorem Started.append {init : Site} {rs : List Request} {state : String} {i : RowId}
    (h : Started rt init rs state i) : Started rt init (rs ++ [r]) state i := by
  obtain ⟨pre, r₀, post, w₀, rfl, hrun, hstarts, hsession⟩ := h
  exact ⟨pre, r₀, post ++ [r], w₀, by simp, hrun, hstarts, hsession⟩

/-- Every flow was started by a request of the run; no two have one handle. -/
structure Ledger (rt : Runtime) (init : Site) (rs : List Request) (w : Site) : Prop where
  unique : ∀ {j j' f f'}, w.store.flows.get? j = some f → w.store.flows.get? j' = some f' →
    f.handle = f'.handle → j = j'
  begun : ∀ {j f}, w.store.flows.get? j = some f → ∃ r₀ ∈ rs, r₀.starts f.kind = some f.handle
  started : ∀ {j f i}, w.store.flows.get? j = some f → f.kind = .stepUp → f.sessionId = some i →
    Started rt init rs f.handle i

theorem Ledger.step {init : Site} {rs : List Request} (h : Ledger rt init rs w)
    (hrun : run (step rt) init rs = some w) (hs : w.step rt r = some w') :
    Ledger rt init (rs ++ [r]) w' := by
  have hflow := (step_served hs).flows
  refine ⟨?_, ?_, ?_⟩
  · intro j j' f f' hj hj' heq
    rcases hflow.old hj with ⟨f₀, hf₀, hh, _⟩ | ⟨hn, hfresh, _⟩
    · rcases hflow.old hj' with ⟨f₀', hf₀', hh', _⟩ | ⟨_, hfresh', _⟩
      · exact h.unique hf₀ hf₀' (by rw [← hh, ← hh', heq])
      · exact absurd (by rw [← hh, heq]) (hfresh' hf₀)
    · rcases hflow.old hj' with ⟨f₀', hf₀', hh', _⟩ | ⟨hn', _⟩
      · exact absurd (by rw [← hh', heq]) (hfresh hf₀')
      · exact hn.trans hn'.symm
  · intro j f hj
    rcases hflow.old hj with ⟨f₀, hf₀, hh, hk, _⟩ | ⟨_, _, hstarts, _⟩
    · obtain ⟨r₀, hr₀, hstarts⟩ := h.begun hf₀
      exact ⟨r₀, by simp [hr₀], by rw [hh, hk, hstarts]⟩
    · exact ⟨r, by simp, hstarts⟩
  · intro j f i hj hkind hi
    rcases hflow.old hj with ⟨f₀, hf₀, hh, hk, hsess, _⟩ | ⟨_, _, hstarts, hsess⟩
    · rw [hh]
      exact (h.started hf₀ (hk ▸ hkind) (hsess ▸ hi)).append
    · exact ⟨rs, r, [], w, by simp, hrun, hkind ▸ hstarts, hsess i hi⟩

theorem ledger_of_run {init : Site} {rs : List Request} (hinit : init.store.flows = ∅)
    (h : run (step rt) init rs = some w) : Ledger rt init rs w := by
  induction rs using List.reverseRecOn generalizing w with
  | nil =>
    cases h
    refine ⟨?_, ?_, ?_⟩
    all_goals
      intros
      simp_all
  | append_singleton rs r ih =>
    obtain ⟨w₀, hrun, hlast⟩ := run_append_eq_some.mp h
    rw [run_singleton] at hlast
    exact (ih hrun).step hrun hlast

/-- A flow that was redeemed: a row has the handle, and none with it can be redeemed. -/
def Spent (state : String) (w : Site) : Prop :=
  (∃ j f, w.store.flows.get? j = some f ∧ f.handle = state) ∧
  ∀ j f, w.store.flows.get? j = some f → f.handle = state → f.consumedAt.isSome = true

theorem Spent.step {state : String} (h : Spent state w) (hs : w.step rt r = some w') :
    Spent state w' := by
  have hflow := (step_served hs).flows
  obtain ⟨⟨j₀, f₀, hj₀, hf₀⟩, hall⟩ := h
  constructor
  · obtain ⟨f', hf', hh⟩ := hflow.kept hj₀
    exact ⟨j₀, f', hf', hh.trans hf₀⟩
  · intro j f hj hf
    rcases hflow.old hj with ⟨f₁, hf₁, hh, _, _, hc⟩ | ⟨_, hfresh, _⟩
    · exact hc (hall j f₁ hf₁ (hh ▸ hf))
    · exact absurd (hf₀.trans hf.symm) (hfresh hj₀)

/-- A request completes a flow only by a callback that takes it. -/
theorem taken_of_completes {state : String} (h : w.completes rt r = some state) :
    (∃ provider code error token otp, r.body = .callback provider code state error token otp) ∧
    ∃ flow, (w.store.ssoFlowTake state r.now).2 = some flow := by
  unfold completes at h
  split at h
  · rename_i provider code state' error token otp hbody
    split at h
    · rename_i hok
      cases h
      refine ⟨⟨_, _, _, _, _, hbody⟩, ?_⟩
      generalize hredeem : w.redeem rt r provider code state error = x at hok
      obtain ⟨w₁, res⟩ := x
      cases res with
      | error failure => simp [Except.isOk, Except.toBool] at hok
      | ok result =>
        rcases redeem_cases hredeem with ⟨_, hno⟩ | ⟨_, htake⟩
        · exact absurd rfl (hno _)
        · exact ⟨_, htake _ _ rfl⟩
    · cases h
  · cases h

theorem flows_of_completes {state : String} (h : w.completes rt r = some state)
    (hs : w.step rt r = some w') :
    w'.store.flows = (w.store.ssoFlowTake state r.now).1.flows := by
  obtain ⟨⟨provider, code, error, token, otp, hbody⟩, _⟩ := taken_of_completes h
  have hserve : w'.store = (w.callback rt r provider code state error token otp).1.store := by
    rw [step_store hs, serve, if_pos (by rw [hbody]; rfl), handle, hbody]
  obtain ⟨s₁, hs₁, hcases⟩ := callback_cases hbody hserve.symm
  have hflows : w'.store.flows = s₁.flows := by
    rcases hcases with hw | ⟨_, _, _, _, _, hw⟩ | ⟨req, s₂, rfl, hw | ⟨_, _, _, _, hw⟩⟩
    · exact hw.flows
    · exact hw.flows
    · exact hw.flows.trans (resolve_same ..).1
    · exact hw.flows.trans (resolve_same ..).1
  rcases hs₁ with ⟨_, hnone⟩ | rfl
  · rw [hnone] at h
    cases h
  · exact hflows

/-- A flow that was completed cannot be completed again. -/
theorem spent_of_completes {init : Site} {rs : List Request} {state : String}
    (hl : Ledger rt init rs w) (h : w.completes rt r = some state) (hs : w.step rt r = some w') :
    Spent state w' := by
  obtain ⟨_, flow, htake⟩ := taken_of_completes h
  obtain ⟨⟨j, f, hj, hredeemable⟩, _⟩ := ssoFlowTake_some htake
  have hflows := flows_of_completes h hs
  rw [ssoFlowTake_store] at hflows
  have hhandle : f.handle = state := by
    simp only [redeemable, Bool.and_eq_true, decide_eq_true_eq] at hredeemable
    exact hredeemable.1.1
  constructor
  · refine ⟨j, { f with consumedAt := some r.now }, ?_, hhandle⟩
    rw [hflows, Table.get?_update, hj, Option.map_some, if_pos hredeemable]
  · intro j' f' hj' hf'
    rw [hflows, Table.get?_update] at hj'
    obtain ⟨f₀, hf₀, rfl⟩ := Option.map_eq_some_iff.mp hj'
    have hf₀' : f₀.handle = state := by
      rw [← hf']
      split <;> rfl
    obtain rfl := hl.unique hj hf₀ (hhandle.trans hf₀'.symm)
    rw [hj] at hf₀
    cases hf₀
    rw [if_pos hredeemable]
    rfl

theorem not_completes_of_spent {state : String} (h : Spent state w) :
    w.completes rt r ≠ some state := by
  intro hc
  obtain ⟨_, flow, htake⟩ := taken_of_completes hc
  obtain ⟨⟨j, f, hj, hredeemable⟩, _⟩ := ssoFlowTake_some htake
  simp only [redeemable, Bool.and_eq_true, decide_eq_true_eq] at hredeemable
  have hspent := h.2 j f hj hredeemable.1.1
  rw [Option.isSome_iff_ne_none] at hspent
  exact hspent (by simpa using hredeemable.1.2)

/-- What is claimed of a request `r`, served in the state `w` that the run `rs` led to: a proof is
recorded on a session only if the cookie of `r` resolves to it, if `r` opened it, or if `r` completes
a step-up flow that a request of that session started; and a flow that `r` completes was started by
a request of the run and was not completed before, in whatever browser. -/
structure FromOwnSession (rt : Runtime) (init : Site) (rs : List Request) (w : Site) (r : Request)
    (w' : Site) : Prop where
  proven : ∀ {j e k i}, w'.store.events.get? j = some e → w.store.events.get? j ≠ some e →
    e.kind.proof = some k → e.sessionId = some i →
    (w.session rt r).any (·.sessionId = i) = true ∨
    (w.store.sessions.get? i = none ∧ (w'.store.sessions.get? i).isSome = true) ∨
    ∃ state, w.completes rt r = some state ∧ Started rt init rs state i
  completed : ∀ {state}, w.completes rt r = some state →
    (∃ kind, ∃ r₀ ∈ rs, r₀.starts kind = some state) ∧
    ∀ {pre r₁ post w₁}, rs = pre ++ r₁ :: post → run (step rt) init pre = some w₁ →
      w₁.completes rt r₁ ≠ some state

theorem proofs_from_own_session {init : Site} {rs : List Request} (hinit : init.store.flows = ∅)
    (h : run (step rt) init rs = some w) (hs : w.step rt r = some w') :
    FromOwnSession rt init rs w r w' := by
  have hl := ledger_of_run hinit h
  constructor
  · intro j e k i hj hnew hk hi
    rcases (step_served hs).proven hj hk with hold | ⟨i', hi', hown⟩
    · exact absurd hold hnew
    obtain rfl : i' = i := by
      rw [hi] at hi'
      exact (Option.some.inj hi').symm
    rcases hown with hcookie | hopened | ⟨j₀, f, hcompletes, hj₀, hkind, hsess⟩
    · exact .inl hcookie
    · exact .inr (.inl hopened)
    · exact .inr (.inr ⟨f.handle, hcompletes, hl.started hj₀ hkind hsess⟩)
  · intro state hcompletes
    constructor
    · obtain ⟨_, flow, htake⟩ := taken_of_completes hcompletes
      obtain ⟨_, j, f, hfind, _⟩ := ssoFlowTake_some htake
      obtain ⟨hj, hhandle⟩ := Table.find?_some hfind
      obtain ⟨r₀, hr₀, hstarts⟩ := hl.begun hj
      exact ⟨f.kind, r₀, hr₀, by rw [hstarts]; simpa using hhandle⟩
    · intro pre r₁ post w₁ hrs hpre hc
      subst hrs
      obtain ⟨w₁', hpre', hrest⟩ := run_append_eq_some.mp h
      rw [hpre] at hpre'
      cases hpre'
      obtain ⟨w₂, hw₂, hrest⟩ := run_cons_eq_some.mp hrest
      have hspent : Spent state w := run_invariant (I := Spent state) (p := fun _ => True)
        (fun hI _ hstep => hI.step hstep) (fun _ _ => trivial)
        (spent_of_completes (ledger_of_run hinit hpre) hc hw₂) hrest
      exact not_completes_of_spent hspent hcompletes

namespace Sample

/-- A relay with one provider, whose codes name the subject. -/
def relay (vouched : Bool) : Runtime where
  sessionTtlSecs := 86400
  confirmWindowSecs := 300
  resendCooldownSecs := 60
  baseUrl := "https://relay"
  providers := fun id => if id = "google" then some .redirect else none
  authorizeUrl := fun _ flow _ => .ok flow.state
  redeem := fun provider code _ => .ok
    { provider, tenant := "", subject := code, address := some (code, vouched), name := code
      mfa := false, authTime := some 1000 }
  sealRefresh := fun _ token => some token
  openRefresh := fun _ stored => some stored
  tokenHash := id
  hashCode := id
  normalize := id
  passwordVerify := fun password encodedHash => password = encodedHash
  openSecret := fun _ secret => some secret
  matchCode := fun secret candidate _ => if secret = candidate then some 0 else none
  finishAuthentication := fun _ _ => some true
  finishDiscoverable := fun _ _ _ => some true
  finishRegistration := fun _ credential => some (credential.id, credential.response)
  userHandle := fun account => toString account

def request (browser : Nat) (body : Body) : Request :=
  { browser, now := 1000, originOk := true, csrfOk := true, down := [], body }

/-- `ann` signs in in browser 0 and starts a step-up there. -/
def signedIn : List Request :=
  [request 0 (.begin "google" "s1" "n1" "v1"),
    request 0 (.callback "google" "ann" "s1" "" "t0" "123456"),
    request 0 (.stepUp "google" "/app" "s2" "n2" "v2")]

/-- The callback of the step-up, in a browser of one's choice. -/
def finish (browser : Nat) : Request :=
  request browser (.callback "google" "ann" "s2" "" "t1" "654321")

end Sample

/-- The step-up that `ann` finishes in her own browser. -/
theorem proofs_from_own_session_ann : ∃ w w',
    run (step (Sample.relay true)) {} Sample.signedIn = some w ∧
    w.step (Sample.relay true) (Sample.finish 0) = some w' ∧
    (w'.store.events.get? 3).map (·.kind) = some .identityProviderPresence ∧
    FromOwnSession (Sample.relay true) {} Sample.signedIn w (Sample.finish 0) w' :=
  ⟨_, _, rfl, rfl, by decide +kernel, proofs_from_own_session rfl rfl rfl⟩

/-- Browser 1 holds no cookie, and its request lifts the session of browser 0 by completing the flow
that browser 0 started. -/
theorem proven_from_other_browser : ∃ w w' e,
    run (step (Sample.relay true)) {} Sample.signedIn = some w ∧
    w.step (Sample.relay true) (Sample.finish 1) = some w' ∧
    w'.store.events.get? 3 = some e ∧ w.store.events.get? 3 = none ∧
    e.kind.proof = some .identityProviderPresence ∧ e.sessionId = some 1 ∧
    w.session (Sample.relay true) (Sample.finish 1) = none ∧ (w.store.sessions.get? 1).isSome ∧
    w.completes (Sample.relay true) (Sample.finish 1) = some "s2" ∧
    ∀ r₀ ∈ Sample.signedIn, r₀.starts .stepUp = some "s2" → r₀.browser ≠ (Sample.finish 1).browser := by
  refine ⟨_, _, { accountId := some 1, sessionId := some 1, kind := .identityProviderPresence
                  occurredAt := 1000 }, rfl, rfl, ?_⟩
  decide +kernel

end Site

end TunnelWeaver.Account
