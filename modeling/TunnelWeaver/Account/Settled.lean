import TunnelWeaver.Account.Provenance

/-! An address that nobody has proven: what a session that an identity provider opened can reach
before the emailed code settles it. -/

namespace TunnelWeaver.Account

open Automaton

/-- The account has an address, and it is not verified. -/
def Store.unsettled (s : Store) (account : RowId) : Bool :=
  (s.emailIdentityForAccount account).any (·.2.verifiedAt.isNone)

/-- The sessions of the accounts `U` hold no proof but the provider's first factor. -/
structure Store.Settled (U : RowId → Prop) (s : Store) : Prop where
  account : ∀ {i b}, s.sessions.get? i = some b → b.accountId < s.accounts.next
  trail : ∀ {j e k i}, s.events.get? j = some e → e.kind.proof = some k → e.sessionId = some i →
    i < s.sessions.next
  flow : ∀ {j f i}, s.flows.get? j = some f → f.kind = .stepUp → f.sessionId = some i →
    ∃ b, s.sessions.get? i = some b ∧ f.accountId = some b.accountId
  basic : ∀ {i b j e k}, s.sessions.get? i = some b → U b.accountId → s.events.get? j = some e →
    e.kind.proof = some k → e.sessionId = some i → k = .identityProvider

namespace Store.Settled

variable {U V : RowId → Prop} {p : RowId → ProofKind → Prop} {s s' : Store}

/-- Writes that prove nothing more than the first factor on a session of `U`. -/
theorem writes (h : s.Settled U) (hw : s.Writes p s')
    (hp : ∀ i k, p i k → i < s'.sessions.next ∧
      ∀ b, s'.sessions.get? i = some b → U b.accountId → k = .identityProvider) : s'.Settled U where
  account := by
    intro i b' hb'
    rw [hw.accounts]
    rcases hw.old hb' with ⟨b, hb, hba⟩ | ⟨_, hsome⟩
    · exact hba ▸ h.account hb
    · obtain ⟨a, ha⟩ := Option.isSome_iff_exists.mp hsome
      exact Table.lt_next ha
  trail := by
    intro j e k i he hk hi
    rcases hw.events he hk with he | ⟨i', hi', hpi⟩
    · exact (h.trail he hk hi).trans_le hw.next
    · rw [hi] at hi'
      cases hi'
      exact (hp i k hpi).1
  flow := by
    intro j f i hj hkind hi
    rw [hw.flows] at hj
    obtain ⟨b, hb, ha⟩ := h.flow hj hkind hi
    obtain ⟨b', hb', hba⟩ := hw.kept hb
    exact ⟨b', hb', hba ▸ ha⟩
  basic := by
    intro i b' j e k hb' hU he hk hi
    rcases hw.events he hk with he | ⟨i', hi', hpi⟩
    · -- A new session has no events of the old trail.
      rcases hw.old hb' with ⟨b, hb, hba⟩ | ⟨hle, _⟩
      · exact h.basic hb (hba ▸ hU) he hk hi
      · exact absurd (h.trail he hk hi) (Nat.not_lt.mpr hle)
    · rw [hi] at hi'
      cases hi'
      exact (hp i k hpi).2 b' hb' hU

theorem writes_none (h : s.Settled U) (hw : s.Writes (fun _ _ => False) s') : s'.Settled U :=
  h.writes hw fun _ _ hf => hf.elim

/-- A change of accounts and addresses after which no account that has sessions joins. -/
theorem mono (h : s.Settled U) (hs : s'.sessions = s.sessions) (he : s'.events = s.events)
    (hf : s'.flows = s.flows) (hn : s.accounts.next ≤ s'.accounts.next)
    (hV : ∀ a, a < s.accounts.next → V a → U a) : s'.Settled V where
  account := fun hb => (h.account (hs ▸ hb)).trans_le hn
  trail := fun hj hk hi => hs ▸ h.trail (he ▸ hj) hk hi
  flow := by
    intro j f i hj hkind hi
    rw [hs]
    exact h.flow (hf ▸ hj) hkind hi
  basic := by
    intro i b j e k hb hVb hj hk hi
    rw [hs] at hb
    exact h.basic hb (hV _ (h.account hb) hVb) (he ▸ hj) hk hi

/-- Starting a flow for a session. -/
theorem insert_flow (h : s.Settled U) {f : SsoFlow}
    (hf : ∀ i, f.sessionId = some i → ∃ b, s.sessions.get? i = some b ∧
      f.accountId = some b.accountId) : Settled U { s with flows := s.flows.insert f } where
  account := h.account
  trail := h.trail
  flow := by
    intro j f' i hj hkind hi
    rw [Table.get?_insert] at hj
    split at hj
    · cases hj
      exact hf i hi
    · exact h.flow hj hkind hi
  basic := h.basic

/-- Spending a flow. -/
theorem take (h : s.Settled U) (state : String) (now : Int) :
    (s.ssoFlowTake state now).1.Settled U := by
  rw [Site.ssoFlowTake_store]
  refine ⟨h.account, h.trail, ?_, h.basic⟩
  intro j f' i hj hkind hi
  rw [Table.get?_update] at hj
  obtain ⟨f, hf, rfl⟩ := Option.map_eq_some_iff.mp hj
  have hsame : (if redeemable state now j f then { f with consumedAt := some now } else f).kind =
      f.kind ∧ (if redeemable state now j f then { f with consumedAt := some now } else f).sessionId =
      f.sessionId ∧ (if redeemable state now j f then { f with consumedAt := some now }
        else f).accountId = f.accountId := by
    split <;> exact ⟨rfl, rfl, rfl⟩
  rw [hsame.2.2]
  exact h.flow hf (hsame.1 ▸ hkind) (hsame.2.1 ▸ hi)

end Store.Settled

/-- A request of an identity-provider sign-in, of its step-ups or of its emailed codes. -/
def Request.signsIn (r : Request) : Bool :=
  match r.body with
  | .begin .. | .stepUp .. | .callback .. | .loginVerify .. | .loginResend .. => true
  | _ => false

namespace Site

open Store

variable {rt : Runtime} {w w' : Site} {r : Request} {c : SessionContext} {s : Store}

/-- An identity-provider sign-in keeps the address of every account there was. -/
theorem settled_resolve (h : s.Settled (s.unsettled · = true)) (normalize : String → String)
    (req : NewExternalIdentity) :
    (s.externalIdentityResolveOrCreate normalize req).1.Settled
      ((s.externalIdentityResolveOrCreate normalize req).1.unsettled · = true) := by
  rcases s.externalIdentityResolveOrCreate_cases normalize req with
    heq | ⟨_, ⟨_, _, _, _, _, heq⟩ | ⟨_, heq⟩⟩
  · rw [heq]
    exact h
  · rw [heq]
    exact h.mono rfl rfl rfl le_rfl fun _ _ hu => hu
  · rw [heq]
    refine h.mono rfl rfl rfl (Nat.le_succ _) fun a ha hu => ?_
    rw [← hu]
    unfold unsettled emailIdentityForAccount
    split
    · rfl
    · rw [Table.find?_insert]
      simpa using (Nat.ne_of_lt ha).symm

/-- The session a cookie resolves to exists and belongs to the account. -/
theorem session_some (h : w.session rt r = some c) :
    ∃ b, w.store.sessions.get? c.sessionId = some b ∧ b.accountId = c.accountId := by
  unfold session at h
  split at h
  · cases h
  simp only [Option.bind_eq_bind, Option.bind_eq_some_iff, Option.pure_def,
    Option.some.injEq] at h
  obtain ⟨raw, _, ⟨id, b⟩, hlive, _, _, rfl⟩ := h
  exact ⟨b, (Table.find?_some hlive).1, rfl⟩

/-- An account whose address an emailed code has settled. -/
theorem unsettled_markVerified {a account : RowId} {now : Int}
    (h : (s.emailIdentityMarkVerified account now).unsettled a = true) :
    a ≠ account ∧ s.unsettled a = true := by
  unfold unsettled emailIdentityForAccount emailIdentityMarkVerified at h
  dsimp only at h
  rw [Table.find?_update (by intros; rfl)] at h
  cases hfind : s.emails.find? fun _ e => e.accountId = a with
  | none => simp [hfind] at h
  | some row =>
    obtain ⟨j, e⟩ := row
    have haccount : e.accountId = a := by simpa using (Table.find?_some hfind).2
    rw [hfind, Option.map_some, Option.any_some] at h
    rw [unsettled, emailIdentityForAccount, hfind, Option.any_some]
    split at h
    · cases h
    · rename_i hunmarked
      refine ⟨?_, h⟩
      rintro rfl
      simp_all

/-! ## Steps -/

/-- A callback does not step up an account whose address is unproven, and a code that is accepted
for such an account was issued to settle the address and does settle it. -/
def settles (rt : Runtime) (w : Site) (r : Request) : Bool :=
  match r.body with
  | .callback _ _ state _ _ _ => (w.store.flows.find? fun _ f => f.handle = state).all fun e =>
      e.2.kind = .signIn || e.2.accountId.all (!w.store.unsettled ·)
  | .loginVerify code => (w.session rt r).all fun c => !w.store.unsettled c.accountId ||
      (w.store.loginChallengeBySession c.sessionId).all fun e =>
        rt.hashCode code ≠ e.2.codeHash || e.2.purpose = .verifyAddress && !r.fails .markVerified
  | _ => true

/-- The sessions of accounts with an unproven address are at most basic. -/
def Sound (s : Store) : Prop := s.Settled (s.unsettled · = true)

theorem Sound.writes {p : RowId → ProofKind → Prop} {s' : Store} (h : Sound s) (hw : s.Writes p s')
    (hp : ∀ i k, p i k → i < s'.sessions.next ∧
      ∀ b, s'.sessions.get? i = some b → s.unsettled b.accountId = true → k = .identityProvider) :
    Sound s' := by
  have hu : s'.unsettled = s.unsettled := by
    funext a
    rw [unsettled, unsettled, emailIdentityForAccount, emailIdentityForAccount, hw.emails]
  unfold Sound
  rw [hu]
  exact Settled.writes h hw hp

theorem Sound.writes_none {s' : Store} (h : Sound s) (hw : s.Writes (fun _ _ => False) s') :
    Sound s' := h.writes hw fun _ _ hf => hf.elim

theorem sound_callback {provider code state error token otp : String} (h : Sound w.store)
    (hbody : r.body = .callback provider code state error token otp)
    (hg : w.settles rt r = true) :
    Sound (w.callback rt r provider code state error token otp).1.store := by
  obtain ⟨s₁, hs₁, hcases⟩ := @callback_cases rt w r _ _ _ _ _ _ _ hbody rfl
  obtain ⟨h₁, hu, hs⟩ : Sound s₁ ∧ s₁.unsettled = w.store.unsettled ∧
      s₁.sessions = w.store.sessions := by
    rcases hs₁ with ⟨rfl, _⟩ | rfl
    · exact ⟨h, rfl, rfl⟩
    · have htake := Settled.take h state r.now
      rw [ssoFlowTake_store] at htake ⊢
      exact ⟨htake, rfl, rfl⟩
  rcases hcases with hw | ⟨j, f, _, hfind, hkind, hw⟩ | ⟨req, s₂, rfl, hcases⟩
  · exact h₁.writes_none hw
  · refine h₁.writes hw ?_
    rintro i k ⟨hi, _, rfl⟩
    obtain ⟨b, hb, ha⟩ := h.flow (Table.find?_some hfind).1 hkind hi
    refine ⟨(hs ▸ Table.lt_next hb).trans_le hw.next, fun b' hb' hu' => ?_⟩
    -- The guard says that the address of the flow's account is proven.
    exfalso
    rcases hw.old hb' with ⟨b₁, hb₁, hba⟩ | ⟨hle, _⟩
    · rw [hs, hb] at hb₁
      cases hb₁
      have ha' : f.accountId = some b'.accountId := by rw [hba, ← ha]
      simp only [settles, hbody, hfind, Option.all_some, hkind, ha', ← hu, hu'] at hg
      cases hg
    · exact absurd (hs ▸ Table.lt_next hb) (Nat.not_lt.mpr hle)
  · have h₂ : Sound (s₁.externalIdentityResolveOrCreate rt.normalize req).1 :=
      settled_resolve h₁ rt.normalize req
    rcases hcases with hw | ⟨account, j, identity, hid, hw⟩
    · exact h₂.writes_none hw
    · refine h₂.writes hw ?_
      rintro i k ⟨⟨_, b, hb, hba⟩, hk⟩
      refine ⟨Table.lt_next hb, fun b' hb' hu' => ?_⟩
      rcases hk with rfl | ⟨_, hverified⟩
      · rfl
      · rw [hb] at hb'
        cases hb'
        rw [hba, unsettled, hid, Option.any_some] at hu'
        simp_all

theorem sound_start {provider : String} {kind : FlowKind} {o : Option SessionContext}
    {returnPath state nonce verifier : String} {prompt : Prompt} (h : Sound w.store)
    (ho : ∀ c, o = some c → ∃ b, w.store.sessions.get? c.sessionId = some b ∧
      b.accountId = c.accountId) :
    Sound (w.start rt r provider kind o returnPath state nonce verifier prompt).1.store := by
  rcases @start_cases rt w r provider kind o returnPath state nonce verifier prompt with
    heq | ⟨_, f, _, _, haccount, hsession, heq⟩
  · rw [heq]
    exact h
  · rw [heq]
    refine Settled.insert_flow h fun i hi => ?_
    rw [hsession] at hi
    obtain ⟨c, hc, rfl⟩ := Option.map_eq_some_iff.mp hi
    obtain ⟨b, hb, hba⟩ := ho c hc
    exact ⟨b, hb, by rw [haccount, hc, Option.map_some, hba]⟩

theorem sound_loginVerify {code : String} (h : Sound w.store) (hc : w.session rt r = some c)
    (hbody : r.body = .loginVerify code) (hg : w.settles rt r = true) :
    Sound (w.loginVerify rt r c code).1.store := by
  obtain ⟨b, hb, hba⟩ := session_some hc
  rcases @loginVerify_cases rt w r c code _ rfl with
    hw | ⟨j, challenge, s₁, _, hchallenge, hhash, hw, heq⟩
  · exact h.writes_none hw
  -- The session that the code is recorded on belongs to the account.
  have hnew (U : RowId → Prop) (hU : ¬ U c.accountId) (i : RowId) (k : ProofKind)
      (hi : i = c.sessionId ∧ k = .emailOtp) : i < s₁.sessions.next ∧
      ∀ b', s₁.sessions.get? i = some b' → U b'.accountId → k = .identityProvider := by
    obtain ⟨rfl, rfl⟩ := hi
    refine ⟨(Table.lt_next hb).trans_le hw.next, fun b' hb' hU' => absurd hU' ?_⟩
    obtain ⟨b₁, hb₁, hba₁⟩ := hw.kept hb
    rw [hb'] at hb₁
    cases hb₁
    rw [hba₁, hba]
    exact hU
  rw [heq]
  split
  · -- The code settles the address: the account leaves the unproven ones.
    have hothers : w.store.Settled fun a => a ≠ c.accountId ∧ w.store.unsettled a = true :=
      h.mono rfl rfl rfl le_rfl fun _ _ hu => hu.2
    have hrest := hothers.writes hw (hnew (fun a => a ≠ c.accountId ∧ w.store.unsettled a = true)
      fun hu => hu.1 rfl)
    refine hrest.mono rfl rfl rfl le_rfl fun a _ hu => ?_
    obtain ⟨hne, hu⟩ := unsettled_markVerified hu
    refine ⟨hne, ?_⟩
    rw [unsettled, emailIdentityForAccount, hw.emails] at hu
    exact hu
  · rename_i hpurpose
    refine h.writes hw (hnew (w.store.unsettled · = true) ?_)
    intro hu
    simp only [settles, hbody, hc, hchallenge, Option.all_some, hu, hhash] at hg
    simp_all

theorem sound_serve (h : Sound w.store) (hr : r.signsIn = true) (hg : w.settles rt r = true) :
    Sound (w.serve rt r).1.store := by
  have hhandle : Sound (w.handle rt r (w.session rt r)).1.store := by
    unfold handle
    split
    · unfold begin
      split
      · exact sound_start h fun c hc => by cases hc
      · exact h
    · split
      · exact h
      · rename_i c hc
        unfold stepUp
        split
        · refine sound_start h fun c' hc' => ?_
          cases hc'
          exact session_some hc
        · exact h
    · rename_i hbody
      exact sound_callback h hbody hg
    · rename_i hbody
      exact of_guarded Sound h fun c hc => sound_loginVerify h hc hbody hg
    · exact of_guarded Sound h fun c hc => h.writes_none (loginResend_writes _)
    all_goals
      rename_i hbody
      simp [Request.signsIn, hbody] at hr
  unfold serve
  dsimp only
  split
  · exact hhandle
  split
  · exact h
  split
  · exact h
  · exact hhandle

/-! ## Runs -/

theorem sound_run {rs : List Request} (h : Sound w.store) (hrs : ∀ r ∈ rs, r.signsIn = true)
    (hm : Meets (step rt) (fun w r => w.settles rt r = true) w rs)
    (hrun : run (step rt) w rs = some w') : Sound w'.store := by
  induction rs generalizing w with
  | nil =>
    cases hrun
    exact h
  | cons r rs ih =>
    obtain ⟨w₁, hstep, hrun⟩ := run_cons_eq_some.mp hrun
    have h₁ : Sound w₁.store := step_store hstep ▸ sound_serve h (hrs r (by simp)) hm.1
    exact ih h₁ (fun r hr => hrs r (by simp [hr])) (hm.2 w₁ hstep) hrun

theorem proof_of_mem {latest : List (EventKind × Int)} {k : ProofKind} {at_ : Int}
    (h : loadProofs latest k = some at_) : ∃ e ∈ latest, e.1.proof = some k := by
  unfold loadProofs at h
  dsimp only at h
  obtain ⟨hlast, _⟩ := Option.filter_eq_some_iff.mp h
  obtain ⟨e, he, _⟩ := Option.map_eq_some_iff.mp hlast
  obtain ⟨hmem, hproof⟩ := List.mem_filter.mp (List.mem_of_getLast? he)
  exact ⟨e, hmem, by simp_all⟩

theorem event_of_mem {i : RowId} {e : EventKind × Int} (h : e ∈ s.authEventLatestByKind i) :
    ∃ j event, s.events.get? j = some event ∧ event.sessionId = some i ∧ event.kind = e.1 := by
  unfold authEventLatestByKind at h
  obtain ⟨kind, _, hkind⟩ := List.mem_filterMap.mp h
  obtain ⟨m, hm, rfl⟩ := Option.map_eq_some_iff.mp hkind
  obtain ⟨event, hevent, _⟩ := List.mem_map.mp (List.max?_mem hm)
  obtain ⟨hrow, hsel⟩ := List.mem_filter.mp hevent
  obtain ⟨⟨j, event'⟩, hj, rfl⟩ := List.mem_map.mp hrow
  simp only [Bool.and_eq_true, decide_eq_true_eq] at hsel
  exact ⟨j, event', Table.get?_eq_some.mpr hj, hsel.1, hsel.2⟩

namespace Sample

/-- `ann` signs in; the provider does not vouch for her address. -/
def unvouched : List Request :=
  [request 0 (.begin "google" "s1" "n1" "v1"),
    request 0 (.callback "google" "ann" "s1" "" "t0" "123456"),
    { request 0 (.loginResend "654321") with now := 1100 }]

end Sample

end Site

end TunnelWeaver.Account
