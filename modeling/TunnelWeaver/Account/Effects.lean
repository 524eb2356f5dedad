import TunnelWeaver.Account.Requests

/-! What the handlers of the account API write: which rows of the store each of them touches, and
which proofs it records on which session. -/

namespace TunnelWeaver.Account

/-- Writes of a handler that leave the flows, the accounts and their identities alone: sessions keep
their account, a new one belongs to an account that exists, and a proof is recorded only where `p`
allows. -/
structure Store.Writes (p : RowId → ProofKind → Prop) (s s' : Store) : Prop where
  flows : s'.flows = s.flows
  accounts : s'.accounts = s.accounts
  emails : s'.emails = s.emails
  externals : s'.externals = s.externals
  next : s.sessions.next ≤ s'.sessions.next
  kept : ∀ {i b}, s.sessions.get? i = some b →
    ∃ b', s'.sessions.get? i = some b' ∧ b'.accountId = b.accountId
  old : ∀ {i b'}, s'.sessions.get? i = some b' →
    (∃ b, s.sessions.get? i = some b ∧ b'.accountId = b.accountId) ∨
    s.sessions.next ≤ i ∧ (s.accountById b'.accountId).isSome
  events : ∀ {j e k}, s'.events.get? j = some e → e.kind.proof = some k →
    s.events.get? j = some e ∨ ∃ i, e.sessionId = some i ∧ p i k

namespace Store.Writes

variable {p q : RowId → ProofKind → Prop} {s s₁ s₂ : Store}

/-- The tables the invariants read are untouched. -/
theorem of_eq (hf : s₁.flows = s.flows) (ha : s₁.accounts = s.accounts)
    (he : s₁.emails = s.emails) (hx : s₁.externals = s.externals)
    (hs : s₁.sessions = s.sessions) (hv : s₁.events = s.events) :
    s.Writes p s₁ where
  flows := hf
  accounts := ha
  emails := he
  externals := hx
  next := by rw [hs]
  kept := fun {_ b} h => ⟨b, by rw [hs]; exact h, rfl⟩
  old := fun {_ b} h => .inl ⟨b, by rw [← hs]; exact h, rfl⟩
  events := fun h _ => .inl (by rw [← hv]; exact h)

theorem refl : s.Writes p s := of_eq rfl rfl rfl rfl rfl rfl

theorem trans (h : s.Writes p s₁) (h' : s₁.Writes p s₂) : s.Writes p s₂ where
  flows := h'.flows.trans h.flows
  accounts := h'.accounts.trans h.accounts
  emails := h'.emails.trans h.emails
  externals := h'.externals.trans h.externals
  next := h.next.trans h'.next
  kept := by
    intro i b hb
    obtain ⟨b₁, hb₁, h₁⟩ := h.kept hb
    obtain ⟨b₂, hb₂, h₂⟩ := h'.kept hb₁
    exact ⟨b₂, hb₂, h₂.trans h₁⟩
  old := by
    intro i b₂ hb₂
    rcases h'.old hb₂ with ⟨b₁, hb₁, h₂⟩ | ⟨hle, hsome⟩
    · rcases h.old hb₁ with ⟨b, hb, h₁⟩ | ⟨hle, hsome⟩
      · exact .inl ⟨b, hb, h₂.trans h₁⟩
      · exact .inr ⟨hle, h₂ ▸ hsome⟩
    · refine .inr ⟨h.next.trans hle, ?_⟩
      rw [accountById, h.accounts] at hsome
      exact hsome
  events := by
    intro j e k he hk
    rcases h'.events he hk with he | hok
    · exact h.events he hk
    · exact .inr hok

theorem mono (h : s.Writes p s₁) (himp : ∀ i k, p i k → q i k) : s.Writes q s₁ :=
  { h with
    events := fun he hk => (h.events he hk).imp_right fun hi => by
      obtain ⟨i, hi, hok⟩ := hi
      exact ⟨i, hi, himp i _ hok⟩ }

theorem authEventInsert {event : AuthEvent}
    (h : ∀ k, event.kind.proof = some k → ∃ i, event.sessionId = some i ∧ p i k) :
    s.Writes p (s.authEventInsert event).1 := by
  unfold Store.authEventInsert
  split
  · exact refl
  · refine { (refl : s.Writes p s) with
      events := ?_ }
    intro j e k he hk
    rw [Table.get?_insert] at he
    split at he
    · cases he
      exact .inr (h k hk)
    · exact .inl he

theorem sessionInvalidate (tokenHash : String) (now : Int) :
    s.Writes p (s.sessionInvalidate tokenHash now) := by
  refine ⟨rfl, rfl, rfl, rfl, le_rfl, ?_, ?_, fun h _ => .inl h⟩
  · intro i b hb
    refine ⟨_, by rw [Store.sessionInvalidate, Table.get?_update, hb, Option.map_some], ?_⟩
    split <;> rfl
  · intro i b' hb'
    rw [Store.sessionInvalidate, Table.get?_update] at hb'
    obtain ⟨b, hb, rfl⟩ := Option.map_eq_some_iff.mp hb'
    refine .inl ⟨b, hb, ?_⟩
    split <;> rfl

theorem loginChallengeUpsert (challenge : LoginChallenge) :
    s.Writes p (s.loginChallengeUpsert challenge) := by
  unfold Store.loginChallengeUpsert
  split <;> exact of_eq rfl rfl rfl rfl rfl rfl

/-- A session for an account that exists. -/
theorem sessionCreate {account : RowId} {tokenHash provider : String} {createdAt expiresAt : Int} :
    s.Writes p (s.sessionCreate account tokenHash provider createdAt expiresAt).1 := by
  unfold Store.sessionCreate
  split
  · exact refl
  · rename_i hfree
    obtain ⟨haccount, _⟩ : ¬ s.accountById account = none ∧ _ := by simpa using hfree
    refine ⟨rfl, rfl, rfl, rfl, Nat.le_succ _, ?_, ?_, fun h _ => .inl h⟩
    · intro i b hb
      exact ⟨b, by rw [Table.get?_insert, if_neg (Nat.ne_of_lt (Table.lt_next hb)), hb], rfl⟩
    · intro i b' hb'
      rw [Table.get?_insert] at hb'
      split at hb'
      · rename_i hi
        cases hb'
        exact .inr ⟨hi.ge, Option.isSome_iff_ne_none.mpr haccount⟩
      · exact .inl ⟨b', hb', rfl⟩

end Store.Writes

namespace Site

variable {rt : Runtime} {p : RowId → ProofKind → Prop} {w w' : Site} {r : Request}
  {c : SessionContext}

open Store

/-! ## The parts of the handlers -/

theorem record_writes {kind : EventKind} (accountId sessionId : Option RowId)
    (h : kind.proof = none) : w.store.Writes p (w.record r kind accountId sessionId).1.store := by
  unfold record
  split
  · exact .refl
  · refine Writes.authEventInsert fun k hk => ?_
    rw [h] at hk
    cases hk

theorem recordOn_writes {kind : EventKind} (h : ∀ k, kind.proof = some k → p c.sessionId k) :
    w.store.Writes p (w.recordOn r kind c).1.store := by
  unfold recordOn record
  split
  · exact .refl
  · exact Writes.authEventInsert fun k hk => ⟨_, rfl, h k hk⟩

theorem recordOn_writes_of_none {kind : EventKind} (h : kind.proof = none) :
    w.store.Writes p (w.recordOn r kind c).1.store := record_writes _ _ h

/-- An event that was refused leaves the store as it was. -/
theorem recordOn_false {kind : EventKind} (h : w.recordOn r kind c = (w', false)) :
    w'.store = w.store := by
  unfold recordOn record at h
  split at h
  · cases h
    rfl
  · generalize hinsert : w.store.authEventInsert _ = res at h
    obtain ⟨store, accepted⟩ := res
    cases h
    unfold Store.authEventInsert at hinsert
    split at hinsert
    · cases hinsert
      rfl
    · cases hinsert

theorem invalidate_writes (token : String) :
    w.store.Writes p (w.invalidate rt r token).store := by
  unfold invalidate
  split
  · exact .refl
  · exact Writes.sessionInvalidate ..

theorem deliverCode_writes (purpose : Purpose) (otp : String) :
    w.store.Writes p (w.deliverCode rt r c purpose otp).1.store := by
  unfold deliverCode
  split
  · exact .refl
  · dsimp only
    split
    · exact Writes.loginChallengeUpsert _
    · exact .trans (.loginChallengeUpsert _) (recordOn_writes_of_none (w := { w with store := _ }) rfl)

theorem offerEmailedCode_writes (purpose : Purpose) (otp : String) :
    w.store.Writes p (w.offerEmailedCode rt r c purpose otp).store := by
  unfold offerEmailedCode
  split
  · exact .refl
  · exact deliverCode_writes purpose otp

theorem openSession_writes (account : RowId) (token provider : String) :
    w.store.Writes p (w.openSession rt r account token provider).1.store := by
  unfold openSession
  split
  · exact .refl
  · have hcreate : w.store.Writes p (w.store.sessionCreate account (rt.tokenHash token) provider
        r.now (r.now + rt.sessionTtlSecs)).1 := .sessionCreate
    split
    · exact .refl
    · rename_i store _ heq
      rw [heq] at hcreate
      dsimp only
      split
      · exact hcreate.trans (invalidate_writes (w := { w with store }) token)
      · exact hcreate

/-- The session that was opened is new, and belongs to the account. -/
theorem openSession_some {account : RowId} {token provider : String}
    (h : w.openSession rt r account token provider = (w', some c)) :
    c.accountId = account ∧ c.sessionId = w.store.sessions.next ∧
      ∃ b, w'.store.sessions.get? c.sessionId = some b ∧ b.accountId = account := by
  unfold openSession at h
  split at h
  · cases h
  split at h
  · cases h
  rename_i store _ hcreate
  unfold Store.sessionCreate at hcreate
  split at hcreate
  · cases hcreate
  rename_i hfree
  cases hcreate
  dsimp only at h
  split at h
  · cases h
  rename_i id b hread
  cases h
  split at hread
  · cases hread
  · -- No other session has the token's hash.
    obtain ⟨hget, hlive⟩ := Table.find?_some hread
    obtain ⟨_, hnone⟩ : _ ∧ (w.store.sessions.find? fun _ b =>
        b.tokenHash = rt.tokenHash token) = none := by simpa using hfree
    rw [Table.find?_eq_none] at hnone
    have hget' := hget
    rw [Table.get?_insert] at hget'
    split at hget'
    · rename_i hid
      cases hget'
      exact ⟨rfl, hid, _, hget, rfl⟩
    · have := hnone hget'
      simp_all

theorem proveSignIn_writes {mfa : Bool} (h : p c.sessionId .identityProvider)
    (hmfa : mfa = true → p c.sessionId .identityProviderMfa) :
    w.store.Writes p (w.proveSignIn r c mfa).1.store := by
  have hfirst : w.store.Writes p (w.recordOn r .identityProvider c).1.store :=
    recordOn_writes fun k hk => by cases hk; exact h
  unfold proveSignIn
  split
  · rename_i w₁ heq
    rw [heq] at hfirst
    exact hfirst
  · rename_i w₁ heq
    rw [heq] at hfirst
    have hsecond : w₁.store.Writes p
        (if mfa then w₁.recordOn r .identityProviderMfa c else (w₁, true)).1.store := by
      split
      · rename_i hm
        exact recordOn_writes fun k hk => by cases hk; exact hmfa hm
      · exact .refl
    split
    · rename_i w₂ heq₂
      rw [heq₂] at hsecond
      exact hfirst.trans hsecond
    · rename_i w₂ heq₂
      rw [heq₂] at hsecond
      exact hfirst.trans hsecond

theorem passkeyAsserted_writes (userVerified : Bool) (h : ∀ k, p c.sessionId k) :
    w.store.Writes p (w.passkeyAsserted r c userVerified).1.store := by
  have hfirst : w.store.Writes p (w.recordOn r .passkey c).1.store :=
    recordOn_writes fun k _ => h k
  unfold passkeyAsserted
  split
  · rename_i w₁ heq
    rw [heq] at hfirst
    exact hfirst
  · rename_i w₁ heq
    rw [heq] at hfirst
    split
    · exact hfirst.trans (recordOn_writes fun k _ => h k)
    · exact hfirst

theorem verifyChallenge_writes (sessionId : RowId) (code : String) :
    w.store.Writes p (w.verifyChallenge rt r sessionId code).1.store := by
  unfold verifyChallenge
  split
  · exact .refl
  · split
    · exact .refl
    split
    · exact .refl
    split
    · exact .refl
    split
    · split
      · exact .refl
      · split
        · rename_i heq
          rw [← (Prod.mk.inj heq).1]
          exact .of_eq rfl rfl rfl rfl rfl rfl
        · rename_i heq
          rw [← (Prod.mk.inj heq).1]
          exact .of_eq rfl rfl rfl rfl rfl rfl
    · dsimp only
      split
      · exact .refl
      · exact .of_eq rfl rfl rfl rfl rfl rfl

/-! ## Starting a flow -/

/-- Nothing but the flows changes when a flow is started. -/
theorem start_cases (provider : String) (kind : FlowKind) (o : Option SessionContext)
    (returnPath state nonce verifier : String) (prompt : Prompt) :
    (w.start rt r provider kind o returnPath state nonce verifier prompt).1.store = w.store ∨
    (∀ {j f}, w.store.flows.get? j = some f → f.handle ≠ state) ∧
      ∃ f : SsoFlow, f.handle = state ∧ f.kind = kind ∧ f.accountId = o.map (·.accountId) ∧
        f.sessionId = o.map (·.sessionId) ∧
        (w.start rt r provider kind o returnPath state nonce verifier prompt).1.store =
          { w.store with flows := w.store.flows.insert f } := by
  unfold start
  split
  · exact .inl rfl
  unfold Store.ssoFlowCreate
  split
  · exact .inl rfl
  rename_i hcreate
  split at hcreate
  · cases hcreate
  rename_i hnone
  cases hcreate
  rw [Table.find?_eq_none] at hnone
  refine .inr ⟨fun hj => by simpa using hnone hj, ?_⟩
  split <;> exact ⟨_, rfl, rfl, rfl, rfl, rfl⟩

/-! ## Handlers that open a session -/

/-- A session that a request opened for an account. -/
def Opened (s s' : Store) (account i : RowId) : Prop :=
  i = s.sessions.next ∧ ∃ b, s'.sessions.get? i = some b ∧ b.accountId = account

/-- What is recorded on a session right after it was opened is recorded on a session the request
opened. -/
theorem writes_of_openSession {account : RowId} {token provider : String} {s' : Store}
    {q : ProofKind → Prop}
    (h : w.openSession rt r account token provider = (w', some c))
    (hw : w'.store.Writes (fun i k => i = c.sessionId ∧ q k) s') :
    w.store.Writes (fun i k => Opened w.store s' account i ∧ q k) s' := by
  obtain ⟨_, hnext, b, hb, hba⟩ := openSession_some h
  obtain ⟨b', hb', hba'⟩ := hw.kept hb
  have hopen : w.store.Writes (fun i k => Opened w.store s' account i ∧ q k) w'.store := by
    rw [← show (w.openSession rt r account token provider).1 = w' by rw [h]]
    exact openSession_writes account token provider
  refine hopen.trans (hw.mono ?_)
  rintro i k ⟨rfl, hq⟩
  exact ⟨⟨hnext, b', hb', hba'.trans hba⟩, hq⟩

/-- A sign-in takes the provider's second factor only from an account whose address is proven. -/
theorem openSignIn_writes {account : RowId} {identity : EmailIdentity} {a : Assertion}
    {token otp : String} {s' : Store}
    (h : (w.openSignIn rt r account identity a token otp).1.store = s') :
    w.store.Writes (fun i k => Opened w.store s' account i ∧
      (k = .identityProvider ∨ k = .identityProviderMfa ∧ identity.verifiedAt.isSome)) s' := by
  subst h
  unfold openSignIn
  dsimp only
  split
  · rename_i w₁ heq
    rw [← show (w.openSession rt r account token a.provider).1 = w₁ by rw [heq]]
    exact openSession_writes account token a.provider
  rename_i w₁ c heq
  refine writes_of_openSession heq ?_
  have hprove : w₁.store.Writes (fun i k => i = c.sessionId ∧
      (k = .identityProvider ∨ k = .identityProviderMfa ∧ identity.verifiedAt.isSome))
      (w₁.proveSignIn r c (a.mfa && !identity.verifiedAt.isNone)).1.store :=
    proveSignIn_writes ⟨rfl, .inl rfl⟩ fun hm => ⟨rfl, .inr ⟨rfl, by
      simpa [Option.isSome_iff_ne_none] using (Bool.and_eq_true_iff.mp hm).2⟩⟩
  split
  · rename_i w₂ heq₂
    rw [heq₂] at hprove
    exact hprove.trans (invalidate_writes token)
  · rename_i w₂ heq₂
    rw [heq₂] at hprove
    refine hprove.trans ?_
    split
    · exact .refl
    · exact offerEmailedCode_writes _ otp

/-- A callback that signs in resolves the identity, then opens the session. -/
theorem finishSignIn_cases {a : Assertion} {token otp : String} {s' : Store}
    (h : (w.finishSignIn rt r a token otp).1.store = s') :
    s' = w.store ∨
    ∃ req s₁, (w.store.externalIdentityResolveOrCreate rt.normalize req).1 = s₁ ∧
      (s' = s₁ ∨ ∃ account j identity, s₁.emailIdentityForAccount account = some (j, identity) ∧
        s₁.Writes (fun i k => Opened s₁ s' account i ∧
          (k = .identityProvider ∨ k = .identityProviderMfa ∧ identity.verifiedAt.isSome)) s') := by
  subst h
  unfold finishSignIn
  split
  · exact .inl rfl
  split
  · exact .inl rfl
  split
  · exact .inl rfl
  · exact .inl rfl
  · exact .inl rfl
  rename_i s₁ resolved heq
  refine .inr ⟨_, s₁, by rw [heq], ?_⟩
  dsimp only
  split
  · exact .inl rfl
  split
  · exact .inl rfl
  · rename_i j identity hid
    exact .inr ⟨_, j, identity, hid, openSignIn_writes (w := { w with store := s₁ }) rfl⟩

theorem finishAssertion_store (handle : String) (credential : PublicKeyCredential) :
    (w.finishAssertion rt r handle credential).1.store = w.store := by
  unfold finishAssertion takeCeremony
  split <;> rename_i heq <;> rw [← (Prod.mk.inj heq).1]

theorem passkeySigninFinish_writes {handle : String} {credential : PublicKeyCredential}
    {token : String} {s' : Store}
    (h : (w.passkeySigninFinish rt r handle credential token).1.store = s') :
    ∃ account, w.store.Writes (fun i _ => Opened w.store s' account i) s' := by
  subst h
  have hfinish := @finishAssertion_store rt w r handle credential
  unfold passkeySigninFinish
  split
  · rename_i w₁ e heq
    rw [heq] at hfinish
    exact ⟨0, hfinish ▸ record_writes none none rfl⟩
  rename_i w₁ asserted heq
  rw [heq] at hfinish
  refine ⟨asserted.accountId, ?_⟩
  rw [← hfinish]
  split
  · exact .refl
  split
  · rename_i w₂ heq₂
    rw [← show (w₁.openSession rt r asserted.accountId token "").1 = w₂ by rw [heq₂]]
    exact openSession_writes ..
  rename_i w₂ c heq₂
  refine (writes_of_openSession (q := fun _ => True) heq₂ ?_).mono fun _ _ h => h.1
  have hprove : w₂.store.Writes (fun i _ => i = c.sessionId ∧ True)
      (w₂.passkeyAsserted r c asserted.userVerified).1.store :=
    passkeyAsserted_writes _ fun _ => ⟨rfl, trivial⟩
  split
  · rename_i w₃ heq₃
    rw [heq₃] at hprove
    exact hprove.trans (invalidate_writes token)
  · rename_i w₃ heq₃
    rw [heq₃] at hprove
    split
    · exact hprove.trans (invalidate_writes token)
    · exact hprove

/-! ## Handlers of a session -/

/-- An accepted code is recorded, and settles the address when it was issued to. -/
theorem loginVerify_cases {code : String} {s' : Store}
    (h : (w.loginVerify rt r c code).1.store = s') :
    w.store.Writes (fun _ _ => False) s' ∨
    ∃ j challenge s₁, r.fails .challengeRead = false ∧
      w.store.loginChallengeBySession c.sessionId = some (j, challenge) ∧
      rt.hashCode code = challenge.codeHash ∧
      w.store.Writes (fun i k => i = c.sessionId ∧ k = .emailOtp) s₁ ∧
      s' = if challenge.purpose = .verifyAddress && !r.fails .markVerified then
        s₁.emailIdentityMarkVerified c.accountId r.now else s₁ := by
  subst h
  have hverify := @verifyChallenge_writes rt (fun _ _ => False) w r c.sessionId code
  unfold loginVerify
  split
  · rename_i w₁ e heq
    rw [heq] at hverify
    exact .inl (hverify.trans (recordOn_writes_of_none rfl))
  rename_i w₁ purpose heq
  rw [heq] at hverify
  -- Only the branch that consumed the challenge accepts.
  obtain ⟨j, challenge, hread, hchallenge, hhash, rfl⟩ :
      ∃ j challenge, r.fails .challengeRead = false ∧
        w.store.loginChallengeBySession c.sessionId = some (j, challenge) ∧
        rt.hashCode code = challenge.codeHash ∧ challenge.purpose = purpose := by
    unfold verifyChallenge at heq
    split at heq
    · cases heq
    rename_i j challenge hrow
    split at hrow
    · cases hrow
    rename_i hread
    split at heq
    · cases heq
    split at heq
    · cases heq
    split at heq
    · cases heq
    split at heq
    · rename_i hhash
      split at heq
      · cases heq
      split at heq
      · cases heq
        exact ⟨j, challenge, by simpa using hread, hrow, hhash, rfl⟩
      · cases heq
    · cases heq
  have hrecord : w₁.store.Writes (fun i k => i = c.sessionId ∧ k = .emailOtp)
      (w₁.recordOn r .emailOtp c).1.store :=
    recordOn_writes fun k hk => ⟨rfl, by cases hk; rfl⟩
  have hchain := (hverify.mono fun _ _ h => h.elim).trans hrecord
  split
  · rename_i w₂ heq₂
    exact .inl (recordOn_false heq₂ ▸ hverify)
  · rename_i w₂ heq₂
    rw [heq₂] at hchain
    refine .inr ⟨j, challenge, w₂.store, hread, hchallenge, hhash, hchain, ?_⟩
    dsimp only
    split <;> split <;> rfl

theorem loginResend_writes (otp : String) :
    w.store.Writes p (w.loginResend rt r c otp).1.store := by
  unfold loginResend
  generalize (if r.fails .challengeRead then none
    else (w.store.loginChallengeBySession c.sessionId).map (·.2)) = pending
  dsimp only
  split
  · exact .refl
  split
  · exact .refl
  split
  · exact .refl
  have hdeliver := @deliverCode_writes rt p w r c ((pending.map (·.purpose)).getD .signIn) otp
  split
  · rename_i w₁ reply heq
    rw [heq] at hdeliver
    exact hdeliver
  · rename_i w₁ heq
    rw [heq] at hdeliver
    exact hdeliver

theorem totpVerify_store (account : RowId) (code : String) (wrong : Nat) :
    (w.totpVerify rt r account code wrong).1.store = w.store := by
  unfold totpVerify totpRecordUse
  dsimp only
  split
  · rfl
  split
  · rfl
  split
  · rfl
  split
  · rfl
  split
  · rename_i heq
    rw [← (Prod.mk.inj heq).1]
  · rename_i heq
    rw [← (Prod.mk.inj heq).1]

theorem loginTotp_writes (code : String) :
    w.store.Writes (fun i _ => i = c.sessionId) (w.loginTotp rt r c code).1.store := by
  unfold loginTotp
  generalize (if r.fails .trailRead then 0
    else w.store.authEventCountSince c.sessionId .totpFailed (r.now - rt.sessionTtlSecs)) = wrong
  have hstore := @totpVerify_store rt w r c.accountId code wrong
  dsimp only
  split
  · rename_i w₁ heq
    rw [heq] at hstore
    exact hstore ▸ recordOn_writes_of_none rfl
  · rename_i w₁ e _ heq
    rw [heq] at hstore
    exact hstore ▸ recordOn_writes_of_none rfl
  · rename_i w₁ heq
    rw [heq] at hstore
    have hrecord : w₁.store.Writes (fun i _ => i = c.sessionId) (w₁.recordOn r .totp c).1.store :=
      recordOn_writes fun _ _ => rfl
    rw [← hstore]
    split
    · rename_i w₂ heq₂
      rw [heq₂] at hrecord
      exact hrecord
    · rename_i w₂ heq₂
      rw [heq₂] at hrecord
      split <;> exact hrecord

theorem confirmPassword_writes (password : String) :
    w.store.Writes (fun i _ => i = c.sessionId) (w.confirmPassword rt r c password).1.store := by
  unfold confirmPassword
  split
  · exact .refl
  split
  · exact .refl
  split
  · exact recordOn_writes_of_none rfl
  have hrecord : w.store.Writes (fun i _ => i = c.sessionId)
      (w.recordOn r .passwordConfirmed c).1.store := recordOn_writes fun _ _ => rfl
  split
  · rename_i w₁ heq
    rw [heq] at hrecord
    exact hrecord
  · rename_i w₁ heq
    rw [heq] at hrecord
    exact hrecord

theorem passkeyStepupFinish_writes (handle : String) (credential : PublicKeyCredential) :
    w.store.Writes (fun i _ => i = c.sessionId)
      (w.passkeyStepupFinish rt r c handle credential).1.store := by
  have hstore := @finishAssertion_store rt w r handle credential
  unfold passkeyStepupFinish
  split
  · exact .refl
  split
  · rename_i w₁ e heq
    rw [heq] at hstore
    exact hstore ▸ recordOn_writes_of_none rfl
  rename_i w₁ asserted heq
  rw [heq] at hstore
  rw [← hstore]
  split
  · exact recordOn_writes_of_none rfl
  have hprove : w₁.store.Writes (fun i _ => i = c.sessionId)
      (w₁.passkeyAsserted r c asserted.userVerified).1.store :=
    passkeyAsserted_writes _ fun _ => rfl
  dsimp only
  split
  · rename_i w₂ heq₂
    rw [heq₂] at hprove
    exact hprove
  · rename_i w₂ heq₂
    rw [heq₂] at hprove
    split <;> exact hprove

theorem finishRegister_store (handle : String) (credential : PublicKeyCredential) :
    (w.finishRegister rt r handle credential).1.store = w.store := by
  unfold finishRegister takeCeremony
  split
  · rename_i heq
    rw [← (Prod.mk.inj heq).1]
    split
    · rfl
    split
    · rfl
    split
    · rfl
    split <;> rfl
  · rename_i heq
    rw [← (Prod.mk.inj heq).1]

theorem passkeyRegisterFinish_store (handle : String) (credential : PublicKeyCredential) :
    (w.passkeyRegisterFinish rt r c handle credential).1.store = w.store := by
  have hstore := @finishRegister_store rt w r handle credential
  unfold passkeyRegisterFinish
  split
  · rename_i heq
    rw [heq] at hstore
    exact hstore
  · rename_i heq
    rw [heq] at hstore
    split <;> exact hstore

/-! ## The callback -/

theorem ssoFlowTake_store (s : Store) (state : String) (now : Int) :
    (s.ssoFlowTake state now).1 = { s with
      flows := s.flows.update (redeemable state now) fun f => { f with consumedAt := some now } } := by
  unfold Store.ssoFlowTake
  dsimp only
  split <;> rfl

/-- A flow is taken only when a row can be redeemed; it is the row with the handle. -/
theorem ssoFlowTake_some {s : Store} {state : String} {now : Int} {flow : SsoFlow}
    (h : (s.ssoFlowTake state now).2 = some flow) :
    (∃ j f, s.flows.get? j = some f ∧ redeemable state now j f) ∧
    ∃ j f, s.flows.find? (fun _ f => f.handle = state) = some (j, f) ∧ flow.kind = f.kind ∧
      flow.accountId = f.accountId ∧ flow.sessionId = f.sessionId := by
  unfold Store.ssoFlowTake at h
  dsimp only at h
  split at h
  · cases h
  rename_i hcount
  constructor
  · by_contra hnone
    simp only [not_exists, not_and, Bool.not_eq_true] at hnone
    rw [Table.count_eq_zero.mpr fun {j f} hj => hnone j f hj] at hcount
    exact hcount Nat.zero_ne_one
  · rw [Table.find?_update (by intros; rfl)] at h
    obtain ⟨⟨j, f'⟩, hf', rfl⟩ := Option.map_eq_some_iff.mp h
    obtain ⟨⟨j, f⟩, hf, heq⟩ := Option.map_eq_some_iff.mp hf'
    cases heq
    refine ⟨j, f, hf, ?_⟩
    dsimp only
    split <;> exact ⟨rfl, rfl, rfl⟩

theorem redeem_cases {provider code state error : String}
    {res : Except Failure (SsoFlow × Assertion)}
    (h : w.redeem rt r provider code state error = (w', res)) :
    (w'.store = w.store ∧ ∀ x, res ≠ .ok x) ∨
    w'.store = (w.store.ssoFlowTake state r.now).1 ∧
      ∀ flow a, res = .ok (flow, a) → (w.store.ssoFlowTake state r.now).2 = some flow := by
  unfold redeem at h
  split at h
  · cases h
    exact .inl ⟨rfl, by simp⟩
  split at h
  · cases h
    exact .inl ⟨rfl, by simp⟩
  split at h
  · rename_i store heq
    cases h
    exact .inr ⟨by rw [heq], by simp⟩
  rename_i store flow heq
  dsimp only at h
  split at h
  · cases h
    exact .inr ⟨by rw [heq], by simp⟩
  split at h
  · cases h
    exact .inr ⟨by rw [heq], by simp⟩
  split at h
  · cases h
    exact .inr ⟨by rw [heq], by simp⟩
  · cases h
    exact .inr ⟨by rw [heq], by simp⟩
  · cases h
    refine .inr ⟨by rw [heq], ?_⟩
    intro flow' a' h'
    cases h'
    rw [heq]

theorem finishStepUp_writes {flow : SsoFlow} {a : Assertion} :
    w.store.Writes (fun i k => flow.sessionId = some i ∧ flow.accountId.isSome ∧
      k = .identityProviderPresence) (w.finishStepUp rt r flow a).1.store := by
  unfold finishStepUp
  split
  · rename_i account session haccount hsession
    split
    · exact .refl
    split
    · exact .refl
    split
    · exact .refl
    have hrecord : w.store.Writes (fun i k => flow.sessionId = some i ∧ flow.accountId.isSome ∧
        k = .identityProviderPresence)
        (w.recordOn r .identityProviderPresence ⟨session, account⟩).1.store :=
      recordOn_writes fun k hk => ⟨hsession, by rw [haccount]; rfl, by cases hk; rfl⟩
    split
    · rename_i w₁ heq
      rw [heq] at hrecord
      exact hrecord
    · rename_i w₁ heq
      rw [heq] at hrecord
      exact hrecord
  · exact .refl

theorem answer_writes (x : Site × Except Failure Reply) :
    x.1.store.Writes p (answer r x).1.store := by
  obtain ⟨w, res⟩ := x
  cases res with
  | ok reply => exact .refl
  | error failure =>
    cases failure with
    | refused reason detail account => exact record_writes _ _ rfl
    | unavailable => exact .refl

theorem resolve_same {s : Store} (normalize : String → String) (req : NewExternalIdentity) :
    (s.externalIdentityResolveOrCreate normalize req).1.flows = s.flows ∧
    (s.externalIdentityResolveOrCreate normalize req).1.sessions = s.sessions ∧
    (s.externalIdentityResolveOrCreate normalize req).1.events = s.events := by
  rcases s.externalIdentityResolveOrCreate_cases normalize req with
    heq | ⟨_, ⟨_, _, _, _, _, heq⟩ | ⟨_, heq⟩⟩ <;> rw [heq] <;> exact ⟨rfl, rfl, rfl⟩

/-- Later writes keep a session opened. -/
theorem Opened.writes {s s₁ s₂ : Store} {account i : RowId} (h : Opened s s₁ account i)
    (hw : s₁.Writes p s₂) : Opened s s₂ account i := by
  obtain ⟨hi, b, hb, hba⟩ := h
  obtain ⟨b', hb', hba'⟩ := hw.kept hb
  exact ⟨hi, b', hb', hba'.trans hba⟩

/-- The `state` of the flow a request completes. -/
def completes (rt : Runtime) (w : Site) (r : Request) : Option String :=
  match r.body with
  | .callback provider code state error _ _ =>
    if (rt.providers provider).isSome && (w.redeem rt r provider code state error).2.isOk then
      some state
    else none
  | _ => none

/-- A callback spends the flow, then steps up the flow's session or signs in. -/
theorem callback_cases {provider code state error token otp : String} {s' : Store}
    (hbody : r.body = .callback provider code state error token otp)
    (h : (w.callback rt r provider code state error token otp).1.store = s') :
    ∃ s₁, (s₁ = w.store ∧ w.completes rt r = none ∨ s₁ = (w.store.ssoFlowTake state r.now).1) ∧
      (s₁.Writes (fun _ _ => False) s' ∨
      (∃ j f, w.completes rt r = some state ∧
        w.store.flows.find? (fun _ f => f.handle = state) = some (j, f) ∧
        f.kind = .stepUp ∧ s₁.Writes (fun i k => f.sessionId = some i ∧ f.accountId.isSome ∧
          k = .identityProviderPresence) s') ∨
      ∃ req s₂, (s₁.externalIdentityResolveOrCreate rt.normalize req).1 = s₂ ∧
        (s₂.Writes (fun _ _ => False) s' ∨
        ∃ account j identity, s₂.emailIdentityForAccount account = some (j, identity) ∧
          s₂.Writes (fun i k => Opened s₂ s' account i ∧
            (k = .identityProvider ∨ k = .identityProviderMfa ∧ identity.verifiedAt.isSome)) s')) := by
  subst h
  unfold callback
  split
  · rename_i hprovider
    exact ⟨_, .inl ⟨rfl, by simp [completes, hbody, hprovider]⟩, .inl .refl⟩
  rename_i hprovider
  split
  · rename_i w₁ failure heq
    have hnone : w.completes rt r = none := by
      simp [completes, hbody, heq, Except.isOk, Except.toBool]
    rcases redeem_cases heq with ⟨hstore, _⟩ | ⟨hstore, _⟩
    · exact ⟨_, .inl ⟨rfl, hnone⟩, .inl (hstore ▸ answer_writes (w₁, .error failure))⟩
    · exact ⟨_, .inr rfl, .inl (hstore ▸ answer_writes (w₁, .error failure))⟩
  rename_i w₁ flow a heq
  rcases redeem_cases heq with ⟨_, hno⟩ | ⟨hstore, htake⟩
  · exact absurd rfl (hno _)
  obtain ⟨_, j, f, hfind, hkind, haccount, hsession⟩ := ssoFlowTake_some (htake flow a rfl)
  refine ⟨_, .inr rfl, ?_⟩
  rw [← hstore]
  split
  · rename_i hk
    have hcompletes : w.completes rt r = some state := by
      simp [completes, hbody, hprovider, heq, Except.isOk, Except.toBool]
    refine .inr (.inl ⟨j, f, hcompletes, hfind, hkind ▸ hk, ?_⟩)
    have hfinish := @finishStepUp_writes rt w₁ r flow a
    rw [hsession, haccount] at hfinish
    exact hfinish.trans (answer_writes _)
  · have hanswer := @answer_writes (fun _ _ => False) r (w₁.finishSignIn rt r a token otp)
    rcases @finishSignIn_cases rt w₁ r a token otp _ rfl with hsame | ⟨req, s₂, hs₂, hcases⟩
    · exact .inl (hsame ▸ hanswer)
    · refine .inr (.inr ⟨req, s₂, hs₂, ?_⟩)
      rcases hcases with hsame | ⟨account, j, identity, hid, hwrites⟩
      · exact .inl (hsame ▸ hanswer)
      · refine .inr ⟨account, j, identity, hid, .trans (hwrites.mono ?_) (answer_writes _)⟩
        rintro i k ⟨hopened, hk⟩
        exact ⟨hopened.writes hanswer, hk⟩

end Site

end TunnelWeaver.Account
