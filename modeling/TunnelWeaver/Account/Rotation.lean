import TunnelWeaver.Account.Credentials

/-! What a password rotation guarantees against sign-ins and changes that run at the same time. -/

namespace TunnelWeaver.Account

open Automaton

namespace Store

variable {s s' : Store}

/-- The sessions of an account below `n` are all invalidated. -/
def SignedOut (s : Store) (n : RowId) (account : RowId) : Prop :=
  ∀ {i b}, s.sessions.get? i = some b → i < n → b.accountId = account → b.invalidatedAt.isSome

/-- What the operations do to rows that exist: a session or a credential keeps its account, is
never revived, and a credential that retires takes the sessions of its account with it. -/
structure Evolves (s s' : Store) : Prop where
  sessionsNext : s.sessions.next ≤ s'.sessions.next
  credentialsNext : s.credentials.next ≤ s'.credentials.next
  session : ∀ {i b'}, s'.sessions.get? i = some b' → i < s.sessions.next →
    ∃ b, s.sessions.get? i = some b ∧ b'.accountId = b.accountId ∧
      (b.invalidatedAt.isSome → b'.invalidatedAt.isSome)
  credential : ∀ {i c'}, s'.credentials.get? i = some c' → i < s.credentials.next →
    ∃ c, s.credentials.get? i = some c ∧ c'.accountId = c.accountId ∧
      (c.retiredAt.isSome → c'.retiredAt.isSome) ∧
      (c'.retiredAt.isSome → c.retiredAt.isSome ∨ s'.SignedOut s.sessions.next c.accountId)

namespace Evolves

theorem of_eq (hs : s'.sessions = s.sessions) (hc : s'.credentials = s.credentials) :
    s.Evolves s' where
  sessionsNext := by rw [hs]
  credentialsNext := by rw [hc]
  session h _ := ⟨_, hs ▸ h, rfl, id⟩
  credential h _ := ⟨_, hc ▸ h, rfl, id, .inl⟩

theorem refl : s.Evolves s := of_eq rfl rfl

theorem trans {s'' : Store} (h : s.Evolves s') (h' : s'.Evolves s'') : s.Evolves s'' where
  sessionsNext := h.sessionsNext.trans h'.sessionsNext
  credentialsNext := h.credentialsNext.trans h'.credentialsNext
  session hb hi := by
    obtain ⟨b', hb', ha', hv'⟩ := h'.session hb (hi.trans_le h.sessionsNext)
    obtain ⟨b, hb, ha, hv⟩ := h.session hb' hi
    exact ⟨b, hb, ha'.trans ha, hv' ∘ hv⟩
  credential hc hi := by
    obtain ⟨c', hc', ha', hr', hs'⟩ := h'.credential hc (hi.trans_le h.credentialsNext)
    obtain ⟨c, hc, ha, hr, hs⟩ := h.credential hc' hi
    refine ⟨c, hc, ha'.trans ha, hr' ∘ hr, fun hret => ?_⟩
    rcases hs' hret with hret | hout
    · rcases hs hret with hret | hout
      · exact .inl hret
      · refine .inr fun hb hj hacc => ?_
        obtain ⟨b, hb, hba, hv⟩ := h'.session hb (hj.trans_le h.sessionsNext)
        exact hv (hout hb hj (hba ▸ hacc))
    · exact .inr fun hb hj hacc => hout hb (hj.trans_le h.sessionsNext) (hacc.trans ha.symm)

end Evolves

theorem evolves_sessions {t : Table BrowserSession} (hn : s.sessions.next ≤ t.next)
    (h : ∀ {i b'}, t.get? i = some b' → i < s.sessions.next →
      ∃ b, s.sessions.get? i = some b ∧ b'.accountId = b.accountId ∧
        (b.invalidatedAt.isSome → b'.invalidatedAt.isSome)) :
    s.Evolves { s with sessions := t } where
  sessionsNext := hn
  credentialsNext := Nat.le_refl _
  session := h
  credential hc _ := ⟨_, hc, rfl, id, .inl⟩

/-- Invalidating sessions. -/
theorem evolves_invalidate (p : RowId → BrowserSession → Bool) (now : Int) :
    s.Evolves { s with sessions := s.sessions.update p (.invalidate now) } := by
  refine evolves_sessions (Nat.le_refl _) fun {i b'} hb _ => ?_
  rw [Table.get?_update, Option.map_eq_some_iff] at hb
  obtain ⟨b, hb, rfl⟩ := hb
  refine ⟨b, hb, ?_, fun hv => ?_⟩
  · split <;> rfl
  · split
    · rfl
    · exact hv

theorem evolves_sessionInvalidate (tokenHash : String) (now : Int) :
    s.Evolves (s.sessionInvalidate tokenHash now) :=
  evolves_invalidate _ now

theorem evolves_sessionCreate (accountId : RowId) (tokenHash provider : String)
    (createdAt expiresAt : Int) :
    s.Evolves (s.sessionCreate accountId tokenHash provider createdAt expiresAt).1 := by
  unfold sessionCreate
  split
  · exact .refl
  · refine evolves_sessions (Nat.le_succ _) fun {i b'} hb hi => ?_
    rw [Table.get?_insert, if_neg hi.ne] at hb
    exact ⟨b', hb, rfl, id⟩

/-- A new credential leaves the others alone. -/
theorem evolves_insertCredential (c : PasswordCredential) :
    s.Evolves { s with credentials := s.credentials.insert c } where
  sessionsNext := Nat.le_refl _
  credentialsNext := Nat.le_succ _
  session hb _ := ⟨_, hb, rfl, id⟩
  credential hc hi := by
    rw [Table.get?_insert, if_neg hi.ne] at hc
    exact ⟨_, hc, rfl, id, .inl⟩

theorem evolves_deleteAccountRow (id : RowId) : s.Evolves (s.deleteAccountRow id) where
  sessionsNext := Nat.le_refl _
  credentialsNext := Nat.le_refl _
  session hb _ := by
    rw [deleteAccountRow, Table.get?_delete, Option.filter_eq_some_iff] at hb
    exact ⟨_, hb.1, rfl, fun h => h⟩
  credential hc _ := by
    rw [deleteAccountRow, Table.get?_delete, Option.filter_eq_some_iff] at hc
    exact ⟨_, hc.1, rfl, fun h => h, .inl⟩

theorem evolves_deleteAccount (id : RowId) : s.Evolves (s.deleteAccount id) := by
  unfold deleteAccount
  split
  · exact .refl
  · exact evolves_deleteAccountRow id

/-- The sessions and the credentials are untouched and no account id is handed out again. -/
structure Aside (s s' : Store) : Prop where
  sessions : s'.sessions = s.sessions
  credentials : s'.credentials = s.credentials
  accountsNext : s.accounts.next ≤ s'.accounts.next

namespace Aside

theorem refl : s.Aside s := ⟨rfl, rfl, Nat.le_refl _⟩

theorem evolves (h : s.Aside s') : s.Evolves s' := .of_eq h.sessions h.credentials

end Aside

theorem aside_authEventInsert (event : AuthEvent) : s.Aside (s.authEventInsert event).1 := by
  unfold authEventInsert
  split <;> exact ⟨rfl, rfl, Nat.le_refl _⟩

theorem aside_passwordResetTokenIssue (accountId : RowId) (tokenDigest : String)
    (issuedAt expiresAt : Int) :
    s.Aside (s.passwordResetTokenIssue accountId tokenDigest issuedAt expiresAt) := by
  unfold passwordResetTokenIssue
  dsimp only
  split <;> exact ⟨rfl, rfl, Nat.le_refl _⟩

theorem evolves_accountActivate (normalize : String → String) (req : ActivationRequest) :
    s.Evolves (s.accountActivate normalize req).1 := by
  obtain heq | ⟨_, ⟨_, heq⟩ | heq⟩ := s.accountActivate_cases normalize req
  · rw [heq]
    exact .refl
  · rw [heq]
    exact (evolves_insertCredential _).trans (.of_eq rfl rfl)
  · rw [heq]
    refine (Evolves.of_eq ?_ ?_).trans (evolves_deleteAccountRow _)
    · rfl
    · rfl

/-- An external sign-in leaves sessions and credentials alone. -/
theorem aside_externalIdentityResolveOrCreate (normalize : String → String)
    (req : NewExternalIdentity) :
    s.Aside (s.externalIdentityResolveOrCreate normalize req).1 := by
  obtain heq | ⟨_, ⟨_, _, _, _, _, heq⟩ | ⟨_, heq⟩⟩ :=
    s.externalIdentityResolveOrCreate_cases normalize req
  · rw [heq]
    exact .refl
  · rw [heq]
    exact ⟨rfl, rfl, Nat.le_refl _⟩
  · rw [heq]
    exact ⟨rfl, rfl, Nat.le_succ _⟩

/-! ## Rotation -/

/-- A rotation that is carried out: no credential of the account stays current but the new one, and
no session that was there stays live. -/
theorem rotateCredential_ok {account : RowId} {hash : String} {now : Int}
    (h : s.rotateCredential account hash now = .ok s') :
    (account < s.accounts.next ∧ s'.accounts = s.accounts) ∧
      s'.credentials = (s.credentials.update (current account) fun c =>
        { c with retiredAt := some now }).insert
          { accountId := account, encodedHash := hash, createdAt := now, retiredAt := none } ∧
      s'.sessions = s.sessions.update
        (fun _ b => b.accountId = account && b.invalidatedAt.isNone) (.invalidate now) := by
  unfold rotateCredential at h
  split at h
  · cases h
  dsimp only at h
  split at h
  · cases h
  · rename_i haccount
    cases h
    exact ⟨⟨Table.lt_next haccount, rfl⟩, rfl, rfl⟩

theorem signedOut_rotateCredential {account : RowId} {hash : String} {now : Int}
    (h : s.rotateCredential account hash now = .ok s') (n : RowId) : s'.SignedOut n account := by
  intro i b hb _ hacc
  rw [(rotateCredential_ok h).2.2, Table.get?_update, Option.map_eq_some_iff] at hb
  obtain ⟨b, hb, rfl⟩ := hb
  by_cases hlive : b.accountId = account ∧ b.invalidatedAt = none
  · simp [hlive, BrowserSession.invalidate]
  · have hsel : (decide (b.accountId = account) && b.invalidatedAt.isNone) = false := by
      simpa [Option.isSome_iff_ne_none] using hlive
    rw [hsel] at hacc ⊢
    exact Option.isSome_iff_ne_none.mpr fun hv => hlive ⟨hacc, hv⟩

theorem evolves_rotateCredential {account : RowId} {hash : String} {now : Int}
    (h : s.rotateCredential account hash now = .ok s') : s.Evolves s' := by
  obtain ⟨_, hcred, hsess⟩ := rotateCredential_ok h
  refine ⟨by rw [hsess]; exact Nat.le_refl _, by rw [hcred]; exact Nat.le_succ _, ?_, ?_⟩
  · intro i b' hb hi
    rw [hsess] at hb
    exact (evolves_invalidate (s := s) _ now).session hb hi
  · intro i c' hc hi
    rw [hcred, Table.get?_insert, Table.next_update, if_neg hi.ne,
      Table.get?_update, Option.map_eq_some_iff] at hc
    obtain ⟨c, hc, rfl⟩ := hc
    refine ⟨c, hc, ?_, fun hr => ?_, fun hr => ?_⟩
    · split <;> rfl
    · split
      · rfl
      · exact hr
    · split at hr
      · rename_i hsel
        simp only [current, Bool.and_eq_true, decide_eq_true_eq] at hsel
        exact .inr (hsel.1 ▸ signedOut_rotateCredential h _)
      · exact .inl hr

theorem evolves_accountChangePassword (account : RowId) (hash : String) (now : Int) :
    s.Evolves (s.accountChangePassword account hash now).1 := by
  unfold accountChangePassword
  split
  · exact .refl
  · rename_i h
    exact evolves_rotateCredential h

theorem evolves_accountResetPassword (token : RowId) (hash : String) (now : Int) :
    s.Evolves (s.accountResetPassword token hash now).1 := by
  unfold accountResetPassword
  dsimp only
  split
  · exact .refl
  split
  · exact .refl
  split
  · exact .refl
  · rename_i h
    refine Evolves.trans ?_ (evolves_rotateCredential h)
    exact .of_eq rfl rfl

/-! ## One current credential -/

/-- Every credential belongs to an account id that was handed out, and an account has at most one
credential that is not retired. -/
structure Sole (s : Store) : Prop where
  account_lt : ∀ {i c}, s.credentials.get? i = some c → c.accountId < s.accounts.next
  unique : ∀ {i j c c'}, s.credentials.get? i = some c → s.credentials.get? j = some c' →
    c.accountId = c'.accountId → c.retiredAt = none → c'.retiredAt = none → i = j

namespace Sole

theorem aside (h : s.Sole) (hs : s.Aside s') : s'.Sole where
  account_lt hc := (h.account_lt (hs.credentials ▸ hc)).trans_le hs.accountsNext
  unique hc hc' := h.unique (hs.credentials ▸ hc) (hs.credentials ▸ hc')

theorem deleteAccountRow (h : s.Sole) (id : RowId) : (s.deleteAccountRow id).Sole where
  account_lt hc := by
    rw [Store.deleteAccountRow, Table.get?_delete, Option.filter_eq_some_iff] at hc
    exact h.account_lt hc.1
  unique hc hc' := by
    rw [Store.deleteAccountRow, Table.get?_delete, Option.filter_eq_some_iff] at hc hc'
    exact h.unique hc.1 hc'.1

theorem accountActivate (h : s.Sole) (normalize : String → String) (req : ActivationRequest) :
    (s.accountActivate normalize req).1.Sole := by
  obtain heq | ⟨_, ⟨_, heq⟩ | heq⟩ := s.accountActivate_cases normalize req
  · rwa [heq]
  · rw [heq]
    constructor
    · intro i c hc
      dsimp only at hc
      rw [Table.get?_insert] at hc
      split at hc
      · cases hc
        exact Nat.lt_succ_self _
      · exact (h.account_lt hc).trans (Nat.lt_succ_self _)
    · -- No credential of the new account was there before.
      intro i j c c' hc hc' hacc hlive hlive'
      dsimp only at hc hc'
      rw [Table.get?_insert] at hc hc'
      split at hc <;> split at hc'
      · rename_i hi hj
        exact hi.trans hj.symm
      · cases hc
        exact absurd hacc.symm (h.account_lt hc').ne
      · cases hc'
        exact absurd hacc (h.account_lt hc).ne
      · exact h.unique hc hc' hacc hlive hlive'
  · rw [heq]
    refine Sole.deleteAccountRow ?_ _
    exact h.aside ⟨rfl, rfl, Nat.le_succ _⟩

/-- All current credentials of the account retire before the new one is written. -/
theorem rotateCredential (h : s.Sole) {account : RowId} {hash : String} {now : Int}
    (hs : s.rotateCredential account hash now = .ok s') : s'.Sole := by
  obtain ⟨⟨hlt, haccs⟩, hcred, _⟩ := rotateCredential_ok hs
  have hold {i c} (hc : (s.credentials.update (current account) fun c =>
      { c with retiredAt := some now }).get? i = some c) (hlive : c.retiredAt = none) :
      s.credentials.get? i = some c ∧ c.accountId ≠ account := by
    rw [Table.get?_update, Option.map_eq_some_iff] at hc
    obtain ⟨c, hc, rfl⟩ := hc
    split at hlive
    · cases hlive
    · rename_i hsel
      rw [if_neg hsel]
      refine ⟨hc, fun hacc => hsel ?_⟩
      simp [current, hacc, hlive]
  constructor
  · intro i c hc
    rw [hcred, Table.get?_insert] at hc
    rw [haccs]
    split at hc
    · cases hc
      exact hlt
    · rw [Table.get?_update, Option.map_eq_some_iff] at hc
      obtain ⟨c, hc, rfl⟩ := hc
      have := h.account_lt hc
      split <;> exact this
  · intro i j c c' hc hc' hacc hlive hlive'
    rw [hcred, Table.get?_insert] at hc hc'
    split at hc <;> split at hc'
    · rename_i hi hj
      exact hi.trans hj.symm
    · cases hc
      exact absurd hacc.symm (hold hc' hlive').2
    · cases hc'
      exact absurd hacc (hold hc hlive).2
    · exact h.unique (hold hc hlive).1 (hold hc' hlive').1 hacc hlive hlive'

theorem accountChangePassword (h : s.Sole) (account : RowId) (hash : String) (now : Int) :
    (s.accountChangePassword account hash now).1.Sole := by
  unfold Store.accountChangePassword
  split
  · exact h
  · rename_i hs
    exact h.rotateCredential hs

theorem accountResetPassword (h : s.Sole) (token : RowId) (hash : String) (now : Int) :
    (s.accountResetPassword token hash now).1.Sole := by
  unfold Store.accountResetPassword
  dsimp only
  split
  · exact h
  split
  · exact h
  split
  · exact h
  · rename_i hs
    refine Sole.rotateCredential ?_ hs
    exact h.aside ⟨rfl, rfl, Nat.le_refl _⟩

end Sole

/-! ## Operations -/

/-- What one step of the requests below may do to the store. -/
inductive Op (normalize : String → String) (s : Store) : Store → Prop
  | aside {t : Store} (h : s.Aside t) : Op normalize s t
  | activate (req : ActivationRequest) : Op normalize s (s.accountActivate normalize req).1
  | external (req : NewExternalIdentity) :
    Op normalize s (s.externalIdentityResolveOrCreate normalize req).1
  | delete (id : RowId) : Op normalize s (s.deleteAccount id)
  | create (account : RowId) (tokenHash provider : String) (now expires : Int) :
    Op normalize s (s.sessionCreate account tokenHash provider now expires).1
  | invalidate (tokenHash : String) (now : Int) : Op normalize s (s.sessionInvalidate tokenHash now)
  | change (account : RowId) (hash : String) (now : Int) :
    Op normalize s (s.accountChangePassword account hash now).1
  | reset (token : RowId) (hash : String) (now : Int) :
    Op normalize s (s.accountResetPassword token hash now).1

namespace Op

variable {normalize : String → String}

theorem refl : Op normalize s s := .aside .refl

theorem evolves (h : Op normalize s s') : s.Evolves s' := by
  cases h with
  | aside h => exact h.evolves
  | activate req => exact evolves_accountActivate ..
  | external req => exact (aside_externalIdentityResolveOrCreate ..).evolves
  | delete id => exact evolves_deleteAccount _
  | create => exact evolves_sessionCreate ..
  | invalidate => exact evolves_sessionInvalidate ..
  | change => exact evolves_accountChangePassword ..
  | reset => exact evolves_accountResetPassword ..

theorem sole (h : Op normalize s s') (hs : s.Sole) : s'.Sole := by
  cases h with
  | aside h => exact hs.aside h
  | activate req => exact hs.accountActivate ..
  | external req => exact hs.aside (aside_externalIdentityResolveOrCreate ..)
  | delete id =>
    unfold Store.deleteAccount
    split
    · exact hs
    · exact hs.deleteAccountRow id
  | create =>
    unfold sessionCreate
    split
    · exact hs
    · exact ⟨hs.account_lt, hs.unique⟩
  | invalidate => exact ⟨hs.account_lt, hs.unique⟩
  | change => exact hs.accountChangePassword ..
  | reset => exact hs.accountResetPassword ..

end Op

end Store

/-! ## Sign-ins -/

/-- The credential a login verified and the session it opened belong to its account, and the
session is over once the credential is retired. -/
structure Login.Sound (s : Store) (l : Login) : Prop where
  credential_lt : ∀ {c}, l.credential = some c → c < s.credentials.next
  credential_account : ∀ {c row}, l.credential = some c → s.credentials.get? c = some row →
    row.accountId = l.account
  session_lt : ∀ {i}, l.session = some i → i < s.sessions.next
  session_account : ∀ {i b}, l.session = some i → s.sessions.get? i = some b →
    b.accountId = l.account
  signedOut : ∀ {c row i b}, l.credential = some c → s.credentials.get? c = some row →
    row.retiredAt.isSome → l.session = some i → s.sessions.get? i = some b →
    b.invalidatedAt.isSome

namespace Login.Sound

variable {s s' : Store} {l l' : Login}

theorem evolves (h : l.Sound s) (hs : s.Evolves s') : l.Sound s' where
  credential_lt hc := (h.credential_lt hc).trans_le hs.credentialsNext
  credential_account hc hrow := by
    obtain ⟨row, hrow, ha, _⟩ := hs.credential hrow (h.credential_lt hc)
    exact ha.trans (h.credential_account hc hrow)
  session_lt hi := (h.session_lt hi).trans_le hs.sessionsNext
  session_account hi hb := by
    obtain ⟨b, hb, ha, _⟩ := hs.session hb (h.session_lt hi)
    exact ha.trans (h.session_account hi hb)
  signedOut hc hrow hret hi hb' := by
    obtain ⟨row, hrow, _, _, hret'⟩ := hs.credential hrow (h.credential_lt hc)
    obtain ⟨b, hb, ha, hv⟩ := hs.session hb' (h.session_lt hi)
    rcases hret' hret with hret | hout
    · exact hv (h.signedOut hc hrow hret hi hb)
    · refine hout hb' (h.session_lt hi) ?_
      rw [ha, h.session_account hi hb, h.credential_account hc hrow]

/-- The phase of a login plays no part. -/
theorem congr (h : l.Sound s) (ha : l'.account = l.account) (hc : l'.credential = l.credential)
    (hi : l'.session = l.session) : l'.Sound s := by
  obtain ⟨h₁, h₂, h₃, h₄, h₅⟩ := h
  rw [← hc] at h₁ h₂ h₅
  rw [← hi] at h₃ h₄ h₅
  rw [← ha] at h₂ h₄
  exact ⟨h₁, h₂, h₃, h₄, h₅⟩

end Login.Sound

namespace World

variable {pw : Passwords} {normalize : String → String} {w w' : World} {a : Action}

/-- What a step can do to the logins: keep them, start one on the current credential of its
account, or give one a session. -/
def LoginStep (w w' : World) (a : Action) : Prop :=
  ∀ i l', w'.logins.get? i = some l' →
    (∃ l, w.logins.get? i = some l ∧ l'.account = l.account ∧ l'.credential = l.credential ∧
      l'.session = l.session) ∨
    (l'.session = none ∧ ∀ {c}, l'.credential = some c →
      ∃ row, w.store.credentials.get? c = some row ∧ row.accountId = l'.account) ∨
    (∃ l ttl, a = .createSession i ttl ∧ w.logins.get? i = some l ∧ l'.account = l.account ∧
      l'.credential = l.credential ∧ l'.session = some w.store.sessions.next ∧
      w'.store.credentials = w.store.credentials ∧
      w'.store.sessions.next = w.store.sessions.next + 1 ∧
      ∀ {b}, w'.store.sessions.get? w.store.sessions.next = some b → b.accountId = l.account)

/-- What a step can do to the change requests: keep them, start one on a credential that exists, or
carry one out. -/
def ChangeStep (w w' : World) (a : Action) : Prop :=
  ∀ i c', w'.changes.get? i = some c' → w.changes.get? i = some c' ∨
    (c'.outcome = none ∧ ∃ row, w.store.credentials.get? c'.credential = some row) ∨
    (∃ c, a = .applyChange i ∧ w.changes.get? i = some c ∧ c' = { c with
        outcome := some (w.store.accountChangePassword c.account c.encodedHash c.now).2 } ∧
      w'.store = (w.store.accountChangePassword c.account c.encodedHash c.now).1)

/-- What a step can do. -/
structure Steps (normalize : String → String) (a : Action) (w w' : World) : Prop where
  store : w.store.Op normalize w'.store
  logins : LoginStep w w' a
  changes : ChangeStep w w' a

theorem loginStep_of_eq (h : w'.logins = w.logins) : LoginStep w w' a := fun _ _ hl =>
  .inl ⟨_, h ▸ hl, rfl, rfl, rfl⟩

/-- Only the phase of the login changes. -/
theorem loginStep_of_set {task : RowId} {l : Login} {phase : LoginPhase}
    (hl : w.logins.get? task = some l)
    (h : w'.logins = w.logins.set task { l with phase }) : LoginStep w w' a := by
  intro i l' hl'
  rw [h, Table.get?_set] at hl'
  split at hl'
  · rename_i hi
    subst hi
    rw [hl, Option.map_some, Option.some.injEq] at hl'
    subst hl'
    exact .inl ⟨l, hl, rfl, rfl, rfl⟩
  · exact .inl ⟨l', hl', rfl, rfl, rfl⟩

theorem changeStep_of_eq (h : w'.changes = w.changes) : ChangeStep w w' a := fun _ _ hc =>
  .inl (h ▸ hc)

/-- A step that leaves the requests alone. -/
theorem steps_store {store : Store} (h : w.store.Op normalize store) :
    Steps normalize a w { w with store } :=
  ⟨h, loginStep_of_eq rfl, changeStep_of_eq rfl⟩

theorem steps_login {store : Store} {task : RowId} {l : Login} {phase : LoginPhase}
    (h : w.store.Op normalize store) (hl : w.logins.get? task = some l) :
    Steps normalize a w { w with store, logins := w.logins.set task { l with phase } } :=
  ⟨h, loginStep_of_set hl rfl, changeStep_of_eq rfl⟩

theorem atLogin_eq_some {task : RowId} {phase : LoginPhase} {f : Login → World}
    (h : w.atLogin task phase f = some w') :
    ∃ l, w.logins.get? task = some l ∧ l.phase = phase ∧ w' = f l := by
  obtain ⟨l, hl, hf⟩ := Option.bind_eq_some_iff.mp h
  split at hf
  · rename_i hp
    cases hf
    exact ⟨l, hl, hp, rfl⟩
  · cases hf

theorem passwordCurrentFor_eq_some {s : Store} {account i : RowId} {c : PasswordCredential}
    (h : s.passwordCurrentFor account = some (i, c)) :
    s.credentials.get? i = some c ∧ c.accountId = account ∧ c.retiredAt = none := by
  obtain ⟨hget, hsel⟩ := Table.find?_some h
  simp only [Store.current, Bool.and_eq_true, decide_eq_true_eq, Option.isNone_iff_eq_none] at hsel
  exact ⟨hget, hsel⟩

theorem steps_loginFailed (account : Option RowId) (now : Int) :
    Steps normalize a w (w.loginFailed account now) :=
  steps_store (.aside (Store.aside_authEventInsert _))

theorem steps_login_check (lookupKey password tokenHash : String) (now : Int) :
    Steps normalize a w (w.login pw lookupKey password tokenHash now) := by
  unfold login
  dsimp only
  split
  · exact steps_loginFailed ..
  split
  · exact steps_loginFailed ..
  split
  · exact steps_store .refl
  · refine ⟨.refl, fun i l' hl' => ?_, changeStep_of_eq rfl⟩
    dsimp only at hl'
    rw [Table.get?_insert] at hl'
    split at hl'
    · cases hl'
      refine .inr (.inl ⟨rfl, fun {c} hc => ?_⟩)
      obtain ⟨⟨c, row⟩, hrow, rfl⟩ := Option.map_eq_some_iff.mp hc
      exact ⟨row, (passwordCurrentFor_eq_some hrow).1, (passwordCurrentFor_eq_some hrow).2.1⟩
    · exact .inl ⟨l', hl', rfl, rfl, rfl⟩

theorem steps_createSession {task : RowId} {l : Login} (ttl : Int)
    (hl : w.logins.get? task = some l) :
    Steps normalize (.createSession task ttl) w (w.createSession task l ttl) := by
  have hop : w.store.Op normalize
      (w.store.sessionCreate l.account l.tokenHash "" l.now (l.now + ttl)).1 := .create ..
  unfold createSession
  split
  · exact steps_login .refl hl
  rename_i store session hres
  rw [hres] at hop
  refine ⟨hop, fun i l' hl' => ?_, changeStep_of_eq rfl⟩
  dsimp only at hl'
  rw [Table.get?_set] at hl'
  split at hl'
  · rename_i hi
    subst hi
    rw [hl, Option.map_some, Option.some.injEq] at hl'
    subst hl'
    unfold Store.sessionCreate at hres
    split at hres
    · cases hres
    · cases hres
      refine .inr (.inr ⟨l, ttl, rfl, hl, rfl, rfl, rfl, rfl, rfl, fun {b} hb => ?_⟩)
      dsimp only at hb
      rw [Table.get?_insert, if_pos rfl] at hb
      cases hb
      rfl
  · exact .inl ⟨l', hl', rfl, rfl, rfl⟩

theorem steps_change (tokenHash password encodedHash : String) (now : Int) :
    Steps normalize a w (w.change pw tokenHash password encodedHash now) := by
  unfold change
  split
  · exact steps_store .refl
  split
  · exact steps_store .refl
  split
  · exact steps_store .refl
  · rename_i hcurrent _
    refine ⟨.refl, loginStep_of_eq rfl, fun i c' hc' => ?_⟩
    dsimp only at hc'
    rw [Table.get?_insert] at hc'
    split at hc'
    · cases hc'
      exact .inr (.inl ⟨rfl, _, (passwordCurrentFor_eq_some hcurrent).1⟩)
    · exact .inl hc'

theorem steps_applyChange {task : RowId} {c : Change} (hc : w.changes.get? task = some c) :
    Steps normalize (.applyChange task) w (w.applyChange task c) := by
  refine ⟨.change .., loginStep_of_eq rfl, fun i c' hc' => ?_⟩
  dsimp only [applyChange] at hc'
  rw [Table.get?_set] at hc'
  split at hc'
  · rename_i hi
    subst hi
    rw [hc, Option.map_some, Option.some.injEq] at hc'
    exact .inr (.inr ⟨c, rfl, hc, hc'.symm, rfl⟩)
  · exact .inl hc'

theorem step_steps (h : w.step pw normalize a = some w') : Steps normalize a w w' := by
  have hclose (task : RowId) {l : Login} (hl : w.logins.get? task = some l) :
      Steps normalize a w (w.closeLogin task l) :=
    steps_login (.invalidate ..) hl
  cases a with
  | issueToken tokenDigest expiresAt =>
    cases h
    exact steps_store (.aside ⟨rfl, rfl, Nat.le_refl _⟩)
  | activate req =>
    cases h
    exact steps_store (.activate req)
  | signInExternally req =>
    cases h
    exact steps_store (.external req)
  | deleteAccount account =>
    cases h
    exact steps_store (.delete account)
  | logout tokenHash now =>
    cases h
    exact steps_store (.invalidate ..)
  | login lookupKey password tokenHash now =>
    cases h
    exact steps_login_check ..
  | createSession task ttl =>
    obtain ⟨l, hl, _, rfl⟩ := atLogin_eq_some h
    exact steps_createSession ttl hl
  | readBack task =>
    obtain ⟨l, hl, _, rfl⟩ := atLogin_eq_some h
    unfold readBack
    split
    · exact hclose task hl
    · exact steps_login .refl hl
  | recordProof task ok =>
    obtain ⟨l, hl, _, rfl⟩ := atLogin_eq_some h
    have hop : w.store.Op normalize (w.store.authEventInsert
        { accountId := some l.account, sessionId := l.session, kind := .password
          occurredAt := l.now }).1 := .aside (Store.aside_authEventInsert _)
    unfold recordProof
    split
    · rename_i hins
      rw [hins] at hop
      exact steps_login hop hl
    · exact hclose task hl
  | offerCode task ok =>
    obtain ⟨l, hl, _, rfl⟩ := atLogin_eq_some h
    unfold offerCode
    split
    · exact steps_login .refl hl
    · exact hclose task hl
  | requestReset account tokenDigest now ttl =>
    cases h
    exact steps_store (.aside (Store.aside_passwordResetTokenIssue ..))
  | reset tokenDigest encodedHash now =>
    cases h
    unfold reset
    split
    · exact steps_store .refl
    · split <;> exact ⟨.refl, loginStep_of_eq rfl, changeStep_of_eq rfl⟩
  | applyReset task =>
    obtain ⟨r, _, hr⟩ := Option.bind_eq_some_iff.mp h
    split at hr <;> cases hr
    exact ⟨.reset .., loginStep_of_eq rfl, changeStep_of_eq rfl⟩
  | change tokenHash password encodedHash now =>
    cases h
    exact steps_change ..
  | applyChange task =>
    obtain ⟨c, hc, happly⟩ := Option.bind_eq_some_iff.mp h
    split at happly <;> cases happly
    exact steps_applyChange hc

/-- The credential a login verified is not retired when the login creates its session. -/
def unrotated (w : World) : Action → Bool
  | .createSession task _ => (w.logins.get? task).all fun l =>
      l.credential.all fun c => (w.store.credentials.get? c).all (·.retiredAt.isNone)
  | _ => true

/-- Every login of the world is sound. -/
def Sound (w : World) : Prop := ∀ i l, w.logins.get? i = some l → l.Sound w.store

theorem step_sound (hw : w.Sound) (hguard : w.unrotated a = true)
    (h : w.step pw normalize a = some w') : w'.Sound := by
  have hsteps := step_steps h
  have hev := hsteps.store.evolves
  intro i l' hl'
  obtain ⟨l, hl, ha, hc, hs⟩ | ⟨hnone, hcred⟩ | ⟨l, ttl, rfl, hl, ha, hc, hs, hcreds, hnext, hacc⟩ :=
    hsteps.logins i l' hl'
  · exact ((hw i l hl).evolves hev).congr ha hc hs
  · refine ⟨?_, ?_, ?_, ?_, ?_⟩
    · intro c hc
      obtain ⟨row, hrow, _⟩ := hcred hc
      exact (Table.lt_next hrow).trans_le hev.credentialsNext
    · intro c row' hc hrow'
      obtain ⟨row, hrow, hacc⟩ := hcred hc
      obtain ⟨row₀, hrow₀, ha, _⟩ := hev.credential hrow' (Table.lt_next hrow)
      rw [hrow, Option.some.injEq] at hrow₀
      rw [ha, ← hrow₀, hacc]
    all_goals simp [hnone]
  · have hsound := hw i l hl
    refine ⟨?_, ?_, ?_, ?_, ?_⟩
    · intro c hc'
      rw [hcreds]
      exact hsound.credential_lt (hc ▸ hc')
    · intro c row hc' hrow
      rw [hcreds] at hrow
      rw [ha]
      exact hsound.credential_account (hc ▸ hc') hrow
    · intro j hj
      rw [hs, Option.some.injEq] at hj
      rw [hnext, ← hj]
      exact Nat.lt_succ_self _
    · intro j b hj hb
      rw [hs, Option.some.injEq] at hj
      rw [ha]
      exact hacc (hj ▸ hb)
    · -- The guard: the credential of a login that gets a session is not retired.
      intro c row j b hc' hrow hret
      rw [hcreds] at hrow
      simp only [unrotated, hl, Option.all_some, hc ▸ hc', hrow, Option.isNone_iff_eq_none] at hguard
      simp [hguard] at hret

/-- The row is the session of a login whose credential is retired. -/
def Outlived (w : World) (b : BrowserSession) : Prop :=
  ∃ task l credential row session, w.logins.get? task = some l ∧ l.credential = some credential ∧
    w.store.credentials.get? credential = some row ∧ row.retiredAt.isSome ∧
    l.session = some session ∧ w.store.sessions.get? session = some b

/-- In every run in which no login creates its session after the credential that it verified was
retired, no session of a login that verified a retired credential is live. -/
theorem rotation_signs_out {acts : List Action}
    (hm : Meets (step pw normalize) (fun w a => w.unrotated a = true) {} acts)
    (h : run (step pw normalize) {} acts = some w) {b : BrowserSession} (hb : w.Outlived b)
    (now : Int) : b.live now = false := by
  have hinit : Sound {} := by
    intro i l hl
    cases hl
  have hsound : w.Sound := run_invariant_of_meets step_sound hm hinit h
  obtain ⟨task, l, credential, row, session, hl, hc, hrow, hret, hs, hb⟩ := hb
  have hv := (hsound task l hl).signedOut hc hrow hret hs hb
  simp [BrowserSession.live, Option.isNone_iff_eq_none, Option.isSome_iff_ne_none.mp hv]

namespace Sample

/-- A hash that shows its password. -/
def passwords : Passwords := ⟨fun password hash => hash == "$argon2id$" ++ password, "$argon2id$x"⟩

def signup : List Action :=
  [.issueToken "t" 100,
   .activate { consumeTokenId := 1, name := "Ann", email := "ann@a.org", lookupKey := "ann@a.org"
               encodedHash := "$argon2id$old", now := 1 }]

def openSession : List Action :=
  [.createSession 1 1000, .readBack 1, .recordProof 1 true, .offerCode 1 true]

def rotation : List Action :=
  [.requestReset 1 "r" 3 100, .reset "r" "$argon2id$new" 4, .applyReset 1]

/-- A login that is complete before the password is reset. -/
def loginThenReset : List Action :=
  signup ++ [.login "ann@a.org" "old" "cookie" 2] ++ openSession ++ rotation

/-- A login whose password check precedes the reset and whose session follows it. -/
def loginAcrossReset : List Action :=
  signup ++ [.login "ann@a.org" "old" "cookie" 2] ++ rotation ++ openSession

end Sample

/-- The session of a login that precedes the rotation is over. -/
theorem rotation_signs_out_login : ∃ w b,
    run (step Sample.passwords id) {} Sample.loginThenReset = some w ∧ w.Outlived b ∧
      b.live 5 = false := by
  have hm : Meets (step Sample.passwords id) (fun w a => w.unrotated a = true) {}
    Sample.loginThenReset := by decide +kernel
  refine ⟨_, _, rfl, ⟨1, _, 1, _, 1, rfl, rfl, rfl, rfl, rfl, rfl⟩, ?_⟩
  exact rotation_signs_out hm rfl ⟨1, _, 1, _, 1, rfl, rfl, rfl, rfl, rfl, rfl⟩ 5

/-- The session of a login that straddles the rotation is live, although the password it verified
is retired. -/
theorem rotation_survived : ∃ w b,
    run (step Sample.passwords id) {} Sample.loginAcrossReset = some w ∧ w.Outlived b ∧
      b.live 5 = true :=
  ⟨_, _, rfl, ⟨1, _, 1, _, 1, rfl, rfl, rfl, rfl, rfl, rfl⟩, rfl⟩

/-! ## Concurrent changes -/

/-- A change is carried out only while the credential that it verified is the current one of its
account, or while the account has none. -/
def stillCurrent (w : World) : Action → Bool
  | .applyChange task => (w.changes.get? task).all fun c =>
      (w.store.passwordCurrentFor c.account).all (·.1 == c.credential)
  | _ => true

/-- Of the changes that verified one credential at most one succeeds, and a change that does not is
refused with a conflict. -/
structure OneWins (w : World) : Prop where
  unique : ∀ {i j c c'}, w.changes.get? i = some c → w.changes.get? j = some c' →
    c.credential = c'.credential → c.outcome = some (.ok ()) → c'.outcome = some (.ok ()) → i = j
  refused : ∀ {i c r}, w.changes.get? i = some c → c.outcome = some r →
    r = .ok () ∨ ∃ message, r = .error (.conflict message)

/-- What makes one change win: the credential a change retired stays retired. -/
structure Exclusive (w : World) : Prop extends OneWins w where
  known : ∀ {i c}, w.changes.get? i = some c → c.credential < w.store.credentials.next
  spent : ∀ {i c row}, w.changes.get? i = some c → c.outcome = some (.ok ()) →
    w.store.credentials.get? c.credential = some row → row.retiredAt.isSome

theorem accountChangePassword_result (s : Store) (account : RowId) (hash : String) (now : Int) :
    (s.accountChangePassword account hash now).2 = .ok () ∨
      ∃ message, (s.accountChangePassword account hash now).2 = .error (.conflict message) := by
  unfold Store.accountChangePassword
  split
  · rename_i e he
    refine .inr ?_
    unfold Store.rotateCredential at he
    split at he
    · cases he
      exact ⟨_, rfl⟩
    dsimp only at he
    split at he
    · cases he
      exact ⟨_, rfl⟩
    · cases he
  · exact .inl rfl

/-- A change that succeeds found a current credential and retired it. -/
theorem accountChangePassword_ok {s : Store} {account : RowId} {hash : String} {now : Int}
    (h : (s.accountChangePassword account hash now).2 = .ok ()) :
    ∃ i c, s.passwordCurrentFor account = some (i, c) ∧
      ∀ {row}, (s.accountChangePassword account hash now).1.credentials.get? i = some row →
        row.retiredAt.isSome := by
  unfold Store.accountChangePassword at h ⊢
  split at h
  · cases h
  rename_i s' hs
  have hone : s.credentials.count (Store.current account) = 1 := by
    by_contra hne
    rw [Store.rotateCredential, if_pos hne] at hs
    cases hs
  cases hcur : s.passwordCurrentFor account with
  | none =>
    have hzero := Table.count_eq_zero.mpr (Table.find?_eq_none.mp hcur)
    omega
  | some e =>
    obtain ⟨i, c⟩ := e
    refine ⟨i, c, rfl, fun {row} hrow => ?_⟩
    obtain ⟨hget, hsel⟩ := Table.find?_some hcur
    dsimp only at hrow hget hsel
    rw [(Store.rotateCredential_ok hs).2.1, Table.get?_insert, Table.next_update,
      if_neg (Table.lt_next hget).ne, Table.get?_update, hget, Option.map_some,
      if_pos hsel, Option.some.injEq] at hrow
    rw [← hrow]
    rfl

/-- A credential that is retired stays so. -/
theorem spent_of_op {s s' : Store} (hop : s.Op normalize s') {i : RowId}
    (hi : i < s.credentials.next)
    (h : ∀ {row}, s.credentials.get? i = some row → row.retiredAt.isSome) {row : PasswordCredential}
    (hrow : s'.credentials.get? i = some row) : row.retiredAt.isSome := by
  obtain ⟨row₀, hrow₀, _, hret, _⟩ := hop.evolves.credential hrow hi
  exact hret (h hrow₀)

theorem step_exclusive (hw : w.Exclusive) (hguard : w.stillCurrent a = true)
    (h : w.step pw normalize a = some w') : w'.Exclusive := by
  obtain ⟨hop, -, hchanges⟩ := step_steps h
  have hmono := hop.evolves.credentialsNext
  -- A change that has succeeded had done so before, or this step carries it out: then its
  -- credential was current.
  have hwon {i c} (hc : w'.changes.get? i = some c) (hok : c.outcome = some (.ok ())) :
      w.changes.get? i = some c ∨ a = .applyChange i ∧
        (∃ row, w.store.credentials.get? c.credential = some row ∧ row.retiredAt = none) ∧
        ∀ {row}, w'.store.credentials.get? c.credential = some row → row.retiredAt.isSome := by
    obtain hold | ⟨hnone, _⟩ | ⟨c₀, rfl, hc₀, rfl, hstore⟩ := hchanges i c hc
    · exact .inl hold
    · rw [hnone] at hok
      cases hok
    · rw [Option.some.injEq] at hok
      obtain ⟨j, row, hcur, hret⟩ := accountChangePassword_ok hok
      simp only [stillCurrent, hc₀, hcur, Option.all_some, beq_iff_eq] at hguard
      subst hguard
      refine .inr ⟨rfl, ⟨row, (passwordCurrentFor_eq_some hcur).1,
        (passwordCurrentFor_eq_some hcur).2.2⟩, ?_⟩
      rw [hstore]
      exact hret
  refine ⟨⟨?_, ?_⟩, ?_, ?_⟩
  · intro i j c c' hc hc' heq hok hok'
    rcases hwon hc hok with hold | ⟨hi, ⟨row, hrow, hlive⟩, _⟩ <;>
      rcases hwon hc' hok' with hold' | ⟨hj, ⟨row', hrow', hlive'⟩, _⟩
    · exact hw.unique hold hold' heq hok hok'
    · rw [← heq] at hrow'
      simpa [hlive'] using hw.spent hold hok hrow'
    · rw [heq] at hrow
      simpa [hlive] using hw.spent hold' hok' hrow
    · rw [hi] at hj
      cases hj
      rfl
  · intro i c r hc hr
    obtain hold | ⟨hnone, _⟩ | ⟨c₀, rfl, hc₀, rfl, _⟩ := hchanges i c hc
    · exact hw.refused hold hr
    · rw [hnone] at hr
      cases hr
    · rw [Option.some.injEq] at hr
      rw [← hr]
      exact accountChangePassword_result ..
  · intro i c hc
    obtain hold | ⟨_, row, hrow⟩ | ⟨c₀, rfl, hc₀, rfl, _⟩ := hchanges i c hc
    · exact (hw.known hold).trans_le hmono
    · exact (Table.lt_next hrow).trans_le hmono
    · exact (hw.known hc₀).trans_le hmono
  · intro i c row hc hok hrow
    rcases hwon hc hok with hold | ⟨_, _, hret⟩
    · exact spent_of_op hop (hw.known hold) (hw.spent hold hok) hrow
    · exact hret hrow

/-- In every state an account has at most one credential that is not retired. In every run in which
a change is carried out only while the credential that it verified is still the current one, at
most one of the changes that verified a credential succeeds and the others are refused with a
conflict. -/
theorem change_password_exclusive {acts : List Action}
    (h : run (step pw normalize) {} acts = some w) :
    (∀ {account i j c c'}, w.store.credentials.get? i = some c →
      w.store.credentials.get? j = some c' → Store.current account i c = true →
      Store.current account j c' = true → i = j) ∧
    (Meets (step pw normalize) (fun w a => w.stillCurrent a = true) {} acts → w.OneWins) := by
  constructor
  · have hinit : Store.Sole ({} : World).store := by
      constructor
      · intro i c hc
        cases hc
      · intro i j c c' hc
        cases hc
    have hsole : w.store.Sole := run_invariant (p := fun _ => True)
      (fun hI _ h => (step_steps h).store.sole hI) (fun _ _ => trivial) hinit h
    intro account i j c c' hc hc' hcur hcur'
    simp only [Store.current, Bool.and_eq_true, decide_eq_true_eq,
      Option.isNone_iff_eq_none] at hcur hcur'
    exact hsole.unique hc hc' (hcur.1.trans hcur'.1.symm) hcur.2 hcur'.2
  · intro hm
    have hinit : Exclusive {} := by
      refine ⟨⟨?_, ?_⟩, ?_, ?_⟩
      all_goals
        intros
        contradiction
    exact (run_invariant_of_meets step_exclusive hm hinit h).toOneWins

namespace Sample

/-- A signed-in account and two requests that both verify its password. -/
def twoChanges : List Action :=
  signup ++ [.login "ann@a.org" "old" "cookie" 2] ++ openSession ++
    [.change "cookie" "old" "$argon2id$one" 3, .change "cookie" "old" "$argon2id$two" 3]

end Sample

/-- One of the two changes is carried out. -/
theorem change_password_exclusive_once : ∃ w,
    run (step Sample.passwords id) {} (Sample.twoChanges ++ [.applyChange 1]) = some w ∧
      w.OneWins := by
  have hm : Meets (step Sample.passwords id) (fun w a => w.stillCurrent a = true) {}
    (Sample.twoChanges ++ [.applyChange 1]) := by decide +kernel
  exact ⟨_, rfl, (change_password_exclusive rfl).2 hm⟩

/-- Both changes verified credential 1, and both succeed. -/
theorem change_password_overwritten : ∃ w c c',
    run (step Sample.passwords id) {} (Sample.twoChanges ++ [.applyChange 1, .applyChange 2]) =
      some w ∧ w.changes.get? 1 = some c ∧ w.changes.get? 2 = some c' ∧
    c.credential = 1 ∧ c'.credential = 1 ∧ c.outcome = some (.ok ()) ∧
    c'.outcome = some (.ok ()) ∧ ¬ w.OneWins := by
  refine ⟨_, _, _, rfl, rfl, rfl, rfl, rfl, rfl, rfl, fun h => ?_⟩
  have heq := h.unique (i := 1) (j := 2) rfl rfl rfl rfl rfl
  exact absurd heq (by decide)

end World

end TunnelWeaver.Account
