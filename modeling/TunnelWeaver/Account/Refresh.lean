import TunnelWeaver.Account.Provenance
import TunnelWeaver.Account.Trail
import TunnelWeaver.Lib.Loop

/-! The grants of linked identities: `SsoRefreshTask` of `account/sso/refresh.rs`, which keeps them
live and ends the sessions of an account when a provider rejects one, with the sign-ins that store
them. Each store call may fail; a failed call ends the tick. -/

namespace TunnelWeaver.Account

open Automaton Loop

/-- What a refresh attempt did. -/
inductive RefreshOutcome
  | rotated (grant : String)
  | rejected
  | unavailable
  | unsupported
  deriving DecidableEq

namespace Store

/-- Every identity holding a refresh grant, by id. -/
def externalIdentityWithRefresh (s : Store) : List (RowId × ExternalIdentity) :=
  s.externals.rows.filter fun e => e.2.refreshToken ≠ ""

def externalIdentityRotateRefresh (s : Store) (id : RowId) (sealedRefresh : String) : Store :=
  { s with
    externals := s.externals.update (fun i _ => i = id) fun e =>
      { e with refreshToken := sealedRefresh } }

def externalIdentityClearRefresh (s : Store) (id : RowId) : Store :=
  { s with externals := s.externals.update (fun i _ => i = id) fun e => { e with refreshToken := "" } }

def liveSessionIdsForAccount (s : Store) (accountId : RowId) (now : Int) : List RowId :=
  (s.sessions.rows.filter fun e => e.2.accountId = accountId && e.2.live now).map (·.1)

end Store

namespace Refresh

/-! ## A tick -/

/-- A store call of a tick, by the identity it is made for. -/
inductive Call
  | withRefresh
  | clear (id : RowId)
  | rotate (id : RowId)
  | liveSessions (id : RowId)
  | event (id session : RowId)
  deriving DecidableEq

structure Tick where
  now : Int
  /-- What the providers answer. -/
  refresh : (provider grant : String) → RefreshOutcome
  /-- The calls that fail. -/
  down : List Call

def Tick.fails (t : Tick) (call : Call) : Bool := call ∈ t.down

variable (rt : Runtime) (t : Tick)

/-- End the trail of one session. -/
def endTrail (id accountId : RowId) (s : Store) (session : RowId) : Store × Bool :=
  if t.fails (.event id session) then (s, false)
  else s.authEventInsert
    { accountId := some accountId, sessionId := some session, kind := .identityProviderGrantInvalid
      occurredAt := t.now }

/-- End the trail of every live session of the account. -/
def revokeSessions (s : Store) (id accountId : RowId) : Store × Bool :=
  if t.fails (.liveSessions id) then (s, false)
  else forEach (endTrail t id accountId) (s.liveSessionIdsForAccount accountId t.now) s

def clearRefresh (s : Store) (id : RowId) : Store × Bool :=
  if t.fails (.clear id) then (s, false) else (s.externalIdentityClearRefresh id, true)

def refreshOne (s : Store) (id : RowId) (identity : ExternalIdentity) : Store × Bool :=
  match rt.openRefresh identity.provider identity.refreshToken with
  | none => clearRefresh t s id
  | some refreshToken =>
    match t.refresh identity.provider refreshToken with
    | .rotated grant =>
      match rt.sealRefresh identity.provider grant with
      | none => (s, true)
      | some sealedRefresh =>
        if t.fails (.rotate id) then (s, false)
        else (s.externalIdentityRotateRefresh id sealedRefresh, true)
    | .rejected =>
      match clearRefresh t s id with
      | (s, false) => (s, false)
      | (s, true) => revokeSessions t s id identity.accountId
    | .unavailable | .unsupported => (s, true)

/-- A provider that is disabled keeps its linked identities and their grants. -/
def refreshEnabled (s : Store) (e : RowId × ExternalIdentity) : Store × Bool :=
  if (rt.providers e.2.provider).isNone then (s, true) else refreshOne rt t s e.1 e.2

def refreshAll (s : Store) : Store :=
  if t.fails .withRefresh then s
  else (forEach (refreshEnabled rt t) s.externalIdentityWithRefresh s).1

/-- The provider rejects the grant of the identity. -/
def rejects (e : RowId × ExternalIdentity) : Bool :=
  (rt.providers e.2.provider).isSome &&
    (rt.openRefresh e.2.provider e.2.refreshToken).any fun refreshToken =>
      t.refresh e.2.provider refreshToken = .rejected

/-! ## What a tick writes -/

/-- A tick that refreshed the identities `p` selects: it adds to the trails and keeps every other
grant. -/
structure Refreshed (p : RowId → Prop) (s s' : Store) : Prop where
  accounts : s'.accounts = s.accounts
  sessions : s'.sessions = s.sessions
  events : ∀ j e, s.events.get? j = some e → s'.events.get? j = some e
  others : ∀ i, ¬p i → s'.externals.get? i = s.externals.get? i
  owners : ∀ i e', s'.externals.get? i = some e' →
    ∃ e, s.externals.get? i = some e ∧ e'.accountId = e.accountId

namespace Refreshed

variable {p q : RowId → Prop} {s s₁ s₂ : Store}

theorem refl : Refreshed p s s := by
  refine ⟨rfl, rfl, fun _ _ h => h, fun _ _ => rfl, fun i e' h => ⟨e', h, rfl⟩⟩

theorem trans (h : Refreshed p s s₁) (h' : Refreshed p s₁ s₂) : Refreshed p s s₂ where
  accounts := h'.accounts.trans h.accounts
  sessions := h'.sessions.trans h.sessions
  events := fun j e he => h'.events j e (h.events j e he)
  others := fun i hi => (h'.others i hi).trans (h.others i hi)
  owners := by
    intro i e₂ he₂
    obtain ⟨e₁, he₁, h₁⟩ := h'.owners i e₂ he₂
    obtain ⟨e, he, h₀⟩ := h.owners i e₁ he₁
    exact ⟨e, he, h₁.trans h₀⟩

theorem mono (h : Refreshed p s s₁) (hpq : ∀ i, p i → q i) : Refreshed q s s₁ :=
  { h with others := fun i hi => h.others i fun hp => hi (hpq i hp) }

theorem authEventInsert (event : AuthEvent) : Refreshed p s (s.authEventInsert event).1 := by
  unfold Store.authEventInsert
  split
  · exact refl
  · refine { (refl : Refreshed p s s) with events := fun j e he => ?_ }
    rw [Table.get?_insert, if_neg (Nat.ne_of_lt (Table.lt_next he)), he]

/-- Writing the grant of one identity. -/
theorem update (id : RowId) (refreshToken : String) : Refreshed (· = id) s { s with
    externals := s.externals.update (fun i _ => i = id) fun e => { e with refreshToken } } := by
  refine ⟨rfl, rfl, fun _ _ h => h, fun i hi => ?_, fun i e' he' => ?_⟩
  · rw [Table.get?_update]
    cases s.externals.get? i <;> simp [hi]
  · rw [Table.get?_update] at he'
    obtain ⟨e, he, rfl⟩ := Option.map_eq_some_iff.mp he'
    refine ⟨e, he, ?_⟩
    split <;> rfl

end Refreshed

variable {rt t} {s : Store}

theorem endTrail_refreshed (id accountId session : RowId) :
    Refreshed (· = id) s (endTrail t id accountId s session).1 := by
  unfold endTrail
  split
  · exact .refl
  · exact .authEventInsert _

theorem revokeSessions_refreshed (id accountId : RowId) :
    Refreshed (· = id) s (revokeSessions t s id accountId).1 := by
  unfold revokeSessions
  split
  · exact .refl
  · exact forEach_rel (R := Refreshed (· = id)) (fun _ => .refl) .trans
      (fun session _ _ => endTrail_refreshed id _ session) s

theorem clearRefresh_refreshed (id : RowId) : Refreshed (· = id) s (clearRefresh t s id).1 := by
  unfold clearRefresh
  split
  · exact .refl
  · exact .update id ""

theorem refreshOne_refreshed (id : RowId) (identity : ExternalIdentity) :
    Refreshed (· = id) s (refreshOne rt t s id identity).1 := by
  have hclear := clearRefresh_refreshed (t := t) (s := s) id
  unfold refreshOne
  split
  · exact hclear
  split
  · split
    · exact .refl
    split
    · exact .refl
    · exact .update id _
  · split
    · rename_i heq
      rw [heq] at hclear
      exact hclear
    · rename_i heq
      rw [heq] at hclear
      exact hclear.trans (revokeSessions_refreshed id _)
  · exact .refl
  · exact .refl

theorem refreshEnabled_refreshed (e : RowId × ExternalIdentity) :
    Refreshed (· = e.1) s (refreshEnabled rt t s e).1 := by
  unfold refreshEnabled
  split
  · exact .refl
  · exact refreshOne_refreshed ..

theorem forEach_refreshed (l : List (RowId × ExternalIdentity)) (s : Store) :
    Refreshed (· ∈ l.map (·.1)) s (forEach (refreshEnabled rt t) l s).1 := by
  refine forEach_rel (R := Refreshed (· ∈ l.map (·.1))) (fun _ => .refl) .trans
    (fun e he s => ?_) s
  refine (refreshEnabled_refreshed e).mono fun i hi => ?_
  rw [hi]
  exact List.mem_map_of_mem he

/-! ## A rejected grant -/

/-- The trail of a session has been ended at an instant. -/
def Ended (s : Store) (session : RowId) (now : Int) : Prop :=
  ∃ j e, s.events.get? j = some e ∧ e.sessionId = some session ∧
    e.kind = .identityProviderGrantInvalid ∧ e.occurredAt = now

instance (s : Store) (session : RowId) (now : Int) : Decidable (Ended s session now) :=
  decidable_of_iff (s.events.rows.any fun e => e.2.sessionId = some session &&
      e.2.kind = .identityProviderGrantInvalid && e.2.occurredAt = now) (by
    simp [Ended, Table.get?_eq_some, List.any_eq_true, and_assoc])

/-- Every identity is linked to an account that exists. -/
def Owned (s : Store) : Prop :=
  ∀ i e, s.externals.get? i = some e → (s.accountById e.accountId).isSome

theorem Refreshed.owned {p : RowId → Prop} {s' : Store} (h : Refreshed p s s') (ho : Owned s) :
    Owned s' := by
  intro i e' he'
  obtain ⟨e, he, haccount⟩ := h.owners i e' he'
  rw [haccount, Store.accountById, h.accounts]
  exact ho i e he

theorem Ended.refreshed {p : RowId → Prop} {s' : Store} {session : RowId} {now : Int}
    (h : Ended s session now) (hr : Refreshed p s s') : Ended s' session now := by
  obtain ⟨j, e, he, hkind⟩ := h
  exact ⟨j, e, hr.events j e he, hkind⟩

/-- What was given before the end of a trail no longer counts, unless it had ended before. -/
theorem Ended.proofs {session : RowId} {now : Int} (h : Ended s session now)
    (hlogout : s.latestOf session .logout = none) {proof : ProofKind} {at_ : Int}
    (hproof : loadProofs (s.authEventLatestByKind session) proof = some at_) : now < at_ := by
  obtain ⟨j, e, he, hsession, hkind, rfl⟩ := h
  obtain ⟨a, ha, hle⟩ := Store.le_latestOf he hsession
  rw [hkind] at ha
  rw [Store.authEventLatestByKind_eq, loadProofs_listing, Option.filter_eq_some_iff, endedAt,
    hlogout, Option.none_or, ha, Option.all_some, decide_eq_true_eq] at hproof
  exact Int.lt_of_le_of_lt hle hproof.2

/-- A store whose calls do not fail ends the trail of every live session. -/
theorem revokeSessions_ended {id accountId : RowId} (haccount : (s.accountById accountId).isSome)
    (hlive : t.fails (.liveSessions id) = false)
    (hevent : ∀ session ∈ s.liveSessionIdsForAccount accountId t.now,
      t.fails (.event id session) = false) :
    (revokeSessions t s id accountId).2 = true ∧
      ∀ session ∈ s.liveSessionIdsForAccount accountId t.now,
        Ended (revokeSessions t s id accountId).1 session t.now := by
  rw [revokeSessions, hlive, if_neg Bool.false_ne_true]
  refine forEach_all (I := fun s => (s.accountById accountId).isSome)
    (Q := fun session s => Ended s session t.now) haccount ?_ ?_
  · intro session hsession s hs
    obtain ⟨row, hrow⟩ := Option.isSome_iff_exists.mp hs
    rw [endTrail, hevent session hsession, if_neg Bool.false_ne_true, Store.authEventInsert,
      if_neg (by simp [hrow])]
    exact ⟨rfl, hs, s.events.next, _, Table.get?_insert.trans (if_pos rfl), rfl, rfl, rfl⟩
  · intro session other s hended
    exact hended.refreshed (endTrail_refreshed id accountId other)

/-- A rejected grant is still stored, or every live session of its account has its trail ended. -/
def Noticed (t : Tick) (s s' : Store) (e : RowId × ExternalIdentity) : Prop :=
  s'.externals.get? e.1 = some e.2 ∨
    ∀ session ∈ s.liveSessionIdsForAccount e.2.accountId t.now, Ended s' session t.now

instance (t : Tick) (s s' : Store) (e : RowId × ExternalIdentity) :
    Decidable (Noticed t s s' e) :=
  inferInstanceAs (Decidable (_ ∨ ∀ session ∈ s.liveSessionIdsForAccount e.2.accountId t.now, _))

/-- The sessions of the account can be ended once the grant has been dropped. -/
def Revocable (t : Tick) (s : Store) (e : RowId × ExternalIdentity) : Prop :=
  t.fails (.clear e.1) = true ∨ t.fails (.liveSessions e.1) = false ∧
    ∀ session ∈ s.liveSessionIdsForAccount e.2.accountId t.now,
      t.fails (.event e.1 session) = false

/-- What a tick does with a grant that is rejected. -/
theorem refreshEnabled_noticed {e : RowId × ExternalIdentity} (ho : Owned s)
    (he : s.externals.get? e.1 = some e.2) (hrejects : rejects rt t e = true)
    (hr : Revocable t s e) :
    ((refreshEnabled rt t s e).2 = false ∧ (refreshEnabled rt t s e).1 = s) ∨
      (refreshEnabled rt t s e).2 = true ∧
        ∀ session ∈ s.liveSessionIdsForAccount e.2.accountId t.now,
          Ended (refreshEnabled rt t s e).1 session t.now := by
  simp only [rejects, Bool.and_eq_true, Option.any_eq_true, decide_eq_true_eq] at hrejects
  obtain ⟨henabled, refreshToken, hopen, hrejected⟩ := hrejects
  have hnone : ¬(rt.providers e.2.provider).isNone = true := by
    rw [Option.isNone_iff_eq_none]
    exact Option.isSome_iff_ne_none.mp henabled
  rw [refreshEnabled, if_neg hnone, refreshOne, hopen]
  dsimp only
  rw [hrejected, clearRefresh]
  dsimp only
  by_cases hclear : t.fails (.clear e.1) = true
  · rw [if_pos hclear]
    exact .inl ⟨rfl, rfl⟩
  · rw [if_neg hclear]
    obtain ⟨hlive, hevent⟩ := hr.resolve_left hclear
    exact .inr (revokeSessions_ended (ho e.1 e.2 he) hlive hevent)

/-- A tick notices every grant that is rejected, where the calls that end the sessions do not fail
once the grant has been dropped. -/
theorem refreshAll_noticed (ho : Owned s) {e : RowId × ExternalIdentity}
    (he : e ∈ s.externalIdentityWithRefresh) (hrejects : rejects rt t e = true)
    (hr : Revocable t s e) : Noticed t s (refreshAll rt t s) e := by
  have hget : s.externals.get? e.1 = some e.2 :=
    Table.get?_eq_some.mpr (List.mem_of_mem_filter he)
  unfold refreshAll
  split
  · exact .inl hget
  obtain ⟨pre, post, hsplit⟩ := List.append_of_mem he
  have hsorted : (pre ++ e :: post).Pairwise (·.1 < ·.1) := hsplit ▸ s.externals.sorted.filter _
  have hpre : e.1 ∉ pre.map (·.1) := by
    rintro hmem
    obtain ⟨e', he', hid⟩ := List.mem_map.mp hmem
    exact Nat.ne_of_lt ((List.pairwise_append.mp hsorted).2.2 e' he' e List.mem_cons_self) hid
  rw [hsplit, forEach_append]
  have hbefore : Refreshed (· ∈ pre.map (·.1)) s (forEach (refreshEnabled rt t) pre s).1 :=
    forEach_refreshed pre s
  generalize forEach (refreshEnabled rt t) pre s = before at hbefore
  have hkept : before.1.externals.get? e.1 = some e.2 := (hbefore.others e.1 hpre).trans hget
  by_cases hok : before.2 = true
  swap
  · rw [if_neg hok]
    exact .inl hkept
  have hsame : before.1.liveSessionIdsForAccount e.2.accountId t.now =
      s.liveSessionIdsForAccount e.2.accountId t.now := by
    rw [Store.liveSessionIdsForAccount, hbefore.sessions, Store.liveSessionIdsForAccount]
  have hhere := refreshEnabled_noticed (hbefore.owned ho) hkept hrejects (by
    rw [Revocable, hsame]
    exact hr)
  rw [if_pos hok, forEach_cons]
  rcases hhere with ⟨hfailed, hstays⟩ | ⟨hdone, hended⟩
  · rw [hfailed, if_neg Bool.false_ne_true]
    exact .inl (by rw [hstays, hkept])
  · rw [hdone, if_pos rfl]
    refine .inr fun session hsession => ?_
    exact (hended session (hsame ▸ hsession)).refreshed (forEach_refreshed post _)

/-! ## Sign-ins -/

/-- The identity of an assertion. -/
def identityOf (s : Store) (assertion : Assertion) : Option (RowId × ExternalIdentity) :=
  s.externals.find? fun _ e =>
    e.provider = assertion.provider && e.tenantId = assertion.tenant &&
      e.subject = assertion.subject

/-- The grant of an assertion, as it is stored. -/
def sealedRefresh (rt : Runtime) (assertion : Assertion) : String :=
  (assertion.refreshGrant.bind (rt.sealRefresh assertion.provider)).getD ""

/-- A sign-in finds the identity as it is linked, or links it with the grant it brings. -/
theorem resolve_find {normalize : String → String} {s s' : Store} {req : Store.NewExternalIdentity}
    {resolved : Store.ExternalSignIn}
    (h : s.externalIdentityResolveOrCreate normalize req = (s', .ok resolved)) :
    (∃ e, s.externalIdentityFind req = some e ∧ s' = s) ∨
      s.externalIdentityFind req = none ∧
        ∃ id accountId, s'.externalIdentityFind req = some (id, req.row accountId) := by
  have hnew (s₁ : Store) (accountId : RowId) (hnone : s₁.externalIdentityFind req = none) :
      ∃ id account, (s₁.externalIdentityInsert accountId req).externalIdentityFind req =
        some (id, req.row account) := by
    refine ⟨s₁.externals.next, accountId, ?_⟩
    rw [Store.externalIdentityInsert, hnone]
    exact Table.find?_insert_new hnone (by simp [Store.NewExternalIdentity.row])
  cases hfind : s.externalIdentityFind req with
  | some e =>
    refine .inl ⟨e, rfl, ?_⟩
    rw [Store.externalIdentityResolveOrCreate, hfind] at h
    dsimp only at h
    split at h
    · cases h
    · cases h
      rfl
  | none =>
    refine .inr ⟨rfl, ?_⟩
    rw [Store.externalIdentityResolveOrCreate, hfind] at h
    dsimp only at h
    split at h
    · unfold Store.linkExisting at h
      split at h
      · cases h
      · cases h
        exact hnew _ _ hfind
    rename_i hunknown
    split at h
    · cases h
    have hinsert := hnew { s with accounts := s.accounts.insert { name := req.name } }
      s.accounts.next hfind
    by_cases hempty : req.lookupKey = ""
    · rw [if_pos hempty] at h
      cases h
      exact hinsert
    rw [if_neg hempty] at h
    split at h
    · rename_i s₃ hclaim
      cases h
      unfold Store.claimAddress at hclaim
      split at hclaim
      · cases hclaim
      · cases hclaim
        exact hinsert
    · -- an address that is taken here was not vouched for: the sign-in is rolled back
      rename_i s₃ hclaim
      by_cases hvouched : req.emailVerifiedAt.isNone = true
      · rw [if_pos hvouched] at h
        cases h
      · have hfree : s.emailIdentityFind req.lookupKey = none := by
          rwa [if_pos (by simpa [Option.isSome_iff_ne_none] using hvouched)] at hunknown
        have hfree' : Store.emailIdentityFind (Store.externalIdentityInsert
            { s with accounts := s.accounts.insert { name := req.name } } s.accounts.next req)
              req.lookupKey = none := by
          unfold Store.externalIdentityInsert
          split <;> exact hfree
        rw [Store.claimAddress, hfree'] at hclaim
        cases hclaim

theorem resolve_owned {normalize : String → String} (ho : Owned s)
    (req : Store.NewExternalIdentity) : Owned (s.externalIdentityResolveOrCreate normalize req).1 := by
  rcases s.externalIdentityResolveOrCreate_cases normalize req with
    heq | ⟨-, ⟨-, existing, -, -, haccount, heq⟩ | ⟨-, heq⟩⟩
  · rw [heq]
    exact ho
  · rw [heq]
    intro i e he
    rw [Table.get?_insert] at he
    split at he
    · cases he
      exact haccount
    · exact ho i e he
  · rw [heq]
    intro i e he
    rw [Table.get?_insert] at he
    rw [Store.accountById, Table.get?_insert]
    split at he
    · cases he
      rw [if_pos (show (req.row s.accounts.next).accountId = s.accounts.next from rfl)]
      rfl
    · split
      · rfl
      · exact ho i e he

variable {w : Site} {r : Request} {assertion : Assertion} {token otp : String}

theorem signIn_owned (ho : Owned w.store) :
    Owned (w.finishSignIn rt r assertion token otp).1.store := by
  rcases Site.finishSignIn_cases (w := w) rfl with heq | ⟨req, s₁, hresolve, hrest⟩
  · rw [heq]
    exact ho
  have ho₁ : Owned s₁ := hresolve ▸ resolve_owned ho req
  rcases hrest with heq | ⟨account, j, identity, -, hwrites⟩
  · rw [heq]
    exact ho₁
  · intro i e he
    rw [hwrites.externals] at he
    rw [Store.accountById, hwrites.accounts]
    exact ho₁ i e he

/-- An accepted sign-in has resolved its identity, and no more is written to the identities. -/
theorem signIn_resolved {reply : Reply}
    (h : (w.finishSignIn rt r assertion token otp).2 = .ok reply) :
    ∃ req s₁ resolved, w.store.externalIdentityResolveOrCreate rt.normalize req = (s₁, .ok resolved) ∧
      req.provider = assertion.provider ∧ req.tenantId = assertion.tenant ∧
      req.subject = assertion.subject ∧ req.sealedRefresh = sealedRefresh rt assertion ∧
      (w.finishSignIn rt r assertion token otp).1.store.externals = s₁.externals := by
  cases haddress : assertion.address with
  | none =>
    rw [Site.finishSignIn, haddress] at h
    cases h
  | some found =>
    obtain ⟨address, verified⟩ := found
    simp only [Site.finishSignIn, haddress] at h ⊢
    by_cases hfails : r.fails .resolveIdentity = true
    · rw [if_pos hfails] at h
      cases h
    rw [if_neg hfails] at h ⊢
    generalize hreq : ({
        provider := assertion.provider, tenantId := assertion.tenant
        subject := assertion.subject, name := assertion.name, email := address
        lookupKey := rt.normalize address
        emailVerifiedAt := if verified = true then some r.now else none
        sealedRefresh :=
          (assertion.refreshGrant.bind (rt.sealRefresh assertion.provider)).getD "" } :
      Store.NewExternalIdentity) = req at h ⊢
    cases hresolve : w.store.externalIdentityResolveOrCreate rt.normalize req with
    | mk s₁ result =>
      cases result with
      | error e =>
        rw [hresolve] at h
        cases e <;> cases h
      | ok resolved =>
        rw [hresolve] at h
        refine ⟨req, s₁, resolved, hresolve, ?_⟩
        subst hreq
        refine ⟨rfl, rfl, rfl, rfl, ?_⟩
        dsimp only at h ⊢
        by_cases hread : r.fails .addressRead = true
        · rw [if_pos hread] at h
          cases h
        rw [if_neg hread] at h ⊢
        split at h
        · cases h
        · exact (Site.openSignIn_writes (w := { w with store := s₁ }) rfl).externals

/-- The identity has a stored grant. -/
def Stored (s : Store) (assertion : Assertion) : Prop :=
  ∃ id e, identityOf s assertion = some (id, e) ∧ e.refreshToken ≠ ""

instance (s : Store) (assertion : Assertion) : Decidable (Stored s assertion) :=
  decidable_of_iff ((identityOf s assertion).any (·.2.refreshToken ≠ "") = true) (by
    simp [Stored, Option.any_eq_true, Prod.exists])

/-- The identity is new and its grant can be sealed, or it is linked with a grant. -/
def storable (rt : Runtime) (s : Store) (assertion : Assertion) : Bool :=
  match identityOf s assertion with
  | none => sealedRefresh rt assertion ≠ ""
  | some (_, e) => e.refreshToken ≠ ""

/-- An accepted sign-in leaves its identity with a grant just in case it was storable. -/
theorem signIn_stored_iff {reply : Reply}
    (h : (w.finishSignIn rt r assertion token otp).2 = .ok reply) :
    Stored (w.finishSignIn rt r assertion token otp).1.store assertion ↔
      storable rt w.store assertion = true := by
  obtain ⟨req, s₁, resolved, hresolve, hprovider, htenant, hsubject, hsealed, hexternals⟩ :=
    signIn_resolved h
  have hfind (s : Store) : s.externalIdentityFind req = identityOf s assertion := by
    rw [Store.externalIdentityFind, hprovider, htenant, hsubject, identityOf]
  have hsame : identityOf (w.finishSignIn rt r assertion token otp).1.store assertion =
      identityOf s₁ assertion := by
    rw [identityOf, hexternals, identityOf]
  rw [Stored, hsame, storable]
  rcases resolve_find hresolve with ⟨e, he, rfl⟩ | ⟨hnone, id, accountId, hnew⟩
  · rw [hfind] at he
    rw [he]
    obtain ⟨id, e⟩ := e
    constructor
    · rintro ⟨id', e', he', hstored⟩
      cases he'
      exact decide_eq_true hstored
    · intro hstored
      exact ⟨id, e, rfl, of_decide_eq_true hstored⟩
  · rw [hfind] at hnone hnew
    rw [hnone, hnew]
    constructor
    · rintro ⟨id', e', he', hstored⟩
      cases he'
      rw [← hsealed]
      exact decide_eq_true hstored
    · intro hstored
      refine ⟨id, _, rfl, ?_⟩
      rw [Store.NewExternalIdentity.row, hsealed]
      exact of_decide_eq_true hstored

/-! ## Runs -/

inductive Act
  | signIn (r : Request) (assertion : Assertion) (token otp : String)
  | tick (t : Tick)

variable (rt) in
def step (w : Site) : Act → Option Site
  | .signIn r assertion token otp => some (w.finishSignIn rt r assertion token otp).1
  | .tick t => some { w with store := refreshAll rt t w.store }

variable (rt) in
/-- Where a provider rejects a grant, it is noticed; where it issues one, a rejection can be. -/
def FailsClosed (w : Site) : Act → Site → Prop
  | .signIn r assertion token otp, w' =>
    (∃ reply, (w.finishSignIn rt r assertion token otp).2 = .ok reply) →
      assertion.refreshGrant.isSome → Stored w'.store assertion
  | .tick t, w' => ∀ e ∈ w.store.externalIdentityWithRefresh, rejects rt t e = true →
      Noticed t w.store w'.store e

variable (rt) in
/-- A grant that is issued is storable, and one that is rejected revocable. -/
def Sound (w : Site) : Act → Prop
  | .signIn _ assertion _ _ => assertion.refreshGrant.isSome → storable rt w.store assertion = true
  | .tick t => ∀ e ∈ w.store.externalIdentityWithRefresh, rejects rt t e = true →
      Revocable t w.store e

instance (t : Tick) (s : Store) (e : RowId × ExternalIdentity) : Decidable (Revocable t s e) :=
  inferInstanceAs (Decidable (_ ∨ _ ∧ ∀ session ∈ s.liveSessionIdsForAccount e.2.accountId t.now, _))

instance (w : Site) : (a : Act) → Decidable (Sound rt w a)
  | .signIn .. => inferInstanceAs (Decidable (_ → _))
  | .tick t => inferInstanceAs (Decidable (∀ e ∈ w.store.externalIdentityWithRefresh,
      rejects rt t e = true → Revocable t w.store e))

theorem step_owned {w' : Site} {a : Act} (ho : Owned w.store) (h : step rt w a = some w') :
    Owned w'.store := by
  cases a with
  | signIn r assertion token otp =>
    cases h
    exact signIn_owned ho
  | tick t =>
    cases h
    change Owned (refreshAll rt t w.store)
    unfold refreshAll
    split
    · exact ho
    · exact (forEach_refreshed _ w.store).owned ho

/-- A dead grant fails closed in every step of a run whose grants are storable and revocable. -/
theorem fails_closed {w₁ w₂ : Site} {acts : List Act} {a : Act} (ho : Owned w.store)
    (hm : Meets (step rt) (Sound rt) w (acts ++ [a])) (h : run (step rt) w acts = some w₁)
    (hstep : step rt w₁ a = some w₂) : FailsClosed rt w₁ a w₂ := by
  have ho₁ : Owned w₁.store := run_invariant (I := fun w => Owned w.store) (p := fun _ => True)
    (fun ho _ hstep => step_owned ho hstep) (fun _ _ => trivial) ho h
  have hsound : Sound rt w₁ a := ((meets_append h).mp hm).2.1
  cases a with
  | signIn r assertion token otp =>
    cases hstep
    rintro ⟨reply, haccepted⟩ hissued
    exact (signIn_stored_iff haccepted).mpr (hsound hissued)
  | tick t =>
    cases hstep
    intro e he hrejects
    exact refreshAll_noticed ho₁ he hrejects (hsound e he hrejects)

namespace Sample

/-- `ann` signs in at the provider, which issues a grant. -/
def signIn (now : Int) (grant token : String) : Act :=
  .signIn
    { browser := 0, now, originOk := true, csrfOk := true, down := []
      body := .callback "google" "ann" "s" "" token "123456" }
    { provider := "google", tenant := "", subject := "ann", address := some ("ann@a.org", true)
      name := "Ann", mfa := false, authTime := none, refreshGrant := some grant }
    token "123456"

/-- The identity of `ann`. -/
def row : ExternalIdentity :=
  { accountId := 1, provider := "google", tenantId := "", subject := "ann", email := "ann@a.org"
    emailVerifiedAt := some 1000, refreshToken := "g1" }

/-- A tick at which every grant is rejected. -/
def rejecting (now : Int) (down : List Call) : Tick :=
  { now, refresh := fun _ _ => .rejected, down }

end Sample

theorem owned_empty : Owned ({} : Site).store := by
  intro i e he
  cases he

theorem fails_closed_ann : ∃ w₁ w₂, run (step (Site.Sample.relay true)) {}
      [Sample.signIn 1000 "g1" "t1"] = some w₁ ∧
    step (Site.Sample.relay true) w₁ (.tick (Sample.rejecting 5000 [])) = some w₂ ∧
    FailsClosed (Site.Sample.relay true) w₁ (.tick (Sample.rejecting 5000 [])) w₂ := by
  have hm : Meets (step (Site.Sample.relay true)) (Sound (Site.Sample.relay true)) {}
      ([Sample.signIn 1000 "g1" "t1"] ++ [.tick (Sample.rejecting 5000 [])]) := by
    decide +kernel
  exact ⟨_, _, rfl, rfl, fails_closed owned_empty hm rfl rfl⟩

/-- A call that fails once the grant has been dropped leaves the sessions as they were, and a grant
that a later sign-in brings is not stored. -/
theorem fails_open :
    (¬∀ (rt : Runtime) (w w₁ w₂ : Site) (acts : List Act) (t : Tick), Owned w.store →
      run (step rt) w acts = some w₁ → step rt w₁ (.tick t) = some w₂ →
        FailsClosed rt w₁ (.tick t) w₂) ∧
    ¬∀ (rt : Runtime) (w w₁ w₂ : Site) (acts : List Act) (r : Request) (assertion : Assertion)
      (token otp : String), Owned w.store → run (step rt) w acts = some w₁ →
        step rt w₁ (.signIn r assertion token otp) = some w₂ →
        FailsClosed rt w₁ (.signIn r assertion token otp) w₂ := by
  constructor
  · intro h
    have hclosed := h (Site.Sample.relay true) {} _ _ [Sample.signIn 1000 "g1" "t1"]
      (Sample.rejecting 5000 [.event 1 1]) owned_empty rfl rfl
    exact absurd (hclosed (1, Sample.row) (by decide +kernel) (by decide +kernel))
      (by decide +kernel)
  · intro h
    have hclosed := h (Site.Sample.relay true) {} _ _
      [Sample.signIn 1000 "g1" "t1", .tick (Sample.rejecting 5000 [])] _ _ _ _ owned_empty rfl
      (Eq.refl (step (Site.Sample.relay true) _ (Sample.signIn 6000 "g2" "t2")))
    exact absurd (hclosed ⟨_, rfl⟩ rfl) (by decide +kernel)

end Refresh

end TunnelWeaver.Account
