import TunnelWeaver.Account.Store

/-! Who an external identity is linked to: runs of external sign-ins and password activations, with
a record of every link that says what was known of the address when it was made. -/

namespace TunnelWeaver.Account

open Automaton

/-- One row that `external_identity_resolve_or_create` wrote. -/
structure Link where
  identity : RowId
  account : RowId
  /-- The account did not exist before the sign-in. -/
  created : Bool
  /-- The provider vouched for the address. -/
  vouched : Bool
  /-- The account had the address, verified, before the sign-in. -/
  settled : Bool
  deriving DecidableEq

structure Linkage where
  store : Store := {}
  links : List Link := []

inductive LinkAction
  | configure (rules : List SignupRule) (default : Option Decision)
  | issueToken (tokenDigest : String) (expiresAt : Int)
  | activate (req : Store.ActivationRequest)
  | signIn (req : Store.NewExternalIdentity)
  /-- An emailed code settled the address. -/
  | markVerified (account : RowId) (now : Int)
  deriving DecidableEq

namespace Linkage

/-- The account has the address and it is verified. -/
def settled (s : Store) (account : RowId) (lookupKey : String) : Bool :=
  (s.emails.find? fun _ e =>
    e.accountId = account && e.lookupKey = lookupKey && e.verifiedAt.isSome).isSome

/-- The record of the row a sign-in wrote, if it wrote one. -/
def newLink (s s' : Store) (req : Store.NewExternalIdentity) : List Link :=
  match s'.externals.get? s.externals.next with
  | none => []
  | some e =>
    [{ identity := s.externals.next, account := e.accountId
       created := (s.accountById e.accountId).isNone
       vouched := req.emailVerifiedAt.isSome
       settled := settled s e.accountId req.lookupKey }]

def signIn (normalize : String → String) (w : Linkage) (req : Store.NewExternalIdentity) :
    Linkage :=
  let store := (w.store.externalIdentityResolveOrCreate normalize req).1
  { store, links := w.links ++ newLink w.store store req }

def step (normalize : String → String) (w : Linkage) : LinkAction → Option Linkage
  | .configure rules default =>
    some { w with store := { w.store with signupRules := rules, signupPolicy := default } }
  | .issueToken tokenDigest expiresAt => some { w with
      store := { w.store with
        verificationTokens := w.store.verificationTokens.insert
          { tokenDigest, expiresAt, consumedAt := none, revokedAt := none } } }
  | .activate req => some { w with store := (w.store.accountActivate normalize req).1 }
  | .signIn req => some (w.signIn normalize req)
  | .markVerified account now => some { w with
      store := w.store.emailIdentityMarkVerified account now }

/-- A first sign-in that the provider vouches for finds no unverified claim to its address. -/
def unclaimed (w : Linkage) : LinkAction → Bool
  | .signIn req => req.emailVerifiedAt.isNone || (w.store.externalIdentityFind req).isSome ||
      (w.store.emailIdentityFind req.lookupKey).all (·.2.verifiedAt.isSome)
  | _ => true

/-- The account has an address that nobody has proven. -/
def Unproven (s : Store) (account : RowId) : Prop :=
  ∃ j e, s.emails.get? j = some e ∧ e.accountId = account ∧ e.verifiedAt = none

/-- Every link was made by the account's own creation or with the address vouched for and settled;
rows refer to accounts that were made; an account has one address; and an account that has anything
beside the identity that made it has its address verified. -/
structure Proper (w : Linkage) : Prop where
  email_lt : ∀ {j e}, w.store.emails.get? j = some e → e.accountId < w.store.accounts.next
  email_unique : ∀ {j k e e'}, w.store.emails.get? j = some e → w.store.emails.get? k = some e' →
    e.accountId = e'.accountId → j = k
  external_lt : ∀ {i e}, w.store.externals.get? i = some e → e.accountId < w.store.accounts.next
  credential_lt : ∀ {i c}, w.store.credentials.get? i = some c →
    c.accountId < w.store.accounts.next
  account_lt : ∀ {l}, l ∈ w.links → l.account < w.store.accounts.next
  identity_lt : ∀ {l}, l ∈ w.links → l.identity < w.store.externals.next
  recorded : ∀ {i e}, w.store.externals.get? i = some e →
    ∃ l ∈ w.links, l.identity = i ∧ l.account = e.accountId
  linked : ∀ {l}, l ∈ w.links → l.created = true ∨ l.vouched = true ∧ l.settled = true
  creator : ∀ {l l'}, l ∈ w.links → l' ∈ w.links → l.created = true → l'.created = true →
    l.account = l'.account → l.identity = l'.identity
  joined : ∀ {l}, l ∈ w.links → l.created = false → ¬ Unproven w.store l.account
  password : ∀ {i c}, w.store.credentials.get? i = some c → ¬ Unproven w.store c.accountId

namespace Proper

variable {w : Linkage} {s' : Store}

/-- A store with fewer rows and no new identity, no address unproven that was proven. -/
theorem shrink (h : w.Proper) (hn : w.store.accounts.next ≤ s'.accounts.next)
    (hx : s'.externals.next = w.store.externals.next)
    (he : ∀ {j e'}, s'.emails.get? j = some e' → ∃ e, w.store.emails.get? j = some e ∧
      e'.accountId = e.accountId ∧ (e'.verifiedAt = none → e.verifiedAt = none))
    (hi : ∀ {i e}, s'.externals.get? i = some e → w.store.externals.get? i = some e)
    (hc : ∀ {i c}, s'.credentials.get? i = some c → w.store.credentials.get? i = some c) :
    Proper { w with store := s' } := by
  have hunproven {a : RowId} (hu : Unproven s' a) : Unproven w.store a := by
    obtain ⟨j, e', hj, ha, hv⟩ := hu
    obtain ⟨e, hj, ha', hv'⟩ := he hj
    exact ⟨j, e, hj, ha' ▸ ha, hv' hv⟩
  refine ⟨?_, ?_, ?_, ?_, ?_, ?_, ?_, h.linked, h.creator, ?_, ?_⟩
  · intro j e' hj
    obtain ⟨e, hj, ha, _⟩ := he hj
    exact ha ▸ (h.email_lt hj).trans_le hn
  · intro j k e e' hj hk heq
    obtain ⟨_, hj, ha, _⟩ := he hj
    obtain ⟨_, hk, ha', _⟩ := he hk
    exact h.email_unique hj hk (ha ▸ ha' ▸ heq)
  · intro i e hi'
    exact (h.external_lt (hi hi')).trans_le hn
  · intro i c hc'
    exact (h.credential_lt (hc hc')).trans_le hn
  · intro l hl
    exact (h.account_lt hl).trans_le hn
  · intro l hl
    exact (h.identity_lt hl).trans_eq hx.symm
  · intro i e hi'
    exact h.recorded (hi hi')
  · intro l hl hcr hu
    exact h.joined hl hcr (hunproven hu)
  · intro i c hc' hu
    exact h.password (hc hc') (hunproven hu)

theorem of_deleteAccountRow (h : Proper w) {s₁ : Store} (account : RowId)
    (he : s₁.emails = w.store.emails) (hx : s₁.externals = w.store.externals)
    (hc : s₁.credentials = w.store.credentials)
    (hn : w.store.accounts.next ≤ s₁.accounts.next) :
    Proper { w with store := s₁.deleteAccountRow account } := by
  refine h.shrink hn (by rw [← hx]; rfl) (fun hj => ?_) (fun hi => ?_) (fun hi => ?_)
  · rw [Store.deleteAccountRow, Table.get?_delete, Option.filter_eq_some_iff, he] at hj
    exact ⟨_, hj.1, rfl, id⟩
  · rw [Store.deleteAccountRow, Table.get?_delete, Option.filter_eq_some_iff, hx] at hi
    exact hi.1
  · rw [Store.deleteAccountRow, Table.get?_delete, Option.filter_eq_some_iff, hc] at hi
    exact hi.1

/-- A new account: whatever rows and links are new are its own. -/
theorem grow (h : w.Proper) {new : List Link}
    (hn : s'.accounts.next = w.store.accounts.next + 1)
    (he : ∀ {j e}, s'.emails.get? j = some e → w.store.emails.get? j = some e ∨
      j = w.store.emails.next ∧ e.accountId = w.store.accounts.next)
    (hx : ∀ {i e}, s'.externals.get? i = some e → w.store.externals.get? i = some e ∨
      e.accountId = w.store.accounts.next ∧ ∃ l ∈ new, l.identity = i)
    (hxn : w.store.externals.next ≤ s'.externals.next)
    (hc : ∀ {i c}, s'.credentials.get? i = some c → w.store.credentials.get? i = some c ∨
      c.accountId = w.store.accounts.next ∧ ¬ Unproven s' w.store.accounts.next)
    (hnew : ∀ {l}, l ∈ new → l.identity = w.store.externals.next ∧
      l.identity < s'.externals.next ∧ l.account = w.store.accounts.next ∧ l.created = true) :
    Proper { store := s', links := w.links ++ new } := by
  have hlt : w.store.accounts.next < s'.accounts.next := hn ▸ Nat.lt_succ_self _
  have hunproven {a : RowId} (ha : a < w.store.accounts.next) (hu : Unproven s' a) :
      Unproven w.store a := by
    obtain ⟨j, e, hj, hacc, hv⟩ := hu
    rcases he hj with hj | ⟨_, hacc'⟩
    · exact ⟨j, e, hj, hacc, hv⟩
    · exact absurd (hacc.symm.trans hacc') ha.ne
  refine ⟨?_, ?_, ?_, ?_, ?_, ?_, ?_, ?_, ?_, ?_, ?_⟩
  · intro j e hj
    rcases he hj with hj | ⟨_, hacc⟩
    · exact (h.email_lt hj).trans hlt
    · exact hacc ▸ hlt
  · intro j k e e' hj hk heq
    rcases he hj with hj | ⟨rfl, hacc⟩ <;> rcases he hk with hk | ⟨rfl, hacc'⟩
    · exact h.email_unique hj hk heq
    · exact absurd (heq.trans hacc') (h.email_lt hj).ne
    · exact absurd (heq.symm.trans hacc) (h.email_lt hk).ne
    · rfl
  · intro i e hi
    rcases hx hi with hi | ⟨hacc, _⟩
    · exact (h.external_lt hi).trans hlt
    · exact hacc ▸ hlt
  · intro i c hi
    rcases hc hi with hi | ⟨hacc, _⟩
    · exact (h.credential_lt hi).trans hlt
    · exact hacc ▸ hlt
  · intro l hl
    rcases List.mem_append.mp hl with hl | hl
    · exact (h.account_lt hl).trans hlt
    · exact (hnew hl).2.2.1 ▸ hlt
  · intro l hl
    rcases List.mem_append.mp hl with hl | hl
    · exact (h.identity_lt hl).trans_le hxn
    · exact (hnew hl).2.1
  · intro i e hi
    rcases hx hi with hi | ⟨hacc, l, hl, hli⟩
    · obtain ⟨l, hl, hli, hacc⟩ := h.recorded hi
      exact ⟨l, List.mem_append_left _ hl, hli, hacc⟩
    · exact ⟨l, List.mem_append_right _ hl, hli, (hnew hl).2.2.1.trans hacc.symm⟩
  · intro l hl
    rcases List.mem_append.mp hl with hl | hl
    · exact h.linked hl
    · exact .inl (hnew hl).2.2.2
  · intro l l' hl hl' hcr hcr' heq
    rcases List.mem_append.mp hl with hl | hl <;> rcases List.mem_append.mp hl' with hl' | hl'
    · exact h.creator hl hl' hcr hcr' heq
    · exact absurd (heq.trans (hnew hl').2.2.1) (h.account_lt hl).ne
    · exact absurd (heq.symm.trans (hnew hl).2.2.1) (h.account_lt hl').ne
    · exact (hnew hl).1.trans (hnew hl').1.symm
  · intro l hl hcr hu
    rcases List.mem_append.mp hl with hl | hl
    · exact h.joined hl hcr (hunproven (h.account_lt hl) hu)
    · rw [(hnew hl).2.2.2] at hcr
      cases hcr
  · intro i c hi hu
    rcases hc hi with hi | ⟨hacc, hnot⟩
    · exact h.password hi (hunproven (h.credential_lt hi) hu)
    · exact hnot (hacc ▸ hu)

/-- An identity joins an account whose address is verified. -/
theorem join (h : w.Proper) {req : Store.NewExternalIdentity} {j : RowId} {e : EmailIdentity}
    (hj : w.store.emails.get? j = some e) (hv : e.verifiedAt.isSome) {l : Link}
    (hl : l.identity = w.store.externals.next ∧ l.account = e.accountId ∧ l.created = false ∧
      l.vouched = true ∧ l.settled = true) :
    Proper
      { store := { w.store with externals := w.store.externals.insert (req.row e.accountId) }
        links := w.links ++ [l] } := by
  obtain ⟨hid, hacc, hcr, hvouched, hsettled⟩ := hl
  have hmem {l' : Link} (hl' : l' ∈ w.links ++ [l]) : l' ∈ w.links ∨ l' = l := by
    simpa using hl'
  refine ⟨h.email_lt, h.email_unique, ?_, h.credential_lt, ?_, ?_, ?_, ?_, ?_, ?_, h.password⟩
  · intro i x hi
    dsimp only at hi
    rw [Table.get?_insert] at hi
    split at hi
    · cases hi
      exact h.email_lt hj
    · exact h.external_lt hi
  · intro l' hl'
    rcases hmem hl' with hl' | rfl
    · exact h.account_lt hl'
    · exact hacc ▸ h.email_lt hj
  · intro l' hl'
    rcases hmem hl' with hl' | rfl
    · exact (h.identity_lt hl').trans (Nat.lt_succ_self _)
    · exact hid ▸ Nat.lt_succ_self _
  · intro i x hi
    dsimp only at hi
    rw [Table.get?_insert] at hi
    split at hi
    · rename_i hnext
      cases hi
      exact ⟨l, by simp, hid.trans hnext.symm, hacc⟩
    · obtain ⟨l', hl', hrest⟩ := h.recorded hi
      exact ⟨l', List.mem_append_left _ hl', hrest⟩
  · intro l' hl'
    rcases hmem hl' with hl' | rfl
    · exact h.linked hl'
    · exact .inr ⟨hvouched, hsettled⟩
  · intro l₁ l₂ hl₁ hl₂ hcr₁ hcr₂ heq
    rcases hmem hl₁ with hl₁ | rfl
    · rcases hmem hl₂ with hl₂ | rfl
      · exact h.creator hl₁ hl₂ hcr₁ hcr₂ heq
      · simp [hcr] at hcr₂
    · simp [hcr] at hcr₁
  · intro l' hl' hcr' hu
    rcases hmem hl' with hl' | rfl
    · exact h.joined hl' hcr' hu
    · -- The account has one address, and that one is verified.
      obtain ⟨k, x, hk, hxacc, hx⟩ := hu
      obtain rfl := h.email_unique hj hk (hacc.symm.trans hxacc.symm)
      rw [hj, Option.some.injEq] at hk
      rw [hk, hx] at hv
      cases hv

end Proper

variable {normalize : String → String} {w w' : Linkage} {a : LinkAction}

theorem proper_activate (h : w.Proper) (req : Store.ActivationRequest) :
    Proper { w with store := (w.store.accountActivate normalize req).1 } := by
  obtain heq | ⟨tokens, ⟨_, heq⟩ | heq⟩ := w.store.accountActivate_cases normalize req
  · rwa [heq]
  · rw [heq, ← List.append_nil w.links]
    refine h.grow rfl ?_ .inl (Nat.le_refl _) ?_ ?_
    · intro j e hj
      dsimp only at hj
      rw [Table.get?_insert] at hj
      split at hj
      · rename_i hnext
        cases hj
        exact .inr ⟨hnext, rfl⟩
      · exact .inl hj
    · intro i c hi
      dsimp only at hi
      rw [Table.get?_insert] at hi
      split at hi
      · cases hi
        refine .inr ⟨rfl, ?_⟩
        -- The only address of the new account is the verified one.
        rintro ⟨j, e, hj, hacc, hv⟩
        dsimp only at hj
        rw [Table.get?_insert] at hj
        split at hj
        · cases hj
          cases hv
        · exact absurd hacc (h.email_lt hj).ne
      · exact .inl hi
    · intro l hl
      cases hl
  · rw [heq]
    exact h.of_deleteAccountRow _ rfl rfl rfl (Nat.le_succ _)

theorem settled_of_find {s : Store} {key : String} {j : RowId} {e : EmailIdentity}
    (h : s.emailIdentityFind key = some (j, e)) (hv : e.verifiedAt.isSome) :
    settled s e.accountId key = true := by
  obtain ⟨hj, hkey⟩ := Table.find?_some h
  by_contra hnot
  have hnone := Table.find?_eq_none.mp (Option.not_isSome_iff_eq_none.mp hnot) hj
  simp only [decide_true, Bool.true_and, hv, Bool.and_true] at hnone
  rw [hkey] at hnone
  cases hnone

theorem newLink_of_insert {s s' : Store} {req : Store.NewExternalIdentity} {e : ExternalIdentity}
    (h : s'.externals = s.externals.insert e) :
    newLink s s' req =
      [{ identity := s.externals.next, account := e.accountId
         created := (s.accountById e.accountId).isNone
         vouched := req.emailVerifiedAt.isSome
         settled := settled s e.accountId req.lookupKey }] := by
  rw [newLink, h, Table.get?_insert, if_pos rfl]

theorem proper_signIn (h : w.Proper) (req : Store.NewExternalIdentity)
    (hguard : w.unclaimed (.signIn req) = true) : Proper (w.signIn normalize req) := by
  unfold signIn
  dsimp only
  obtain heq | ⟨hfind, ⟨j, existing, hvouched, hemail, haccount, heq⟩ | ⟨hfree, heq⟩⟩ :=
    w.store.externalIdentityResolveOrCreate_cases normalize req
  · rw [heq, newLink, Table.get?_next, List.append_nil]
    exact h
  · have hv : existing.verifiedAt.isSome := by
      have hsome : req.emailVerifiedAt.isNone = false := by simpa using hvouched
      simpa [unclaimed, hfind, hemail, hsome] using hguard
    rw [heq, newLink_of_insert rfl]
    refine h.join (Table.find?_some hemail).1 hv ⟨rfl, rfl, ?_, hvouched, ?_⟩
    · simpa [Store.NewExternalIdentity.row] using haccount
    · exact settled_of_find hemail hv
  · rw [heq, newLink_of_insert rfl]
    refine h.grow rfl ?_ ?_ (Nat.le_succ _) .inl ?_
    · intro j e hj
      dsimp only at hj
      split at hj
      · exact .inl hj
      · rw [Table.get?_insert] at hj
        split at hj
        · rename_i hnext
          cases hj
          exact .inr ⟨hnext, rfl⟩
        · exact .inl hj
    · intro i e hi
      dsimp only at hi
      rw [Table.get?_insert] at hi
      split at hi
      · rename_i hnext
        cases hi
        exact .inr ⟨rfl, _, List.mem_singleton_self _, hnext.symm⟩
      · exact .inl hi
    · intro l hl
      rw [List.mem_singleton.mp hl]
      refine ⟨rfl, Nat.lt_succ_self _, rfl, ?_⟩
      simp [Store.accountById, Store.NewExternalIdentity.row]

theorem step_proper (h : w.Proper) (hguard : w.unclaimed a = true)
    (hstep : w.step normalize a = some w') : w'.Proper := by
  cases a with
  | configure rules default =>
    cases hstep
    exact h.shrink (Nat.le_refl _) rfl (fun hj => ⟨_, hj, rfl, id⟩) id id
  | issueToken tokenDigest expiresAt =>
    cases hstep
    exact h.shrink (Nat.le_refl _) rfl (fun hj => ⟨_, hj, rfl, id⟩) id id
  | activate req =>
    cases hstep
    exact proper_activate h req
  | signIn req =>
    cases hstep
    exact proper_signIn h req hguard
  | markVerified account now =>
    cases hstep
    refine h.shrink (Nat.le_refl _) rfl (fun {j e'} hj => ?_) id id
    rw [Store.emailIdentityMarkVerified, Table.get?_update, Option.map_eq_some_iff] at hj
    obtain ⟨e, hj, rfl⟩ := hj
    refine ⟨e, hj, ?_, fun hv => ?_⟩
    · split <;> rfl
    · split at hv
      · cases hv
      · exact hv

theorem proper_init : Proper {} := by
  constructor
  all_goals
    intros
    contradiction

/-- In every run in which no sign-in that the provider vouches for meets an unverified claim to its
address: an identity is linked to an account that it did not make only if the provider vouched for
the address and the account had it verified; and an account whose address nobody has proven has one
identity at most and no password. -/
theorem linked_only_if_proven {acts : List LinkAction}
    (hm : Meets (step normalize) (fun w a => w.unclaimed a = true) {} acts)
    (h : run (step normalize) {} acts = some w) :
    (∀ {i e}, w.store.externals.get? i = some e → ∃ l ∈ w.links, l.identity = i ∧
      l.account = e.accountId ∧ (l.created = true ∨ l.vouched = true ∧ l.settled = true)) ∧
    (∀ {account}, Unproven w.store account →
      (∀ {i j e e'}, w.store.externals.get? i = some e → w.store.externals.get? j = some e' →
        e.accountId = account → e'.accountId = account → i = j) ∧
      ∀ {i c}, w.store.credentials.get? i = some c → c.accountId ≠ account) := by
  have hproper : w.Proper := run_invariant_of_meets step_proper hm proper_init h
  refine ⟨fun {i e} hi => ?_, fun {account} hu => ⟨fun {i j e e'} hi hj he he' => ?_, ?_⟩⟩
  · obtain ⟨l, hl, hid, hacc⟩ := hproper.recorded hi
    exact ⟨l, hl, hid, hacc, hproper.linked hl⟩
  · -- Both identities made the account, since nobody joins an unproven one.
    obtain ⟨l, hl, hid, hacc⟩ := hproper.recorded hi
    obtain ⟨l', hl', hid', hacc'⟩ := hproper.recorded hj
    have hcr : l.created = true := by
      by_contra hcr
      exact hproper.joined hl (by simpa using hcr) (by rwa [hacc, he])
    have hcr' : l'.created = true := by
      by_contra hcr'
      exact hproper.joined hl' (by simpa using hcr') (by rwa [hacc', he'])
    rw [← hid, ← hid']
    exact hproper.creator hl hl' hcr hcr' (by rw [hacc, hacc', he, he'])
  · rintro i c hi rfl
    exact hproper.password hi hu

namespace Sample

/-- A sign-in at `provider` under `ann@a.org`. -/
def asAnn (provider subject : String) (verified : Option Int) : LinkAction :=
  .signIn { provider, tenantId := "", subject, name := subject, email := "ann@a.org"
            lookupKey := "ann@a.org", emailVerifiedAt := verified }

/-- The address is proven first; the second provider vouches for it too. -/
def twoProviders : List LinkAction := [asAnn "google" "ann" (some 1), asAnn "microsoft" "ann" (some 2)]

/-- Someone claims the address without proof; its owner comes with proof later. -/
def claimedFirst : List LinkAction := [asAnn "microsoft" "mallory" none, asAnn "google" "ann" (some 2)]

end Sample

/-- The second identity is linked, and rightly so. -/
theorem linked_only_if_proven_twice : ∃ w e, run (step id) {} Sample.twoProviders = some w ∧
    w.store.externals.get? 2 = some e ∧ ∃ l ∈ w.links, l.identity = 2 ∧
      l.account = e.accountId ∧ (l.created = true ∨ l.vouched = true ∧ l.settled = true) := by
  have hm : Meets (step id) (fun w a => w.unclaimed a = true) {} Sample.twoProviders := by
    decide +kernel
  exact ⟨_, _, rfl, rfl, (linked_only_if_proven hm rfl).1 rfl⟩

/-- The owner of the address is linked to the account of the one who claimed it. -/
theorem linked_to_unproven : ∃ w e e', run (step id) {} Sample.claimedFirst = some w ∧
    w.store.externals.get? 1 = some e ∧ w.store.externals.get? 2 = some e' ∧
    e.accountId = e'.accountId ∧ Unproven w.store e.accountId ∧
    ¬ ∃ l ∈ w.links, l.identity = 2 ∧ l.account = e'.accountId ∧
      (l.created = true ∨ l.vouched = true ∧ l.settled = true) := by
  refine ⟨_, _, _, rfl, rfl, rfl, rfl, ⟨1, _, rfl, rfl, rfl⟩, ?_⟩
  decide +kernel

end Linkage

end TunnelWeaver.Account
