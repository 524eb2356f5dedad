import TunnelWeaver.Account.Authenticator
import TunnelWeaver.Server.Hostnames
import TunnelWeaver.Server.Schema

/-! `delete_account` (`store/account.rs`): the rows of the account go by the foreign keys, its
hostnames by a name prefix, its key log by the person and the pending registrations by address or by
display name. -/

namespace TunnelWeaver.Server

open Relational
open Proto (toAsciiLowercase)
open Account (AccountRow EmailIdentity)

/-! ## `LIKE` -/

/-- SQLite's `LIKE`: `%` stands for any text and `_` for any character; an ASCII letter matches in
either case. -/
def like : List Char → List Char → Bool
  | [], s => s.isEmpty
  | '%' :: pattern, s => s.tails.any (like pattern)
  | '_' :: pattern, s => match s with
    | [] => false
    | _ :: s => like pattern s
  | c :: pattern, s => match s with
    | [] => false
    | d :: s => c.toLower = d.toLower && like pattern s

theorem like_cons {c : Char} {pattern s : List Char} (h : c ≠ '%') (h' : c ≠ '_') :
    like (c :: pattern) s = true ↔
      ∃ d rest, s = d :: rest ∧ c.toLower = d.toLower ∧ like pattern rest = true := by
  have heq : like (c :: pattern) s = match s with
      | [] => false
      | d :: s => c.toLower = d.toLower && like pattern s := by
    rw [like.eq_def]
    split <;> simp_all
  rw [heq]
  cases s with
  | nil => simp
  | cons d rest => simp

/-- A text and a final `%`: what starts with the text, in either case. -/
theorem like_front {front s : List Char} (h : ∀ c ∈ front, c ≠ '%' ∧ c ≠ '_') :
    like (front ++ ['%']) s = true ↔ front.map Char.toLower <+: s.map Char.toLower := by
  induction front generalizing s with
  | nil =>
    have hnil : ([] : List Char) ∈ s.tails := (List.mem_tails ..).mpr (List.nil_suffix)
    simp only [List.nil_append, like, List.any_eq_true, List.map_nil, List.nil_prefix, iff_true]
    exact ⟨[], hnil, rfl⟩
  | cons c front ih =>
    obtain ⟨hc, hfront⟩ := List.forall_mem_cons.mp h
    rw [List.cons_append, like_cons hc.1 hc.2, List.map_cons]
    constructor
    · rintro ⟨d, rest, rfl, hd, hrest⟩
      rw [List.map_cons, hd, List.cons_prefix_cons]
      exact ⟨rfl, (ih hfront).mp hrest⟩
    · intro hpre
      cases s with
      | nil => simp at hpre
      | cons d rest =>
        rw [List.map_cons, List.cons_prefix_cons] at hpre
        exact ⟨d, rest, rfl, hpre.1, (ih hfront).mpr hpre.2⟩

/-! ## Names -/

section
variable {person person' : String}

theorem isValidPersonOrMachine_mem (h : isValidPersonOrMachine person = true) {c : Char}
    (hc : c ∈ person.toList) : c.isLower = true ∨ c.isDigit = true := by
  simp only [isValidPersonOrMachine, Bool.and_eq_true, List.all_eq_true, Bool.or_eq_true] at h
  exact h.2 c hc

theorem toLower_of_valid {c : Char} (h : c.isLower = true ∨ c.isDigit = true) : c.toLower = c := by
  rw [Char.toLower, dif_neg]
  intro hup
  have h₁ := UInt32.le_iff_toNat_le.mp hup.1
  have h₂ := UInt32.le_iff_toNat_le.mp hup.2
  rcases h with h | h
  · simp only [Char.isLower, Bool.and_eq_true, decide_eq_true_eq] at h
    have h₃ := UInt32.le_iff_toNat_le.mp h.1
    simp at h₁ h₂ h₃
    omega
  · simp only [Char.isDigit, Bool.and_eq_true, decide_eq_true_eq] at h
    have h₃ := UInt32.le_iff_toNat_le.mp h.2
    simp at h₁ h₂ h₃
    omega

theorem map_toLower_of_valid (h : isValidPersonOrMachine person = true) :
    person.toList.map Char.toLower = person.toList := by
  refine (List.map_congr_left fun c hc => ?_).trans (List.map_id _)
  exact toLower_of_valid (isValidPersonOrMachine_mem h hc)

theorem toAsciiLowercase_of_valid (h : isValidPersonOrMachine person = true) :
    toAsciiLowercase person = person := by
  apply String.toList_inj.mp
  rw [toAsciiLowercase, String.toList_map, map_toLower_of_valid h]

theorem ne_of_valid {c : Char} (h : c.isLower = true ∨ c.isDigit = true) :
    c ≠ '%' ∧ c ≠ '_' ∧ c ≠ '-' := by
  refine ⟨?_, ?_, ?_⟩ <;> rintro rfl <;> revert h <;> decide

theorem dash_not_mem (h : isValidPersonOrMachine person = true) : '-' ∉ person.toList :=
  fun hc => (ne_of_valid (isValidPersonOrMachine_mem h hc)).2.2 rfl

/-- Names without a dash, each with a dash behind it, are not confused. -/
theorem eq_of_dashed {l l' rest : List Char} (h : '-' ∉ l) (h' : '-' ∉ l')
    (hpre : l ++ ['-'] <+: l' ++ '-' :: rest) : l = l' := by
  obtain ⟨tail, htail⟩ := hpre
  have htake {l : List Char} (h : '-' ∉ l) (rest : List Char) :
      (l ++ '-' :: rest).takeWhile (· ≠ '-') = l := by
    rw [List.takeWhile_append_of_pos fun c hc => by simpa using ne_of_mem_of_not_mem hc h]
    simp
  rw [List.append_assoc, List.singleton_append] at htail
  rw [← htake h tail, htail, htake h' rest]

/-- The prefix match of a person selects the hostnames of that person. -/
theorem like_hostname (h : isValidPersonOrMachine person = true)
    (h' : isValidPersonOrMachine person' = true) (machine service root : String) :
    like (person ++ "-%").toList (flatHostname person' machine service root).toList = true ↔
      person' = person := by
  have hpattern : (person ++ "-%").toList = (person.toList ++ ['-']) ++ ['%'] := by simp
  have hhost : ∃ rest, (flatHostname person' machine service root).toList =
      person'.toList ++ '-' :: rest := by
    rw [flatHostname, toAsciiLowercase_of_valid h']
    simp only [String.toList_append, List.append_assoc]
    exact ⟨_, rfl⟩
  have hlower : (flatHostname person' machine service root).toList.map Char.toLower =
      (flatHostname person' machine service root).toList := by
    rw [← String.toList_map]
    exact congrArg _ (toAsciiLowercase_flatHostname person' machine service root)
  have hfront : ∀ c ∈ person.toList ++ ['-'], c ≠ '%' ∧ c ≠ '_' := by
    intro c hc
    rcases List.mem_append.mp hc with hc | hc
    · have hne := ne_of_valid (isValidPersonOrMachine_mem h hc)
      exact ⟨hne.1, hne.2.1⟩
    · rw [List.mem_singleton.mp hc]
      decide
  obtain ⟨rest, hhost⟩ := hhost
  rw [hpattern, like_front hfront, hlower, hhost, List.map_append, map_toLower_of_valid h]
  constructor
  · intro hpre
    exact (String.toList_inj.mp (eq_of_dashed (dash_not_mem h) (dash_not_mem h') hpre)).symm
  · rintro rfl
    exact ⟨rest, by simp⟩

end

/-! ## The deletion -/

section
variable (toLowercase : String → String) (db : Db) (a : Nat)

def personOf : Option (Nat × PersonRow) :=
  Table.find? (R := PersonRow) (db .person) fun _ p => p.accountId = a

def identityOf : Option (Nat × EmailIdentity) :=
  Table.find? (R := EmailIdentity) (db .emailIdentity) fun _ e => e.accountId = a

def namedAfter (person : String) : Statement schema where
  table := .domain
  condition _ := fun (row : DomainRow) => like (person ++ "-%").toList row.name.toList
  stable _ _ := rfl

def keyLogOf (person : Nat) : Statement schema where
  table := .machineKeyLog
  condition _ := fun (l : KeyLogRow) => l.personId = person
  stable _ _ := rfl

def accountRow : Statement schema where
  table := .account
  condition i _ := i = a
  stable _ _ := rfl

def pendingsAt (lookupKey : String) : Statement schema where
  table := .pendingRegistration
  condition _ := fun (p : PendingRegistration) => p.lookupKey = lookupKey
  stable _ _ := rfl

/-- Two display names are one when they differ in blanks around them and in case. -/
def foldName (name : String) : String := toLowercase (Account.Authenticator.trim name)

def pendingsNamed (name : String) : Statement schema where
  table := .pendingRegistration
  condition _ := fun (p : PendingRegistration) =>
    foldName toLowercase p.name = foldName toLowercase name
  stable _ _ := rfl

/-- The statements of `delete_account`, in order. The pending registrations come last: a token is
kept by the verifications that the account takes with it. -/
def deletions (account : AccountRow) : List (Statement schema) :=
  (match personOf db a with
    | some (id, person) => [namedAfter person.name, keyLogOf id]
    | none => []) ++
  [accountRow a,
    match identityOf db a with
    | some (_, identity) => pendingsAt identity.lookupKey
    | none => pendingsNamed toLowercase account.name]

/-- An account that is not there is deleted already. -/
def deleteAccount : Except StoreError Db :=
  match (db .account).get? a with
  | none => .ok db
  | some account => match run db (deletions toLowercase db a account) with
    | none => .error .db
    | some db' => .ok db'

/-! ## What belongs to an account -/

/-- The row refers to a row that `P` holds of. -/
def Refers (t : Tab) (column : Row t → Option Nat) (P : Nat → Prop) (i : Nat) : Prop :=
  ∃ r : Row t, (db t).get? i = some r ∧ ∃ p, column r = some p ∧ P p

def OwnsPerson : Nat → Prop := Refers db .person (fun (r : PersonRow) => some r.accountId) (· = a)

def OwnsMachine : Nat → Prop :=
  Refers db .machine (fun (r : MachineRow) => some r.personId) (OwnsPerson db a)

def OwnsService : Nat → Prop :=
  Refers db .service (fun (r : ServiceRow) => some r.machineId) (OwnsMachine db a)

/-- The pending registrations with the address of the account; without an address, those with its
display name. -/
def OwnsPending (i : Nat) : Prop :=
  ∃ p : PendingRegistration, (db .pendingRegistration).get? i = some p ∧
    ((∃ id identity, identityOf db a = some (id, identity) ∧ p.lookupKey = identity.lookupKey) ∨
      identityOf db a = none ∧ ∃ account : AccountRow, (db .account).get? a = some account ∧
        foldName toLowercase p.name = foldName toLowercase account.name)

/-- The rows of an account. -/
def Owns : Tab → Nat → Prop
  | .account => (· = a)
  | .person => OwnsPerson db a
  | .machine => OwnsMachine db a
  | .service => OwnsService db a
  | .usageLive => Refers db .usageLive (fun (r : UsageRow) => some r.serviceId) (OwnsService db a)
  | .usageDaily => Refers db .usageDaily (fun (r : UsageRow) => some r.serviceId) (OwnsService db a)
  | .machineKeyLog => fun i => ∃ id person, personOf db a = some (id, person) ∧
      Refers db .machineKeyLog (fun (r : KeyLogRow) => some r.personId) (· = id) i
  | .domain => fun i => ∃ id person, personOf db a = some (id, person) ∧
      ∃ row : DomainRow, (db .domain).get? i = some row ∧
        ∃ machine service root, row.name = flatHostname person.name machine service root
  | .pendingRegistration => OwnsPending toLowercase db a
  | .verificationToken => Refers db .verificationToken
      (fun (r : VerificationToken) => some r.pendingRegistrationId) (OwnsPending toLowercase db a)
  | .loginChallenge => fun i =>
      Refers db .loginChallenge challengeSession
        (Refers db .browserSession (accountOf .browserSession) (· = a)) i ∨
      Refers db .loginChallenge challengePending (OwnsPending toLowercase db a) i
  | .emailVerification => fun i =>
      Refers db .emailVerification (accountOf .emailVerification) (· = a) i ∨
      Refers db .emailVerification (fun (r : EmailVerification) => some r.emailIdentityId)
        (Refers db .emailIdentity (accountOf .emailIdentity) (· = a)) i
  | .ssoFlow | .altchaClient => fun _ => False
  | t => Refers db t (accountOf t) (· = a)

/-- How a row that stays is kept: as it is, but no longer owned by a service that has gone. -/
def Kept : (t : Tab) → Row t → Row t → Prop
  | .domain, (r : DomainRow), (r' : DomainRow) =>
    (∀ s, r.serviceId = some s → ¬OwnsService db a s) ∧ r' = r ∨
      (∃ s, r.serviceId = some s ∧ OwnsService db a s) ∧ r' = { r with serviceId := none }
  | .altchaClient, (r : AltchaClient), (r' : AltchaClient) =>
    (∀ s, r.serviceId = some s → ¬OwnsService db a s) ∧ r' = r ∨
      (∃ s, r.serviceId = some s ∧ OwnsService db a s) ∧ r' = { r with serviceId := none }
  | _, r, r' => r' = r

/-- What `create_person` and `register_service` see to: person names have no dash, and hostnames are
built from them. -/
structure Named : Prop where
  person : ∀ i (p : PersonRow), (db .person).get? i = some p → isValidPersonOrMachine p.name = true
  host : ∀ i (row : DomainRow), (db .domain).get? i = some row →
    ∃ person machine service root, isValidPersonOrMachine person = true ∧
      row.name = flatHostname person machine service root

end

section
variable {toLowercase : String → String} {db db' : Db} {a : Nat} {account : AccountRow}
  {sel : Tab → Nat → Bool} {t : Tab} {i : Nat}

theorem Refers.congr {column : Row t → Option Nat} {P Q : Nat → Prop} (h : ∀ i, P i ↔ Q i) :
    Refers db t column P i ↔ Refers db t column Q i := by
  rw [show P = Q from funext fun i => propext (h i)]

theorem doomed_unselected (h : sel t i = false) : Doomed (S := schema) db sel t i ↔
    ∃ k ∈ cascades t, Refers db t k.column (Doomed (S := schema) db sel k.parent) i := by
  rw [Doomed.iff, h]
  constructor
  · rintro (hsel | ⟨r, hr, k, hk, p, hp, hd⟩)
    · cases hsel
    · exact ⟨k, hk, r, hr, p, hp, hd⟩
  · rintro ⟨k, hk, r, hr, p, hp, hd⟩
    exact .inr ⟨r, hr, k, hk, p, hp, hd⟩

theorem doomed_uncascaded (h : cascades t = []) :
    Doomed (S := schema) db sel t i ↔ sel t i = true := by
  rw [Doomed.iff]
  refine or_iff_left ?_
  rintro ⟨r, -, k, hk, -⟩
  rw [show schema.cascades t = [] from h] at hk
  cases hk

/-! ## What the statements select -/

theorem mem_deletions {st : Statement schema} : st ∈ deletions toLowercase db a account ↔
    ((∃ id person, personOf db a = some (id, person) ∧
      (st = namedAfter person.name ∨ st = keyLogOf id)) ∨ st = accountRow a ∨
      (∃ id identity, identityOf db a = some (id, identity) ∧ st = pendingsAt identity.lookupKey) ∨
        identityOf db a = none ∧ st = pendingsNamed toLowercase account.name) := by
  unfold deletions
  rw [List.mem_append]
  refine or_congr ?_ ?_
  · cases personOf db a with
    | none => simp
    | some found => simp [Prod.ext_iff]
  · rw [List.mem_cons]
    refine or_congr Iff.rfl ?_
    cases identityOf db a with
    | none => simp
    | some found => simp [Prod.ext_iff]

theorem selected_iff : selected db (deletions toLowercase db a account) t i = true ↔
    ∃ st ∈ deletions toLowercase db a account, t = st.table ∧ ∃ r,
      (db st.table).get? i = some r ∧ st.condition i r = true := by
  simp only [selected, List.any_eq_true, Statement.selects_iff]

theorem selected_elsewhere (h : t ∉ [Tab.domain, .machineKeyLog, .account, .pendingRegistration]) :
    selected db (deletions toLowercase db a account) t i = false := by
  refine eq_false_of_ne_true fun hsel => h ?_
  obtain ⟨st, hst, rfl, -⟩ := selected_iff.mp hsel
  rcases mem_deletions.mp hst with ⟨_, _, -, rfl | rfl⟩ | rfl | ⟨_, _, -, rfl⟩ | ⟨-, rfl⟩ <;>
    simp [namedAfter, keyLogOf, accountRow, pendingsAt, pendingsNamed]

theorem selected_account (hrow : (db .account).get? a = some account) :
    selected db (deletions toLowercase db a account) .account i = true ↔ i = a := by
  rw [selected_iff]
  constructor
  · rintro ⟨st, hst, ht, r, -, hcond⟩
    rcases mem_deletions.mp hst with ⟨_, _, -, rfl | rfl⟩ | rfl | ⟨_, _, -, rfl⟩ | ⟨-, rfl⟩
    case inr.inl => exact of_decide_eq_true hcond
    all_goals cases ht
  · rintro rfl
    exact ⟨accountRow i, mem_deletions.mpr (.inr (.inl rfl)), rfl, account, hrow, decide_eq_true rfl⟩

theorem selected_machineKeyLog :
    selected db (deletions toLowercase db a account) .machineKeyLog i = true ↔
      Owns toLowercase db a .machineKeyLog i := by
  rw [selected_iff]
  constructor
  · rintro ⟨st, hst, ht, r, hr, hcond⟩
    rcases mem_deletions.mp hst with ⟨id, person, hp, rfl | rfl⟩ | rfl | ⟨_, _, -, rfl⟩ | ⟨-, rfl⟩
    case inl.inr => exact ⟨id, person, hp, r, hr, _, rfl, of_decide_eq_true hcond⟩
    all_goals cases ht
  · rintro ⟨id, person, hp, r, hr, p, hcol, rfl⟩
    refine ⟨keyLogOf p, mem_deletions.mpr (.inl ⟨p, person, hp, .inr rfl⟩), rfl, r, hr, ?_⟩
    exact decide_eq_true (Option.some.inj hcol)

theorem selected_domain (hdb : Named db) :
    selected db (deletions toLowercase db a account) .domain i = true ↔
      Owns toLowercase db a .domain i := by
  have hvalid {id : Nat} {person : PersonRow} (hp : personOf db a = some (id, person)) :
      isValidPersonOrMachine person.name = true := hdb.person id person (Table.find?_some hp).1
  rw [selected_iff]
  constructor
  · rintro ⟨st, hst, ht, r, hr, hcond⟩
    rcases mem_deletions.mp hst with ⟨id, person, hp, rfl | rfl⟩ | rfl | ⟨_, _, -, rfl⟩ | ⟨-, rfl⟩
    case inl.inl =>
      obtain ⟨person', machine, service, root, hvalid', hname⟩ := hdb.host i r hr
      have hlike : like (person.name ++ "-%").toList
        (flatHostname person' machine service root).toList = true := hname ▸ hcond
      rw [like_hostname (hvalid hp) hvalid'] at hlike
      exact ⟨id, person, hp, r, hr, machine, service, root, hlike ▸ hname⟩
    all_goals cases ht
  · rintro ⟨id, person, hp, r, hr, machine, service, root, hname⟩
    refine ⟨namedAfter person.name, mem_deletions.mpr (.inl ⟨id, person, hp, .inl rfl⟩), rfl, r, hr, ?_⟩
    change like (person.name ++ "-%").toList r.name.toList = true
    rw [hname]
    exact (like_hostname (hvalid hp) (hvalid hp) machine service root).mpr rfl

theorem selected_pendingRegistration (hrow : (db .account).get? a = some account) :
    selected db (deletions toLowercase db a account) .pendingRegistration i = true ↔
      OwnsPending toLowercase db a i := by
  rw [selected_iff]
  constructor
  · rintro ⟨st, hst, ht, r, hr, hcond⟩
    rcases mem_deletions.mp hst with
      ⟨_, _, -, rfl | rfl⟩ | rfl | ⟨id, identity, he, rfl⟩ | ⟨he, rfl⟩
    case inr.inr.inl => exact ⟨r, hr, .inl ⟨id, identity, he, of_decide_eq_true hcond⟩⟩
    case inr.inr.inr => exact ⟨r, hr, .inr ⟨he, account, hrow, of_decide_eq_true hcond⟩⟩
    all_goals cases ht
  · rintro ⟨r, hr, ⟨id, identity, he, hkey⟩ | ⟨he, account', hrow', hname⟩⟩
    · exact ⟨_, mem_deletions.mpr (.inr (.inr (.inl ⟨id, identity, he, rfl⟩))), rfl, r, hr,
        decide_eq_true hkey⟩
    · obtain rfl : account = account' := Option.some.inj (hrow.symm.trans hrow')
      exact ⟨_, mem_deletions.mpr (.inr (.inr (.inr ⟨he, rfl⟩))), rfl, r, hr, decide_eq_true hname⟩

/-- The rows that the statements and the foreign keys take are the rows of the account. -/
theorem doomed_iff_owns (hdb : Named db) (hrow : (db .account).get? a = some account) (t : Tab)
    (i : Nat) : Doomed (S := schema) db (selected db (deletions toLowercase db a account)) t i ↔
      Owns toLowercase db a t i := by
  have haccount (i : Nat) : Doomed (S := schema) db
      (selected db (deletions toLowercase db a account)) .account i ↔ i = a :=
    (doomed_uncascaded rfl).trans (selected_account hrow)
  have hpending (i : Nat) : Doomed (S := schema) db
      (selected db (deletions toLowercase db a account)) .pendingRegistration i ↔
        OwnsPending toLowercase db a i :=
    (doomed_uncascaded rfl).trans (selected_pendingRegistration hrow)
  have hscoped {t : Tab} (ht : t ∉ [Tab.domain, .machineKeyLog, .account, .pendingRegistration])
      (hk : cascades t = [⟨.account, accountOf t⟩]) (i : Nat) : Doomed (S := schema) db
        (selected db (deletions toLowercase db a account)) t i ↔
          Refers db t (accountOf t) (· = a) i := by
    rw [doomed_unselected (selected_elsewhere ht), hk]
    simp only [List.mem_singleton, exists_eq_left]
    exact Refers.congr haccount
  have hperson (i : Nat) : Doomed (S := schema) db
      (selected db (deletions toLowercase db a account)) .person i ↔ OwnsPerson db a i :=
    hscoped (by decide) rfl i
  have hmachine (i : Nat) : Doomed (S := schema) db
      (selected db (deletions toLowercase db a account)) .machine i ↔ OwnsMachine db a i := by
    rw [doomed_unselected (selected_elsewhere (by decide))]
    simp only [cascades, List.mem_singleton, exists_eq_left]
    exact Refers.congr hperson
  have hservice (i : Nat) : Doomed (S := schema) db
      (selected db (deletions toLowercase db a account)) .service i ↔ OwnsService db a i := by
    rw [doomed_unselected (selected_elsewhere (by decide))]
    simp only [cascades, List.mem_singleton, exists_eq_left]
    exact Refers.congr hmachine
  cases t with
  | account => exact haccount i
  | pendingRegistration => exact hpending i
  | person => exact hperson i
  | machine => exact hmachine i
  | service => exact hservice i
  | domain => exact (doomed_uncascaded rfl).trans (selected_domain hdb)
  | machineKeyLog => exact (doomed_uncascaded rfl).trans selected_machineKeyLog
  | ssoFlow | altchaClient =>
    rw [doomed_uncascaded rfl, selected_elsewhere (by decide)]
    exact iff_of_false Bool.false_ne_true id
  | usageLive | usageDaily =>
    rw [doomed_unselected (selected_elsewhere (by decide))]
    simp only [cascades, List.mem_singleton, exists_eq_left]
    exact Refers.congr hservice
  | verificationToken =>
    rw [doomed_unselected (selected_elsewhere (by decide))]
    simp only [cascades, List.mem_singleton, exists_eq_left]
    exact Refers.congr hpending
  | loginChallenge =>
    rw [doomed_unselected (selected_elsewhere (by decide))]
    simp only [cascades, List.mem_cons, List.not_mem_nil, or_false, exists_eq_or_imp,
      exists_eq_left]
    exact or_congr (Refers.congr (hscoped (by decide) rfl)) (Refers.congr hpending)
  | emailVerification =>
    rw [doomed_unselected (selected_elsewhere (by decide))]
    simp only [cascades, List.mem_cons, List.not_mem_nil, or_false, exists_eq_or_imp,
      exists_eq_left]
    exact or_congr (Refers.congr haccount) (Refers.congr (hscoped (by decide) rfl))
  | _ => exact hscoped (by decide) rfl i

/-! ## What is left -/

variable (toLowercase db a) in
/-- `db'` is `db` without the rows of `a`. -/
structure Erased (db' : Db) : Prop where
  gone : ∀ t i, Owns toLowercase db a t i → (db' t).get? i = none
  kept : ∀ t i r, ¬Owns toLowercase db a t i → (db t).get? i = some r →
    ∃ r', (db' t).get? i = some r' ∧ Kept db a t r r'
  /-- Nothing is added. -/
  fresh : ∀ t i, (db t).get? i = none → (db' t).get? i = none
  /-- Nothing refers to what has gone. -/
  intact : Intact db'
  /-- Nothing names the person. -/
  person : ∀ id person, personOf db a = some (id, person) →
    (∀ i (m : MachineRow), (db' .machine).get? i = some m → m.personId ≠ id) ∧
    (∀ i (l : KeyLogRow), (db' .machineKeyLog).get? i = some l → l.personId ≠ id) ∧
    ∀ i (row : DomainRow), (db' .domain).get? i = some row →
      ∀ machine service root, row.name ≠ flatHostname person.name machine service root
  /-- The hostnames of other persons stay. -/
  others : ∀ i (row : DomainRow), (db .domain).get? i = some row →
    ∀ person' machine service root, isValidPersonOrMachine person' = true →
      row.name = flatHostname person' machine service root →
      (∀ id person, personOf db a = some (id, person) → person.name ≠ person') →
      ∃ row' : DomainRow, (db' .domain).get? i = some row' ∧ row'.name = row.name
  /-- No registration is open for the address. -/
  address : ∀ id identity, identityOf db a = some (id, identity) →
    (∀ i (e : EmailIdentity), (db' .emailIdentity).get? i = some e → e.accountId ≠ a) ∧
    ∀ i (p : PendingRegistration), (db' .pendingRegistration).get? i = some p →
      p.lookupKey ≠ identity.lookupKey

theorem run_of_deleteAccount (hrow : (db .account).get? a = some account)
    (hok : deleteAccount toLowercase db a = .ok db') :
    run db (deletions toLowercase db a account) = some db' := by
  simp only [deleteAccount, hrow] at hok
  cases hrun : run db (deletions toLowercase db a account) with
  | none =>
    rw [hrun] at hok
    cases hok
  | some db₁ =>
    rw [hrun] at hok
    rw [Except.ok.inj hok]

theorem deleteAccount_erases (hdb : Named db) (hrow : (db .account).get? a = some account)
    (hok : deleteAccount toLowercase db a = .ok db') : ∃ gone : Tab → Nat → Bool,
      Erases schema gone db db' ∧ ∀ t i, gone t i = true ↔ Owns toLowercase db a t i :=
  ⟨_, run_erases (run_of_deleteAccount hrow hok),
    fun t i => goes_iff.trans (doomed_iff_owns hdb hrow t i)⟩

theorem kept_of_release {gone : Tab → Nat → Bool} (h : ∀ s, gone .service s = true ↔ OwnsService db a s)
    (t : Tab) (r : Row t) : Kept db a t r (release schema gone t r) := by
  -- the two tables with a `SET NULL` key, `column` being that key
  have hnull {t : Tab} {column : Row t → Option Nat} (hk : nulls t = some ⟨.service, column⟩)
      (r : Row t) : (∀ s, column r = some s → ¬OwnsService db a s) ∧ release schema gone t r = r ∨
        (∃ s, column r = some s ∧ OwnsService db a s) ∧ release schema gone t r = clear t r := by
    by_cases hs : ∃ s, column r = some s ∧ OwnsService db a s
    · obtain ⟨s, hcol, hs⟩ := hs
      exact .inr ⟨⟨s, hcol, hs⟩, release_of_gone hk hcol ((h s).mpr hs)⟩
    · refine .inl ⟨fun s hcol hown => hs ⟨s, hcol, hown⟩, release_of_not fun k hk' s hcol => ?_⟩
      obtain rfl := Option.some.inj (hk.symm.trans hk')
      exact eq_false_of_ne_true fun hgone => hs ⟨s, hcol, (h s).mp hgone⟩
  cases t with
  | domain => exact hnull rfl r
  | altchaClient => exact hnull rfl r
  | _ => exact release_of_nulls rfl

theorem Kept.name_eq {r r' : DomainRow} (h : Kept db a .domain r r') : r'.name = r.name := by
  rcases h with ⟨-, rfl⟩ | ⟨-, rfl⟩ <;> rfl

theorem deleteAccount_erased (hdb : Named db) (hintact : Intact db)
    (hrow : (db .account).get? a = some account)
    (hok : deleteAccount toLowercase db a = .ok db') : Erased toLowercase db a db' := by
  have hrun := run_of_deleteAccount hrow hok
  obtain ⟨gone, her, hgoes⟩ := deleteAccount_erases hdb hrow hok
  -- what is left was there, and was not the account's
  have hleft {t : Tab} {i : Nat} {r' : Row t} (hr' : (db' t).get? i = some r') :
      ¬Owns toLowercase db a t i ∧ ∃ r, (db t).get? i = some r ∧ Kept db a t r r' := by
    obtain ⟨hgone, r, hr, rfl⟩ := her.get?_some hr'
    refine ⟨fun hown => ?_, r, hr, kept_of_release (hgoes .service) t r⟩
    rw [(hgoes t i).mpr hown] at hgone
    cases hgone
  -- what is not the account's stays
  have hstays {t : Tab} {i : Nat} {r : Row t} (hown : ¬Owns toLowercase db a t i)
      (hr : (db t).get? i = some r) : ∃ r', (db' t).get? i = some r' ∧ Kept db a t r r' := by
    have hgone := eq_false_of_ne_true fun hgone => hown ((hgoes t i).mp hgone)
    exact ⟨_, her.kept hr hgone, kept_of_release (hgoes .service) t r⟩
  refine ⟨fun t i hown => her.erased ((hgoes t i).mpr hown), fun t i r => hstays, ?_,
    run_intact hrun hintact, ?_, ?_, ?_⟩
  · intro t i hr
    rw [her t i, hr]
    exact ite_self _
  · intro id person hp
    refine ⟨?_, ?_, ?_⟩
    · intro i m hm hid
      obtain ⟨hown, r, hr, rfl⟩ := hleft hm
      exact hown ⟨m, hr, id, congrArg some hid, person, (Table.find?_some hp).1, a,
        congrArg some (of_decide_eq_true (Table.find?_some hp).2), rfl⟩
    · intro i l hl hid
      obtain ⟨hown, r, hr, rfl⟩ := hleft hl
      exact hown ⟨id, person, hp, l, hr, id, congrArg some hid, rfl⟩
    · intro i row hrow' machine service root hname
      obtain ⟨hown, r, hr, hkept⟩ := hleft hrow'
      exact hown ⟨id, person, hp, r, hr, machine, service, root, hkept.name_eq ▸ hname⟩
  · intro i row hr person' machine service root hvalid hname hother
    have hown : ¬Owns toLowercase db a .domain i := by
      rintro ⟨id, person, hp, row₁, hr₁, machine₁, service₁, root₁, hname₁⟩
      obtain rfl : row = row₁ := Option.some.inj (hr.symm.trans hr₁)
      have hvalid₁ := hdb.person id person (Table.find?_some hp).1
      have hlike := (like_hostname hvalid₁ hvalid₁ machine₁ service₁ root₁).mpr rfl
      rw [← hname₁, hname, like_hostname hvalid₁ hvalid] at hlike
      exact hother id person hp hlike.symm
    obtain ⟨row', hr', hkept⟩ := hstays hown hr
    exact ⟨row', hr', hkept.name_eq⟩
  · intro id identity he
    refine ⟨?_, ?_⟩
    · intro i e hget hid
      obtain ⟨hown, r, hr, rfl⟩ := hleft hget
      exact hown ⟨e, hr, a, congrArg some hid, rfl⟩
    · intro i p hp hkey
      obtain ⟨hown, r, hr, rfl⟩ := hleft hp
      exact hown ⟨p, hr, .inl ⟨id, identity, he, hkey⟩⟩

end

namespace Sample

def emails : Table EmailIdentity :=
  Table.insert ∅ { accountId := 1, email := "ann@example.org", lookupKey := "ann@example.org"
                   verifiedAt := none }

/-- Ann and Bob with a hostname each, and two registrations whose display name is Ann's. -/
def db (emails : Table EmailIdentity) : Db
  | .account => (Table.insert (R := AccountRow) ∅ { name := "Ann" }).insert { name := "Bob" }
  | .emailIdentity => emails
  | .person => (Table.insert (R := PersonRow) ∅ { accountId := 1, name := "ann" }).insert
      { accountId := 2, name := "bob" }
  | .machine => (Table.insert (R := MachineRow) ∅
      { personId := 1, name := "laptop", keyId := Plane.Sample.keyId 1 }).insert
      { personId := 2, name := "laptop", keyId := Plane.Sample.keyId 2 }
  | .service => (Table.insert (R := ServiceRow) ∅ { machineId := 1, name := "web" }).insert
      { machineId := 2, name := "web" }
  | .domain => (Table.insert (R := DomainRow) ∅
      { name := flatHostname "ann" "laptop" "web" "example.org", serviceId := some 1 }).insert
      { name := flatHostname "bob" "laptop" "web" "example.org", serviceId := some 2 }
  | .pendingRegistration => (Table.insert (R := PendingRegistration) ∅
      { flowId := "a", name := "Ann", email := "ann@example.org", lookupKey := "ann@example.org"
        createdAt := 0, expiresAt := 9 }).insert
      { flowId := "b", name := "ANN", email := "other@example.org", lookupKey := "other@example.org"
        createdAt := 0, expiresAt := 9 }
  | _ => (∅ : Table _)

theorem named (emails : Table EmailIdentity) : Named (db emails) := by
  refine ⟨fun i p hp => ?_, fun i row hrow => ?_⟩
  · rcases List.mem_cons.mp (Table.get?_eq_some.mp hp) with h | h
    · cases h
      decide +kernel
    · cases List.mem_singleton.mp h
      decide +kernel
  · rcases List.mem_cons.mp (Table.get?_eq_some.mp hrow) with h | h
    · cases h
      exact ⟨_, _, _, _, by decide +kernel, rfl⟩
    · cases List.mem_singleton.mp h
      exact ⟨_, _, _, _, by decide +kernel, rfl⟩

theorem intact : Intact (db emails) := intact_iff.mpr (by decide +kernel)

theorem intact_empty : Intact (db ∅) := intact_iff.mpr (by decide +kernel)

end Sample

theorem deleteAccount_erased_sample : ∃ db', deleteAccount toAsciiLowercase (Sample.db Sample.emails) 1
    = .ok db' ∧ Erased toAsciiLowercase (Sample.db Sample.emails) 1 db' := by
  have hok : (deleteAccount toAsciiLowercase (Sample.db Sample.emails) 1).isOk = true := by
    decide +kernel
  cases hdel : deleteAccount toAsciiLowercase (Sample.db Sample.emails) 1 with
  | error e =>
    rw [hdel] at hok
    cases hok
  | ok db' =>
    exact ⟨db', rfl, deleteAccount_erased (Sample.named _) Sample.intact rfl hdel⟩

/-- Without an address, a registration that somebody else has started under the same display name
goes too. -/
theorem deleteAccount_takes_namesake : ¬ ∀ (db db' : Db) (a : Nat), Named db → Intact db →
    deleteAccount toAsciiLowercase db a = .ok db' →
    ∀ i (p : PendingRegistration), (db .pendingRegistration).get? i = some p →
      (∀ id identity, identityOf db a = some (id, identity) → p.lookupKey ≠ identity.lookupKey) →
      ∃ p' : PendingRegistration, (db' .pendingRegistration).get? i = some p' := by
  intro h
  have hok : (deleteAccount toAsciiLowercase (Sample.db ∅) 1).isOk = true := by decide +kernel
  cases hdel : deleteAccount toAsciiLowercase (Sample.db ∅) 1 with
  | error e =>
    rw [hdel] at hok
    cases hok
  | ok db' =>
    obtain ⟨gone, her, hgoes⟩ := deleteAccount_erases (Sample.named _) rfl hdel
    have hpending : foldName toAsciiLowercase "ANN" = "ann" := by decide +kernel
    have haccount : foldName toAsciiLowercase "Ann" = "ann" := by decide +kernel
    have hown : Owns toAsciiLowercase (Sample.db ∅) 1 .pendingRegistration 2 :=
      ⟨_, rfl, .inr ⟨rfl, _, rfl, hpending.trans haccount.symm⟩⟩
    obtain ⟨p', hp'⟩ := h _ db' 1 (Sample.named _) Sample.intact_empty hdel 2 _ rfl
      fun id identity he => by cases he
    rw [her.erased ((hgoes _ _).mpr hown)] at hp'
    cases hp'

end TunnelWeaver.Server
