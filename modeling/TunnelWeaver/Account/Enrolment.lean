import TunnelWeaver.Account.Provenance
import TunnelWeaver.Lib.Map

/-! Registering a passkey (`passkey_register_finish`, `passkey::finish_register`). A finish takes its
ceremony, looks the credential up and writes the row in separate steps, between which any other
request is served. The row is filed under the account of the ceremony; whether that is the account of
the session is looked at once the row is written. -/

namespace TunnelWeaver.Account

open Automaton

/-- The request that files a credential. -/
def Body.finishes : Body → Bool
  | .passkeyRegisterFinish .. => true
  | _ => false

namespace Site

variable {rt : Runtime} {w w' : Site} {r : Request} {c : SessionContext}

/-! ## Sessions and sign-ins leave the credentials -/

@[grind =] theorem record_passkeys (kind : EventKind) (a b : Option RowId) :
    (w.record r kind a b).1.passkeys = w.passkeys := by
  unfold record
  split <;> rfl

@[grind =] theorem recordOn_passkeys (kind : EventKind) :
    (w.recordOn r kind c).1.passkeys = w.passkeys := record_passkeys ..

@[grind =] theorem invalidate_passkeys (token : String) :
    (w.invalidate rt r token).passkeys = w.passkeys := by
  unfold invalidate
  split <;> rfl

@[grind =] theorem openSession_passkeys (account : RowId) (token provider : String) :
    (w.openSession rt r account token provider).1.passkeys = w.passkeys := by
  grind [openSession]

@[grind =] theorem deliverCode_passkeys (p : Purpose) (otp : String) :
    (w.deliverCode rt r c p otp).1.passkeys = w.passkeys := by
  grind [deliverCode]

@[grind =] theorem start_passkeys (provider : String) (kind : FlowKind)
    (o : Option SessionContext) (returnPath state nonce verifier : String) (prompt : Prompt) :
    (w.start rt r provider kind o returnPath state nonce verifier prompt).1.passkeys = w.passkeys := by
  grind [start]

@[grind =] theorem redeem_passkeys (provider code state error : String)  :
    (w.redeem rt r provider code state error).1.passkeys = w.passkeys := by
  grind [redeem]

@[grind =] theorem proveSignIn_passkeys (mfa : Bool)  :
    (w.proveSignIn r c mfa).1.passkeys = w.passkeys := by
  grind [proveSignIn]

@[grind =] theorem offerEmailedCode_passkeys (p : Purpose) (otp : String) :
    (w.offerEmailedCode rt r c p otp).passkeys = w.passkeys := by
  grind [offerEmailedCode]

@[grind =] theorem openSignIn_passkeys (account : RowId) (identity : EmailIdentity)
    (assertion : Assertion) (token otp : String) :
    (w.openSignIn rt r account identity assertion token otp).1.passkeys = w.passkeys := by
  grind [openSignIn]

@[grind =] theorem finishSignIn_passkeys (assertion : Assertion) (token otp : String) :
    (w.finishSignIn rt r assertion token otp).1.passkeys = w.passkeys := by
  grind [finishSignIn]

/-! ## The parts of a finish -/

variable (rt) in
/-- The gate and the checks of the handler: the session that is served. -/
def admitted (w : Site) (r : Request) : Except Reply SessionContext :=
  match w.session rt r with
  | none => .error (.err 401 "not signed in")
  | some c =>
    if (w.asked rt r (some c)).levelOf < requiredLevel r.body then
      .error (.err 403 "second factor required")
    else if !r.originOk || !r.csrfOk then .error (.err 403 "request refused")
    else .ok c

/-- What a registration ceremony verified. -/
structure Registered where
  /-- The account the ceremony was started for. -/
  accountId : RowId
  credentialId : String
  credential : String
  deriving DecidableEq

variable (rt) in
/-- Take the ceremony and check the credential against it. -/
def register (w : Site) (handle : String) (credential : PublicKeyCredential) (now : Int) :
    Site × Except PasskeyError Registered :=
  match w.takeCeremony handle now with
  | (w, some (.register account challenge)) =>
    match rt.finishRegistration challenge credential with
    | none => (w, .error .refused)
    | some (credentialId, serialised) => (w, .ok ⟨account, credentialId, serialised⟩)
  | (w, _) => (w, .error .unknownCeremony)

/-- Refuse a credential that is enrolled already. -/
def checkEnrolled (w : Site) (k : Registered) (fails : Bool) : Except PasskeyError Unit :=
  if fails then .error .unavailable
  else if (w.passkeyByCredentialId k.credentialId).isSome then .error .refused
  else .ok ()

variable (rt) in
def credentialRow (k : Registered) : PasskeyCredential where
  accountId := k.accountId
  credentialId := k.credentialId
  credential := k.credential
  userUniqueId := rt.userHandle k.accountId

variable (rt) in
/-- `Store::passkey_create`: the credential ids are unique. -/
def passkeyCreate (w : Site) (k : Registered) (fails : Bool) :
    Site × Except PasskeyError PasskeyCredential :=
  if fails || (w.passkeyByCredentialId k.credentialId).isSome then (w, .error .unavailable)
  else ({ w with passkeys := w.passkeys.insert (credentialRow rt k) }, .ok (credentialRow rt k))

def enrolProblem (e : PasskeyError) : Reply := e.problem 400 e.message

/-- The answer once the row is written. -/
def enrolAnswer (c : SessionContext) (row : PasskeyCredential) : Reply :=
  if row.accountId ≠ c.accountId then .err 400 PasskeyError.refused.message else { status := 200 }

variable (rt) in
/-- A finish that nothing comes between: its parts one after the other. -/
def finishInOne (w : Site) (r : Request) (c : SessionContext) (handle : String)
    (credential : PublicKeyCredential) : Site × Reply :=
  match w.register rt handle credential r.now with
  | (w, .error e) => (w, enrolProblem e)
  | (w, .ok k) => match w.checkEnrolled k (r.fails .passkeyRead) with
    | .error e => (w, enrolProblem e)
    | .ok () => match w.passkeyCreate rt k (r.fails .passkeyCreate) with
      | (w, .error e) => (w, enrolProblem e)
      | (w, .ok row) => (w, enrolAnswer c row)

variable (rt) in
def serveInOne (w : Site) (r : Request) (handle : String) (credential : PublicKeyCredential) :
    Site × Reply :=
  match w.admitted rt r with
  | .error reply => (w, reply)
  | .ok c => w.finishInOne rt r c handle credential

/-! ## The other requests leave the credentials -/

@[grind =] theorem finishStepUp_passkeys (flow : SsoFlow) (assertion : Assertion) :
    (w.finishStepUp rt r flow assertion).1.passkeys = w.passkeys := by
  grind [finishStepUp]

@[grind =] theorem answer_passkeys (x : Site × Except Failure Reply) :
    (answer r x).1.passkeys = x.1.passkeys := by
  obtain ⟨site, failure | reply⟩ := x
  · cases failure with
    | refused reason detail account => exact record_passkeys ..
    | unavailable => rfl
  · rfl

@[grind =] theorem callback_passkeys (provider code state error token otp : String) :
    (w.callback rt r provider code state error token otp).1.passkeys = w.passkeys := by
  grind [callback]

@[grind =] theorem verifyChallenge_passkeys (id : RowId) (code : String) :
    (w.verifyChallenge rt r id code).1.passkeys = w.passkeys := by
  grind [verifyChallenge]

@[grind =] theorem loginVerify_passkeys (code : String) :
    (w.loginVerify rt r c code).1.passkeys = w.passkeys := by
  grind [loginVerify]

@[grind =] theorem loginResend_passkeys (otp : String) :
    (w.loginResend rt r c otp).1.passkeys = w.passkeys := by
  grind [loginResend]

@[grind =] theorem totpVerify_passkeys (account : RowId) (code : String) (wrong : Nat) :
    (w.totpVerify rt r account code wrong).1.passkeys = w.passkeys := by
  grind [totpVerify, totpRecordUse]

@[grind =] theorem loginTotp_passkeys (code : String) :
    (w.loginTotp rt r c code).1.passkeys = w.passkeys := by
  grind [loginTotp]

@[grind =] theorem confirmPassword_passkeys (password : String) :
    (w.confirmPassword rt r c password).1.passkeys = w.passkeys := by
  grind [confirmPassword]

@[grind =] theorem finishAssertion_passkeys (handle : String) (credential : PublicKeyCredential) :
    (w.finishAssertion rt r handle credential).1.passkeys = w.passkeys := by
  grind [finishAssertion, takeCeremony]

@[grind =] theorem passkeyAsserted_passkeys (userVerified : Bool) :
    (w.passkeyAsserted r c userVerified).1.passkeys = w.passkeys := by
  grind [passkeyAsserted]

@[grind =] theorem passkeySigninBegin_passkeys (email handle challenge : String) :
    (w.passkeySigninBegin rt r email handle challenge).1.passkeys = w.passkeys := by
  grind [passkeySigninBegin, startCeremony]

@[grind =] theorem passkeySigninFinish_passkeys (handle : String) (credential : PublicKeyCredential)
    (token : String) :
    (w.passkeySigninFinish rt r handle credential token).1.passkeys = w.passkeys := by
  unfold passkeySigninFinish
  have hassert : (w.finishAssertion rt r handle credential).1.passkeys = w.passkeys :=
    finishAssertion_passkeys ..
  split
  · rename_i site e h
    rw [h] at hassert
    exact (record_passkeys ..).trans hassert
  · rename_i site asserted h
    rw [h] at hassert
    have hopen : (site.openSession rt r asserted.accountId token "").1.passkeys = site.passkeys :=
      openSession_passkeys ..
    split
    · exact hassert
    · grind

@[grind =] theorem passkeyStepupBegin_passkeys (handle challenge : String) :
    (w.passkeyStepupBegin rt r handle challenge).1.passkeys = w.passkeys := by
  grind [passkeyStepupBegin, startCeremony]

@[grind =] theorem passkeyStepupFinish_passkeys (handle : String) (credential : PublicKeyCredential) :
    (w.passkeyStepupFinish rt r c handle credential).1.passkeys = w.passkeys := by
  grind [passkeyStepupFinish]

@[grind =] theorem passkeyRegisterBegin_passkeys (handle challenge : String) :
    (w.passkeyRegisterBegin r c handle challenge).1.passkeys = w.passkeys := by
  grind [passkeyRegisterBegin, startCeremony]

@[grind =] theorem begin_passkeys (provider state nonce verifier : String) :
    (w.begin rt r provider state nonce verifier).1.passkeys = w.passkeys := by
  grind [begin]

@[grind =] theorem stepUp_passkeys (provider returnPath state nonce verifier : String) :
    (w.stepUp rt r c provider returnPath state nonce verifier).1.passkeys = w.passkeys := by
  grind [stepUp]

@[grind =] theorem guarded_passkeys {session : Option SessionContext}
    {served : SessionContext → Site × Reply} (h : ∀ c, (served c).1.passkeys = w.passkeys) :
    (w.guarded r session served).1.passkeys = w.passkeys := by
  unfold guarded
  split
  · rfl
  · split
    · rfl
    · exact h _

theorem handle_passkeys {session : Option SessionContext} (h : r.body.finishes = false) :
    (w.handle rt r session).1.passkeys = w.passkeys := by
  unfold handle
  cases hbody : r.body with
  | passkeyRegisterFinish handle credential =>
    rw [hbody] at h
    cases h
  | begin => exact begin_passkeys ..
  | stepUp =>
    cases session with
    | none => rfl
    | some c => exact stepUp_passkeys ..
  | callback => exact callback_passkeys ..
  | loginVerify => exact guarded_passkeys fun c => loginVerify_passkeys ..
  | loginResend => exact guarded_passkeys fun c => loginResend_passkeys ..
  | loginTotp => exact guarded_passkeys fun c => loginTotp_passkeys ..
  | confirmPassword => exact guarded_passkeys fun c => confirmPassword_passkeys ..
  | passkeySigninBegin =>
    dsimp only
    split
    · rfl
    · exact passkeySigninBegin_passkeys ..
  | passkeySigninFinish =>
    dsimp only
    split
    · rfl
    · exact passkeySigninFinish_passkeys ..
  | passkeyStepupBegin => exact guarded_passkeys fun _ => passkeyStepupBegin_passkeys ..
  | passkeyStepupFinish => exact guarded_passkeys fun c => passkeyStepupFinish_passkeys ..
  | passkeyRegisterBegin => exact guarded_passkeys fun c => passkeyRegisterBegin_passkeys ..

theorem step_passkeys (h : r.body.finishes = false) (hstep : w.step rt r = some w') :
    w'.passkeys = w.passkeys := by
  cases hstep
  change (w.serve rt r).1.passkeys = w.passkeys
  unfold serve
  dsimp only
  split
  · exact handle_passkeys h
  · split
    · rfl
    · split
      · rfl
      · exact handle_passkeys h

/-! ## A finish is its parts -/

theorem passkeyRegisterFinish_eq (handle : String) (credential : PublicKeyCredential) :
    w.passkeyRegisterFinish rt r c handle credential =
      w.finishInOne rt r c handle credential := by
  unfold passkeyRegisterFinish finishRegister finishInOne register
  rcases w.takeCeremony handle r.now with ⟨w₁, _ | pending⟩
  · rfl
  cases pending with
  | assert => rfl
  | discover => rfl
  | register account challenge =>
    cases hfinish : rt.finishRegistration challenge credential with
    | none => simp [hfinish, enrolProblem]
    | some e =>
      obtain ⟨credentialId, serialised⟩ := e
      simp only [hfinish, checkEnrolled, passkeyCreate]
      cases r.fails .passkeyRead with
      | true => rfl
      | false =>
        cases w₁.passkeyByCredentialId credentialId with
        | some row => rfl
        | none =>
          cases r.fails .passkeyCreate with
          | true => rfl
          | false =>
            by_cases haccount : account = c.accountId <;>
              simp [enrolAnswer, credentialRow, haccount]

theorem serve_eq {handle : String} {credential : PublicKeyCredential}
    (h : r.body = .passkeyRegisterFinish handle credential) :
    w.serve rt r = w.serveInOne rt r handle credential := by
  have hlevel : requiredLevel r.body = .certain := by rw [h]; rfl
  unfold serve serveInOne admitted
  rw [hlevel]
  cases hsession : w.session rt r with
  | none => simp
  | some c =>
    simp only [Site.handle, h, guarded, passkeyRegisterFinish_eq]
    grind

end Site

/-! ## Interleaved finishes -/

namespace Enrolment

/-- How far a finish is. -/
inductive Stage
  | admitted
  | registered (k : Site.Registered)
  /-- The store did not know the credential. -/
  | unknown (k : Site.Registered)
  | answered (reply : Reply)
  deriving DecidableEq

/-- What is to be filed next. -/
def Stage.unknown? : Stage → Option Site.Registered
  | .unknown k => some k
  | _ => none

structure Finish where
  /-- The session the request is served with. -/
  session : Option SessionContext
  handle : String
  credential : PublicKeyCredential
  stage : Stage
  deriving DecidableEq

/-- The credentials before and after a step of a finish. -/
structure Change where
  call : Nat
  before : Table PasskeyCredential
  after : Table PasskeyCredential

structure World where
  site : Site
  calls : Map Nat Finish := ∅
  /-- The steps the finishes took. -/
  changes : List Change := []

inductive Act
  /-- Any other request. -/
  | request (r : Request)
  | finish (id : Nat) (r : Request) (handle : String) (credential : PublicKeyCredential)
  | take (id : Nat) (now : Int)
  | read (id : Nat) (fails : Bool)
  | file (id : Nat) (fails : Bool)
  /-- `passkey_remove`, or the deletion of accounts. -/
  | remove (ids : List RowId)

namespace World

/-- A step of the finish `id`. -/
def advance (w : World) (id : Nat) (f : Finish) (site : Site) (stage : Stage) : World where
  site := site
  calls := w.calls.insert id { f with stage }
  changes := ⟨id, w.site.passkeys, site.passkeys⟩ :: w.changes

variable (rt : Runtime)

def step (w : World) : Act → Option World
  | .request r =>
    if r.body.finishes then none else (w.site.step rt r).map fun site => { w with site }
  | .finish id r handle credential =>
    match w.calls.lookup id with
    | some _ => none
    | none =>
      if r.body ≠ .passkeyRegisterFinish handle credential then none
      else
        let stage := match w.site.admitted rt r with
          | .error reply => .answered reply
          | .ok _ => .admitted
        some (w.advance id ⟨w.site.session rt r, handle, credential, stage⟩ w.site stage)
  | .take id now =>
    match w.calls.lookup id with
    | none => none
    | some f => match f.stage with
      | .admitted => match w.site.register rt f.handle f.credential now with
        | (site, .error e) => some (w.advance id f site (.answered (Site.enrolProblem e)))
        | (site, .ok k) => some (w.advance id f site (.registered k))
      | _ => none
  | .read id fails =>
    match w.calls.lookup id with
    | none => none
    | some f => match f.stage with
      | .registered k => match w.site.checkEnrolled k fails with
        | .error e => some (w.advance id f w.site (.answered (Site.enrolProblem e)))
        | .ok () => some (w.advance id f w.site (.unknown k))
      | _ => none
  | .file id fails =>
    match w.calls.lookup id with
    | none => none
    | some f => match f.session, f.stage with
      | some c, .unknown k => match w.site.passkeyCreate rt k fails with
        | (site, .error e) => some (w.advance id f site (.answered (Site.enrolProblem e)))
        | (site, .ok row) => some (w.advance id f site (.answered (Site.enrolAnswer c row)))
      | _, _ => none
  | .remove ids =>
    some { w with site := { w.site with passkeys := w.site.passkeys.delete fun id _ => id ∈ ids } }

def run (w : World) (acts : List Act) : Option World := Automaton.run (step rt) w acts

/-- Rows are planted by finishes alone, each for the account of its session, and a finish that is
answered with an error leaves the credentials as they are. -/
structure Guarded (w init : World) : Prop where
  planted : ∀ id row, w.site.passkeys.get? id = some row → init.site.passkeys.get? id = some row ∨
    ∃ e ∈ w.changes, e.before.get? id ≠ some row ∧ e.after.get? id = some row
  own : ∀ e ∈ w.changes, e.after = e.before ∨ ∃ f c row, w.calls.lookup e.call = some f ∧
    f.session = some c ∧ row.accountId = c.accountId ∧ e.after = e.before.insert row
  refused : ∀ e ∈ w.changes, ∀ f reply, w.calls.lookup e.call = some f →
    f.stage = .answered reply → reply.status ≠ 200 → e.after = e.before

/-- A row is filed from a ceremony of the account of the session. -/
def OwnCeremony (w : World) : Act → Prop
  | .file id fails => ∀ f ∈ w.calls.lookup id, ∀ c ∈ f.session, ∀ k ∈ f.stage.unknown?,
    fails = false → w.site.passkeyByCredentialId k.credentialId = none → k.accountId = c.accountId
  | _ => True

instance (w : World) (a : Act) : Decidable (w.OwnCeremony a) := by
  cases a <;> unfold OwnCeremony <;> infer_instance

/-- No finish is under way. -/
def Initial (w : World) : Prop := (∀ id, w.calls.lookup id = none) ∧ w.changes = []

/-! ## Steps -/

variable {rt} {w w' init : World} {a : Act}

theorem register_passkeys (rt : Runtime) (w : Site) (handle : String) (credential : PublicKeyCredential)
    (now : Int) : (w.register rt handle credential now).1.passkeys = w.passkeys := by
  grind [Site.register, Site.takeCeremony]

theorem passkeyCreate_cases (rt : Runtime) (w : Site) (k : Site.Registered) (fails : Bool) :
    w.passkeyCreate rt k fails = (w, .error .unavailable) ∨
      fails = false ∧ w.passkeyByCredentialId k.credentialId = none ∧
        w.passkeyCreate rt k fails = ({ w with
          passkeys := w.passkeys.insert (Site.credentialRow rt k) }, .ok (Site.credentialRow rt k)) := by
  unfold Site.passkeyCreate
  split
  · exact .inl rfl
  · rename_i h
    rw [Bool.or_eq_true, not_or, Bool.not_eq_true, Option.not_isSome_iff_eq_none] at h
    exact .inr ⟨h.1, h.2, rfl⟩

variable (rt w) in
/-- What the step of a finish leaves in the table: all as it was, or the row of its ceremony. -/
def Files (a : Act) (id : Nat) (f : Finish) (site : Site) (stage : Stage) : Prop :=
  site.passkeys = w.site.passkeys ∨ ∃ c k, a = .file id false ∧ w.calls.lookup id = some f ∧
    f.session = some c ∧ f.stage = .unknown k ∧
    w.site.passkeyByCredentialId k.credentialId = none ∧
    site.passkeys = w.site.passkeys.insert (Site.credentialRow rt k) ∧
    stage = .answered (Site.enrolAnswer c (Site.credentialRow rt k))

theorem step_cases (h : w.step rt a = some w') :
    (∃ site, w' = { w with site } ∧ ∀ id row, site.passkeys.get? id = some row →
      w.site.passkeys.get? id = some row) ∨
    ∃ id f site stage, w' = w.advance id f site stage ∧ w.Files rt a id f site stage ∧
      (w.calls.lookup id = none ∨
        w.calls.lookup id = some f ∧ ∀ reply, f.stage ≠ .answered reply) := by
  cases a with
  | request r =>
    simp only [step] at h
    split at h
    · cases h
    · rename_i hbody
      obtain ⟨site, hsite, rfl⟩ := Option.map_eq_some_iff.mp h
      refine .inl ⟨site, rfl, fun id row hrow => ?_⟩
      rwa [Site.step_passkeys (Bool.eq_false_iff.mpr hbody) hsite] at hrow
  | remove ids =>
    cases h
    refine .inl ⟨_, rfl, fun id row hrow => ?_⟩
    rw [Table.get?_delete] at hrow
    exact (Option.filter_eq_some_iff.mp hrow).1
  | finish id r handle credential =>
    simp only [step] at h
    cases hid : w.calls.lookup id with
    | some f =>
      rw [hid] at h
      cases h
    | none =>
      rw [hid] at h
      dsimp only at h
      split at h
      · cases h
      · exact .inr ⟨id, _, w.site, _, (Option.some.inj h).symm, .inl rfl, .inl hid⟩
  | take id now =>
    simp only [step] at h
    cases hid : w.calls.lookup id with
    | none =>
      rw [hid] at h
      cases h
    | some f =>
      rw [hid] at h
      dsimp only at h
      split at h
      · rename_i hstage
        have hkept := register_passkeys rt w.site f.handle f.credential now
        have hopen (reply : Reply) : f.stage ≠ .answered reply := by
          rw [hstage]
          exact Stage.noConfusion
        split at h <;> rename_i hregister <;> rw [hregister] at hkept <;>
          exact .inr ⟨id, f, _, _, (Option.some.inj h).symm, .inl hkept, .inr ⟨hid, hopen⟩⟩
      · cases h
  | read id fails =>
    simp only [step] at h
    cases hid : w.calls.lookup id with
    | none =>
      rw [hid] at h
      cases h
    | some f =>
      rw [hid] at h
      dsimp only at h
      split at h
      · rename_i k hstage
        have hopen (reply : Reply) : f.stage ≠ .answered reply := by
          rw [hstage]
          exact Stage.noConfusion
        split at h <;>
          exact .inr ⟨id, f, _, _, (Option.some.inj h).symm, .inl rfl, .inr ⟨hid, hopen⟩⟩
      · cases h
  | file id fails =>
    simp only [step] at h
    cases hid : w.calls.lookup id with
    | none =>
      rw [hid] at h
      cases h
    | some f =>
      rw [hid] at h
      dsimp only at h
      split at h
      · rename_i c k hsession hstage
        have hopen (reply : Reply) : f.stage ≠ .answered reply := by
          rw [hstage]
          exact Stage.noConfusion
        rcases passkeyCreate_cases rt w.site k fails with hfile | ⟨rfl, hnone, hfile⟩ <;>
          rw [hfile] at h
        · exact .inr ⟨id, f, _, _, (Option.some.inj h).symm, .inl rfl, .inr ⟨hid, hopen⟩⟩
        · exact .inr ⟨id, f, _, _, (Option.some.inj h).symm,
            .inr ⟨c, k, rfl, hid, hsession, hstage, hnone, rfl, rfl⟩, .inr ⟨hid, hopen⟩⟩
      · cases h

/-! ## The invariant -/

structure Tracked (w init : World) : Prop where
  planted : ∀ id row, w.site.passkeys.get? id = some row → init.site.passkeys.get? id = some row ∨
    ∃ e ∈ w.changes, e.before.get? id ≠ some row ∧ e.after.get? id = some row
  /-- A finish that changed the credentials has been answered without an error. -/
  filed : ∀ e ∈ w.changes, ∃ f, w.calls.lookup e.call = some f ∧ (e.after = e.before ∨
    ∃ c row, f.session = some c ∧ row.accountId = c.accountId ∧ e.after = e.before.insert row ∧
      f.stage = .answered { status := 200 })

theorem Initial.tracked (h : init.Initial) : init.Tracked init where
  planted := fun _ _ hrow => .inl hrow
  filed := by
    intro e he
    rw [h.2] at he
    cases he

theorem Tracked.guarded (h : w.Tracked init) : w.Guarded init where
  planted := h.planted
  own := by
    intro e he
    obtain ⟨f, hf, hsame | ⟨c, row, hc, hrow, hafter, -⟩⟩ := h.filed e he
    · exact .inl hsame
    · exact .inr ⟨f, c, row, hf, hc, hrow, hafter⟩
  refused := by
    intro e he f reply hf hreply herr
    obtain ⟨f', hf', hsame | ⟨c, row, -, -, -, hok⟩⟩ := h.filed e he
    · exact hsame
    · cases hf.symm.trans hf'
      cases hreply.symm.trans hok
      exact absurd rfl herr

theorem Tracked.advance {id : Nat} {f : Finish} {site : Site} {stage : Stage}
    (h : w.Tracked init) (hfiles : w.Files rt a id f site stage) (hguard : w.OwnCeremony a)
    (hid : w.calls.lookup id = none ∨
      w.calls.lookup id = some f ∧ ∀ reply, f.stage ≠ .answered reply) :
    (w.advance id f site stage).Tracked init where
  planted := by
    intro i row hrow
    by_cases hbefore : w.site.passkeys.get? i = some row
    · rcases h.planted i row hbefore with hinit | ⟨e, he, hplanted⟩
      · exact .inl hinit
      · exact .inr ⟨e, List.mem_cons_of_mem _ he, hplanted⟩
    · exact .inr ⟨_, List.mem_cons_self, hbefore, hrow⟩
  filed := by
    intro e he
    rcases List.mem_cons.mp he with rfl | he
    · refine ⟨{ f with stage }, by simp [World.advance], ?_⟩
      rcases hfiles with hsame | ⟨c, k, rfl, hf, hc, hk, hnone, hinsert, rfl⟩
      · exact .inl hsame
      · have haccount : k.accountId = c.accountId := 
          hguard f hf c hc k (congrArg Stage.unknown? hk) rfl hnone
        refine .inr ⟨c, _, hc, haccount, hinsert, ?_⟩
        exact congrArg Stage.answered (if_neg (not_not_intro haccount))
    · obtain ⟨f', hf', hsame⟩ := h.filed e he
      by_cases hcall : e.call = id
      · subst hcall
        refine ⟨{ f with stage }, by simp [World.advance], .inl ?_⟩
        -- a call that is not answered yet has changed nothing
        rcases hid with hid | ⟨hid, hopen⟩
        · cases hid.symm.trans hf'
        · cases hid.symm.trans hf'
          rcases hsame with hsame | ⟨c, row, -, -, -, hok⟩
          · exact hsame
          · exact absurd hok (hopen _)
      · refine ⟨f', ?_, hsame⟩
        rw [World.advance, Map.lookup_insert_ite, if_neg hcall, hf']

theorem Tracked.step (h : w.Tracked init) (hguard : w.OwnCeremony a)
    (hstep : w.step rt a = some w') : w'.Tracked init := by
  rcases step_cases hstep with ⟨site, rfl, hsite⟩ | ⟨id, f, site, stage, rfl, hfiles, hid⟩
  · exact ⟨fun id row hrow => h.planted id row (hsite id row hrow), h.filed⟩
  · exact h.advance hfiles hguard hid

/-- When every row is filed from a ceremony of the session's own account, refused finishes plant
nothing. -/
theorem passkey_register_finish_guarded {acts : List Act} (hinit : init.Initial)
    (hguard : Meets (World.step rt) OwnCeremony init acts) (hrun : init.run rt acts = some w) :
    w.Guarded init :=
  (run_invariant_of_meets (I := fun w => Tracked w init) (fun h hg hs => h.step hg hs) hguard
    hinit.tracked hrun).guarded

namespace Sample
open Site.Sample

/-- A browser signs in and steps up. -/
def stepsUp (browser : Nat) (name state state' token : String) : List Act :=
  [.request (request browser (.begin "google" state "n" "v")),
    .request (request browser (.callback "google" name state "" token "123456")),
    .request (request browser (.stepUp "google" "/app" state' "n" "v")),
    .request (request browser (.callback "google" name state' "" token "123456"))]

def key : PublicKeyCredential := { id := "key", userHandle := "", response := "public" }

/-- `ann` starts a registration in browser 0, and a browser finishes it. -/
def registers (browser : Nat) : List Act :=
  stepsUp 0 "ann" "s1" "s2" "t0" ++ stepsUp 1 "bob" "s3" "s4" "t1" ++
    [.request (request 0 (.passkeyRegisterBegin "h" "challenge")),
      .finish 0 (request browser (.passkeyRegisterFinish "h" key)) "h" key, .take 0 1000,
      .read 0 false, .file 0 false]

end Sample

/-- `ann` finishes what she started. -/
theorem passkey_register_finish_guarded_ann : ∃ w : World,
    run (Site.Sample.relay true) { site := {} } (Sample.registers 0) = some w ∧
    (w.site.passkeys.get? 1).map (·.accountId) = some 1 ∧ w.Guarded { site := {} } := by
  have hguard : Meets (World.step (Site.Sample.relay true)) OwnCeremony { site := {} }
      (Sample.registers 0) := by decide +kernel
  have hfiled : ((run (Site.Sample.relay true) { site := {} } (Sample.registers 0)).any fun w =>
      (w.site.passkeys.get? 1).map (·.accountId) = some 1) = true := by decide +kernel
  obtain ⟨w, hrun, hw⟩ := (Option.any_eq_true ..).mp hfiled
  exact ⟨w, hrun, of_decide_eq_true hw,
    passkey_register_finish_guarded ⟨fun _ => rfl, rfl⟩ hguard hrun⟩

/-- `bob` finishes what `ann` started: he is refused, and she has a credential of his. -/
theorem passkey_register_finish_plants : ¬∀ (rt : Runtime) (w w' : World) (acts : List Act),
    w.Initial → w.run rt acts = some w' → w'.Guarded w := by
  intro h
  have hrefused : ((run (Site.Sample.relay true) { site := {} } (Sample.registers 1)).any fun w =>
      w.changes.any fun e => e.after.next ≠ e.before.next && (w.calls.lookup e.call).any fun f =>
        f.stage = .answered (.err 400 Site.PasskeyError.refused.message)) = true := by
    decide +kernel
  obtain ⟨w, hrun, hw⟩ := (Option.any_eq_true ..).mp hrefused
  obtain ⟨e, he, hchange⟩ := List.any_eq_true.mp hw
  obtain ⟨hnext, hcall⟩ := (Bool.and_eq_true ..).mp hchange
  obtain ⟨f, hf, hstage⟩ := (Option.any_eq_true ..).mp hcall
  have hsame := (h _ _ w _ ⟨fun _ => rfl, rfl⟩ hrun).refused e he f _ hf
    (of_decide_eq_true hstage) (by decide)
  rw [hsame] at hnext
  exact of_decide_eq_true hnext rfl

end World

end Enrolment

end TunnelWeaver.Account
