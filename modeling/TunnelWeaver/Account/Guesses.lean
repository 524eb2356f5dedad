import TunnelWeaver.Account.Authenticator
import TunnelWeaver.Account.Credentials
import TunnelWeaver.Account.EmailedCode
import TunnelWeaver.Account.Trail

/-! The comparisons of a submitted password or short code that the handlers of `account/router.rs`
make, and whether wrong answers put an end to them. Answers are given one after the other, and the
store takes what is written. -/

namespace TunnelWeaver.Account

/-- How answers are taken in one flow: whether an answer is compared, and then whether it matches. -/
structure Check where
  Flow : Type
  answer : Flow → (candidate : String) → (now : Int) → Flow × Option Bool
  /-- No answer has been given yet. -/
  Begun : Flow → Prop

namespace Check

/-- How many wrong answers are compared. -/
def wrongs (k : Check) : k.Flow → List (String × Int) → Nat
  | _, [] => 0
  | flow, (candidate, now) :: answers =>
    let x := k.answer flow candidate now
    (if x.2 = some false then 1 else 0) + k.wrongs x.1 answers

/-- The flow has an attempt cap of its own. -/
def Capped (k : Check) : Prop :=
  ∃ cap, ∀ flow, k.Begun flow → ∀ answers, k.wrongs flow answers ≤ cap

variable {k : Check}

/-- `left` is what a flow has left; a wrong answer takes one of it. -/
theorem wrongs_le {left : k.Flow → Nat}
    (h : ∀ flow candidate now, (if (k.answer flow candidate now).2 = some false then 1 else 0) +
      left (k.answer flow candidate now).1 ≤ left flow) (flow : k.Flow)
    (answers : List (String × Int)) : k.wrongs flow answers ≤ left flow := by
  induction answers generalizing flow with
  | nil => exact Nat.zero_le _
  | cons e answers ih => exact Nat.le_trans (Nat.add_le_add_left (ih _) _) (h flow e.1 e.2)

/-- An answer that stays wrong is compared every time. -/
theorem wrongs_replicate {P : k.Flow → Prop} {candidate : String} {now : Int}
    (h : ∀ flow, P flow → (k.answer flow candidate now).2 = some false ∧
      P (k.answer flow candidate now).1) {flow : k.Flow} (hflow : P flow) (n : Nat) :
    k.wrongs flow (List.replicate n (candidate, now)) = n := by
  induction n generalizing flow with
  | zero => rfl
  | succ n ih =>
    obtain ⟨hwrong, hnext⟩ := h flow hflow
    rw [List.replicate_succ, wrongs, hwrong, if_pos rfl, ih hnext, Nat.add_comm]

theorem not_capped {P : k.Flow → Prop} {candidate : String} {now : Int}
    (h : ∀ flow, P flow → (k.answer flow candidate now).2 = some false ∧
      P (k.answer flow candidate now).1) {flow : k.Flow} (hflow : P flow) (hbegun : k.Begun flow) :
    ¬k.Capped := by
  rintro ⟨cap, hcap⟩
  have hle := hcap flow hbegun (List.replicate (cap + 1) (candidate, now))
  rw [wrongs_replicate h hflow] at hle
  exact Nat.not_succ_le_self cap hle

end Check

/-! ## Emailed codes -/

/-- `Challenge::verify`, of a submission served in one go. -/
def enterCode (hashCode : String → String) (s : Store) (flow : Flow) (candidate : String)
    (now : Int) : Store × Option Bool :=
  match readChallenge hashCode s flow candidate now false with
  | .error _ => (s, none)
  | .ok submission => ((concludeSubmission s now false submission).1, some !submission.isRecording)

/-- The code that was emailed for a flow. -/
def emailedCode (hashCode : String → String) (flow : Flow) : Check where
  Flow := Store
  answer s candidate now := enterCode hashCode s flow candidate now
  Begun s := ∀ id c, s.challengeOf flow = some (id, c) →
    c.attempts = 0 ∧ c.maxAttempts = Site.otpMaxAttempts

/-- The entries that the newest code of a flow still takes. -/
def entriesLeft (flow : Flow) (s : Store) : Nat :=
  ((s.challengeOf flow).map fun row => (row.2.maxAttempts - row.2.attempts).toNat).getD 0

section
variable {hashCode : String → String} {flow : Flow} {s : Store} {id : RowId} {c : LoginChallenge}

theorem entriesLeft_eq (h : s.challengeOf flow = some (id, c)) :
    entriesLeft flow s = (c.maxAttempts - c.attempts).toNat := by
  rw [entriesLeft, h]
  rfl

theorem entriesLeft_eq_zero (h : s.challengeOf flow = none) : entriesLeft flow s = 0 := by
  rw [entriesLeft, h]
  rfl

/-- Issuing a code begins the flow anew. -/
theorem emailedCode_begun (w : EmailedCode.World) (code : String) (purpose : Purpose) (now : Int) :
    (emailedCode hashCode w.flow).Begun (w.issue hashCode code purpose now).store := by
  intro id c hcode
  obtain ⟨id', hissued, -⟩ := w.store.challengeOf_upsert
    { flow := w.flow, purpose, codeHash := hashCode code, expiresAt := now + Site.otpTtlSecs
      attempts := 0, maxAttempts := Site.otpMaxAttempts, lastSentAt := now, consumedAt := none }
  have hrow := hissued.symm.trans hcode
  cases hrow
  exact ⟨rfl, rfl⟩

theorem entriesLeft_enterCode (s : Store) (candidate : String) (now : Int) :
    (if (enterCode hashCode s flow candidate now).2 = some false then 1 else 0) +
      entriesLeft flow (enterCode hashCode s flow candidate now).1 ≤ entriesLeft flow s := by
  unfold enterCode
  cases hread : readChallenge hashCode s flow candidate now false with
  | error e => exact Nat.le_of_eq (Nat.zero_add _)
  | ok submission =>
    obtain ⟨c, hcode, -, hlt, hkind⟩ := EmailedCode.World.read_ok hashCode hread
    let w : EmailedCode.World := ⟨s, flow, [], 0, 0, []⟩
    have hrow : w.code = some (submission.id, c) := hcode
    obtain ⟨c', hcode', hmax, hattempts⟩ := EmailedCode.World.conclude_code hrow now false
    rw [entriesLeft_eq hcode]
    dsimp only
    rw [entriesLeft_eq hcode', hmax, hattempts]
    rcases hkind with ⟨hkind, -⟩ | ⟨hkind, -⟩
    · rw [hkind]
      exact Nat.le_of_eq (Nat.zero_add _)
    · rw [hkind]
      simp only [Submission.isRecording, Bool.not_false, Bool.not_true, Bool.and_self, if_true,
        EmailedCode.World.quota]
      omega

theorem entriesLeft_begun (h : (emailedCode hashCode flow).Begun s) :
    entriesLeft flow s ≤ Site.otpMaxAttempts.toNat := by
  cases hcode : s.challengeOf flow with
  | none =>
    rw [entriesLeft_eq_zero hcode]
    exact Nat.zero_le _
  | some row =>
    obtain ⟨hattempts, hmax⟩ := h row.1 row.2 hcode
    rw [entriesLeft_eq hcode, hattempts, hmax, Int.sub_zero]

end

/-- A pending registration, as `verify_signup` reads it. -/
structure PendingSignup where
  id : RowId
  expiresAt : Int
  completedAt : Option Int

/-- `verify_signup` up to the check of the code; `pending` is the registration of the flow that the
request names. -/
def signupCode (hashCode : String → String) (pending : PendingSignup) : Check where
  Flow := Store
  answer s candidate now :=
    if pending.completedAt.isNone && now < pending.expiresAt then
      enterCode hashCode s (.pendingRegistration pending.id) candidate now
    else (s, none)
  Begun := (emailedCode hashCode (.pendingRegistration pending.id)).Begun

theorem signupCode_capped {hashCode : String → String} {pending : PendingSignup} :
    (signupCode hashCode pending).Capped := by
  refine ⟨Site.otpMaxAttempts.toNat, fun s hbegun answers => ?_⟩
  have hbegun : (emailedCode hashCode (.pendingRegistration pending.id)).Begun s := hbegun
  refine Nat.le_trans (Check.wrongs_le (k := signupCode hashCode pending)
    (fun s candidate now => ?_) s answers)
    (entriesLeft_begun hbegun)
  simp only [signupCode]
  split
  · exact entriesLeft_enterCode s candidate now
  · exact Nat.le_of_eq (Nat.zero_add _)

/-! ## Passwords -/

namespace World
variable (pw : Passwords)

/-- The account that an address belongs to. -/
def accountOf (w : World) (lookupKey : String) : Option RowId := do
  let (_, identity) ← w.store.emailIdentityFind lookupKey
  let _ ← w.store.accountById identity.accountId
  return identity.accountId

/-- The password check of `login`: an address without an account is checked against a dummy. -/
def passwordOk (w : World) (lookupKey password : String) : Bool :=
  match w.accountOf lookupKey with
  | none => false
  | some account =>
    pw.verify password (((w.store.passwordCurrentFor account).map (·.2.encodedHash)).getD pw.dummyHash)

/-- A sign-in with a wrong password only leaves its row in the trail. -/
theorem login_of_wrong {w : World} {lookupKey password tokenHash : String} {now : Int}
    (h : w.passwordOk pw lookupKey password = false) :
    w.login pw lookupKey password tokenHash now = w.loginFailed (w.accountOf lookupKey) now := by
  unfold login
  unfold passwordOk at h
  change (match w.accountOf lookupKey with | none => _ | some account => _) = _
  cases haccount : w.accountOf lookupKey with
  | none => rfl
  | some account =>
    rw [haccount] at h
    simp only at h ⊢
    rw [h]
    rfl

/-- The password check of `change_password`, if it is reached. -/
def currentPasswordOk (w : World) (tokenHash password : String) (now : Int) : Option Bool := do
  let account ← w.sessionAccount tokenHash now
  let (_, c) ← w.store.passwordCurrentFor account
  return pw.verify password c.encodedHash

/-- A change with a wrong password changes nothing. -/
theorem change_of_wrong {w : World} {tokenHash password encodedHash : String} {now : Int}
    (h : w.currentPasswordOk pw tokenHash password now ≠ some true) :
    w.change pw tokenHash password encodedHash now = w := by
  unfold change
  unfold currentPasswordOk at h
  cases haccount : w.sessionAccount tokenHash now with
  | none => rfl
  | some account =>
    rw [haccount] at h
    dsimp only
    cases hc : w.store.passwordCurrentFor account with
    | none => rfl
    | some row =>
      have hwrong : pw.verify password row.2.encodedHash = false := by
        simpa [hc] using h
      dsimp only
      rw [hwrong]
      rfl

end World

/-- `login`, once the proof of work is accepted. -/
def signIn (pw : Passwords) (lookupKey tokenHash : String) : Check where
  Flow := World
  answer w password now :=
    (w.login pw lookupKey password tokenHash now, some (w.passwordOk pw lookupKey password))
  Begun _ := True

/-- `change_password`. -/
def passwordChange (pw : Passwords) (tokenHash encodedHash : String) : Check where
  Flow := World
  answer w password now :=
    (w.change pw tokenHash password encodedHash now, w.currentPasswordOk pw tokenHash password now)
  Begun _ := True

namespace Site
variable (rt : Runtime)

/-- The password check of `confirm_password`, if it is reached. -/
def confirmationOk (site : Site) (r : Request) (c : SessionContext) (password : String) :
    Option Bool :=
  match site.stepUpExpected rt r with
  | some _ => none
  | none =>
    (if r.fails .passwordRead then none else site.store.passwordCurrentFor c.accountId).map
      fun row => rt.passwordVerify password row.2.encodedHash

/-- A wrong password is answered with a 400 and a row in the trail. -/
theorem confirmPassword_of_wrong {site : Site} {r : Request} {c : SessionContext}
    {password : String} (h : site.confirmationOk rt r c password = some false) :
    site.confirmPassword rt r c password =
      ((site.recordOn r .passwordConfirmFailed c).1, .err 400 "that is not your password") := by
  unfold confirmationOk at h
  unfold confirmPassword
  cases hstep : site.stepUpExpected rt r with
  | some reply =>
    rw [hstep] at h
    cases h
  | none =>
    rw [hstep] at h
    obtain ⟨row, hrow, hwrong⟩ := Option.map_eq_some_iff.mp h
    dsimp only
    rw [hrow]
    dsimp only
    rw [hwrong]
    rfl

end Site

namespace Site
variable {rt : Runtime} {site : Site} {r : Request} {c : SessionContext}

/-- Wrong passwords are no proofs. -/
theorem loadProofs_confirmFailed {s : Store} {id : RowId} {event : AuthEvent}
    (h : event.kind = .passwordConfirmFailed) :
    loadProofs ({ s with events := s.events.insert event }.authEventLatestByKind id) =
      loadProofs (s.authEventLatestByKind id) := by
  have hkept (kind : EventKind) (hkind : kind ≠ .passwordConfirmFailed) :
      Store.latestOf { s with events := s.events.insert event } id kind = s.latestOf id kind := by
    rw [Store.latestOf_insert, if_neg fun hon => hkind (hon.2.symm.trans h)]
  funext proof
  rw [Store.authEventLatestByKind_eq, Store.authEventLatestByKind_eq, loadProofs_listing,
    loadProofs_listing, endedAt, endedAt, hkept .logout (by decide),
    hkept .identityProviderGrantInvalid (by decide)]
  congr 1
  cases proof with
  | password =>
    rw [givenAt, givenAt, hkept .passwordConfirmed (by decide), hkept .password (by decide)]
  | _ => exact hkept _ (by decide)

/-- A record adds its row to the trail, or nothing. -/
theorem recordOn_cases (site : Site) (r : Request) (kind : EventKind) (c : SessionContext) :
    (site.recordOn r kind c).1 = site ∨ ∃ event : AuthEvent, event.kind = kind ∧
      (site.recordOn r kind c).1 =
        { site with store := { site.store with events := site.store.events.insert event } } := by
  unfold recordOn record
  split
  · exact .inl rfl
  · unfold Store.authEventInsert
    by_cases hmissing : (site.store.accountById c.accountId).isNone
    · rw [if_pos (by simpa using hmissing)]
      exact .inl rfl
    · rw [if_neg (by simpa using hmissing)]
      exact .inr ⟨_, rfl, rfl⟩

/-- What a step-up finds is what it found before a wrong password. -/
theorem confirmationOk_after_wrong (password : String) :
    (site.recordOn r .passwordConfirmFailed c).1.confirmationOk rt r c password =
      site.confirmationOk rt r c password := by
  rcases site.recordOn_cases r .passwordConfirmFailed c with hsame | ⟨event, hkind, hadded⟩
  · rw [hsame]
  · have hsituation (session : Option SessionContext) :
        situation rt { site.store with events := site.store.events.insert event } session r.now =
          situation rt site.store session r.now := by
      cases session with
      | none => rfl
      | some c' =>
        unfold situation
        dsimp only
        rw [loadProofs_confirmFailed hkind]
    rw [hadded]
    simp only [confirmationOk, stepUpExpected, asked, hsituation]
    rfl

end Site

/-- The request, at another instant and with every call answered. -/
def Request.servedAt (r : Request) (now : Int) : Request := { r with now, down := [] }

/-- `confirm_password`. -/
def confirmation (rt : Runtime) (r : Request) (c : SessionContext) : Check where
  Flow := Site
  answer site password now :=
    ((site.confirmPassword rt (r.servedAt now) c password).1,
      site.confirmationOk rt (r.servedAt now) c password)
  Begun _ := True

/-- Wherever a wrong password is compared, any number of them are. -/
theorem confirmation_not_capped {rt : Runtime} {site : Site} {r : Request} {c : SessionContext}
    {password : String} {now : Int}
    (h : site.confirmationOk rt (r.servedAt now) c password = some false) :
    ¬(confirmation rt r c).Capped := by
  let P (site : Site) := site.confirmationOk rt (r.servedAt now) c password = some false
  refine Check.not_capped (k := confirmation rt r c) (P := P) (fun site hsite => ⟨hsite, ?_⟩) h
    trivial
  have hanswer := Site.confirmPassword_of_wrong rt hsite
  change ((site.confirmPassword rt (r.servedAt now) c password).1).confirmationOk _ _ _ _ = _
  rw [hanswer]
  exact (Site.confirmationOk_after_wrong password).trans hsite

/-! ## Authenticator apps -/

namespace Site
variable (rt : Runtime)

/-- The check of `login_totp`, if it is reached; a code that was used already does match. -/
def appCodeOk (site : Site) (r : Request) (c : SessionContext) (code : String) : Option Bool :=
  let wrong := site.store.authEventCountSince c.sessionId .totpFailed (r.now - rt.sessionTtlSecs)
  match (site.totpVerify rt r c.accountId code wrong).2 with
  | none | some .used => some true
  | some .wrong => some false
  | some .tooManyAttempts | some .unavailable => none

/-- `totp_confirm`, with the outcome of its check if that is reached. -/
def totpConfirm (site : Site) (r : Request) (c : SessionContext) (id : RowId) (code : String) :
    Site × Option Bool :=
  let failed := (site.recordOn r .totpFailed c).1
  match (site.totps.get? id).filter (·.accountId = c.accountId) with
  | none => (failed, none)
  | some row =>
    if row.confirmedAt.isSome then (failed, none)
    else match rt.openSecret c.accountId row.secret with
      | none => (failed, none)
      | some secret =>
        match rt.matchCode secret code r.now with
        | none => (failed, some false)
        | some step =>
          let confirmed := Authenticator.totpConfirm site.totps id c.accountId r.now step
          (if confirmed.2 then (recordOn { site with totps := confirmed.1 } r .totp c).1 else failed,
            some true)

variable {rt : Runtime} {site site' : Site} {r : Request} {c : SessionContext} {id : RowId}
  {code : String}

theorem totpConfirm_of_wrong (h : (site.totpConfirm rt r c id code).2 = some false) :
    (site.totpConfirm rt r c id code).1 = (site.recordOn r .totpFailed c).1 := by
  unfold totpConfirm at h ⊢
  dsimp only at h ⊢
  split
  · rfl
  · split
    · rfl
    · split
      · rfl
      · split
        · rfl
        · next hmatch => simp_all

/-- The check looks at the enrolments only. -/
theorem totpConfirm_congr (h : site'.totps = site.totps) :
    (site'.totpConfirm rt r c id code).2 = (site.totpConfirm rt r c id code).2 := by
  unfold totpConfirm
  rw [h]
  dsimp only
  split
  · rfl
  · split
    · rfl
    · split
      · rfl
      · split <;> rfl

end Site

/-- `login_totp`. -/
def appSignIn (rt : Runtime) (r : Request) (c : SessionContext) : Check where
  Flow := Site
  answer site code now :=
    ((site.loginTotp rt (r.servedAt now) c code).1, site.appCodeOk rt (r.servedAt now) c code)
  Begun _ := True

/-- `totp_confirm`, of one enrolment. -/
def enrolment (rt : Runtime) (r : Request) (c : SessionContext) (id : RowId) : Check where
  Flow := Site
  answer site code now := site.totpConfirm rt (r.servedAt now) c id code
  Begun _ := True

/-- Wherever a wrong code is compared, any number of them are. -/
theorem enrolment_not_capped {rt : Runtime} {site : Site} {r : Request} {c : SessionContext}
    {id : RowId} {code : String} {now : Int}
    (h : (site.totpConfirm rt (r.servedAt now) c id code).2 = some false) :
    ¬(enrolment rt r c id).Capped := by
  let P (site : Site) := (site.totpConfirm rt (r.servedAt now) c id code).2 = some false
  refine Check.not_capped (k := enrolment rt r c id) (P := P) (fun site hsite => ⟨hsite, ?_⟩) h
    trivial
  have hkept : (site.recordOn (r.servedAt now) .totpFailed c).1.totps = site.totps := by
    rcases site.recordOn_cases (r.servedAt now) .totpFailed c with hsame | ⟨event, -, hadded⟩
    · rw [hsame]
    · rw [hadded]
  change ((site.totpConfirm rt (r.servedAt now) c id code).1.totpConfirm rt (r.servedAt now) c id
    code).2 = _
  rw [Site.totpConfirm_of_wrong hsite]
  exact (Site.totpConfirm_congr hkept).trans hsite

end TunnelWeaver.Account
