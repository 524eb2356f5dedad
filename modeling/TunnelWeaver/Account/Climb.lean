import TunnelWeaver.Account.Levels

/-! The ways up (`account/auth/paths.rs`, `steps_to` of the manager) and the level each route asks
for (`required_level` of the gate). A way up is a run of steps; taking one records its proofs at
the instant it is taken. -/

namespace TunnelWeaver.Account

namespace AuthLevel

instance : LE AuthLevel := ⟨fun a b => a.rank ≤ b.rank⟩

instance (a b : AuthLevel) : Decidable (a ≤ b) := inferInstanceAs (Decidable (a.rank ≤ b.rank))

theorem le_def {a b : AuthLevel} : a ≤ b ↔ a.rank ≤ b.rank := .rfl

theorem lt_def {a b : AuthLevel} : a < b ↔ a.rank < b.rank := .rfl

theorem le_refl (a : AuthLevel) : a ≤ a := Nat.le_refl _

theorem le_trans {a b c : AuthLevel} (hab : a ≤ b) (hbc : b ≤ c) : a ≤ c := Nat.le_trans hab hbc

theorem le_antisymm {a b : AuthLevel} (hab : a ≤ b) (hba : b ≤ a) : a = b := by
  cases a <;> cases b <;> first | rfl | exact absurd hab (by decide) | exact absurd hba (by decide)

theorem lt_of_le_of_ne {a b : AuthLevel} (hab : a ≤ b) (hne : a ≠ b) : a < b :=
  Nat.lt_of_not_le fun hba => hne (le_antisymm hab hba)

theorem lt_irrefl {a : AuthLevel} : ¬a < a := Nat.lt_irrefl _

theorem not_lt {a b : AuthLevel} : ¬a < b ↔ b ≤ a := Nat.not_lt

theorem not_le {a b : AuthLevel} : ¬a ≤ b ↔ b < a := Nat.not_le

theorem lt_of_le_of_lt {a b c : AuthLevel} (hab : a ≤ b) (hbc : b < c) : a < c :=
  Nat.lt_of_le_of_lt hab hbc

theorem eq_none {a : AuthLevel} (h : ¬basic ≤ a) : a = none := by
  cases a with
  | none => rfl
  | basic | strong | certain => exact absurd (by decide) h

theorem ne_none {a : AuthLevel} (h : basic ≤ a) : a ≠ none := by
  rintro rfl
  exact absurd h (by decide)

theorem eq_certain {a : AuthLevel} (h : strong < a) : a = certain := by
  cases a with
  | none | basic | strong => exact absurd h (by decide)
  | certain => rfl

theorem le_certain (a : AuthLevel) : a ≤ .certain := by cases a <;> decide

theorem none_le (a : AuthLevel) : none ≤ a := Nat.zero_le _

theorem le_max {a b c : AuthLevel} : a ≤ max b c ↔ a ≤ b ∨ a ≤ c := by
  cases a <;> cases b <;> cases c <;> decide

end AuthLevel

/-! ## The gate -/

/-- The method of a request; the gate tells only two apart. -/
inductive Method
  | get
  | post
  | other (name : String)
  deriving DecidableEq

/-- The half of an external-identity route a request names. -/
inductive SsoAction
  | begin
  | callback
  | stepUp
  deriving DecidableEq

/-- What a provider id in a path may be: not empty, lowercase letters, digits and `-`. -/
def isProviderSegment (provider : List Char) : Bool :=
  !provider.isEmpty && provider.all fun c => c.isLower || c.isDigit || c = '-'

/-- Parse `/api/account/sso/<provider>/<action>`. -/
def ssoAction (method : Method) (path : String) : Option SsoAction :=
  let ssoRoot := "/api/account/sso/".toList
  if !ssoRoot.isPrefixOf path.toList then none
  else
    let rest := path.toList.drop ssoRoot.length
    let provider := rest.takeWhile (· ≠ '/')
    match rest.dropWhile (· ≠ '/') with
    | [] => none
    | _ :: action =>
      if !isProviderSegment provider || method ≠ .get then none
      else if action = "begin".toList then some .begin
      else if action = "callback".toList then some .callback
      else if action = "step-up".toList then some .stepUp
      else none

/-- The front door: everything reachable before any factor is proven. -/
def isPublic (method : Method) (path : String) : Bool :=
  if path ∈ ["/api/account/altcha/challenge", "/api/account/config", "/api/account/me"] then
    method = .get
  else if path ∈ ["/api/account/signup", "/api/account/resend", "/api/account/verify",
      "/api/account/complete", "/api/account/reset/request", "/api/account/reset/check",
      "/api/account/reset/complete", "/api/account/login", "/api/account/passkey/begin",
      "/api/account/passkey/finish"] then
    method = .post
  else ssoAction method path = some .begin || ssoAction method path = some .callback

/-- The minimum to climb from `basic`, plus leaving. -/
def isBasic (method : Method) (path : String) : Bool :=
  if path ∈ ["/api/account/login/verify", "/api/account/login/resend", "/api/account/login/totp",
      "/api/account/passkey/step-up/begin", "/api/account/passkey/step-up/finish",
      "/api/account/logout"] then
    method = .post
  else ssoAction method path = some .stepUp

/-- The routes that ask for `certain`. -/
def isCertain (method : Method) (path : String) : Bool :=
  method = .post && path ∈ ["/api/account/delete", "/api/account/passkeys/begin",
    "/api/account/passkeys/finish", "/api/account/totp/begin", "/api/account/totp/confirm"]

/-- The level a route requires. -/
def requiredLevel (method : Method) (path : String) : AuthLevel :=
  if !"/api/account/".toList.isPrefixOf path.toList then .none
  else if isPublic method path then .none
  else if isBasic method path then .basic
  else if isCertain method path then .certain
  else .strong

/-- The id of a configured provider. -/
structure ProviderId where
  name : String
  isSegment : isProviderSegment name.toList

/-- The path of a provider's step-up splits back into the provider and the action. -/
theorem ssoAction_stepUp (provider : ProviderId) :
    ssoAction .get ("/api/account/sso/" ++ provider.name ++ "/step-up") = some .stepUp := by
  have hslash : ∀ c ∈ provider.name.toList, c ≠ '/' := by
    rintro c hc rfl
    have h := provider.isSegment
    rw [isProviderSegment, Bool.and_eq_true, List.all_eq_true] at h
    exact absurd (h.2 _ hc) (by decide)
  have hkeep : ∀ c ∈ provider.name.toList, decide (c ≠ '/') = true :=
    fun c hc => decide_eq_true (hslash c hc)
  have hpath : ("/api/account/sso/" ++ provider.name ++ "/step-up").toList =
      "/api/account/sso/".toList ++ (provider.name.toList ++ "/step-up".toList) := by
    rw [String.toList_append, String.toList_append, List.append_assoc]
  have htake : (provider.name.toList ++ "/step-up".toList).takeWhile (· ≠ '/') =
      provider.name.toList := by
    rw [List.takeWhile_append_of_pos hkeep]
    exact List.append_nil _
  have hdrop : (provider.name.toList ++ "/step-up".toList).dropWhile (· ≠ '/') =
      "/step-up".toList := by
    rw [List.dropWhile_append_of_pos hkeep]
    rfl
  have hprefix (a b : List Char) : a.isPrefixOf (a ++ b) = true :=
    List.isPrefixOf_iff_prefix.mpr (List.prefix_append a b)
  have hseg := provider.isSegment
  unfold ssoAction
  simp only [hpath, hprefix, List.drop_left, htake, hdrop, hseg]
  rfl

/-- No route the gate lists by its path lies under the prefix of the external identities. -/
theorem not_mem_of_ssoAction {routes : List String} {path : String} {action : SsoAction}
    (hroutes : ∀ route ∈ routes, ssoAction .get route = none)
    (h : ssoAction .get path = some action) : path ∉ routes := by
  intro hmem
  rw [hroutes path hmem] at h
  cases h

theorem requiredLevel_stepUp (provider : ProviderId) :
    requiredLevel .get ("/api/account/sso/" ++ provider.name ++ "/step-up") = .basic := by
  have hsso := ssoAction_stepUp provider
  have hnot {routes : List String} (hroutes : ∀ route ∈ routes, ssoAction .get route = none) :=
    not_mem_of_ssoAction hroutes hsso
  have hapi : "/api/account/".toList.isPrefixOf
      ("/api/account/sso/" ++ provider.name ++ "/step-up").toList = true := by
    rw [String.toList_append, String.toList_append, List.append_assoc]
    rfl
  have hpublic : isPublic .get ("/api/account/sso/" ++ provider.name ++ "/step-up") = false := by
    rw [isPublic, if_neg (hnot (by decide +kernel)), if_neg (hnot (by decide +kernel)), hsso]
    rfl
  have hbasic : isBasic .get ("/api/account/sso/" ++ provider.name ++ "/step-up") = true := by
    rw [isBasic, if_neg (hnot (by decide +kernel)), hsso]
    rfl
  rw [requiredLevel, hapi, hpublic, hbasic]
  rfl

/-! ## Steps -/

/-- What a person can do to climb. -/
inductive StepKind
  | login
  | verifyEmailOtp
  | verifyTotp
  | confirmPassword
  | assertPasskey
  | reauthenticateProvider
  deriving DecidableEq

namespace StepKind

/-- The name of a step on the wire. -/
def asStr : StepKind → String
  | login => "login"
  | verifyEmailOtp => "verify_email_otp"
  | verifyTotp => "verify_totp"
  | confirmPassword => "confirm_password"
  | assertPasskey => "assert_passkey"
  | reauthenticateProvider => "reauth_provider"

/-- The proofs a step records. -/
def proves : StepKind → List ProofKind
  | login | confirmPassword => [.password]
  | verifyEmailOtp => [.emailOtp]
  | verifyTotp => [.totp]
  | assertPasskey => [.passkey, .passkeyUserVerification]
  | reauthenticateProvider => [.identityProviderPresence]

/-- The routes that perform a step. -/
def routes (provider : ProviderId) : StepKind → List (Method × String)
  | login => [(.post, "/api/account/login")]
  | verifyEmailOtp => [(.post, "/api/account/login/verify")]
  | verifyTotp => [(.post, "/api/account/login/totp")]
  | confirmPassword => [(.post, "/api/account/confirm-password")]
  | assertPasskey =>
    [(.post, "/api/account/passkey/step-up/begin"), (.post, "/api/account/passkey/step-up/finish")]
  | reauthenticateProvider => [(.get, "/api/account/sso/" ++ provider.name ++ "/step-up")]

/-- The level the gate asks for on a step's routes. -/
def asks : StepKind → AuthLevel
  | login => .none
  | confirmPassword => .strong
  | verifyEmailOtp | verifyTotp | assertPasskey | reauthenticateProvider => .basic

theorem requiredLevel_of_mem_routes {provider : ProviderId} {step : StepKind}
    {route : Method × String} (h : route ∈ step.routes provider) :
    requiredLevel route.1 route.2 = step.asks := by
  cases step with
  | reauthenticateProvider =>
    rw [List.mem_singleton.mp h]
    exact requiredLevel_stepUp provider
  | assertPasskey =>
    rcases List.mem_pair.mp h with rfl | rfl <;> decide
  | login | verifyEmailOtp | verifyTotp | confirmPassword =>
    rw [List.mem_singleton.mp h]
    decide

theorem routes_ne_nil (provider : ProviderId) (step : StepKind) : step.routes provider ≠ [] := by
  cases step <;> exact List.cons_ne_nil _ _

end StepKind

/-! ## The four paths -/

/-- A situation, and the factors configured on the account. -/
structure Standing extends Situation where
  hasPasskeys : Bool
  hasTotp : Bool
  hasPassword : Bool

namespace Standing

/-- The code unless it is alive, then the password unless it is (or there is none). -/
def codeStepsTo (code : ProofKind) (step : StepKind) (s : Standing) (target : AuthLevel) :
    List (List StepKind) :=
  let current := s.codePath code
  if current = .none then []
  else
    let steps :=
      (if current < .strong && .strong ≤ target then [step] else []) ++
      (if .certain ≤ target && s.hasPassword && !s.hasValid .password then [.confirmPassword]
        else [])
    if steps.isEmpty then [] else [steps]

/-- `steps_to` of `PasswordEmailOtpPath`. -/
def passwordEmailOtpStepsTo (s : Standing) (target : AuthLevel) : List (List StepKind) :=
  if s.accountId.isNone then [[.login]] else s.codeStepsTo .emailOtp .verifyEmailOtp target

/-- `steps_to` of `PasskeyPath`. -/
def passkeyStepsTo (s : Standing) (target : AuthLevel) : List (List StepKind) :=
  if s.accountId.isNone || !s.hasPasskeys then []
  else if s.passkeyPath < target then [[.assertPasskey]]
  else []

/-- `steps_to` of `AuthenticatorPath`. -/
def authenticatorStepsTo (s : Standing) (target : AuthLevel) : List (List StepKind) :=
  if s.accountId.isNone || !s.hasTotp then [] else s.codeStepsTo .totp .verifyTotp target

/-- Both second factors an account of a provider can hold. -/
def secondFactors (s : Standing) : List StepKind :=
  (if s.hasTotp then [.verifyTotp] else []) ++ [.verifyEmailOtp]

/-- `steps_to` of `IdentityProviderPath`. -/
def identityProviderStepsTo (s : Standing) (target : AuthLevel) : List (List StepKind) :=
  let current := s.identityProviderPath
  if current = .none then []
  else
    (if current < .strong && .strong ≤ target then s.secondFactors.map ([·]) else []) ++
    (if .certain ≤ target && !s.hasValid .identityProviderPresence then
      if current < .strong then s.secondFactors.map ([·, .reauthenticateProvider])
      else [[.reauthenticateProvider]]
    else [])

/-- One way of authenticating. -/
structure AuthPath where
  /-- The proofs the path relies on. -/
  proofs : List ProofKind
  currentLevel : Situation → AuthLevel
  stepsTo : Standing → AuthLevel → List (List StepKind)

/-- Every path, in preference order. -/
def paths : List AuthPath :=
  [⟨[.password, .totp], Situation.authenticatorPath, authenticatorStepsTo⟩,
    ⟨[.password, .emailOtp], Situation.passwordEmailOtpPath, passwordEmailOtpStepsTo⟩,
    ⟨[.passkey, .passkeyUserVerification], Situation.passkeyPath, passkeyStepsTo⟩,
    ⟨[.identityProvider, .identityProviderMfa], Situation.identityProviderPath,
      identityProviderStepsTo⟩]

/-- An option before another: of a path the session was opened with first, then the shorter. -/
def optionLe (a b : Bool × List StepKind) : Bool :=
  (!a.1 && b.1) || (a.1 == b.1 && a.2.length ≤ b.2.length)

/-- Every path's options, each distinct run of steps once. -/
def stepsTo (s : Standing) (target : AuthLevel) : List (List StepKind) :=
  let options := paths.flatMap fun path =>
    (path.stepsTo s target).map fun option => (!path.proofs.any fun kind => s.wasUsed kind, option)
  ((options.mergeSort optionLe).map (·.2)).eraseDups

theorem mem_stepsTo {s : Standing} {target : AuthLevel} {option : List StepKind} :
    option ∈ s.stepsTo target ↔ option ∈ s.authenticatorStepsTo target ∨
      option ∈ s.passwordEmailOtpStepsTo target ∨ option ∈ s.passkeyStepsTo target ∨
      option ∈ s.identityProviderStepsTo target := by
  simp only [stepsTo, List.mem_eraseDups, List.mem_map, List.mem_mergeSort, paths,
    List.mem_flatMap, List.mem_cons, List.not_mem_nil, or_false, exists_eq_left, exists_exists_and_eq_and, or_and_right, exists_or, exists_eq_right]

end Standing

namespace Situation

/-- The situation once a step is taken. -/
def take (s : Situation) (step : StepKind) : Situation :=
  { s with
    accountId := if step = .login then s.accountId.or (some 0) else s.accountId
    proofs := fun kind => if kind ∈ step.proves then some s.now else s.proofs kind }

/-- The level the session would hold after each of the steps, in order. -/
def levelsAfter (s : Situation) : List StepKind → List AuthLevel
  | [] => []
  | step :: steps => (s.take step).levelOf :: (s.take step).levelsAfter steps

end Situation

namespace Standing

/-- A step of a way up as the console is told of it, and the level it reaches. -/
structure WireStep where
  step : String
  reaches : AuthLevel
  deriving DecidableEq

def upgradePaths (s : Standing) (target : AuthLevel) : List (List WireStep) :=
  (s.stepsTo target).map fun steps =>
    (steps.zip (s.levelsAfter steps)).map fun e => ⟨e.1.asStr, e.2⟩

end Standing

/-! ## What each level takes -/

namespace Situation
variable {s : Situation} {kind code : ProofKind}

theorem wasUsed_of_hasValid (h : s.hasValid kind) : s.wasUsed kind := by
  unfold hasValid at h
  unfold wasUsed
  cases hk : s.proofs kind with
  | none => simp [hk] at h
  | some at_ => rfl

theorem le_levelOf {level : AuthLevel} : level ≤ s.levelOf ↔ level ≤ s.authenticatorPath ∨
    level ≤ s.passwordEmailOtpPath ∨ level ≤ s.passkeyPath ∨ level ≤ s.identityProviderPath := by
  rw [levelOf, AuthLevel.le_max, AuthLevel.le_max, AuthLevel.le_max, or_assoc, or_assoc]

section
variable (hacc : s.accountId.isSome)
include hacc

theorem isNone_accountId : s.accountId.isNone = false := by
  rw [← Option.not_isSome, hacc]
  rfl

theorem basic_le_codePath : .basic ≤ s.codePath code ↔ s.wasUsed .password ∨ s.wasUsed code := by
  rw [codePath, isNone_accountId hacc]
  cases s.wasUsed .password <;> cases s.wasUsed code <;> cases s.hasValid code <;>
    cases s.hasValid .password <;> decide

theorem strong_le_codePath : .strong ≤ s.codePath code ↔ s.hasValid code := by
  have hcode : s.hasValid code → s.wasUsed code := wasUsed_of_hasValid
  rw [codePath, isNone_accountId hacc]
  revert hcode
  cases s.wasUsed .password <;> cases s.wasUsed code <;> cases s.hasValid code <;>
    cases s.hasValid .password <;> decide

theorem certain_le_codePath :
    .certain ≤ s.codePath code ↔ s.hasValid code ∧ s.hasValid .password := by
  have hcode : s.hasValid code → s.wasUsed code := wasUsed_of_hasValid
  rw [codePath, isNone_accountId hacc]
  revert hcode
  cases s.wasUsed .password <;> cases s.wasUsed code <;> cases s.hasValid code <;>
    cases s.hasValid .password <;> decide

theorem strong_le_passkeyPath : .strong ≤ s.passkeyPath ↔ s.hasValid .passkey := by
  rw [passkeyPath, isNone_accountId hacc]
  cases s.hasValid .passkey <;> cases s.hasValid .password <;>
    cases s.hasValid .passkeyUserVerification <;> decide

theorem basic_le_passkeyPath : .basic ≤ s.passkeyPath ↔ s.hasValid .passkey := by
  rw [passkeyPath, isNone_accountId hacc]
  cases s.hasValid .passkey <;> cases s.hasValid .password <;>
    cases s.hasValid .passkeyUserVerification <;> decide

theorem certain_le_passkeyPath : .certain ≤ s.passkeyPath ↔
    s.hasValid .passkey ∧ (s.hasValid .password ∨ s.hasValid .passkeyUserVerification) := by
  rw [passkeyPath, isNone_accountId hacc]
  cases s.hasValid .passkey <;> cases s.hasValid .password <;>
    cases s.hasValid .passkeyUserVerification <;> decide

theorem basic_le_identityProviderPath :
    .basic ≤ s.identityProviderPath ↔ s.wasUsed .identityProvider := by
  rw [identityProviderPath, isNone_accountId hacc]
  cases s.wasUsed .identityProvider <;> cases s.hasValid .identityProviderPresence <;>
    cases s.hasValid .identityProviderMfa <;> decide

theorem strong_le_identityProviderPath : .strong ≤ s.identityProviderPath ↔
    s.wasUsed .identityProvider ∧
      (s.hasValid .identityProviderPresence ∨ s.hasValid .identityProviderMfa) := by
  rw [identityProviderPath, isNone_accountId hacc]
  cases s.wasUsed .identityProvider <;> cases s.hasValid .identityProviderPresence <;>
    cases s.hasValid .identityProviderMfa <;> decide

theorem certain_le_identityProviderPath : .certain ≤ s.identityProviderPath ↔
    s.wasUsed .identityProvider ∧ s.hasValid .identityProviderPresence := by
  rw [identityProviderPath, isNone_accountId hacc]
  cases s.wasUsed .identityProvider <;> cases s.hasValid .identityProviderPresence <;>
    cases s.hasValid .identityProviderMfa <;> decide

/-- A session is at least `basic` when it holds a proof of a sign-in. -/
theorem basic_le_levelOf : .basic ≤ s.levelOf ↔ s.wasUsed .password ∨ s.wasUsed .totp ∨
    s.wasUsed .emailOtp ∨ s.hasValid .passkey ∨ s.wasUsed .identityProvider := by
  rw [le_levelOf, authenticatorPath, passwordEmailOtpPath, basic_le_codePath hacc,
    basic_le_codePath hacc, basic_le_passkeyPath hacc, basic_le_identityProviderPath hacc]
  tauto

theorem strong_le_levelOf : .strong ≤ s.levelOf ↔ s.hasValid .totp ∨ s.hasValid .emailOtp ∨
    s.hasValid .passkey ∨ (s.wasUsed .identityProvider ∧
      (s.hasValid .identityProviderPresence ∨ s.hasValid .identityProviderMfa)) := by
  rw [le_levelOf, authenticatorPath, passwordEmailOtpPath, strong_le_codePath hacc,
    strong_le_codePath hacc, strong_le_passkeyPath hacc, strong_le_identityProviderPath hacc]

theorem certain_le_levelOf : .certain ≤ s.levelOf ↔
    (s.hasValid .totp ∧ s.hasValid .password) ∨ (s.hasValid .emailOtp ∧ s.hasValid .password) ∨
    (s.hasValid .passkey ∧ (s.hasValid .password ∨ s.hasValid .passkeyUserVerification)) ∨
    (s.wasUsed .identityProvider ∧ s.hasValid .identityProviderPresence) := by
  rw [le_levelOf, authenticatorPath, passwordEmailOtpPath, certain_le_codePath hacc,
    certain_le_codePath hacc, certain_le_passkeyPath hacc, certain_le_identityProviderPath hacc]

end

/-! ## What a step changes -/

section
variable {step : StepKind}

/-- Both lifetimes are positive, so that a proof recorded now is alive. -/
def Lasting (s : Situation) : Prop := 0 < s.sessionTtlSecs ∧ 0 < s.confirmWindowSecs

instance (s : Situation) : Decidable s.Lasting := inferInstanceAs (Decidable (_ ∧ _))

theorem Lasting.maxAge_pos (h : s.Lasting) : 0 < s.maxAge kind := by
  cases kind
  case password | passkeyUserVerification | identityProviderPresence => exact h.2
  case emailOtp | totp | passkey | identityProvider | identityProviderMfa => exact h.1

theorem Lasting.take (h : s.Lasting) : (s.take step).Lasting := h

theorem isSome_take (step : StepKind) (h : s.accountId.isSome) : (s.take step).accountId.isSome := by
  unfold Situation.take
  split
  · cases hacc : s.accountId with
    | none => simp [hacc] at h
    | some id => rfl
  · exact h

theorem hasValid_take (h : s.Lasting) :
    (s.take step).hasValid kind ↔ kind ∈ step.proves ∨ s.hasValid kind := by
  have hpos : 0 < s.maxAge kind := h.maxAge_pos
  by_cases hmem : kind ∈ step.proves
  · have hnow : (s.take step).proofs kind = some s.now := if_pos hmem
    rw [hasValid, hnow]
    refine ⟨fun _ => .inl hmem, fun _ => decide_eq_true ?_⟩
    change s.now - s.now < s.maxAge kind
    rw [Int.sub_self]
    exact hpos
  · have hkeep : (s.take step).proofs kind = s.proofs kind := if_neg hmem
    rw [hasValid, hkeep]
    exact ⟨.inr, fun hv => hv.resolve_left hmem⟩

theorem wasUsed_take : (s.take step).wasUsed kind ↔ kind ∈ step.proves ∨ s.wasUsed kind := by
  by_cases hmem : kind ∈ step.proves
  · simp [wasUsed, Situation.take, hmem]
  · simp [wasUsed, Situation.take, hmem]

end

end Situation

/-! ## Second factors -/

/-- A second factor: its step records it, and it makes its path strong. -/
inductive SecondFactor : ProofKind → StepKind → Prop
  | totp : SecondFactor .totp .verifyTotp
  | emailOtp : SecondFactor .emailOtp .verifyEmailOtp

theorem SecondFactor.asks {code : ProofKind} {step : StepKind} (h : SecondFactor code step) :
    step.asks = .basic := by
  cases h <;> rfl

theorem SecondFactor.mem {code : ProofKind} {step : StepKind} (h : SecondFactor code step) :
    code ∈ step.proves := by
  cases h <;> decide

namespace Situation

section
variable {s : Situation} {step : StepKind} {code : ProofKind} (hacc : s.accountId.isSome)
  (hlast : s.Lasting)
include hacc

theorem strong_le_of_code (h : SecondFactor code step) (hv : s.hasValid code) :
    .strong ≤ s.levelOf := by
  rw [Situation.strong_le_levelOf hacc]
  cases h with
  | totp => exact .inl hv
  | emailOtp => exact .inr (.inl hv)

theorem certain_le_of_code (h : SecondFactor code step) (hv : s.hasValid code)
    (hp : s.hasValid .password) : .certain ≤ s.levelOf := by
  rw [Situation.certain_le_levelOf hacc]
  cases h with
  | totp => exact .inl ⟨hv, hp⟩
  | emailOtp => exact .inr (.inl ⟨hv, hp⟩)

include hlast

theorem strong_le_take (h : SecondFactor code step) :
    .strong ≤ (s.take step).levelOf := by
  have hacc' := Situation.isSome_take step hacc
  rw [Situation.strong_le_levelOf hacc', Situation.hasValid_take hlast,
    Situation.hasValid_take hlast]
  cases h with
  | totp => exact .inl (.inl (by decide))
  | emailOtp => exact .inr (.inl (.inl (by decide)))

/-- The code alone reaches `certain` exactly beside a live password proof. -/
theorem certain_le_take (h : SecondFactor code step) (hlt : s.levelOf < .certain) :
    .certain ≤ (s.take step).levelOf ↔ s.hasValid .password := by
  have hacc' := Situation.isSome_take step hacc
  have hnot := AuthLevel.not_le.mpr hlt
  rw [Situation.certain_le_levelOf hacc] at hnot
  simp only [Situation.certain_le_levelOf hacc', Situation.hasValid_take hlast,
    Situation.wasUsed_take]
  cases h with
  | totp =>
    simp only [StepKind.proves, List.mem_singleton, reduceCtorEq, false_or, true_or, true_and]
    tauto
  | emailOtp =>
    simp only [StepKind.proves, List.mem_singleton, reduceCtorEq, false_or, true_or, true_and]
    tauto

/-- A re-typed password reaches `certain` beside a live code. -/
theorem certain_le_confirm (h : SecondFactor code step) (hv : s.hasValid code) :
    .certain ≤ (s.take .confirmPassword).levelOf := by
  have hacc' := Situation.isSome_take .confirmPassword hacc
  rw [Situation.certain_le_levelOf hacc']
  simp only [Situation.hasValid_take hlast]
  cases h with
  | totp => exact .inl ⟨.inr hv, .inl (by decide)⟩
  | emailOtp => exact .inr (.inl ⟨.inr hv, .inl (by decide)⟩)

theorem certain_le_passkey : .certain ≤ (s.take .assertPasskey).levelOf := by
  have hacc' := Situation.isSome_take .assertPasskey hacc
  rw [Situation.certain_le_levelOf hacc']
  simp only [Situation.hasValid_take hlast]
  exact .inr (.inr (.inl ⟨.inl (by decide), .inr (.inl (by decide))⟩))

theorem certain_le_reauthenticate (hused : s.wasUsed .identityProvider) :
    .certain ≤ (s.take .reauthenticateProvider).levelOf := by
  have hacc' := Situation.isSome_take .reauthenticateProvider hacc
  rw [Situation.certain_le_levelOf hacc']
  simp only [Situation.hasValid_take hlast, Situation.wasUsed_take]
  exact .inr (.inr (.inr ⟨.inr hused, .inl (by decide)⟩))

end

end Situation

/-! ## Which ways up lead there -/

namespace Standing
variable {s : Standing} {target : AuthLevel} {provider : ProviderId} {a b step : StepKind}

/-- A way up gets to the target, and the gate serves each of its steps when its turn comes. -/
def Climbs (provider : ProviderId) (s : Standing) (target : AuthLevel)
    (option : List StepKind) : Prop :=
  (∃ reached ∈ (s.levelsAfter option).getLast?, target ≤ reached) ∧
  ∀ e ∈ option.zip (s.levelOf :: s.levelsAfter option), ∀ route ∈ e.1.routes provider,
    requiredLevel route.1 route.2 ≤ e.2

theorem served_iff {level : AuthLevel} : (∀ route ∈ a.routes provider,
    requiredLevel route.1 route.2 ≤ level) ↔ a.asks ≤ level := by
  constructor
  · intro h
    obtain ⟨route, hroute⟩ := List.exists_mem_of_ne_nil _ (a.routes_ne_nil provider)
    rw [← StepKind.requiredLevel_of_mem_routes hroute]
    exact h route hroute
  · intro h route hroute
    rw [StepKind.requiredLevel_of_mem_routes hroute]
    exact h

theorem climbs_iff {option : List StepKind} : s.Climbs provider target option ↔
    (∃ reached ∈ (s.levelsAfter option).getLast?, target ≤ reached) ∧
    ∀ e ∈ option.zip (s.levelOf :: s.levelsAfter option), e.1.asks ≤ e.2 := by
  simp only [Climbs, served_iff]

theorem climbs_one :
    s.Climbs provider target [a] ↔ target ≤ (s.take a).levelOf ∧ a.asks ≤ s.levelOf := by
  simp [climbs_iff, Situation.levelsAfter]

theorem climbs_two : s.Climbs provider target [a, b] ↔ target ≤ ((s.take a).take b).levelOf ∧
    a.asks ≤ s.levelOf ∧ b.asks ≤ (s.take a).levelOf := by
  simp [climbs_iff, Situation.levelsAfter]

/-- A code on its own leads to `certain` only beside a live password proof. -/
def OnlyToStrong (s : Standing) (target : AuthLevel) : Prop :=
  target = .certain ∧ ¬s.hasValid .password

instance (s : Standing) (target : AuthLevel) : Decidable (s.OnlyToStrong target) :=
  inferInstanceAs (Decidable (_ ∧ _))

/-- No path is at a dead end. A code path is at one when its code is not alive and the account has
no password to type; a provider's session, when it holds neither of the provider's stronger proofs;
a passkey, when the session holds no proof of a sign-in. -/
structure NoDeadEnd (s : Standing) (target : AuthLevel) : Prop where
  app : ¬(s.OnlyToStrong target ∧ s.hasTotp ∧ ¬s.hasPassword ∧
    (s.wasUsed .password ∨ s.wasUsed .totp) ∧ ¬s.hasValid .totp)
  emailed : ¬(s.OnlyToStrong target ∧ ¬s.hasPassword ∧
    (s.wasUsed .password ∨ s.wasUsed .emailOtp) ∧ ¬s.hasValid .emailOtp)
  provider : ¬(s.OnlyToStrong target ∧ s.wasUsed .identityProvider ∧
    ¬s.hasValid .identityProviderPresence ∧ ¬s.hasValid .identityProviderMfa)
  passkey : s.hasPasskeys → s.wasUsed .password ∨ s.wasUsed .totp ∨ s.wasUsed .emailOtp ∨
    s.hasValid .passkey ∨ s.wasUsed .identityProvider

section
variable {code : ProofKind} (hacc : s.accountId.isSome) (hlast : s.Lasting)
include hacc hlast

/-! ## Path by path -/

/-- A code path: everything it offers leads there, but for a code alone where `certain` is asked
of an account that has no password to type. -/
theorem codeStepsTo_climbs (h : SecondFactor code step) (hbasic : .basic ≤ s.codePath code →
    .basic ≤ s.levelOf) (hlt : s.levelOf < target) :
    (∀ option ∈ s.codeStepsTo code step target, s.Climbs provider target option) ↔
      ¬(s.OnlyToStrong target ∧ ¬s.hasPassword ∧ (s.wasUsed .password ∨ s.wasUsed code) ∧
        ¬s.hasValid code) := by
  have hbelow : ¬target ≤ s.levelOf := AuthLevel.not_le.mpr hlt
  by_cases hused : s.wasUsed .password ∨ s.wasUsed code
  case neg =>
    have hnone : s.codePath code = .none := AuthLevel.eq_none
      (mt (Situation.basic_le_codePath hacc).mp hused)
    simp [codeStepsTo, hnone, hused]
  have hcode := (Situation.basic_le_codePath hacc).mpr hused
  have hheld := hbasic hcode
  have hsome : s.codePath code ≠ .none := AuthLevel.ne_none hcode
  have hasks : step.asks = .basic := h.asks
  by_cases hv : s.hasValid code
  · have hstrong := Situation.strong_le_of_code hacc h hv
    obtain rfl : target = .certain := AuthLevel.eq_certain (AuthLevel.lt_of_le_of_lt hstrong hlt)
    have hpath := AuthLevel.not_lt.mpr ((Situation.strong_le_codePath hacc).mpr hv)
    have hp : ¬s.hasValid .password := fun hp => hbelow (Situation.certain_le_of_code hacc h hv hp)
    have hconfirm := Situation.certain_le_confirm hacc hlast h hv
    cases hpw : s.hasPassword <;>
      simp [codeStepsTo, hsome, hpath, hp, hpw, hv, climbs_one, hconfirm, StepKind.asks, hstrong,
        AuthLevel.le_refl]
  have hpath : s.codePath code < .strong :=
    AuthLevel.not_le.mp (mt (Situation.strong_le_codePath hacc).mp hv)
  have htake := Situation.strong_le_take hacc hlast h
  cases target with
  | none => exact absurd (AuthLevel.none_le _) hbelow
  | basic => exact absurd hheld hbelow
  | strong =>
    have honly : ¬s.OnlyToStrong .strong := by
      intro ho
      cases ho.1
    simp [codeStepsTo, hsome, hpath, climbs_one, htake, hasks, hheld, honly, AuthLevel.le_def,
      AuthLevel.rank]
  | certain =>
    by_cases hp : s.hasValid .password
    · have hreach := (Situation.certain_le_take hacc hlast h hlt).mpr hp
      simp [codeStepsTo, OnlyToStrong, hsome, hpath, hp, climbs_one, hreach, hasks, hheld,
        AuthLevel.le_certain]
    have hreach := mt (Situation.certain_le_take hacc hlast h hlt).mp hp
    cases hpw : s.hasPassword with
    | false =>
      simp [codeStepsTo, OnlyToStrong, hsome, hpath, hp, hpw, hv, hused, climbs_one, hreach,
        AuthLevel.le_certain]
    | true =>
      have hcode' : (s.take step).hasValid code := (Situation.hasValid_take hlast).mpr (.inl h.mem)
      have hconfirm := Situation.certain_le_confirm (Situation.isSome_take step hacc) hlast.take
        h hcode'
      have hasks' : StepKind.confirmPassword.asks = .strong := rfl
      simp [codeStepsTo, hsome, hpath, hp, hpw, climbs_two, hconfirm, hasks, hasks', hheld, htake,
        AuthLevel.le_certain]

/-- A passkey is offered whenever the account has one, and leads everywhere. -/
theorem passkeyStepsTo_climbs (hlt : s.levelOf < target) :
    (∀ option ∈ s.passkeyStepsTo target, s.Climbs provider target option) ↔
      (s.hasPasskeys → .basic ≤ s.levelOf) := by
  have hnone := Situation.isNone_accountId hacc
  cases hkeys : s.hasPasskeys with
  | false => simp [passkeyStepsTo, hkeys]
  | true =>
    have hpath : s.passkeyPath < target := by
      refine AuthLevel.lt_of_le_of_lt (Situation.le_levelOf.mpr ?_) hlt
      exact .inr (.inr (.inl (AuthLevel.le_refl _)))
    have hreach : target ≤ (s.take .assertPasskey).levelOf :=
      AuthLevel.le_trans (AuthLevel.le_certain _) (Situation.certain_le_passkey hacc hlast)
    simp [passkeyStepsTo, hnone, hkeys, hpath, climbs_one, hreach, StepKind.asks]

omit hacc hlast in
theorem secondFactor_of_mem (h : step ∈ s.secondFactors) : ∃ code, SecondFactor code step := by
  rcases List.mem_append.mp h with h | h
  · split at h
    · obtain rfl := List.mem_singleton.mp h
      exact ⟨_, .totp⟩
    · cases h
  · obtain rfl := List.mem_singleton.mp h
    exact ⟨_, .emailOtp⟩

omit hacc hlast in
theorem verifyEmailOtp_mem : .verifyEmailOtp ∈ s.secondFactors :=
  List.mem_append_right _ (List.mem_singleton_self _)

/-- A provider's session: everything offered leads there, but for a second factor alone where
`certain` is asked. -/
theorem identityProviderStepsTo_climbs (hlt : s.levelOf < target) :
    (∀ option ∈ s.identityProviderStepsTo target, s.Climbs provider target option) ↔
      ¬(s.OnlyToStrong target ∧ s.wasUsed .identityProvider ∧
        ¬s.hasValid .identityProviderPresence ∧ ¬s.hasValid .identityProviderMfa) := by
  have hbelow : ¬target ≤ s.levelOf := AuthLevel.not_le.mpr hlt
  by_cases hused : s.wasUsed .identityProvider
  case neg =>
    have hnone : s.identityProviderPath = .none := AuthLevel.eq_none
      (mt (Situation.basic_le_identityProviderPath hacc).mp hused)
    simp [identityProviderStepsTo, hnone, hused]
  have hpath := (Situation.basic_le_identityProviderPath hacc).mpr hused
  have hheld : .basic ≤ s.levelOf :=
    Situation.le_levelOf.mpr (.inr (.inr (.inr hpath)))
  have hsome := AuthLevel.ne_none hpath
  have hpresence : ¬s.hasValid .identityProviderPresence := by
    intro hv
    refine hbelow (AuthLevel.le_trans (AuthLevel.le_certain _) ?_)
    exact (Situation.certain_le_levelOf hacc).mpr (.inr (.inr (.inr ⟨hused, hv⟩)))
  have hreauth : .certain ≤ (s.take .reauthenticateProvider).levelOf :=
    Situation.certain_le_reauthenticate hacc hlast hused
  have hasks : StepKind.reauthenticateProvider.asks = .basic := rfl
  by_cases hmfa : s.hasValid .identityProviderMfa
  · have hstrong := (Situation.strong_le_identityProviderPath hacc).mpr ⟨hused, .inr hmfa⟩
    have hnot := AuthLevel.not_lt.mpr hstrong
    have hlevel := AuthLevel.le_trans hstrong
      (Situation.le_levelOf.mpr (.inr (.inr (.inr (AuthLevel.le_refl _)))))
    obtain rfl : target = .certain := AuthLevel.eq_certain (AuthLevel.lt_of_le_of_lt hlevel hlt)
    simp [identityProviderStepsTo, hsome, hnot, hpresence, hmfa, climbs_one, hreauth, hasks, hheld,
      AuthLevel.le_refl]
  have hweak : s.identityProviderPath < .strong := by
    refine AuthLevel.not_le.mp (mt (Situation.strong_le_identityProviderPath hacc).mp ?_)
    rintro ⟨-, hv | hv⟩
    · exact hpresence hv
    · exact hmfa hv
  cases target with
  | none => exact absurd (AuthLevel.none_le _) hbelow
  | basic => exact absurd hheld hbelow
  | strong =>
    have honly : ¬s.OnlyToStrong .strong := by
      intro ho
      cases ho.1
    have hone : ∀ f ∈ s.secondFactors, s.Climbs provider .strong [f] := by
      intro f hf
      obtain ⟨code, hfactor⟩ := secondFactor_of_mem hf
      refine climbs_one.mpr ⟨Situation.strong_le_take hacc hlast hfactor, ?_⟩
      rw [hfactor.asks]
      exact hheld
    simpa [identityProviderStepsTo, hsome, hweak, honly, AuthLevel.le_def, AuthLevel.rank]
      using hone
  | certain =>
    have hone : ∀ f ∈ s.secondFactors,
        s.Climbs provider .certain [f] ↔ s.hasValid .password := by
      intro f hf
      obtain ⟨code, hfactor⟩ := secondFactor_of_mem hf
      rw [climbs_one, Situation.certain_le_take hacc hlast hfactor hlt, hfactor.asks]
      exact and_iff_left hheld
    have htwo : ∀ f ∈ s.secondFactors, s.Climbs provider .certain [f, .reauthenticateProvider] := by
      intro f hf
      obtain ⟨code, hfactor⟩ := secondFactor_of_mem hf
      have hstrong := Situation.strong_le_take hacc hlast hfactor
      refine climbs_two.mpr ⟨Situation.certain_le_reauthenticate (Situation.isSome_take f hacc)
        hlast.take (Situation.wasUsed_take.mpr (.inr hused)), ?_, ?_⟩
      · rw [hfactor.asks]
        exact hheld
      · exact AuthLevel.le_trans (by decide) hstrong
    have hoptions : s.identityProviderStepsTo .certain =
        s.secondFactors.map ([·]) ++ s.secondFactors.map ([·, .reauthenticateProvider]) := by
      simp [identityProviderStepsTo, hsome, hweak, hpresence, AuthLevel.le_certain]
    rw [hoptions, List.forall_mem_append, List.forall_mem_map, List.forall_mem_map]
    constructor
    · rintro ⟨hall, -⟩ ⟨⟨-, hp⟩, -⟩
      exact hp ((hone _ verifyEmailOtp_mem).mp (hall _ verifyEmailOtp_mem))
    · intro hgood
      have hp : s.hasValid .password := by
        by_contra hp
        exact hgood ⟨⟨rfl, hp⟩, hused, hpresence, hmfa⟩
      exact ⟨fun f hf => (hone f hf).mpr hp, htwo⟩

/-! ## All of them -/

theorem authenticatorStepsTo_climbs (hlt : s.levelOf < target) :
    (∀ option ∈ s.authenticatorStepsTo target, s.Climbs provider target option) ↔
      ¬(s.OnlyToStrong target ∧ s.hasTotp ∧ ¬s.hasPassword ∧
        (s.wasUsed .password ∨ s.wasUsed .totp) ∧ ¬s.hasValid .totp) := by
  have hnone := Situation.isNone_accountId hacc
  have hcode : (∀ option ∈ s.codeStepsTo .totp .verifyTotp target,
      s.Climbs provider target option) ↔ _ :=
    codeStepsTo_climbs hacc hlast .totp (fun h => Situation.le_levelOf.mpr (.inl h)) hlt
  cases happ : s.hasTotp with
  | false => simp [authenticatorStepsTo, happ]
  | true =>
    simp only [authenticatorStepsTo, hnone, happ, Bool.not_true, Bool.or_self, Bool.false_eq_true,
      if_false, true_and]
    exact hcode

theorem passwordEmailOtpStepsTo_climbs (hlt : s.levelOf < target) :
    (∀ option ∈ s.passwordEmailOtpStepsTo target, s.Climbs provider target option) ↔
      ¬(s.OnlyToStrong target ∧ ¬s.hasPassword ∧
        (s.wasUsed .password ∨ s.wasUsed .emailOtp) ∧ ¬s.hasValid .emailOtp) := by
  rw [passwordEmailOtpStepsTo, Situation.isNone_accountId hacc]
  exact codeStepsTo_climbs hacc hlast .emailOtp
    (fun h => Situation.le_levelOf.mpr (.inr (.inl h))) hlt

end

/-- Every way up that is offered gets there and can be taken, outside the dead ends. -/
theorem every_way_up_climbs_iff (provider : ProviderId) (s : Standing) (target : AuthLevel)
    (hacc : s.accountId.isSome) (hlast : s.Lasting) (hlt : s.levelOf < target) :
    (∀ option ∈ s.stepsTo target, s.Climbs provider target option) ↔ s.NoDeadEnd target := by
  simp only [mem_stepsTo, or_imp, forall_and]
  rw [authenticatorStepsTo_climbs hacc hlast hlt, passwordEmailOtpStepsTo_climbs hacc hlast hlt,
    passkeyStepsTo_climbs hacc hlast hlt, identityProviderStepsTo_climbs hacc hlast hlt,
    Situation.basic_le_levelOf hacc]
  constructor
  · rintro ⟨happ, hemailed, hpasskey, hprovider⟩
    exact ⟨happ, hemailed, hprovider, hpasskey⟩
  · intro h
    exact ⟨h.app, h.emailed, h.passkey, h.provider⟩

namespace Sample

def corpIdp : ProviderId := ⟨"corp-idp", by decide⟩

/-- A session a password has just opened, on an account with a passkey. -/
def fresh : Standing where
  accountId := some 1
  proofs kind := if kind = .password then some 1000 else none
  now := 1010
  sessionTtlSecs := 43200
  confirmWindowSecs := 300
  hasPasskeys := true
  hasTotp := false
  hasPassword := true

/-- A session an identity provider has just opened, on an account without a password. -/
def external : Standing where
  accountId := some 1
  proofs kind := if kind = .identityProvider then some 1000 else none
  now := 1010
  sessionTtlSecs := 43200
  confirmWindowSecs := 300
  hasPasskeys := false
  hasTotp := false
  hasPassword := false

end Sample

theorem every_way_up_climbs_fresh : Sample.fresh.levelOf < .certain ∧
    ∀ option ∈ Sample.fresh.stepsTo .certain,
      Sample.fresh.Climbs Sample.corpIdp .certain option := by
  refine ⟨by decide, (every_way_up_climbs_iff Sample.corpIdp Sample.fresh .certain rfl (by decide)
    (by decide)).mpr ?_⟩
  exact ⟨by decide, by decide, by decide, by decide⟩

/-- The emailed code is offered as a way to `certain` and ends at `strong`. -/
theorem emailed_code_offered_for_certain :
    ¬∀ (provider : ProviderId) (s : Standing) (target : AuthLevel), s.accountId.isSome →
      s.Lasting → s.levelOf < target →
      ∀ option ∈ s.stepsTo target, s.Climbs provider target option := by
  intro h
  have hclimb := h Sample.corpIdp Sample.external .certain rfl (by decide) (by decide)
    [.verifyEmailOtp] (mem_stepsTo.mpr (.inr (.inr (.inr (by decide)))))
  exact absurd (climbs_one.mp hclimb).1 (by decide)

end Standing

end TunnelWeaver.Account
