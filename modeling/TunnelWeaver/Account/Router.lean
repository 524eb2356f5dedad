import TunnelWeaver.Account.Climb
import TunnelWeaver.Account.Guesses

/-! The routes of the account API (`account/router.rs`), behind the gate. -/

namespace TunnelWeaver.Account

/-- The handlers, in the order of the routes. -/
inductive Handler
  | altchaChallenge
  | config
  | signup
  | resend
  | verifySignup
  | complete
  | resetRequest
  | resetCheck
  | resetComplete
  | login
  | loginVerify
  | loginResend
  | loginTotp
  | me
  | avatar
  | logout
  | deleteAccount
  | changePassword
  | confirmPassword
  | passkeySigninBegin
  | passkeySigninFinish
  | passkeyStepupBegin
  | passkeyStepupFinish
  | ssoBegin
  | ssoCallback
  | ssoStepUp
  | passkeyRegisterBegin
  | passkeyRegisterFinish
  | passkeyRemove
  | totpBegin
  | totpConfirm
  | totpRemove
  | security
  | machinesList
  | overview
  | metrics
  | machineDetail
  | machineRename
  | machineDisconnect
  | machineRevoke
  | pairLookup
  | pairAccept
  | pairReject
  /-- The fallback. -/
  | spa
  deriving DecidableEq

/-! ## Routes -/

/-- The methods that a route takes. -/
inductive Verb
  | get
  | post
  deriving DecidableEq

/-- A route that takes GET takes HEAD too. -/
def Verb.accepts : Verb → (method : String) → Bool
  | get, method => method = "GET" || method = "HEAD"
  | post, method => method = "POST"

structure Route where
  pattern : String
  verb : Verb
  handler : Handler

def segments (path : String) : List (List Char) := path.toList.splitOn '/'

/-- A segment in braces stands for any that is not empty. -/
def segmentMatches (pattern segment : List Char) : Bool :=
  if pattern.head? = some '\x7b' then !segment.isEmpty else segment == pattern

def Route.matches (route : Route) (path : String) : Bool :=
  let pattern := segments route.pattern
  pattern.length == (segments path).length &&
    (pattern.zip (segments path)).all fun e => segmentMatches e.1 e.2

def routes : List Route :=
  [⟨"/api/account/altcha/challenge", .get, .altchaChallenge⟩,
    ⟨"/api/account/config", .get, .config⟩,
    ⟨"/api/account/signup", .post, .signup⟩,
    ⟨"/api/account/resend", .post, .resend⟩,
    ⟨"/api/account/verify", .post, .verifySignup⟩,
    ⟨"/api/account/complete", .post, .complete⟩,
    ⟨"/api/account/reset/request", .post, .resetRequest⟩,
    ⟨"/api/account/reset/check", .post, .resetCheck⟩,
    ⟨"/api/account/reset/complete", .post, .resetComplete⟩,
    ⟨"/api/account/login", .post, .login⟩,
    ⟨"/api/account/login/verify", .post, .loginVerify⟩,
    ⟨"/api/account/login/resend", .post, .loginResend⟩,
    ⟨"/api/account/login/totp", .post, .loginTotp⟩,
    ⟨"/api/account/me", .get, .me⟩,
    ⟨"/api/account/avatar", .get, .avatar⟩,
    ⟨"/api/account/logout", .post, .logout⟩,
    ⟨"/api/account/delete", .post, .deleteAccount⟩,
    ⟨"/api/account/password", .post, .changePassword⟩,
    ⟨"/api/account/confirm-password", .post, .confirmPassword⟩,
    ⟨"/api/account/passkey/begin", .post, .passkeySigninBegin⟩,
    ⟨"/api/account/passkey/finish", .post, .passkeySigninFinish⟩,
    ⟨"/api/account/passkey/step-up/begin", .post, .passkeyStepupBegin⟩,
    ⟨"/api/account/passkey/step-up/finish", .post, .passkeyStepupFinish⟩,
    ⟨"/api/account/sso/\x7bprovider\x7d/begin", .get, .ssoBegin⟩,
    ⟨"/api/account/sso/\x7bprovider\x7d/callback", .get, .ssoCallback⟩,
    ⟨"/api/account/sso/\x7bprovider\x7d/step-up", .get, .ssoStepUp⟩,
    ⟨"/api/account/passkeys/begin", .post, .passkeyRegisterBegin⟩,
    ⟨"/api/account/passkeys/finish", .post, .passkeyRegisterFinish⟩,
    ⟨"/api/account/passkeys/\x7bid\x7d/remove", .post, .passkeyRemove⟩,
    ⟨"/api/account/totp/begin", .post, .totpBegin⟩,
    ⟨"/api/account/totp/confirm", .post, .totpConfirm⟩,
    ⟨"/api/account/totp/\x7bid\x7d/remove", .post, .totpRemove⟩,
    ⟨"/api/account/security", .get, .security⟩,
    ⟨"/api/account/machines", .get, .machinesList⟩,
    ⟨"/api/account/overview", .get, .overview⟩,
    ⟨"/api/account/metrics", .get, .metrics⟩,
    ⟨"/api/account/machines/\x7bid\x7d", .get, .machineDetail⟩,
    ⟨"/api/account/machines/\x7bid\x7d/rename", .post, .machineRename⟩,
    ⟨"/api/account/machines/\x7bid\x7d/disconnect", .post, .machineDisconnect⟩,
    ⟨"/api/account/machines/\x7bid\x7d/revoke", .post, .machineRevoke⟩,
    ⟨"/api/account/pair/lookup", .post, .pairLookup⟩,
    ⟨"/api/account/pair/accept", .post, .pairAccept⟩,
    ⟨"/api/account/pair/reject", .post, .pairReject⟩]

/-- A pattern without braces is the one path it matches. -/
theorem Route.eq_of_matches {route : Route} {path : String}
    (hplain : (segments route.pattern).all (fun segment => segment.head? ≠ some '\x7b'))
    (h : route.matches path) : path = route.pattern := by
  rw [Route.matches, Bool.and_eq_true, beq_iff_eq] at h
  have heq : segments path = segments route.pattern := by
    refine (List.ext_getElem h.1 fun i hi hi' => ?_).symm
    have hzip := List.all_eq_true.mp h.2 ((segments route.pattern)[i], (segments path)[i]) ?_
    · have hno := List.all_eq_true.mp hplain _ (List.getElem_mem hi)
      rw [segmentMatches, if_neg (by simpa using hno), beq_iff_eq] at hzip
      exact hzip.symm
    · rw [List.mem_iff_getElem]
      exact ⟨i, by simp [hi, hi'], by simp⟩
  have hlist := congrArg (List.intercalate ['/']) heq
  rw [segments, segments, List.intercalate_splitOn, List.intercalate_splitOn] at hlist
  exact String.toList_inj.mp hlist

/-! ## Dispatch -/

/-- The method of a request line. -/
def Method.ofName (name : String) : Method :=
  if name = "GET" then .get else if name = "POST" then .post else .other name

/-- Where the router takes a request. -/
inductive Routed
  /-- The gate refuses it: the level that is required. -/
  | gated (required : AuthLevel)
  | methodNotAllowed
  | handler (h : Handler)
  deriving DecidableEq

/-- `router`; `session` is the level of the session that the cookie resolves to. -/
def dispatch (session : Option AuthLevel) (method path : String) : Routed :=
  let required := requiredLevel (.ofName method) path
  if required ≠ .none && session.all (· < required) then .gated required
  else match routes.find? (·.matches path) with
    | none => .handler .spa
    | some route => if route.verb.accepts method then .handler route.handler else .methodNotAllowed

/-- A handler is reached only through its route. -/
theorem route_of_dispatch {session : Option AuthLevel} {method path : String} {h : Handler}
    {route : Route} (hroute : routes.filter (·.handler = h) = [route]) (hspa : h ≠ .spa)
    (hdispatch : dispatch session method path = .handler h) :
    route.matches path ∧ route.verb.accepts method := by
  unfold dispatch at hdispatch
  dsimp only at hdispatch
  split at hdispatch
  · cases hdispatch
  · split at hdispatch
    · cases hdispatch
      exact absurd rfl hspa
    · next found hfound =>
      split at hdispatch
      · next haccepts =>
        cases hdispatch
        have hmem : found ∈ routes.filter (·.handler = found.handler) :=
          List.mem_filter.mpr ⟨List.mem_of_find?_eq_some hfound, decide_eq_true rfl⟩
        have hmatches := List.find?_some (p := fun route : Route => route.matches path) hfound
        rw [hroute, List.mem_singleton] at hmem
        exact hmem ▸ ⟨hmatches, haccepts⟩
      · cases hdispatch

/-- The request of a handler whose route is a plain path that takes POST. -/
theorem request_of_dispatch {session : Option AuthLevel} {method path : String} {h : Handler}
    {pattern : String} (hroute : routes.filter (·.handler = h) = [⟨pattern, .post, h⟩])
    (hspa : h ≠ .spa)
    (hplain : (segments pattern).all (fun segment => segment.head? ≠ some '\x7b'))
    (hdispatch : dispatch session method path = .handler h) : method = "POST" ∧ path = pattern := by
  obtain ⟨hmatches, haccepts⟩ := route_of_dispatch hroute hspa hdispatch
  exact ⟨of_decide_eq_true haccepts, Route.eq_of_matches hplain hmatches⟩

/-! ## Submitted secrets -/

/-- The handlers that compare a submitted password or short code, each with the checks it makes in
its flows. -/
inductive Handler.Compares (rt : Runtime) (pw : Passwords) : Handler → Check → Prop
  | verifySignup (pending : PendingSignup) :
    Compares rt pw .verifySignup (signupCode rt.hashCode pending)
  | login (lookupKey tokenHash : String) : Compares rt pw .login (signIn pw lookupKey tokenHash)
  | loginVerify (c : SessionContext) :
    Compares rt pw .loginVerify (emailedCode rt.hashCode (.session c.sessionId))
  | loginTotp (r : Request) (c : SessionContext) : Compares rt pw .loginTotp (appSignIn rt r c)
  | changePassword (tokenHash encodedHash : String) :
    Compares rt pw .changePassword (passwordChange pw tokenHash encodedHash)
  | confirmPassword (r : Request) (c : SessionContext) :
    Compares rt pw .confirmPassword (confirmation rt r c)
  | totpConfirm (r : Request) (c : SessionContext) (id : RowId) :
    Compares rt pw .totpConfirm (enrolment rt r c id)

end TunnelWeaver.Account
