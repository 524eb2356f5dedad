import TunnelWeaver.Abuse.Peers
import TunnelWeaver.Account.Router
import TunnelWeaver.Server.Host
import TunnelWeaver.Server.ManagedCerts
import TunnelWeaver.Server.Pipeline

/-! Where the HTTPS edge takes a request (`edge/https.rs`), and how that agrees with the tables of
the safety pipeline. -/

namespace TunnelWeaver.Server

open Abuse (Buckets PolicyId SocketAddr effectivePeer fingerprint)
open Account (AuthLevel Check Handler Passwords Routed Runtime)
open Mux (Bytes)
open Proto (eqIgnoreAsciiCase toAsciiLowercase)

/-! ## Address literals -/

/-- A decimal number up to 255 without leading zeros. -/
def isOctet (part : List Char) : Bool :=
  !part.isEmpty && decide (part.length ≤ 3) && part.all Char.isDigit &&
    (part.length == 1 || part.head? ≠ some '0') &&
    decide (part.foldl (fun n c => n * 10 + (c.toNat - 48)) 0 ≤ 255)

def isIpv4 (s : List Char) : Bool :=
  let parts := s.splitOn '.'
  parts.length == 4 && parts.all isOctet

def isHexGroup (part : List Char) : Bool :=
  !part.isEmpty && decide (part.length ≤ 4) && part.all isAsciiHexdigit

/-- How many groups the text is; an IPv4 address, if it may end the text, is two. -/
def hexGroups (ipv4 : Bool) (s : List Char) : Option Nat :=
  if s.isEmpty then some 0
  else
    let parts := s.splitOn ':'
    if parts.all isHexGroup then some parts.length
    else if ipv4 && parts.dropLast.all isHexGroup && parts.getLast?.any isIpv4 then
      some (parts.length + 1)
    else none

/-- What is before and after the first `::`. -/
def splitZeros : List Char → Option (List Char × List Char)
  | ':' :: ':' :: rest => some ([], rest)
  | c :: rest => (splitZeros rest).map fun x => (c :: x.1, x.2)
  | [] => none

def isIpv6 (s : List Char) : Bool :=
  match splitZeros s with
  | none => hexGroups true s = some 8
  | some (front, back) =>
    match hexGroups false front, hexGroups true back with
    | some n, some m => n + m ≤ 7
    | _, _ => false

/-- Whether a host is an address, in brackets or not. -/
def isIpLiteral (host : String) : Bool :=
  let s := host.toList
  let unbracketed :=
    if s.head? = some '[' ∧ s.getLast? = some ']' then s.tail.dropLast else s
  isIpv4 unbracketed || isIpv6 unbracketed

/-! ## Views -/

def pairChannelPath : String := "/api/account/pair/channel"

/-- The budgeted view a request targets. -/
def viewFor (surface : Surface) (path : String) : ViewId :=
  let admin := surface.host = .admin
  if surface.host = .tunneled then ⟨"tunnel"⟩
  else if surface.host = .tunnelRoot ∧ path = "/altcha/challenge" then ⟨"altcha-challenge"⟩
  else if surface.host = .tunnelRoot ∧ path = "/altcha/verify" then ⟨"altcha-verify"⟩
  else if admin ∧ path = "/api/account/signup" then ⟨"account-signup"⟩
  else if admin ∧ path = "/api/account/login" then ⟨"account-login"⟩
  else if admin ∧ startsWith path "/api/account/sso" then ⟨"account-login"⟩
  else if admin ∧ path = "/api/account/login/verify" then ⟨"account-login"⟩
  else if admin ∧ path = "/api/account/login/totp" then ⟨"account-login"⟩
  else if admin ∧ path = "/api/account/login/resend" then ⟨"account-resend"⟩
  else if admin ∧ path = "/api/account/password" then ⟨"account-login"⟩
  else if admin ∧ startsWith path "/api/account/passkey" then ⟨"account-passkey"⟩
  else if admin ∧ path = "/api/account/resend" then ⟨"account-resend"⟩
  else if admin ∧ path = pairChannelPath then ⟨"relay-web"⟩
  else if admin ∧ startsWith path "/api/account/pair/" then ⟨"account-pair"⟩
  else if admin ∧ path = "/api/account/reset/request" then ⟨"account-resend"⟩
  else ⟨"relay-web"⟩

/-! ## Requests -/

/-- A request, with what the edge knows of its connection. -/
structure EdgeRequest extends VisitorRequest where
  /-- The authority of the request target. -/
  authority : Option Bytes := none
  sni : Option String
  remoteAddr : SocketAddr
  now : Int
  /-- The level of the session that the cookie resolves to. -/
  session : Option AuthLevel := none
  /-- The budget store cannot answer. -/
  storeFails : Bool := false

namespace EdgeRequest

/-- `uri().path()`. -/
def uriPath (req : EdgeRequest) : String := String.ofList (req.path.toList.takeWhile (· ≠ '?'))

end EdgeRequest

/-- What the edge makes of a request. -/
inductive Dispatch where
  /-- A plain CONNECT. -/
  | methodNotAllowed
  | badRequest (reason : HostError)
  | misdirected
  | refused (refusal : Refusal)
  /-- The WebSocket upgrade of a tunnel client. -/
  | tunnelSocket (name : String)
  | demoPage
  | demoAsset
  | demoVerify
  | healthz
  | pairChannel
  | account (routed : Routed)
  | altchaChallenge
  | altchaVerify
  | altchaPreflight
  | welcome
  | notFound
  /-- Traffic for a tunnel, if one serves the host. -/
  | visitor (host : String)
  deriving DecidableEq

/-- The host that the connection is for, in lowercase. -/
def EdgeRequest.servedHost (req : EdgeRequest) : Except Dispatch String :=
  if req.method = "CONNECT" ∧ req.protocol = none then .error .methodNotAllowed
  else match requestHost req.toVisitorRequest req.authority with
    | .error reason => .error (.badRequest reason)
    | .ok host =>
      if isIpLiteral host then .error .misdirected
      else match req.sni with
        | none => .error .misdirected
        | some sni =>
          if eqIgnoreAsciiCase sni host then .ok (toAsciiLowercase host) else .error .misdirected

/-! ## Dispatch -/

/-- `HttpsEdgeConfig`, and the configuration its pipeline was built from. -/
structure Edge where
  domains : Domains
  abuse : Option AbuseConfig
  budgets : AccountBudgets
  /-- `scanner::inspect`. -/
  inspect : (method rawPath : String) → Option String
  /-- The process serves the ALTCHA API. -/
  altcha : Bool
  /-- The process serves the account plane. -/
  account : Bool

namespace Edge
variable (edge : Edge)

/-- `abuse::build`. -/
def guard : Pipeline := ⟨edge.inspect, gate edge.abuse edge.budgets, routeTable edge.abuse edge.budgets⟩

/-- The name of the tunnel wildcard. -/
def tunnelDomain : Option String := (edge.domains.managed.find? (·.wildcard)).map (·.name)

def surface (host : String) : Option Surface :=
  let validation := (edge.domains.certFor host).map (·.validation)
  if validation = some .http01 then some (.https .admin)
  else if edge.tunnelDomain = some host then some (.https .tunnelRoot)
  else if validation = some .dns01 then some (.https .tunneled)
  else none

def context (surface : Surface) (req : EdgeRequest) : RequestContext where
  surface
  method := req.method
  path := req.uriPath
  rawPath := req.path
  fingerprint := fingerprint (effectivePeer req.remoteAddr)
  view := viewFor surface req.uriPath
  now := req.now

/-- The welcome and health endpoints of a host without another service. -/
def staticHost (req : EdgeRequest) : Dispatch :=
  if req.method = "GET" ∧ req.uriPath = "/" then .welcome
  else if req.method = "GET" ∧ req.uriPath = "/healthz" then .healthz
  else .notFound

def adminHost (req : EdgeRequest) : Dispatch :=
  if edge.altcha ∧ req.method = "GET" ∧ req.uriPath = "/abuse/check" then .demoPage
  else if edge.altcha ∧ req.method = "GET" ∧ startsWith req.uriPath "/abuse/check/assets/" then
    .demoAsset
  else if edge.altcha ∧ req.method = "POST" ∧ req.uriPath = "/abuse/check/verify" then .demoVerify
  else if req.method = "GET" ∧ req.uriPath = "/healthz" then .healthz
  else if req.uriPath = pairChannelPath then if edge.account then .pairChannel else .notFound
  else if edge.account then .account (Account.dispatch req.session req.method req.uriPath)
  else staticHost req

def tunnelRoot (req : EdgeRequest) : Dispatch :=
  if edge.altcha ∧ req.method = "GET" ∧ req.uriPath = "/altcha/challenge" then .altchaChallenge
  else if edge.altcha ∧ req.method = "POST" ∧ req.uriPath = "/altcha/verify" then .altchaVerify
  else if edge.altcha ∧ req.method = "OPTIONS" ∧
      (req.uriPath = "/altcha/challenge" ∨ req.uriPath = "/altcha/verify") then .altchaPreflight
  else staticHost req

/-- What becomes of a request that the guard lets through. -/
def serve (host : String) (req : EdgeRequest) : Dispatch :=
  let validation := (edge.domains.certFor host).map (·.validation)
  let onTunnelEndpoint := validation = some .http01 ∨ edge.tunnelDomain = some host
  if onTunnelEndpoint ∧ req.uriPath = "/_weaver/connect" then .tunnelSocket host
  else if validation = some .http01 then edge.adminHost req
  else if edge.tunnelDomain = some host then edge.tunnelRoot req
  else if validation = some .dns01 then .visitor host
  else .misdirected

/-- `handle_https_request`. -/
def handle (b : Buckets) (req : EdgeRequest) : Buckets × Dispatch :=
  match req.servedHost with
  | .error answer => (b, answer)
  | .ok host =>
    match edge.surface host with
    | none => (b, edge.serve host req)
    | some surface =>
      let x := edge.guard.evaluate b (context surface req) req.storeFails
      (x.1, match Refusal.fromDecision x.2 with
        | some refusal => .refused refusal
        | none => edge.serve host req)

end Edge

/-! ## The tables agree -/

/-- The role of the host that a request is served for. -/
def Edge.surfaceOf (edge : Edge) (req : EdgeRequest) : Option Surface :=
  req.servedHost.toOption.bind edge.surface

/-- A tunnel client that dials in is exempt from every rule and budget. -/
def Edge.SocketExempt (edge : Edge) (b : Buckets) (req : EdgeRequest) : Prop :=
  req.method = "GET" → ∀ name, (edge.handle b req).2 = .tunnelSocket name →
    (edge.surfaceOf req).any fun surface => isExempt surface req.method req.uriPath

/-- The request has been admitted by a budget that is always installed, and refuses when the store
cannot answer. -/
def Edge.ChargedFailClosed (edge : Edge) (b : Buckets) (req : EdgeRequest) : Prop :=
  ∃ id ∈ credentialBudgets,
    (∀ abuse account, ∃ configured, (gate abuse account).policies.get id = some configured ∧
      configured.onStoreError = .failClosed) ∧
    edge.guard.gate.admitAt b id (fingerprint (effectivePeer req.remoteAddr)) 1 req.now
      req.storeFails = ((edge.handle b req).1, .ok ())

/-- A handler that compares a submitted secret is behind such a budget, or stops comparing. -/
def Edge.SecretGuarded (edge : Edge) (rt : Runtime) (pw : Passwords) (b : Buckets)
    (req : EdgeRequest) (h : Handler) : Prop :=
  (edge.handle b req).2 = .account (.handler h) → ∀ k, h.Compares rt pw k →
    edge.ChargedFailClosed b req ∨ k.Capped

structure Edge.TablesAgree (edge : Edge) (rt : Runtime) (pw : Passwords) (b : Buckets)
    (req : EdgeRequest) : Prop where
  socket : edge.SocketExempt b req
  secrets : ∀ h, edge.SecretGuarded rt pw b req h

section
variable {edge : Edge} {b : Buckets} {req : EdgeRequest} {host name : String} {routed : Routed}

theorem servedHost_error {answer : Dispatch} (h : req.servedHost = .error answer) :
    answer = .methodNotAllowed ∨ answer = .misdirected ∨ ∃ reason, answer = .badRequest reason := by
  unfold EdgeRequest.servedHost at h
  split at h
  · cases h
    exact .inl rfl
  · split at h
    · cases h
      exact .inr (.inr ⟨_, rfl⟩)
    · split at h
      · cases h
        exact .inr (.inl rfl)
      · split at h
        · cases h
          exact .inr (.inl rfl)
        · split at h <;> cases h
          exact .inr (.inl rfl)

theorem staticHost_cases (req : EdgeRequest) : Edge.staticHost req = .welcome ∨
    Edge.staticHost req = .healthz ∨ Edge.staticHost req = .notFound := by
  unfold Edge.staticHost
  split_ifs <;> simp

theorem adminHost_ne_tunnelSocket : edge.adminHost req ≠ .tunnelSocket name := by
  rcases staticHost_cases req with hstatic | hstatic | hstatic <;> unfold Edge.adminHost <;>
    split_ifs <;> simp [hstatic]

theorem tunnelRoot_ne_tunnelSocket : edge.tunnelRoot req ≠ .tunnelSocket name := by
  rcases staticHost_cases req with hstatic | hstatic | hstatic <;> unfold Edge.tunnelRoot <;>
    split_ifs <;> simp [hstatic]

theorem tunnelRoot_ne_account : edge.tunnelRoot req ≠ .account routed := by
  rcases staticHost_cases req with hstatic | hstatic | hstatic <;> unfold Edge.tunnelRoot <;>
    split_ifs <;> simp [hstatic]

/-- The account plane gets what the admin host has no other answer to. -/
theorem adminHost_account (h : edge.adminHost req = .account routed) :
    routed = Account.dispatch req.session req.method req.uriPath := by
  unfold Edge.adminHost at h
  split_ifs at h
  · cases h
    rfl
  · rcases staticHost_cases req with hstatic | hstatic | hstatic <;> rw [hstatic] at h <;> cases h

theorem serve_tunnelSocket (h : edge.serve host req = .tunnelSocket name) :
    req.uriPath = "/_weaver/connect" := by
  unfold Edge.serve at h
  dsimp only at h
  split_ifs at h with hsocket
  · exact hsocket.2
  · exact absurd h adminHost_ne_tunnelSocket
  · exact absurd h tunnelRoot_ne_tunnelSocket

theorem serve_account (h : edge.serve host req = .account routed) :
    (edge.domains.certFor host).map (·.validation) = some .http01 ∧
      routed = Account.dispatch req.session req.method req.uriPath := by
  unfold Edge.serve at h
  dsimp only at h
  split_ifs at h with hsocket hadmin
  · exact ⟨hadmin, adminHost_account h⟩
  · exact absurd h tunnelRoot_ne_account

theorem surface_admin (h : (edge.domains.certFor host).map (·.validation) = some .http01) :
    edge.surface host = some (.https .admin) := if_pos h

theorem handle_tunnelSocket (h : (edge.handle b req).2 = .tunnelSocket name) :
    req.uriPath = "/_weaver/connect" := by
  unfold Edge.handle at h
  split at h
  · next answer herror =>
    dsimp only at h
    rcases servedHost_error herror with rfl | rfl | ⟨reason, rfl⟩ <;> cases h
  · split at h
    · exact serve_tunnelSocket h
    · dsimp only at h
      split at h
      · cases h
      · exact serve_tunnelSocket h

/-- A request for the account plane is for the admin host, and the guard has let it through. -/
theorem handle_account (h : (edge.handle b req).2 = .account routed) :
    routed = Account.dispatch req.session req.method req.uriPath ∧
    (edge.handle b req).1 =
      (edge.guard.evaluate b (Edge.context (.https .admin) req) req.storeFails).1 ∧
    Refusal.fromDecision
      (edge.guard.evaluate b (Edge.context (.https .admin) req) req.storeFails).2 = none := by
  unfold Edge.handle at h ⊢
  split at h
  · next answer herror =>
    dsimp only at h
    rcases servedHost_error herror with rfl | rfl | ⟨reason, rfl⟩ <;> cases h
  · next host hhost =>
    cases hsurface : edge.surface host with
    | none =>
      rw [hsurface] at h
      rw [surface_admin (serve_account h).1] at hsurface
      cases hsurface
    | some surface =>
      rw [hsurface] at h
      dsimp only at h ⊢
      split at h
      · cases h
      · next hserved =>
        obtain ⟨hadmin, hrouted⟩ := serve_account h
        rw [surface_admin hadmin] at hsurface
        cases hsurface
        exact ⟨hrouted, rfl, hserved⟩

/-- A request for the account plane whose view has a credential budget is charged to it. -/
theorem charged_of_view {id : PolicyId} (h : (edge.handle b req).2 = .account routed)
    (hid : id ∈ credentialBudgets) (hmethod : req.method = "POST")
    (hview : viewFor (.https .admin) req.uriPath = ⟨id.asStr⟩) : edge.ChargedFailClosed b req := by
  obtain ⟨-, hbuckets, hserved⟩ := handle_account h
  obtain ⟨hroute, configured, hget, hclosed⟩ :=
    credentialBudget_installed hid edge.abuse edge.budgets
  refine ⟨id, hid, fun abuse account => (credentialBudget_installed hid abuse account).2, ?_⟩
  have hexempt : (Edge.context (.https .admin) req).exempt = false := by
    rw [RequestContext.exempt, isExempt, if_pos]
    change req.method ≠ "GET"
    rw [hmethod]
    decide
  have hallowed := Pipeline.admitted_of_served (p := edge.guard) hexempt
    ((congrArg _ hview).trans hroute) hget hclosed hserved
  rw [hbuckets]
  exact hallowed

/-- A handler behind a plain path that takes POST, whose view has the sign-in budget. -/
theorem charged_login {h : Handler} {pattern : String}
    (hhandle : (edge.handle b req).2 = .account (.handler h)) (hspa : h ≠ .spa)
    (hroute : Account.routes.filter (·.handler = h) = [⟨pattern, .post, h⟩])
    (hplain : (Account.segments pattern).all (fun segment => segment.head? ≠ some '\x7b'))
    (hview : viewFor (.https .admin) pattern = ⟨"account-login"⟩) : edge.ChargedFailClosed b req := by
  have hdispatch := (handle_account hhandle).1.symm
  obtain ⟨hmethod, hpath⟩ := Account.request_of_dispatch hroute hspa hplain hdispatch
  exact charged_of_view hhandle (by decide) hmethod (hpath ▸ hview)

end

/-- On the tunnel root the tunnel endpoint is exempt, and every comparison of a submitted secret but
those of a re-typed password and of an enrolment is charged or capped. -/
theorem edge_tables_agree (edge : Edge) (rt : Runtime) (pw : Passwords) (b : Buckets)
    (req : EdgeRequest) :
    (edge.surfaceOf req = some (.https .tunnelRoot) → edge.SocketExempt b req) ∧
    ∀ h, h ≠ .confirmPassword → h ≠ .totpConfirm → edge.SecretGuarded rt pw b req h := by
  refine ⟨fun hroot hget name hsocket => ?_, fun h hconfirm htotp hhandle k hk => ?_⟩
  · rw [hroot, hget, handle_tunnelSocket hsocket]
    decide +kernel
  cases hk with
  | verifySignup pending => exact .inr Account.signupCode_capped
  | login => exact .inl (charged_login hhandle (by decide) rfl (by decide) (by decide +kernel))
  | loginVerify => exact .inl (charged_login hhandle (by decide) rfl (by decide) (by decide +kernel))
  | loginTotp => exact .inl (charged_login hhandle (by decide) rfl (by decide) (by decide +kernel))
  | changePassword =>
    exact .inl (charged_login hhandle (by decide) rfl (by decide) (by decide +kernel))
  | confirmPassword => exact absurd rfl hconfirm
  | totpConfirm => exact absurd rfl htotp

namespace Edge.Sample

open Account (SessionContext Site)

def edge : Edge where
  domains := { tunnelDomain := "tunnel.example", adminDomain := "relay.example" }
  abuse := some {}
  budgets := {}
  inspect := fun _ _ => none
  altcha := true
  account := true

def pw : Passwords := { verify := fun password encodedHash => password = encodedHash, dummyHash := "" }

def rt : Runtime := Account.Site.Sample.relay true

def request (host method path : String) (session : Option AuthLevel) : EdgeRequest where
  method
  version := .http11
  path
  headers := .ofFields [("host", host.toUTF8.toList)]
  sni := some host
  remoteAddr := ⟨.v4 192 0 2 1, 50000⟩
  now := 0
  session

def toRelay : (method path : String) → Option AuthLevel → EdgeRequest := request "relay.example"

def unused : Buckets := fun _ => none

/-- `ann` signed in with an emailed code, a while ago; an authenticator app waits to be confirmed. -/
def site : Site where
  store :=
    { accounts := (∅ : Table _).insert { name := "ann" }
      credentials := (∅ : Table _).insert
        { accountId := 1, encodedHash := "secret", createdAt := 0, retiredAt := none }
      sessions := (∅ : Table _).insert
        { accountId := 1, tokenHash := "t0", provider := "", createdAt := 0, expiresAt := 86400
          invalidatedAt := none }
      events := ((∅ : Table _).insert
        { accountId := some 1, sessionId := some 1, kind := .password, occurredAt := 0 }).insert
        { accountId := some 1, sessionId := some 1, kind := .emailOtp, occurredAt := 0 } }
  totps := (∅ : Table _).insert
    { accountId := 1, secret := "123456", confirmedAt := none, lastUsedStep := none, createdAt := 0 }
  cookies := fun browser => if browser = 0 then some "t0" else none

def served : Account.Request := Account.Site.Sample.request 0 (.confirmPassword "guess")

def signedIn : SessionContext := ⟨1, 1⟩

end Edge.Sample

open Edge.Sample in
/-- A client dials the tunnel root, and a visitor signs in with a password. -/
theorem edge_tables_agree_sample :
    isExempt (.https .tunnelRoot) "GET" "/_weaver/connect" ∧
    (edge.handle unused (toRelay "POST" "/api/account/login" none)).2 = .account (.handler .login) ∧
    (edge.ChargedFailClosed unused (toRelay "POST" "/api/account/login" none) ∨
      (Account.signIn pw "ann@example.com" "t0").Capped) := by
  have hlogin : (edge.handle unused (toRelay "POST" "/api/account/login" none)).2 =
      .account (.handler .login) := by decide +kernel
  refine ⟨?_, hlogin, ?_⟩
  · have hroot := (edge_tables_agree edge rt pw unused
      (request "tunnel.example" "GET" "/_weaver/connect" none)).1 (by decide +kernel) rfl
      "tunnel.example" (by decide +kernel)
    have hsurface : edge.surfaceOf (request "tunnel.example" "GET" "/_weaver/connect" none) =
      some (.https .tunnelRoot) := by decide +kernel
    rw [hsurface] at hroot
    exact hroot
  · exact (edge_tables_agree edge rt pw unused _).2 .login (by decide) (by decide) hlogin _
      (.login "ann@example.com" "t0")

open Edge.Sample in
/-- A tunnel client that dials the admin host is not exempt; the password of a signed-in session and
the code of an enrolment can be guessed at without end, on the budget of the relay's pages. -/
theorem tables_disagree :
    ¬edge.TablesAgree rt pw unused (toRelay "GET" "/_weaver/connect" none) ∧
    ¬edge.TablesAgree rt pw unused (toRelay "POST" "/api/account/confirm-password" (some .strong)) ∧
    ¬edge.TablesAgree rt pw unused (toRelay "POST" "/api/account/totp/confirm" (some .certain)) := by
  have hcharged (path : String) (level : AuthLevel) (h : credentialBudgets.all fun id =>
      let req := toRelay "POST" path (some level)
      let key := (id, ⟨Abuse.KeyKind.peerHost, Abuse.hashMasked req.remoteAddr.ip 32 64⟩)
      (edge.guard.gate.admitAt unused id (fingerprint (effectivePeer req.remoteAddr)) 1 req.now
        req.storeFails).1 key ≠ (edge.handle unused req).1 key) :
      ¬edge.ChargedFailClosed unused (toRelay "POST" path (some level)) := by
    rintro ⟨id, hid, -, hallowed⟩
    have hne := of_decide_eq_true (List.all_eq_true.mp h id hid)
    exact hne (congrFun (congrArg Prod.fst hallowed) _)
  refine ⟨fun h => ?_, fun h => ?_, fun h => ?_⟩
  · have hexempt := h.socket rfl "relay.example" (by decide +kernel)
    exact absurd hexempt (by decide +kernel)
  · rcases h.secrets .confirmPassword (by decide +kernel) _ (.confirmPassword served signedIn) with h | h
    · exact hcharged _ _ (by decide +kernel) h
    · have hwrong : site.confirmationOk rt (served.servedAt 1000) signedIn "guess" = some false := by
        decide +kernel
      exact Account.confirmation_not_capped hwrong h
  · rcases h.secrets .totpConfirm (by decide +kernel) _ (.totpConfirm served signedIn 1) with h | h
    · exact hcharged _ _ (by decide +kernel) h
    · have hwrong : (site.totpConfirm rt (served.servedAt 1000) signedIn 1 "000000").2 =
          some false := by decide +kernel
      exact Account.enrolment_not_capped hwrong h

open Edge.Sample in
/-- The budget of the relay's pages turns away the second dial of an address. -/
example :
    let edge := { edge with abuse := some { peerHost := ⟨1, 1, 60⟩ } }
    let dial := toRelay "GET" "/_weaver/connect" none
    (edge.handle (edge.handle unused dial).1 dial).2 = .refused (.throttled ⟨"relay-web"⟩ 60) := by
  decide +kernel

end TunnelWeaver.Server
