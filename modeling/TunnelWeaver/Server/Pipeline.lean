import TunnelWeaver.Server.Budgets

/-! The safety pipeline that every request to the relay passes (`surface.rs`, `passes.rs`,
`pass.rs`): the scanner firewall, then the budget of the view. -/

namespace TunnelWeaver.Server

open Abuse (Buckets Fingerprint Gate Policy PolicyId StoreErrorPolicy)

/-! ## Surfaces -/

/-- The transport a request arrived on. -/
inductive Scheme where
  | http
  | https
  deriving DecidableEq

/-- Which of the relay's host roles a request targets. -/
inductive Host where
  | admin
  | tunnelRoot
  | tunneled
  /-- Any host on the cleartext edge. -/
  | cleartext
  deriving DecidableEq

structure Surface where
  scheme : Scheme
  host : Host
  deriving DecidableEq

def Surface.https (host : Host) : Surface := ⟨.https, host⟩

def Surface.cleartext : Surface := ⟨.http, .cleartext⟩

/-- `str::starts_with`. -/
def startsWith (s front : String) : Bool := front.toList.isPrefixOf s.toList

/-- The control-plane routes that no pass looks at. -/
def isExempt (surface : Surface) (method path : String) : Bool :=
  if method ≠ "GET" then false
  else if startsWith path "/.well-known/acme-challenge/" then true
  else match surface.scheme with
    | .http => false
    | .https => match surface.host with
      | .admin => path = "/healthz"
      | .tunnelRoot => path = "/healthz" || path = "/_weaver/connect"
      | .tunneled | .cleartext => false

/-! ## Passes -/

structure RequestContext where
  surface : Surface
  method : String
  path : String
  /-- The path with the query. -/
  rawPath : String
  fingerprint : Fingerprint
  view : ViewId
  now : Int

def RequestContext.exempt (ctx : RequestContext) : Bool :=
  isExempt ctx.surface ctx.method ctx.path

inductive Decision where
  | allow
  | block (verdict : String)
  | throttle (policy : PolicyId) (retryAfterMs : Int)
  | unavailable (policy : PolicyId)
  | degraded (policy : PolicyId)
  deriving DecidableEq

structure Pipeline where
  /-- `scanner::inspect`: the verdict on a probe. -/
  inspect : (method rawPath : String) → Option String
  gate : Gate
  routes : RouteTable

namespace Pipeline
variable (p : Pipeline)

def scannerPass (ctx : RequestContext) : Option Decision :=
  if ctx.exempt then none else (p.inspect ctx.method ctx.rawPath).map .block

/-- `fails` is whether the store cannot answer. -/
def budgetPass (b : Buckets) (ctx : RequestContext) (fails : Bool) : Buckets × Option Decision :=
  if ctx.exempt then (b, none)
  else match p.routes.get ctx.view with
    | none => (b, none)
    | some policy =>
      let x := p.gate.admitAt b policy ctx.fingerprint 1 ctx.now fails
      (x.1, match x.2 with
        | .ok () => none
        | .error (.throttled policy retryAfterMs) => some (.throttle policy retryAfterMs)
        | .error (.store policy .failClosed) => some (.unavailable policy)
        | .error (.store policy .degraded) => some (.degraded policy))

/-- The first pass that stops decides. -/
def evaluate (b : Buckets) (ctx : RequestContext) (fails : Bool) : Buckets × Decision :=
  match p.scannerPass ctx with
  | some decision => (b, decision)
  | none =>
    let x := p.budgetPass b ctx fails
    (x.1, x.2.getD .allow)

end Pipeline

/-! ## Refusals -/

/-- What the edge answers instead of serving the request. -/
inductive Refusal where
  | blocked (verdict : String)
  | throttled (policy : PolicyId) (retryAfterSecs : Int)
  | unavailable
  deriving DecidableEq

def msToSecsCeil (ms : Int) : Int := (max ms 1 + 999) / 1000

def Refusal.fromDecision : Decision → Option Refusal
  | .allow | .degraded _ => none
  | .block verdict => some (.blocked verdict)
  | .throttle policy retryAfterMs => some (.throttled policy (msToSecsCeil retryAfterMs))
  | .unavailable _ => some .unavailable

section
variable {p : Pipeline} {b : Buckets} {ctx : RequestContext} {fails : Bool} {policy : PolicyId}
  {configured : Policy}

theorem admitAt_store_error {gate : Gate} {fp : Fingerprint} {now : Int} {policy' : PolicyId}
    {decision : StoreErrorPolicy} (hget : gate.policies.get policy = some configured)
    (h : (gate.admitAt b policy fp 1 now fails).2 = .error (.store policy' decision)) :
    decision = configured.onStoreError := by
  simp only [Gate.admitAt, hget] at h
  split at h
  · cases h
  · split at h
    · cases h
      rfl
    · split at h <;> cases h

/-- A request that a fail-closed budget covers is served only after the budget has admitted it. -/
theorem Pipeline.admitted_of_served (hexempt : ctx.exempt = false)
    (hroute : p.routes.get ctx.view = some policy)
    (hget : p.gate.policies.get policy = some configured)
    (hclosed : configured.onStoreError = .failClosed)
    (h : Refusal.fromDecision (p.evaluate b ctx fails).2 = none) :
    p.gate.admitAt b policy ctx.fingerprint 1 ctx.now fails = ((p.evaluate b ctx fails).1, .ok ()) := by
  unfold evaluate at h ⊢
  unfold scannerPass at h ⊢
  rw [if_neg (by simp [hexempt])] at h ⊢
  cases hverdict : p.inspect ctx.method ctx.rawPath with
  | some verdict =>
    rw [hverdict] at h
    cases h
  | none =>
    rw [hverdict] at h
    simp only [Option.map_none, budgetPass, hexempt, Bool.false_eq_true, if_false, hroute] at h ⊢
    refine Prod.ext rfl ?_
    cases hallowed : (p.gate.admitAt b policy ctx.fingerprint 1 ctx.now fails).2 with
    | ok u => rfl
    | error e =>
      rw [hallowed] at h
      cases e with
      | throttled policy' retryAfterMs => cases h
      | store policy' decision =>
        obtain rfl := (admitAt_store_error hget hallowed).trans hclosed
        cases h

end

/-! ## The relay's pipeline -/

/-- The budgets of the account plane that fail closed. -/
def credentialBudgets : List PolicyId :=
  [⟨"account-signup"⟩, ⟨"account-login"⟩, ⟨"account-resend"⟩, ⟨"account-pair"⟩]

/-- A credential budget is installed whatever the configuration, and routed to from its view. -/
theorem credentialBudget_installed {id : PolicyId} (h : id ∈ credentialBudgets)
    (abuse : Option AbuseConfig) (account : AccountBudgets) :
    (routeTable abuse account).get ⟨id.asStr⟩ = some id ∧ ∃ configured,
      (gate abuse account).policies.get id = some configured ∧
        configured.onStoreError = .failClosed := by
  simp only [credentialBudgets, List.mem_cons, List.not_mem_nil, or_false] at h
  -- The views and the policies before it in the table have other names.
  cases harmed : abuse.filter (·.enabled) <;> rcases h with rfl | rfl | rfl | rfl <;>
    simp [routeTable, gate, policies, harmed, RouteTable.get, Abuse.PolicySet.get, peerPolicy]

end TunnelWeaver.Server
