import TunnelWeaver.Abuse.Gate

/-! The budgets that a configuration installs (`config.rs`, `abuse.rs`). -/

namespace TunnelWeaver.Server

open Abuse (Budget Gate Policy PolicyId PolicySet Quota StoreErrorPolicy)

/-! ## Configuration -/

structure BudgetConfig where
  burst : UInt32
  refillUnits : UInt32
  refillPerSecs : UInt64
  deriving DecidableEq

structure AltchaConfig where
  challenge : BudgetConfig := ⟨60, 60, 60⟩
  verify : BudgetConfig := ⟨30, 30, 60⟩
  defaultCost : UInt32 := 5000
  defaultKeyPrefix : String := "00"
  defaultTtlSecs : UInt64 := 300
  proofCap : UInt64 := 100000
  apiBaseUrl : Option String := none
  deriving DecidableEq

def AltchaConfig.builtin : AltchaConfig := {}

structure AbuseConfig where
  enabled : Bool := true
  peerHost : BudgetConfig := ⟨30, 30, 60⟩
  peerNetwork : BudgetConfig := ⟨150, 150, 60⟩
  retryAfterCapSecs : UInt64 := 600
  bucketTtlSecs : UInt64 := 3600
  altcha : Option AltchaConfig := none
  deriving DecidableEq

/-- The budgets of the account plane. -/
structure AccountBudgets where
  signup : BudgetConfig := ⟨10, 10, 600⟩
  login : BudgetConfig := ⟨30, 30, 600⟩
  passkey : BudgetConfig := ⟨300, 300, 60⟩
  resend : BudgetConfig := ⟨20, 20, 600⟩
  pair : BudgetConfig := ⟨20, 20, 600⟩

/-- The checks of one budget; `name` is its field path. -/
def validateBudget (name : String) (budget : BudgetConfig) : List String :=
  (if budget.burst < 1 then [s!"abuse.{name}.burst must be >= 1"] else []) ++
  (if budget.refillUnits < 1 then [s!"abuse.{name}.refill_units must be >= 1"] else []) ++
  (if budget.refillPerSecs < 1 then [s!"abuse.{name}.refill_per_secs must be >= 1"] else [])

def isAsciiHexdigit (c : Char) : Bool := c.isDigit || ('a' ≤ c && c ≤ 'f') || ('A' ≤ c && c ≤ 'F')

def validateAltchaConfig (altcha : AltchaConfig) : List String :=
  validateBudget "altcha.challenge" altcha.challenge ++
  validateBudget "altcha.verify" altcha.verify ++
  (if altcha.defaultCost < 1 then ["abuse.altcha.default_cost must be >= 1"] else []) ++
  (if altcha.defaultKeyPrefix = "" ∨ altcha.defaultKeyPrefix.toList.all isAsciiHexdigit = false then
    ["abuse.altcha.default_key_prefix must be a non-empty hex string"] else []) ++
  (if altcha.defaultTtlSecs < 1 then ["abuse.altcha.default_ttl_secs must be >= 1"] else []) ++
  (if altcha.proofCap < 1 then ["abuse.altcha.proof_cap must be >= 1"] else [])

/-- What is wrong with an enabled block. -/
def validateAbuseConfig (abuse : AbuseConfig) : List String :=
  validateBudget "peer_host" abuse.peerHost ++
  validateBudget "peer_network" abuse.peerNetwork ++
  (if abuse.retryAfterCapSecs < 1 then ["abuse.retry_after_cap_secs must be >= 1"] else []) ++
  (if abuse.bucketTtlSecs < 1 then ["abuse.bucket_ttl_secs must be >= 1"] else []) ++
  (abuse.altcha.elim [] validateAltchaConfig)

/-! ## Policies -/

/-- A protected thing that a request targets. -/
structure ViewId where
  asStr : String
  deriving DecidableEq

structure RouteTable where
  routes : List (ViewId × PolicyId)

def RouteTable.get (t : RouteTable) (view : ViewId) : Option PolicyId :=
  (t.routes.find? fun route => route.1 = view).map (·.2)

def secsToMs (secs : UInt64) : Int := max (I64.saturatingMul (I64.ofU64 secs) 1000) 1

def quota (cfg : BudgetConfig) : Quota where
  burst := cfg.burst.toNat
  units := cfg.refillUnits.toNat
  perMs := secsToMs cfg.refillPerSecs

/-- A policy of a budget for the host and one for the network. -/
def peerPolicy (id : String) (host network : BudgetConfig) (onStoreError : StoreErrorPolicy) :
    Policy :=
  ⟨⟨id⟩, [⟨.peerHost, quota host⟩, ⟨.peerNetwork, quota network⟩], onStoreError⟩

/-- The policies of `build`, each under the name of its view. -/
def policies (abuse : Option AbuseConfig) (account : AccountBudgets) : List Policy :=
  let armed := abuse.filter (·.enabled)
  let altcha := (abuse.bind (·.altcha)).getD .builtin
  (armed.toList.map fun a => peerPolicy "relay-web" a.peerHost a.peerNetwork .degraded) ++
  [peerPolicy "altcha-challenge" altcha.challenge altcha.challenge .failClosed,
    peerPolicy "altcha-verify" altcha.verify altcha.verify .failClosed,
    peerPolicy "account-signup" account.signup account.signup .failClosed,
    peerPolicy "account-login" account.login account.login .failClosed,
    peerPolicy "account-resend" account.resend account.resend .failClosed,
    peerPolicy "account-pair" account.pair account.pair .failClosed,
    peerPolicy "account-passkey" account.passkey account.passkey .degraded]

/-- Every policy is routed to from the view of its name. -/
def routeTable (abuse : Option AbuseConfig) (account : AccountBudgets) : RouteTable :=
  ⟨(policies abuse account).map fun policy => (⟨policy.id.asStr⟩, policy.id)⟩

def retryCapMs (abuse : Option AbuseConfig) : Int :=
  secsToMs ((abuse.map (·.retryAfterCapSecs)).getD 600)

def gate (abuse : Option AbuseConfig) (account : AccountBudgets) : Gate :=
  ⟨⟨policies abuse account⟩, retryCapMs abuse⟩

/-- No policy names a kind of key twice. -/
theorem distinct_of_mem_policies {abuse : Option AbuseConfig} {account : AccountBudgets}
    {policy : Policy} (h : policy ∈ policies abuse account) :
    (policy.budgets.map (·.key)).Nodup := by
  have hpeer : ∃ id host network onStoreError,
      policy = peerPolicy id host network onStoreError := by
    rw [policies] at h
    rcases List.mem_append.mp h with h | h
    · obtain ⟨a, -, rfl⟩ := List.mem_map.mp h
      exact ⟨_, _, _, _, rfl⟩
    · simp only [List.mem_cons, List.not_mem_nil, or_false] at h
      rcases h with rfl | rfl | rfl | rfl | rfl | rfl | rfl <;> exact ⟨_, _, _, _, rfl⟩
  obtain ⟨id, host, network, onStoreError, rfl⟩ := hpeer
  simp [peerPolicy]

end TunnelWeaver.Server
