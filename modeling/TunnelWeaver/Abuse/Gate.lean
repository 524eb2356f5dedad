import TunnelWeaver.Abuse.Gcra

/-! The admission gate (`gate.rs`, `policy.rs`) over the buckets of the store
(`store/abuse.rs`). -/

namespace TunnelWeaver.Abuse

/-! ## Who is asking -/

inductive KeyKind where
  | peerHost
  | peerNetwork
  deriving DecidableEq

structure Key where
  kind : KeyKind
  id : UInt64
  deriving DecidableEq

structure Fingerprint where
  keys : List Key

def Fingerprint.get (fp : Fingerprint) (kind : KeyKind) : Option Key :=
  fp.keys.find? fun key => key.kind = kind

/-! ## Policies -/

structure PolicyId where
  asStr : String
  deriving DecidableEq

structure Budget where
  key : KeyKind
  quota : Quota

/-- What to do when the store cannot answer. -/
inductive StoreErrorPolicy where
  | failClosed
  | degraded
  deriving DecidableEq

structure Policy where
  id : PolicyId
  budgets : List Budget
  onStoreError : StoreErrorPolicy

structure PolicySet where
  policies : List Policy

def PolicySet.get (s : PolicySet) (id : PolicyId) : Option Policy :=
  s.policies.find? fun policy => policy.id = id

/-- The keys of a fingerprint that a policy charges. -/
def Policy.select (policy : Policy) (fp : Fingerprint) : List (Key × Quota) :=
  policy.budgets.filterMap fun budget => (fp.get budget.key).map fun key => (key, budget.quota)

/-! ## Buckets -/

/-- A row of `abuse_bucket`. -/
structure BucketRow where
  tatMs : Int
  updatedAtMs : Int
  deriving DecidableEq

/-- The table, by scope and key. -/
abbrev Buckets := PolicyId × Key → Option BucketRow

namespace Buckets

/-- The limiter that a row stands for. -/
def gcra (b : Buckets) (scope : PolicyId) (key : Key) : Gcra := ⟨(b (scope, key)).map (·.tatMs)⟩

/-- Read a bucket, charge it and write it back. -/
def charge (b : Buckets) (scope : PolicyId) (cost : Nat) (now retryCapMs : Int)
    (budget : Key × Quota) : Buckets × Charge :=
  let x := (b.gcra scope budget.1).check budget.2 cost now retryCapMs
  (Function.update b (scope, budget.1) (some ⟨x.1.tatMs.getD now, now⟩), x.2)

/-- The charges of the transaction, in order. -/
def chargeAll (b : Buckets) (scope : PolicyId) (cost : Nat) (now retryCapMs : Int) :
    List (Key × Quota) → Buckets × List Charge
  | [] => (b, [])
  | budget :: budgets =>
    let x := b.charge scope cost now retryCapMs budget
    let rest := x.1.chargeAll scope cost now retryCapMs budgets
    (rest.1, x.2 :: rest.2)

/-- `abuse_check_all`. If a statement or the commit fails, the transaction is dropped. -/
def abuseCheckAll (b : Buckets) (scope : PolicyId) (budgets : List (Key × Quota)) (cost : Nat)
    (now retryCapMs : Int) (fails : Bool) : Buckets × Option (List Charge) :=
  if fails then (b, none)
  else
    let x := b.chargeAll scope cost now retryCapMs budgets
    (x.1, some x.2)

end Buckets

/-! ## Admission -/

inductive GateError where
  | throttled (policy : PolicyId) (retryAfterMs : Int)
  | store (policy : PolicyId) (decision : StoreErrorPolicy)
  deriving DecidableEq

structure Gate where
  policies : PolicySet
  retryCapMs : Int

/-- The longest delay of the refusals. -/
def longestDelay (charges : List Charge) : Option Int :=
  ((charges.filter fun charge => charge.outcome = .throttled).map (·.retryAfterMs)).max?

/-- Charge every budget that the policy selects. -/
def Gate.admitAt (gate : Gate) (b : Buckets) (policy : PolicyId) (fp : Fingerprint) (cost : Nat)
    (now : Int) (fails : Bool) : Buckets × Except GateError Unit :=
  match gate.policies.get policy with
  | none => (b, .ok ())
  | some configured =>
    let selected := configured.select fp
    if selected.isEmpty then (b, .ok ())
    else
      let x := b.abuseCheckAll policy selected cost now gate.retryCapMs fails
      match x.2 with
      | none => (x.1, .error (.store policy configured.onStoreError))
      | some charges =>
        match longestDelay charges with
        | some retryAfterMs => (x.1, .error (.throttled policy retryAfterMs))
        | none => (x.1, .ok ())

end TunnelWeaver.Abuse
