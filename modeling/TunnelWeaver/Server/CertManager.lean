import TunnelWeaver.Lib.Automaton
import TunnelWeaver.Server.ManagedCerts

/-! The certificate manager (`cert/mod.rs`, `cert/renewal.rs`, `cert/resolver.rs`): every call that
may lead to an order is a task, and a step of a task is what it does between two points where another
task may come in. The authority's answers, the results of the store and the calls of visitors,
registrations, console and scheduler are up to the run. Status lines for systemd and the events kept
for the console are not modelled. -/

namespace TunnelWeaver.Server

/-! ## Renewal policy -/

def i64Max : Int := 2 ^ 63 - 1

/-- `i64::saturating_sub`. -/
def saturatingSub (a b : Int) : Int := max (-2 ^ 63) (min i64Max (a - b))

/-- `as i64`. -/
def asI64 (n : Nat) : Int := (n : Int).bmod (2 ^ 64)

/-- Less than a third of the lifetime is left. -/
def shouldRenew (notBefore notAfter now : Int) : Bool :=
  decide (saturatingSub notAfter now ≤ (saturatingSub notAfter notBefore).tdiv 3)

def renewalAt (notBefore notAfter : Int) : Int :=
  saturatingSub notAfter ((saturatingSub notAfter notBefore).tdiv 3)

/-- Seconds to wait after a number of failures in a row. -/
def computeBackoff (failures : Nat) (retryAfter : Option Nat) : Nat :=
  let backoff := min (3600 * 2 ^ min (failures - 1) 6) 86400
  match retryAfter with
  | some secs => max backoff secs
  | none => backoff

/-! ## State -/

/-- What is known of a certificate. -/
inductive CertState where
  | pending
  | ordering
  | issued (notAfter : Int)
  | failed (error : String) (nextRetry : Int)
  | renewing (notAfter : Int)
  deriving DecidableEq

inductive AcmeError where
  | rateLimited (detail : String) (retryAfterSecs : Option Nat)
  | serverError (status : Option Nat) (detail : String)
  | allProvidersFailed (last : String)
  | other (detail : String)
  deriving DecidableEq

namespace AcmeError

/-- The debug form of an option of a number. -/
def debug : Option Nat → String
  | none => "None"
  | some n => "Some(" ++ toString n ++ ")"

def message : AcmeError → String
  | .rateLimited detail secs =>
    "ACME rate limited: " ++ detail ++ " (retry after " ++ debug secs ++ "s)"
  | .serverError status detail => "ACME server error (" ++ debug status ++ "): " ++ detail
  | .allProvidersFailed last => "All ACME providers failed. Last error: " ++ last
  | .other detail => "ACME failure: " ++ detail

def retryAfter : AcmeError → Option Nat
  | .rateLimited _ secs => secs
  | _ => none

end AcmeError

/-- What the authority issues, and what the store keeps of it. -/
structure IssuedCertificate where
  certPem : String
  keyPem : String
  notBefore : Int
  notAfter : Int
  deriving DecidableEq

/-- `parse_certified_key`: whether a chain and its key can be served, and if so the expiry of the
leaf, where it can be read. -/
class CertifiedKeys where
  parse : String → String → Except String (Option Int)

/-- The certificates a relay manages, and the one that covers a hostname. -/
structure Catalog (C : Type) where
  all : List C
  certNameFor : String → Option C

def Domains.catalog (d : Domains) : Catalog ManagedCert where
  all := d.managed
  certNameFor := d.certFor

/-- Who calls `ensure`: a registration, the start of the relay or a visit. -/
inductive Caller where
  | registration
  | eager
  | visit
  deriving DecidableEq

/-- Whose order it is: of an `ensure`, of a `renew_hostname`, or of the renewal job at a tick with
certificates left to look at. -/
inductive Origin (C : Type) where
  | ensure (caller : Caller)
  | renew (force : Bool)
  | job (tick : Int) (rest : List C)
  deriving DecidableEq

/-- What an `execute_issuance` does next. -/
inductive OrderPhase where
  | looking
  | entering
  | marking
  | queued
  | ordering
  | parsing (cert : IssuedCertificate)
  | saving (cert : IssuedCertificate)
  | storing (notAfter : Int)
  | uncounting
  | refused (err : AcmeError)
  | counting (err : AcmeError)
  | failing (err : AcmeError) (nextRetry : Int)
  | reporting (result : Except String Unit)
  deriving DecidableEq

structure Order (C : Type) where
  cert : C
  origin : Origin C
  phase : OrderPhase
  deriving DecidableEq

/-- A task, by what it does next. -/
inductive CertTask (C : Type) where
  /-- `ensure` looks whether the certificate is there. -/
  | calling (caller : Caller) (cert : C)
  /-- It was not; the in-flight table is next. -/
  | ensuring (caller : Caller) (cert : C)
  /-- It waits for the order of the task `owner`. -/
  | waiting (caller : Caller) (cert : C) (owner : Nat)
  /-- `note_visit` looks at the state. -/
  | visiting (cert : C) (now : Int)
  /-- It was issued; the stored row is next. -/
  | inspecting (cert : C) (now : Int)
  /-- `renew_hostname` looks whether it may. -/
  | asking (cert : C) (force : Bool)
  | agreed (cert : C) (force : Bool)
  | announcing (cert : C) (force : Bool) (notAfter : Int)
  /-- `renew_eligible_at` has certificates left to look at. -/
  | job (tick : Int) (todo : List C)
  /-- It found one to renew. -/
  | found (tick : Int) (cert : C) (notAfter : Int) (rest : List C)
  | order (o : Order C)
  | ended
  deriving DecidableEq

/-- The manager, its resolver, its part of the store and its tasks. `results` are the results that
were sent to the waiters of a task, `certs` the expiries of the certificates that are served and
`ordering` the marks that hold handshakes. -/
structure CertManager (C : Type) where
  states : C → Option CertState
  failureCounts : C → Nat
  permits : Nat
  inFlight : C → Option Nat
  results : Nat → Option (Except String Unit)
  certs : C → Option Int
  ordering : C → Bool
  rows : C → Option IssuedCertificate
  now : Int
  tasks : List (CertTask C)

variable {C : Type} [DecidableEq C]

namespace CertManager

def status (m : CertManager C) (c : C) : CertState := (m.states c).getD .pending

def setState (m : CertManager C) (c : C) (st : CertState) : CertManager C :=
  { m with states := Function.update m.states c (some st) }

def markOrdering (m : CertManager C) (c : C) : CertManager C :=
  { m with ordering := Function.update m.ordering c true }

def clearOrdering (m : CertManager C) (c : C) : CertManager C :=
  { m with ordering := Function.update m.ordering c false }

/-- The served certificate is replaced unless it is newer. -/
def insertCert (m : CertManager C) (c : C) (notAfter : Int) : CertManager C :=
  { m with
    certs := Function.update m.certs c <| some <| match m.certs c with
      | some existing => if existing ≤ notAfter then notAfter else existing
      | none => notAfter
    ordering := Function.update m.ordering c false }

/-- The resolver has a certificate to serve. -/
def serves (m : CertManager C) (c : C) : Bool := (m.certs c).any fun notAfter => m.now < notAfter

/-- Task `i` goes on as `t`. -/
def put (m : CertManager C) (i : Nat) (t : CertTask C) : CertManager C :=
  { m with tasks := m.tasks.set i t }

def spawn (m : CertManager C) (t : CertTask C) : CertManager C :=
  { m with tasks := m.tasks ++ [t] }

/-- What remains of a task whose order is over. -/
def after : Origin C → CertTask C
  | .job tick rest => .job tick rest
  | _ => .ended

/-- `execute_issuance` returns. -/
def exit (m : CertManager C) (i : Nat) (o : Order C) : CertManager C :=
  { m with permits := m.permits + 1 }.put i (after o.origin)

/-- The entry of the in-flight table goes, and its waiters get the result. -/
def report (m : CertManager C) (c : C) (result : Except String Unit) : CertManager C :=
  match m.inFlight c with
  | some owner => { m with
    inFlight := Function.update m.inFlight c none
    results := Function.update m.results owner (some result) }
  | none => m

/-- The certificate is issued, with time left. -/
def ready (m : CertManager C) (c : C) : Bool :=
  match m.states c with
  | some (.issued notAfter) => decide (m.now < notAfter)
  | _ => false

/-- Its last order failed, and it is not time yet to try again. -/
def backingOff (m : CertManager C) (c : C) : Bool :=
  match m.status c with
  | .failed _ nextRetry => decide (m.now < nextRetry)
  | _ => false

/-- The next step of `note_visit`, by the state it found. -/
def touched (m : CertManager C) (c : C) (now : Int) : CertTask C :=
  match m.status c with
  | .ordering => .ended
  | .renewing _ => .ended
  | .failed _ nextRetry => if nextRetry ≤ now then .calling .visit c else .ended
  | .issued notAfter => if notAfter ≤ now then .calling .visit c else .inspecting c now
  | .pending => .calling .visit c

variable [CertifiedKeys]

/-- The next step of an `execute_issuance`. -/
def advance (m : CertManager C) (i : Nat) (o : Order C) : Option (CertManager C) :=
  let next (m : CertManager C) (phase : OrderPhase) := some (m.put i (.order { o with phase }))
  match o.phase with
  | .looking =>
    match m.status o.cert with
    | .renewing notAfter => next m (if m.now < notAfter then .queued else .entering)
    | _ => next m .entering
  | .entering => next (m.setState o.cert .ordering) .marking
  | .marking => next (m.markOrdering o.cert) .queued
  | .queued => if m.permits = 0 then none else next { m with permits := m.permits - 1 } .ordering
  | .ordering => none
  | .parsing cert =>
    match CertifiedKeys.parse cert.certPem cert.keyPem with
    | .error _ => some (m.exit i o)
    | .ok leaf => next (m.insertCert o.cert (leaf.getD i64Max)) (.saving cert)
  | .saving cert =>
    next { m with rows := Function.update m.rows o.cert (some cert) } (.storing cert.notAfter)
  | .storing notAfter => next (m.setState o.cert (.issued notAfter)) .uncounting
  | .uncounting =>
    next { m with failureCounts := Function.update m.failureCounts o.cert 0 } (.reporting (.ok ()))
  | .refused err => next (m.clearOrdering o.cert) (.counting err)
  | .counting err =>
    let count := m.failureCounts o.cert + 1
    next { m with failureCounts := Function.update m.failureCounts o.cert count }
      (.failing err (m.now + asI64 (computeBackoff count err.retryAfter)))
  | .failing err nextRetry =>
    next (m.setState o.cert (.failed err.message nextRetry)) (.reporting (.error err.message))
  | .reporting result => some ((m.report o.cert result).exit i o)

/-- The next step of task `i`; its store calls succeed. -/
def go (m : CertManager C) (i : Nat) : CertTask C → Option (CertManager C)
  | .calling caller c => some (m.put i (if m.ready c then .ended else .ensuring caller c))
  | .ensuring caller c =>
    match m.inFlight c with
    | some owner => some (m.put i (.waiting caller c owner))
    | none => some ({ m with inFlight := Function.update m.inFlight c (some i) }.put i
      (.order ⟨c, .ensure caller, .looking⟩))
  | .waiting _ _ owner => if (m.results owner).isSome then some (m.put i .ended) else none
  | .visiting c now => some (m.put i (m.touched c now))
  | .inspecting c now => some (m.put i
    (if (m.rows c).any fun row => shouldRenew row.notBefore row.notAfter now then .asking c false
      else .ended))
  | .asking c force => some (m.put i
    (if !force && (m.backingOff c || m.permits == 0) then .ended else .agreed c force))
  | .agreed c force => some (m.put i (.announcing c force
    (match m.status c with
    | .issued notAfter => notAfter
    | .renewing notAfter => notAfter
    | _ => 0)))
  | .announcing c force notAfter => some
    ((m.setState c (if 0 < notAfter then .renewing notAfter else .ordering)).put i
      (.order ⟨c, .renew force, .looking⟩))
  | .job _ [] => some (m.put i .ended)
  | .job tick (c :: rest) =>
    match m.rows c with
    | some row => some (m.put i (if shouldRenew row.notBefore row.notAfter tick
      then .found tick c row.notAfter rest else .job tick rest))
    | none => some (m.put i (.job tick rest))
  | .found tick c notAfter rest => some ((m.setState c (.renewing notAfter)).put i
    (.order ⟨c, .job tick rest, .looking⟩))
  | .order o => m.advance i o
  | .ended => none

omit [DecidableEq C] [CertifiedKeys] in
/-- The store call of task `i` fails. -/
def storeFails (m : CertManager C) (i : Nat) : CertTask C → Option (CertManager C)
  | .inspecting .. => some (m.put i .ended)
  | .job tick (_ :: rest) => some (m.put i (.job tick rest))
  | .order o =>
    match o.phase with
    | .saving _ => some (m.exit i o)
    | _ => none
  | _ => none

omit [DecidableEq C] [CertifiedKeys] in
/-- The authority answers the order of task `i`. -/
def answer (m : CertManager C) (i : Nat) (r : Except AcmeError IssuedCertificate) :
    CertTask C → Option (CertManager C)
  | .order o =>
    match o.phase with
    | .ordering =>
      match r with
      | .ok cert => some (m.put i (.order { o with phase := .parsing cert }))
      | .error err => some (m.put i (.order { o with phase := .refused err }))
    | _ => none
  | _ => none

end CertManager

inductive CertAction (C : Type) where
  | tick (secs : Nat)
  /-- A registration waits for the certificate of its hostname. -/
  | ensure (host : String)
  /-- At its start the relay orders what is pending. -/
  | eager (cert : C)
  /-- `note_visit`. -/
  | visit (host : String)
  /-- `renew_hostname`. -/
  | renew (host : String) (force : Bool)
  /-- The renewal job runs at a tick. -/
  | job (tick : Int)
  | go (i : Nat)
  | storeFails (i : Nat)
  | answer (i : Nat) (r : Except AcmeError IssuedCertificate)
  /-- A waiter has waited for `CERT_WAIT_TIMEOUT`. -/
  | timeout (i : Nat)

omit [DecidableEq C] in
/-- The task that takes a step. -/
def CertAction.task : CertAction C → Option Nat
  | .go i => some i
  | .storeFails i => some i
  | .answer i _ => some i
  | .timeout i => some i
  | _ => none

namespace CertManager

variable [CertifiedKeys]

omit [DecidableEq C] [CertifiedKeys] in
def expire (m : CertManager C) (i : Nat) : CertTask C → Option (CertManager C)
  | .waiting .. => some (m.put i .ended)
  | _ => none

def step (K : Catalog C) (m : CertManager C) : CertAction C → Option (CertManager C)
  | .tick secs => some { m with now := m.now + secs }
  | .ensure host => (K.certNameFor host).map fun c => m.spawn (.calling .registration c)
  | .eager c => if c ∈ K.all ∧ m.states c = some .pending then some (m.spawn (.calling .eager c))
    else none
  | .visit host => (K.certNameFor host).map fun c => m.spawn (.visiting c m.now)
  | .renew host force => (K.certNameFor host).map fun c => m.spawn (.asking c force)
  | .job tick => some (m.spawn (.job tick K.all))
  | .go i => m.tasks[i]?.bind (m.go i)
  | .storeFails i => m.tasks[i]?.bind (m.storeFails i)
  | .answer i r => m.tasks[i]?.bind (m.answer i r)
  | .timeout i => m.tasks[i]?.bind (m.expire i)

/-- A stored certificate that can be served. -/
def valid (rows : C → Option IssuedCertificate) (now : Int) (c : C) : Option Int := do
  let row ← rows c
  match CertifiedKeys.parse row.certPem row.keyPem with
  | .ok _ => if now < row.notAfter then some row.notAfter else none
  | .error _ => none

/-- `new` and `init`, over the rows of the store. -/
def init (K : Catalog C) (rows : C → Option IssuedCertificate) (now : Int) : CertManager C where
  states c := match valid rows now c with
    | some notAfter => some (.issued notAfter)
    | none => if c ∈ K.all then some .pending else none
  failureCounts _ := 0
  permits := 4
  inFlight _ := none
  results _ := none
  certs := valid rows now
  ordering c := (valid rows now c).isNone && decide (c ∈ K.all)
  rows
  now
  tasks := []

theorem status_init_of_some {K : Catalog C} {rows : C → Option IssuedCertificate} {now notAfter : Int}
    {c : C} (h : valid rows now c = some notAfter) :
    (init K rows now).status c = .issued notAfter := by
  simp only [status, init, h, Option.getD_some]

theorem status_init_of_none {K : Catalog C} {rows : C → Option IssuedCertificate} {now : Int} {c : C}
    (h : valid rows now c = none) : (init K rows now).status c = .pending := by
  simp only [status, init, h]
  split <;> rfl

def run (K : Catalog C) (m : CertManager C) (actions : List (CertAction C)) :
    Option (CertManager C) := Automaton.run (step K) m actions

/-! ## What a step does -/

omit [CertifiedKeys] in
/-- Steps that leave what the tasks share alone. -/
inductive Quiet (m : CertManager C) : CertTask C → CertTask C → Prop
  | ready {caller c} : m.ready c = true → Quiet m (.calling caller c) .ended
  | unready {caller c} : m.ready c = false → Quiet m (.calling caller c) (.ensuring caller c)
  | joined {caller c owner} : m.inFlight c = some owner →
    Quiet m (.ensuring caller c) (.waiting caller c owner)
  | released {caller c owner} : Quiet m (.waiting caller c owner) .ended
  | touched {c now} : Quiet m (.visiting c now) (m.touched c now)
  | asks {c now} : Quiet m (.inspecting c now) (.asking c false)
  | leaves {c now} : Quiet m (.inspecting c now) .ended
  | refused {c force} : Quiet m (.asking c force) .ended
  | agreed {c force} : (force = true ∨ m.backingOff c = false) →
    Quiet m (.asking c force) (.agreed c force)
  | announces {c force} (notAfter) : Quiet m (.agreed c force) (.announcing c force notAfter)
  | finished {tick} : Quiet m (.job tick []) .ended
  | skips {tick c rest} : Quiet m (.job tick (c :: rest)) (.job tick rest)
  | finds {tick c rest} (notAfter) : Quiet m (.job tick (c :: rest)) (.found tick c notAfter rest)
  | renews {c origin notAfter} : m.status c = .renewing notAfter → m.now < notAfter →
    Quiet m (.order ⟨c, origin, .looking⟩) (.order ⟨c, origin, .queued⟩)
  | enters {c origin} : Quiet m (.order ⟨c, origin, .looking⟩) (.order ⟨c, origin, .entering⟩)
  | issued {c origin} (cert) : Quiet m (.order ⟨c, origin, .ordering⟩)
    (.order ⟨c, origin, .parsing cert⟩)
  | denied {c origin} (err) : Quiet m (.order ⟨c, origin, .ordering⟩)
    (.order ⟨c, origin, .refused err⟩)

omit [CertifiedKeys] in
/-- What a task announces before its order. -/
inductive Announces : CertTask C → C → CertState → Origin C → Prop
  | renewing {c force notAfter} :
    Announces (.announcing c force notAfter) c (.renewing notAfter) (.renew force)
  | ordering {c force notAfter} :
    Announces (.announcing c force notAfter) c .ordering (.renew force)
  | found {tick c notAfter rest} :
    Announces (.found tick c notAfter rest) c (.renewing notAfter) (.job tick rest)

/-- What an order changes on its way, by the phase it leaves and the one it reaches. -/
inductive Advances (m : CertManager C) (c : C) : OrderPhase → CertManager C → OrderPhase → Prop
  | entering : Advances m c .entering (m.setState c .ordering) .marking
  | marking : Advances m c .marking (m.markOrdering c) .queued
  | queued : m.permits ≠ 0 → Advances m c .queued { m with permits := m.permits - 1 } .ordering
  | parsed {cert leaf} : CertifiedKeys.parse cert.certPem cert.keyPem = .ok leaf →
    Advances m c (.parsing cert) (m.insertCert c (leaf.getD i64Max)) (.saving cert)
  | saved {cert} : Advances m c (.saving cert)
    { m with rows := Function.update m.rows c (some cert) } (.storing cert.notAfter)
  | stored {notAfter} : Advances m c (.storing notAfter) (m.setState c (.issued notAfter)) .uncounting
  | uncounted : Advances m c .uncounting
    { m with failureCounts := Function.update m.failureCounts c 0 } (.reporting (.ok ()))
  | cleared {err} : Advances m c (.refused err) (m.clearOrdering c) (.counting err)
  | counted {err count nextRetry} : Advances m c (.counting err)
    { m with failureCounts := Function.update m.failureCounts c count } (.failing err nextRetry)
  | failed {err nextRetry} : Advances m c (.failing err nextRetry)
    (m.setState c (.failed err.message nextRetry)) (.reporting (.error err.message))

/-- How an order ends. -/
inductive Ends (m : CertManager C) (c : C) : OrderPhase → CertManager C → Prop
  | unparsed {cert e} : CertifiedKeys.parse cert.certPem cert.keyPem = .error e →
    Ends m c (.parsing cert) m
  | reported {result} : Ends m c (.reporting result) (m.report c result)

omit [DecidableEq C] [CertifiedKeys] in
/-- The tasks that calls start. -/
inductive Starts (K : Catalog C) (m : CertManager C) : CertAction C → CertTask C → Prop
  | ensure {host c} : K.certNameFor host = some c →
    Starts K m (.ensure host) (.calling .registration c)
  | eager {c} : m.states c = some .pending → Starts K m (.eager c) (.calling .eager c)
  | visit {host c} : K.certNameFor host = some c → Starts K m (.visit host) (.visiting c m.now)
  | renew {host force c} : K.certNameFor host = some c →
    Starts K m (.renew host force) (.asking c force)
  | job {tick} : Starts K m (.job tick) (.job tick K.all)

inductive Moved (K : Catalog C) (m : CertManager C) : CertAction C → CertManager C → Prop
  | waited (secs : Nat) : Moved K m (.tick secs) { m with now := m.now + secs }
  | started {a t} : Starts K m a t → Moved K m a (m.spawn t)
  | quiet {a i t t'} : a.task = some i → m.tasks[i]? = some t → Quiet m t t' →
    Moved K m a (m.put i t')
  | opened {i caller c} : m.tasks[i]? = some (.ensuring caller c) → m.inFlight c = none →
    Moved K m (.go i) ({ m with inFlight := Function.update m.inFlight c (some i) }.put i
      (.order ⟨c, .ensure caller, .looking⟩))
  | announced {i t c st origin} : m.tasks[i]? = some t → Announces t c st origin →
    Moved K m (.go i) ((m.setState c st).put i (.order ⟨c, origin, .looking⟩))
  | advanced {i c origin phase phase' m'} : m.tasks[i]? = some (.order ⟨c, origin, phase⟩) →
    Advances m c phase m' phase' → Moved K m (.go i) (m'.put i (.order ⟨c, origin, phase'⟩))
  | ended {i c origin phase m'} : m.tasks[i]? = some (.order ⟨c, origin, phase⟩) →
    Ends m c phase m' → Moved K m (.go i) (m'.exit i ⟨c, origin, phase⟩)
  | unsaved {i c origin cert} : m.tasks[i]? = some (.order ⟨c, origin, .saving cert⟩) →
    Moved K m (.storeFails i) (m.exit i ⟨c, origin, .saving cert⟩)

variable {K : Catalog C} {m m' : CertManager C}

theorem moved_of_advance {i : Nat} {o : Order C} (ho : m.tasks[i]? = some (.order o))
    (h : m.advance i o = some m') : Moved K m (.go i) m' := by
  obtain ⟨c, origin, phase⟩ := o
  cases phase with
  | looking =>
    simp only [advance] at h
    split at h
    · rename_i notAfter hst
      cases h
      split
      · exact .quiet rfl ho (.renews hst ‹_›)
      · exact .quiet rfl ho .enters
    · cases h
      exact .quiet rfl ho .enters
  | entering =>
    cases h
    exact .advanced ho .entering
  | marking =>
    cases h
    exact .advanced ho .marking
  | queued =>
    simp only [advance] at h
    split at h
    · cases h
    · cases h
      exact .advanced ho (.queued ‹_›)
  | ordering => cases h
  | parsing cert =>
    simp only [advance] at h
    split at h
    · cases h
      exact .ended ho (.unparsed ‹_›)
    · cases h
      exact .advanced ho (.parsed ‹_›)
  | saving cert =>
    cases h
    exact .advanced ho .saved
  | storing notAfter =>
    cases h
    exact .advanced ho .stored
  | uncounting =>
    cases h
    exact .advanced ho .uncounted
  | refused err =>
    cases h
    exact .advanced ho .cleared
  | counting err =>
    cases h
    exact .advanced ho .counted
  | failing err nextRetry =>
    cases h
    exact .advanced ho .failed
  | reporting result =>
    cases h
    exact .ended ho .reported

theorem moved_of_go {i : Nat} {t : CertTask C} (ht : m.tasks[i]? = some t)
    (h : m.go i t = some m') : Moved K m (.go i) m' := by
  cases t with
  | calling caller c =>
    simp only [go, Option.some.injEq] at h
    subst h
    split
    · exact .quiet rfl ht (.ready ‹_›)
    · exact .quiet rfl ht (.unready (Bool.eq_false_iff.mpr ‹_›))
  | ensuring caller c =>
    simp only [go] at h
    split at h
    · cases h
      exact .quiet rfl ht (.joined ‹_›)
    · cases h
      exact .opened ht ‹_›
  | waiting caller c owner =>
    simp only [go] at h
    split at h
    · cases h
      exact .quiet rfl ht .released
    · cases h
  | visiting c now =>
    cases h
    exact .quiet rfl ht .touched
  | inspecting c now =>
    simp only [go, Option.some.injEq] at h
    subst h
    split
    · exact .quiet rfl ht .asks
    · exact .quiet rfl ht .leaves
  | asking c force =>
    simp only [go, Option.some.injEq] at h
    subst h
    split
    · exact .quiet rfl ht .refused
    · rename_i hgo
      refine .quiet rfl ht (.agreed ?_)
      cases force with
      | true => exact .inl rfl
      | false =>
        simp only [Bool.not_false, Bool.true_and, Bool.or_eq_true, not_or] at hgo
        exact .inr (Bool.eq_false_iff.mpr hgo.1)
  | agreed c force =>
    cases h
    exact .quiet rfl ht (.announces _)
  | announcing c force notAfter =>
    simp only [go, Option.some.injEq] at h
    subst h
    split
    · exact .announced ht .renewing
    · exact .announced ht .ordering
  | job tick todo =>
    cases todo with
    | nil =>
      cases h
      exact .quiet rfl ht .finished
    | cons c rest =>
      simp only [go] at h
      split at h
      · cases h
        split
        · exact .quiet rfl ht (.finds _)
        · exact .quiet rfl ht .skips
      · cases h
        exact .quiet rfl ht .skips
  | found tick c notAfter rest =>
    cases h
    exact .announced ht .found
  | order o => exact moved_of_advance ht h
  | ended => cases h

theorem moved_of_storeFails {i : Nat} {t : CertTask C} (ht : m.tasks[i]? = some t)
    (h : m.storeFails i t = some m') : Moved K m (.storeFails i) m' := by
  cases t with
  | inspecting c now =>
    cases h
    exact .quiet rfl ht .leaves
  | job tick todo =>
    cases todo with
    | nil => cases h
    | cons c rest =>
      cases h
      exact .quiet rfl ht .skips
  | order o =>
    obtain ⟨c, origin, phase⟩ := o
    cases phase with
    | saving cert =>
      cases h
      exact .unsaved ht
    | _ => cases h
  | _ => cases h

theorem moved_of_answer {i : Nat} {r : Except AcmeError IssuedCertificate} {t : CertTask C}
    (ht : m.tasks[i]? = some t) (h : m.answer i r t = some m') : Moved K m (.answer i r) m' := by
  cases t with
  | order o =>
    obtain ⟨c, origin, phase⟩ := o
    cases phase with
    | ordering =>
      cases r with
      | ok cert =>
        cases h
        exact .quiet rfl ht (.issued cert)
      | error err =>
        cases h
        exact .quiet rfl ht (.denied err)
    | _ => cases h
  | _ => cases h

theorem moved_of_step {a : CertAction C} (h : m.step K a = some m') : Moved K m a m' := by
  cases a with
  | tick secs =>
    cases h
    exact .waited secs
  | ensure host =>
    obtain ⟨c, hc, rfl⟩ := Option.map_eq_some_iff.mp h
    exact .started (.ensure hc)
  | eager c =>
    simp only [step] at h
    split at h
    · rename_i hpending
      cases h
      exact .started (.eager hpending.2)
    · cases h
  | visit host =>
    obtain ⟨c, hc, rfl⟩ := Option.map_eq_some_iff.mp h
    exact .started (.visit hc)
  | renew host force =>
    obtain ⟨c, hc, rfl⟩ := Option.map_eq_some_iff.mp h
    exact .started (.renew hc)
  | job tick =>
    cases h
    exact .started .job
  | go i =>
    obtain ⟨t, ht, h⟩ := Option.bind_eq_some_iff.mp h
    exact moved_of_go ht h
  | storeFails i =>
    obtain ⟨t, ht, h⟩ := Option.bind_eq_some_iff.mp h
    exact moved_of_storeFails ht h
  | answer i r =>
    obtain ⟨t, ht, h⟩ := Option.bind_eq_some_iff.mp h
    exact moved_of_answer ht h
  | timeout i =>
    obtain ⟨t, ht, h⟩ := Option.bind_eq_some_iff.mp h
    cases t with
    | waiting caller c owner =>
      cases h
      exact .quiet rfl ht .released
    | _ => cases h

end CertManager

end TunnelWeaver.Server
