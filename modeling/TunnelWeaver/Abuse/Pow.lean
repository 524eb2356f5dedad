import TunnelWeaver.Lib.Hex
import TunnelWeaver.Lib.I64

/-! The proof of work as it is computed (`altcha/pow.rs`, `altcha/types.rs`): how a challenge is
made, solved within limits, and verified. Strings are their UTF-8 bytes. A function that derives
keys returns the cost of each derivation next to its result. -/

namespace TunnelWeaver.Abuse.Pow

abbrev Bytes := List UInt8

abbrev Text := List UInt8

/-- The bytes of a literal, which has only ASCII characters. -/
def text (s : String) : Text := s.toList.map fun c => c.val.toUInt8

/-! ## Wire types -/

inductive Number where
  | int (n : Int)
  | float (bits : UInt64)
  deriving DecidableEq

/-- `serde_json::Value`; the entries of an object stand in the order of its map. -/
inductive Value where
  | null
  | bool (b : Bool)
  | number (n : Number)
  | string (s : Text)
  | array (items : List Value)
  | object (entries : List (Text × Value))

/-! The keys of every map in a value ascend. -/
mutual

def Value.Ascending : Value → Prop
  | .array items => ascendingItems items
  | .object entries => entries.Pairwise (fun a b => a.1 < b.1) ∧ ascendingEntries entries
  | _ => True

def ascendingItems : List Value → Prop
  | [] => True
  | v :: items => v.Ascending ∧ ascendingItems items

def ascendingEntries : List (Text × Value) → Prop
  | [] => True
  | e :: entries => e.2.Ascending ∧ ascendingEntries entries

end

/-- `BTreeMap<String, Value>`. -/
structure Metadata where
  entries : List (Text × Value)
  ascending : (Value.object entries).Ascending

structure ChallengeParameters where
  algorithm : Text
  cost : UInt32
  data : Option Metadata
  expiresAt : Option Int
  keyLength : Nat
  keyPrefix : Text
  nonce : Text
  salt : Text

structure Challenge where
  parameters : ChallengeParameters
  signature : Option Text

structure Solution where
  counter : UInt32
  derivedKey : Text
  deriving DecidableEq

/-- The hash functions, and the JSON printer. -/
class Primitives where
  pbkdf2HmacSha256 (password salt : Bytes) (cost : UInt32) (keyLength : Nat) : Bytes
  hmacSha256 (key data : Bytes) : Bytes
  jsonToString (value : Value) : Text

/-! ## Keys -/

def supportedAlgorithm : Text := text "PBKDF2/SHA-256"

def isSupported (algorithm : Text) : Bool :=
  algorithm.map Hex.lower == supportedAlgorithm.map Hex.lower

/-- `u32::to_be_bytes`. -/
def toBeBytes (n : UInt32) : Bytes :=
  [(n >>> 24).toUInt8, (n >>> 16).toUInt8, (n >>> 8).toUInt8, n.toUInt8]

def buildPassword (nonce : Bytes) (counter : UInt32) : Bytes := nonce ++ toBeBytes counter

def keyPrefixMatches (keyPrefix : Text) (derived : Bytes) : Bool :=
  if keyPrefix.length % 2 = 0 then
    match Hex.decode keyPrefix with
    | some bytes => bytes.isPrefixOf derived
    | none => false
  else if !keyPrefix.all Hex.isDigit then false
  else
    let hex := Hex.encode derived
    decide (keyPrefix.length ≤ hex.length) &&
      (hex.take keyPrefix.length).map Hex.lower == keyPrefix.map Hex.lower

/-- Both arms of the matcher decide whether the key, in lower case, begins with the prefix. -/
theorem keyPrefixMatches_iff (keyPrefix : Text) (derived : Bytes) :
    keyPrefixMatches keyPrefix derived = true ↔
      keyPrefix.all Hex.isDigit = true ∧ keyPrefix.map Hex.lower <+: Hex.encode derived := by
  rw [keyPrefixMatches]
  split
  · rename_i heven
    split
    · rename_i bytes hdecode
      have hdigits : keyPrefix.all Hex.isDigit = true := by
        have hsome := Hex.isSome_decode keyPrefix
        rw [hdecode, heven] at hsome
        exact hsome.symm
      rw [← Hex.encode_of_decode hdecode, Hex.encode_prefix_iff, List.isPrefixOf_iff_prefix]
      exact (and_iff_right hdigits).symm
    · rename_i hdecode
      have hdigits : keyPrefix.all Hex.isDigit = false := by
        have hsome := Hex.isSome_decode keyPrefix
        rw [hdecode, heven] at hsome
        exact hsome.symm
      simp [hdigits]
  · split
    · rename_i hdigits
      simp_all
    · rename_i hdigits
      have hdigits : keyPrefix.all Hex.isDigit = true := by simpa using hdigits
      rw [and_iff_right hdigits, List.prefix_iff_eq_take, List.length_map, Bool.and_eq_true,
        decide_eq_true_iff, beq_iff_eq, List.map_take, Hex.map_lower_encode, eq_comm]
      refine and_iff_right_of_imp fun h => ?_
      have hlength := congrArg List.length h
      rw [List.length_map, List.length_take] at hlength
      omega

/-- Extending a prefix only makes it match fewer keys. -/
theorem prefix_matcher_arms (keyPrefix : Text) (derived : Bytes) :
    (keyPrefixMatches keyPrefix derived = true ↔
      keyPrefix.all Hex.isDigit = true ∧ keyPrefix.map Hex.lower <+: Hex.encode derived) ∧
    ∀ extra, keyPrefixMatches (keyPrefix ++ extra) derived = true →
      keyPrefixMatches keyPrefix derived = true := by
  refine ⟨keyPrefixMatches_iff keyPrefix derived, fun extra h => ?_⟩
  rw [keyPrefixMatches_iff, List.all_append, Bool.and_eq_true, List.map_append] at h
  exact (keyPrefixMatches_iff ..).mpr ⟨h.1.1, (List.prefix_append ..).trans h.2⟩

variable [Primitives]

def deriveKey (cost : UInt32) (keyLength : Nat) (salt password : Bytes) : Bytes :=
  Primitives.pbkdf2HmacSha256 password salt cost keyLength

/-! ## Solving -/

structure SolveLimits where
  maxCost : UInt32
  maxWork : UInt64

inductive SolveError where
  | unsupportedAlgorithm (algorithm : Text)
  | malformed (reason : String)
  | tooExpensive (reason : String)
  | unsolved
  deriving DecidableEq

/-- `n` attempts from `counter` on. -/
def solveFrom (p : ChallengeParameters) (nonce salt : Bytes) :
    (n counter : Nat) → Option Solution × List UInt32
  | 0, _ => (none, [])
  | n + 1, counter =>
    let derived := deriveKey p.cost p.keyLength salt (buildPassword nonce (.ofNat counter))
    if keyPrefixMatches p.keyPrefix derived then
      (some ⟨.ofNat counter, Hex.encode derived⟩, [p.cost])
    else
      let r := solveFrom p nonce salt n (counter + 1)
      (r.1, p.cost :: r.2)

/-- The counters `0..=max_counter`. -/
def solveWithin (c : Challenge) (maxCounter : Nat) : Option Solution × List UInt32 :=
  match Hex.decode c.parameters.nonce, Hex.decode c.parameters.salt with
  | some nonce, some salt => solveFrom c.parameters nonce salt (maxCounter + 1) 0
  | _, _ => (none, [])

/-- The highest counter tried. -/
def maxCounter (p : ChallengeParameters) (limits : SolveLimits) : Nat :=
  min (limits.maxWork.toNat / p.cost.toNat) (2 ^ 32 - 1)

/-- The attempts to expect, which a float represents exactly. -/
def expected (p : ChallengeParameters) : Nat := 16 ^ min p.keyPrefix.length 16

def trySolveChallenge (c : Challenge) (limits : SolveLimits) :
    Except SolveError Solution × List UInt32 :=
  let p := c.parameters
  if isSupported p.algorithm = false then (.error (.unsupportedAlgorithm p.algorithm), [])
  else if p.cost = 0 ∨ p.keyLength = 0 ∨ 64 < p.keyLength then
    (.error (.malformed "cost or key length out of range"), [])
  else if p.keyPrefix.all Hex.isDigit = false then
    (.error (.malformed "the key prefix is not hex"), [])
  else if limits.maxCost < p.cost then
    (.error (.tooExpensive s!"cost {p.cost} where at most {limits.maxCost} is accepted"), [])
  else if maxCounter p limits < expected p then
    (.error (.tooExpensive s!"a {p.keyPrefix.length}-digit prefix at cost {p.cost}"), [])
  else
    let r := solveWithin c (maxCounter p limits)
    (match r.1 with
      | some solution => .ok solution
      | none => .error .unsolved, r.2)

/-! ### What an attempt finds -/

/-- The key derived for a counter, when the challenge is well-formed. -/
def keyFor (p : ChallengeParameters) (counter : UInt32) : Option Bytes :=
  match Hex.decode p.nonce, Hex.decode p.salt with
  | some nonce, some salt => some (deriveKey p.cost p.keyLength salt (buildPassword nonce counter))
  | _, _ => none

/-- The counter is a solution. -/
def Solves (p : ChallengeParameters) (counter : UInt32) : Prop :=
  ∃ derived, keyFor p counter = some derived ∧ keyPrefixMatches p.keyPrefix derived = true

/-- The challenge is well-formed and not too expensive, so that attempts are made. -/
structure Attempted (p : ChallengeParameters) (limits : SolveLimits) : Prop where
  supported : isSupported p.algorithm = true
  cost : p.cost ≠ 0
  keyLength : 0 < p.keyLength ∧ p.keyLength ≤ 64
  keyPrefix : p.keyPrefix.all Hex.isDigit = true
  nonce : (Hex.decode p.nonce).isSome = true
  salt : (Hex.decode p.salt).isSome = true
  maxCost : p.cost ≤ limits.maxCost
  expected : expected p ≤ maxCounter p limits

variable {c : Challenge} {p : ChallengeParameters} {limits : SolveLimits} {nonce salt : Bytes}
  {n k : Nat}

/-- Every derivation has the cost of the challenge. -/
theorem solveFrom_costs (p : ChallengeParameters) (nonce salt : Bytes) (n k : Nat) :
    ∀ cost ∈ (solveFrom p nonce salt n k).2, cost = p.cost := by
  induction n generalizing k with
  | zero => simp [solveFrom]
  | succ n ih =>
    unfold solveFrom
    dsimp only
    split
    · simp
    · exact List.forall_mem_cons.mpr ⟨rfl, ih (k + 1)⟩

/-- What is found solves the challenge. -/
theorem solves_of_solveFrom {s : Solution} (hnonce : Hex.decode p.nonce = some nonce)
    (hsalt : Hex.decode p.salt = some salt) (h : (solveFrom p nonce salt n k).1 = some s) :
    ∃ derived, keyFor p s.counter = some derived ∧ s.derivedKey = Hex.encode derived ∧
      keyPrefixMatches p.keyPrefix derived = true := by
  induction n generalizing k with
  | zero => cases h
  | succ n ih =>
    unfold solveFrom at h
    dsimp only at h
    split at h
    · rename_i hmatch
      cases h
      exact ⟨_, by simp only [keyFor, hnonce, hsalt], rfl, hmatch⟩
    · exact ih h

/-- All attempts are made exactly when none but the last succeeds. -/
theorem length_solveFrom (hnonce : Hex.decode p.nonce = some nonce)
    (hsalt : Hex.decode p.salt = some salt) (n k : Nat) :
    (solveFrom p nonce salt (n + 1) k).2.length ≤ n + 1 ∧
    ((solveFrom p nonce salt (n + 1) k).2.length = n + 1 ↔
      ∀ i < n, ¬Solves p (.ofNat (k + i))) := by
  have hsolves : ∀ k, Solves p (.ofNat k) ↔ keyPrefixMatches p.keyPrefix
      (deriveKey p.cost p.keyLength salt (buildPassword nonce (.ofNat k))) = true := by
    intro k
    simp [Solves, keyFor, hnonce, hsalt]
  induction n generalizing k with
  | zero =>
    unfold solveFrom
    dsimp only
    split <;> simp [solveFrom]
  | succ n ih =>
    obtain ⟨hle, hiff⟩ := ih (k + 1)
    rw [solveFrom]
    dsimp only
    split
    · rename_i hmatch
      refine ⟨by simp, iff_of_false (by simp) fun h => ?_⟩
      exact h 0 (Nat.succ_pos n) ((hsolves _).mpr hmatch)
    · rename_i hmatch
      rw [List.length_cons]
      refine ⟨Nat.succ_le_succ hle, Nat.succ_inj.trans (hiff.trans ?_)⟩
      constructor
      · rintro h (_ | i) hi
        · exact fun hs => hmatch ((hsolves _).mp hs)
        · have hrest := h i (Nat.lt_of_succ_lt_succ hi)
          rwa [Nat.add_right_comm] at hrest
      · rintro h i hi
        have hrest := h (i + 1) (Nat.succ_lt_succ hi)
        rwa [← Nat.add_assoc, Nat.add_right_comm] at hrest

/-- A challenge is refused, or attempted with counters up to the highest. -/
theorem trySolveChallenge_cases (c : Challenge) (limits : SolveLimits) :
    (¬Attempted c.parameters limits ∧ (trySolveChallenge c limits).2 = [] ∧
      ∀ s, (trySolveChallenge c limits).1 ≠ .ok s) ∨
    Attempted c.parameters limits ∧ ∃ nonce salt, Hex.decode c.parameters.nonce = some nonce ∧
      Hex.decode c.parameters.salt = some salt ∧
      (trySolveChallenge c limits).2 =
        (solveFrom c.parameters nonce salt (maxCounter c.parameters limits + 1) 0).2 ∧
      ∀ s, (trySolveChallenge c limits).1 = .ok s →
        (solveFrom c.parameters nonce salt (maxCounter c.parameters limits + 1) 0).1 = some s := by
  unfold trySolveChallenge
  dsimp only
  split
  · rename_i h
    exact .inl ⟨fun A => Bool.noConfusion (h.symm.trans A.supported), rfl, by simp⟩
  rename_i hsupported
  split
  · rename_i h
    refine .inl ⟨fun A => ?_, rfl, by simp⟩
    have hcost := A.cost
    have hlen := A.keyLength
    rcases h with h | h | h
    · exact hcost h
    · omega
    · omega
  rename_i hrange
  split
  · rename_i h
    exact .inl ⟨fun A => Bool.noConfusion (h.symm.trans A.keyPrefix), rfl, by simp⟩
  rename_i hprefix
  split
  · rename_i h
    exact .inl ⟨fun A => UInt32.not_lt.mpr A.maxCost h, rfl, by simp⟩
  rename_i hmax
  split
  · rename_i h
    exact .inl ⟨fun A => absurd A.expected (Nat.not_le.mpr h), rfl, by simp⟩
  rename_i hexpected
  rw [not_or, not_or] at hrange
  unfold solveWithin
  cases hnonce : Hex.decode c.parameters.nonce with
  | none =>
    refine .inl ⟨fun A => ?_, rfl, by simp⟩
    have h := A.nonce
    rw [hnonce] at h
    cases h
  | some nonce =>
    cases hsalt : Hex.decode c.parameters.salt with
    | none =>
      refine .inl ⟨fun A => ?_, rfl, by simp⟩
      have h := A.salt
      rw [hsalt] at h
      cases h
    | some salt =>
      refine .inr ⟨⟨by simpa using hsupported, hrange.1, by omega, by simpa using hprefix,
        by rw [hnonce]; rfl, by rw [hsalt]; rfl, UInt32.not_lt.mp hmax, Nat.not_lt.mp hexpected⟩,
        nonce, salt, rfl, rfl, rfl, fun s hs => ?_⟩
      dsimp only at hs
      split at hs
      · rename_i solution h
        cases hs
        exact h
      · cases hs

/-- All that is claimed of a run of the solver: no derivation costs more than was agreed, nor do all
of them together, and what it returns is a solution. -/
structure WithinLimits (c : Challenge) (limits : SolveLimits) : Prop where
  cost : ∀ cost ∈ (trySolveChallenge c limits).2, cost ≤ limits.maxCost
  work : ((trySolveChallenge c limits).2.map UInt32.toNat).sum ≤ limits.maxWork.toNat
  solution : ∀ s, (trySolveChallenge c limits).1 = .ok s → ∃ derived,
    keyFor c.parameters s.counter = some derived ∧ s.derivedKey = Hex.encode derived ∧
      keyPrefixMatches c.parameters.keyPrefix derived = true

/-- The counter runs up to the quotient of the work and the cost, inclusive, so one attempt more is
made than was agreed unless an earlier one succeeds or the counter is at its end. -/
theorem solver_within_limits_iff (c : Challenge) (limits : SolveLimits) :
    WithinLimits c limits ↔
      (Attempted c.parameters limits →
        2 ^ 32 ≤ limits.maxWork.toNat / c.parameters.cost.toNat ∨
        ∃ i < limits.maxWork.toNat / c.parameters.cost.toNat,
          Solves c.parameters (.ofNat i)) := by
  rcases trySolveChallenge_cases c limits with ⟨hnot, hruns, hno⟩ |
    ⟨A, nonce, salt, hnonce, hsalt, hruns, hok⟩
  · exact iff_of_true ⟨by simp [hruns], by simp [hruns], fun s hs => absurd hs (hno s)⟩
      fun A => absurd A hnot
  have hcosts := solveFrom_costs c.parameters nonce salt (maxCounter c.parameters limits + 1) 0
  obtain ⟨hle, hall⟩ := length_solveFrom hnonce hsalt (maxCounter c.parameters limits) 0
  rw [← hruns] at hcosts hle hall
  have hsum : ((trySolveChallenge c limits).2.map UInt32.toNat).sum =
      (trySolveChallenge c limits).2.length * c.parameters.cost.toNat := by
    rw [List.sum_eq_card_nsmul _ c.parameters.cost.toNat, List.length_map, smul_eq_mul]
    rintro x hx
    obtain ⟨cost, hcost, rfl⟩ := List.mem_map.mp hx
    rw [hcosts cost hcost]
  have hpos : 0 < c.parameters.cost.toNat := by
    refine Nat.pos_of_ne_zero fun h => A.cost ?_
    exact UInt32.toNat_inj.mp h
  have hwork : ((trySolveChallenge c limits).2.map UInt32.toNat).sum ≤ limits.maxWork.toNat ↔
      (trySolveChallenge c limits).2.length ≤ limits.maxWork.toNat / c.parameters.cost.toNat := by
    rw [hsum, Nat.le_div_iff_mul_le hpos]
  have hrest : WithinLimits c limits ↔
      (trySolveChallenge c limits).2.length ≤ limits.maxWork.toNat / c.parameters.cost.toNat := by
    rw [← hwork]
    refine ⟨fun W => W.work, fun h => ⟨fun cost hcost => ?_, h, fun s hs => ?_⟩⟩
    · exact hcosts cost hcost ▸ A.maxCost
    · exact solves_of_solveFrom hnonce hsalt (hok s hs)
  rw [hrest]
  simp only [A, true_implies, Nat.zero_add] at hall ⊢
  obtain ⟨q, hq⟩ : ∃ q, limits.maxWork.toNat / c.parameters.cost.toNat = q := ⟨_, rfl⟩
  have hmax : maxCounter c.parameters limits = min q (2 ^ 32 - 1) := by rw [maxCounter, hq]
  rw [hmax] at hle hall
  rw [hq]
  rcases Nat.lt_or_ge q (2 ^ 32) with hlt | hge
  · have hmin : min q (2 ^ 32 - 1) = q := min_eq_left (by omega)
    rw [hmin] at hle hall
    constructor
    · intro hlen
      refine .inr ?_
      by_contra hnone
      have := hall.mpr fun i hi hs => hnone ⟨i, hi, hs⟩
      omega
    · rintro (h | ⟨i, hi, hs⟩)
      · omega
      · have hne : (trySolveChallenge c limits).2.length ≠ q + 1 := fun h => hall.mp h i hi hs
        omega
  · have hmin : min q (2 ^ 32 - 1) = 2 ^ 32 - 1 := min_eq_right (by omega)
    rw [hmin] at hle
    exact iff_of_true (by omega) (.inl hge)

namespace Sample

/-- The first byte of PBKDF2-HMAC-SHA256 at one iteration, for the passwords `00` and a counter up
to 16 and the salt `00`. -/
def keys : List UInt8 :=
  [0x5b, 0x12, 0x7a, 0x4e, 0xfc, 0x36, 0x5d, 0xaf, 0x53, 0x3c, 0x65, 0x5e, 0x23, 0x29, 0x41, 0x2a,
    0x16]

@[reducible] def primitives : Primitives where
  pbkdf2HmacSha256 password _ _ _ := [keys.getD (password.getLast?.getD 0).toNat 0]
  hmacSha256 _ data := data
  jsonToString _ := []

/-- Keys of one byte, which is to begin with the digit 0. -/
def oneDigit : Challenge where
  parameters :=
    { algorithm := supportedAlgorithm, cost := 1, data := none, expiresAt := none, keyLength := 1
      keyPrefix := [0x30], nonce := [0x30, 0x30], salt := [0x30, 0x30] }
  signature := none

end Sample

omit [Primitives] in
/-- Sixteen iterations are agreed to, and seventeen are run. -/
theorem solver_exceeds_limits :
    ((@trySolveChallenge Sample.primitives Sample.oneDigit ⟨1, 16⟩).2.map UInt32.toNat).sum = 17 ∧
    ¬@WithinLimits Sample.primitives Sample.oneDigit ⟨1, 16⟩ := by
  have hsum : ((@trySolveChallenge Sample.primitives Sample.oneDigit ⟨1, 16⟩).2.map
      UInt32.toNat).sum = 17 := by decide +kernel
  refine ⟨hsum, fun W => ?_⟩
  have hwork := @WithinLimits.work Sample.primitives _ _ W
  rw [hsum] at hwork
  exact absurd hwork (by decide)

end TunnelWeaver.Abuse.Pow
