import TunnelWeaver.Client.Relays

/-! The relay's account-creation policy (`store/signup.rs`, the address checks of `email/mod.rs`):
numbered rules, of which the first that matches decides. A new rule's number is 100 after the highest
one, as an `i32`: the sum panics where overflow checks are on, and wraps around elsewhere. -/

namespace TunnelWeaver.Server.Signup

open Client (rsplitOnce)
open Proto.Policy (isWhitespace trim)

/-! ## Addresses -/

def isValidDomain (domain : List Char) : Bool :=
  !domain.isEmpty && domain.contains '.' && domain.head? != some '.' && domain.getLast? != some '.' &&
    domain.all fun c => c.isAlphanum || c == '.' || c == '-'

def isValidAddress (addr : List Char) : Bool :=
  let addr := trim addr
  if addr.isEmpty || addr.any isWhitespace then false
  else match addr.splitOn '@' with
    | [loc, domain] => !loc.isEmpty && isValidDomain domain
    | _ => false

variable (toLowercase : String → String)

/-- The lookup key of an address. -/
def normalizeAddress (addr : String) : String := toLowercase (.ofList (trim addr.toList))

/-- The domain half of a lookup key. -/
def domainOf (address : String) : String :=
  ((rsplitOnce '@' address.toList).map fun parts => .ofList parts.2).getD ""

/-! ## Rules -/

def ruleGap : Int32 := 100

inductive Decision
  | allow
  | deny
  deriving DecidableEq

namespace Decision

def asStr : Decision → String
  | allow => "allow"
  | deny => "deny"

def parse (word : String) : Option Decision :=
  if word = "allow" then some allow else if word = "deny" then some deny else none

theorem parse_asStr (d : Decision) : parse d.asStr = some d := by
  cases d <;> rfl

end Decision

/-- Which part of an address a rule matches. -/
inductive RuleKind
  | email
  | domain
  deriving DecidableEq

namespace RuleKind

def asStr : RuleKind → String
  | email => "email"
  | domain => "domain"

def parse (word : String) : Option RuleKind :=
  if word = "email" then some email else if word = "domain" then some domain else none

theorem parse_asStr (k : RuleKind) : parse k.asStr = some k := by
  cases k <;> rfl

def isValid : RuleKind → String → Bool
  | email, value => isValidAddress value.toList
  | domain, value => isValidDomain value.toList

def describe : RuleKind → String
  | email => "email address"
  | domain => "domain"

/-- A value of this kind matches an address with this lookup key. -/
def matchesKey : RuleKind → (value key : String) → Bool
  | email, value, key => value = key
  | domain, value, key => value = domainOf key

end RuleKind

/-- A rule's target, validated and normalised. -/
structure RuleValue where
  kind : RuleKind
  value : String
  valid : kind.isValid value = true

/-- `RuleValue::typed`. -/
def RuleValue.typed (kind : RuleKind) (input : String) : Except String RuleValue :=
  let value := normalizeAddress toLowercase input
  if h : kind.isValid value = true then .ok ⟨kind, value, h⟩
  else .error ("'" ++ input ++ "' is not a valid " ++ kind.describe)

def RuleValue.matchesKey (v : RuleValue) (key : String) : Bool := v.kind.matchesKey v.value key

/-- A rule, as listed for the operator. -/
structure Rule where
  number : Int32
  decision : Decision
  value : RuleValue

/-- A stored rule. -/
structure RuleRow where
  number : Int32
  decision : String
  kind : String
  value : String
  deriving DecidableEq

inductive SignupRefusal
  | rule (number : Int32)
  | default
  deriving DecidableEq

inductive SignupDecision
  | allowed
  | denied (refusal : SignupRefusal)
  deriving DecidableEq

/-- What a rule with this number and decision answers. -/
def Decision.answer (d : Decision) (number : Int32) : SignupDecision :=
  match d with
  | .allow => .allowed
  | .deny => .denied (.rule number)

namespace RuleRow

variable (r : RuleRow)

def matchesKey (key : String) : Bool :=
  (RuleKind.parse r.kind).any fun kind => kind.matchesKey r.value key

/-- An unreadable decision denies. -/
def answer : SignupDecision := ((Decision.parse r.decision).getD .deny).answer r.number

/-- `rule_from_row`. -/
def toRule : Option Rule := do
  let decision ← Decision.parse r.decision
  let value ← (RuleValue.typed toLowercase (← RuleKind.parse r.kind) r.value).toOption
  return ⟨r.number, decision, value⟩

end RuleRow

/-! ## The stored policy -/

/-- The rules in the order of their numbers, which are the primary key. -/
structure Rules where
  rows : List RuleRow
  sorted : rows.Pairwise (·.number < ·.number)

namespace Rules

variable (rules : Rules)

/-- The rule with the highest number. -/
def highest : Option RuleRow := rules.rows.getLast?

/-- The first rule that matches a lookup key. -/
def deciding (key : String) : Option RuleRow := rules.rows.find? (·.matchesKey key)

def insertRow (rows : List RuleRow) (r : RuleRow) : List RuleRow :=
  rows.takeWhile (·.number < r.number) ++ r :: rows.dropWhile (·.number < r.number)

variable {rows : List RuleRow} {r r' : RuleRow} {n : Int32}

theorem lt_of_mem_dropWhile (h : rows.Pairwise (·.number < ·.number))
    (hfree : ∀ r ∈ rows, r.number ≠ n) (hr : r ∈ rows.dropWhile (·.number < n)) : n < r.number := by
  induction rows with
  | nil => cases hr
  | cons r' rows ih =>
    obtain ⟨hlt, hrows⟩ := List.pairwise_cons.mp h
    obtain ⟨hne, hfree⟩ := List.forall_mem_cons.mp hfree
    rw [List.dropWhile_cons] at hr
    split at hr
    · exact ih hrows hfree hr
    · rename_i hnot
      have hn : n < r'.number :=
        (Int32.le_iff_lt_or_eq.mp (Int32.not_lt.mp (by simpa using hnot))).resolve_right hne.symm
      rcases List.mem_cons.mp hr with rfl | hr
      · exact hn
      · exact Int32.lt_trans hn (hlt r hr)

theorem lt_of_mem_takeWhile (hr : r ∈ rows.takeWhile (·.number < n)) : r.number < n := by
  simpa using List.mem_takeWhile_imp hr

theorem sorted_insertRow (h : rows.Pairwise (·.number < ·.number))
    (hfree : ∀ r' ∈ rows, r'.number ≠ r.number) :
    (insertRow rows r).Pairwise (·.number < ·.number) := by
  have hafter {r'} := lt_of_mem_dropWhile (r := r') h hfree
  refine List.pairwise_append.mpr ⟨h.sublist (List.takeWhile_sublist _),
    List.pairwise_cons.mpr ⟨fun _ => hafter, h.sublist (List.dropWhile_sublist _)⟩, ?_⟩
  intro r₁ hr₁ r₂ hr₂
  rcases List.mem_cons.mp hr₂ with rfl | hr₂
  · exact lt_of_mem_takeWhile hr₁
  · exact Int32.lt_trans (lt_of_mem_takeWhile hr₁) (hafter hr₂)

/-- A rule under a number that no rule has. -/
def insert (r : RuleRow) (hfree : ∀ r' ∈ rules.rows, r'.number ≠ r.number) : Rules :=
  ⟨insertRow rules.rows r, sorted_insertRow rules.sorted hfree⟩

variable {rules} {key : String} {hfree : ∀ r' ∈ rules.rows, r'.number ≠ r.number}

/-- A new rule decides what it matches, unless a rule with a lower number does. -/
theorem deciding_insert : (rules.insert r hfree).deciding key =
    if r.matchesKey key ∧ ∀ r', rules.deciding key = some r' → r.number < r'.number then some r
    else rules.deciding key := by
  have hrules : rules.deciding key = ((rules.rows.takeWhile (·.number < r.number)).find?
      (·.matchesKey key)).or ((rules.rows.dropWhile (·.number < r.number)).find?
      (·.matchesKey key)) := by
    rw [← List.find?_append, List.takeWhile_append_dropWhile, deciding]
  have hinsert : (rules.insert r hfree).deciding key =
      (insertRow rules.rows r).find? (·.matchesKey key) := rfl
  rw [hinsert, insertRow, List.find?_append, List.find?_cons, hrules]
  cases hbefore : (rules.rows.takeWhile (·.number < r.number)).find? (·.matchesKey key) with
  | some r' =>
    have hlt := lt_of_mem_takeWhile (List.mem_of_find?_eq_some hbefore)
    rw [Option.some_or, Option.some_or, if_neg]
    rintro ⟨-, hall⟩
    exact Int32.lt_irrefl (Int32.lt_trans hlt (hall r' rfl))
  | none =>
    rw [Option.none_or, Option.none_or]
    cases hmatch : r.matchesKey key with
    | false => rw [if_neg (by simp)]
    | true =>
      exact (if_pos ⟨rfl, fun r' hr' =>
        lt_of_mem_dropWhile rules.sorted hfree (List.mem_of_find?_eq_some hr')⟩).symm

theorem le_highest (h : rules.highest = some r) (hr : r' ∈ rules.rows) : r'.number ≤ r.number := by
  obtain ⟨front, hrows⟩ := List.getLast?_eq_some_iff.mp h
  rw [hrows] at hr
  rcases List.mem_append.mp hr with hr | hr
  · have hsorted := rules.sorted
    rw [hrows] at hsorted
    exact Int32.le_of_lt ((List.pairwise_append.mp hsorted).2.2 r' hr r (List.mem_singleton_self r))
  · rw [List.mem_singleton.mp hr]
    exact Int32.le_refl _

end Rules

structure Policy where
  rules : Rules
  /-- The stored default, when one was ever configured. -/
  default : Option String

namespace Policy

variable (p : Policy)

/-- An unreadable default denies. -/
def signupDefault : Decision :=
  match p.default with
  | none => .allow
  | some word => (Decision.parse word).getD .deny

def signupDecision (lookupKey : String) : SignupDecision :=
  match p.rules.deciding (normalizeAddress toLowercase lookupKey) with
  | some r => r.answer
  | none =>
    match p.signupDefault with
    | .allow => .allowed
    | .deny => .denied .default

/-- The number after the highest one; `none` when its sum panics, as it does on overflow in a build
with overflow checks. -/
def nextNumber (checks : Bool) : Option Int32 :=
  match p.rules.highest with
  | none => some ruleGap
  | some r =>
    if checks ∧ 2 ^ 31 ≤ r.number.toInt + ruleGap.toInt then none else some (r.number + ruleGap)

/-- The row of a new rule. -/
def newRow (number : Int32) (decision : Decision) (value : RuleValue) : RuleRow :=
  ⟨number, decision.asStr, value.kind.asStr, value.value⟩

/-- The transaction of `signup_rule_add`, with the number it settled on. -/
def addNumbered (number : Int32) (decision : Decision) (value : RuleValue) :
    Policy × Except String Rule :=
  if h : ∃ r ∈ p.rules.rows, r.number = number then
    (p, .error ("a rule numbered " ++ toString number ++ " already exists"))
  else
    let rules := p.rules.insert (newRow number decision value) fun r hr he => h ⟨r, hr, he⟩
    match (newRow number decision value).toRule toLowercase with
    | some rule => ({ p with rules }, .ok rule)
    | none => ({ p with rules }, .error "the inserted rule could not be read back")

/-- `signup_rule_add`; `none` when it panics. -/
def signupRuleAdd (checks : Bool) (number : Option Int32) (decision : Decision)
    (value : RuleValue) : Option (Policy × Except String Rule) :=
  (number.or (p.nextNumber checks)).map fun number =>
    p.addNumbered toLowercase number decision value

variable {p : Policy} {checks : Bool} {decision : Decision} {value : RuleValue}

/-- The number after the highest rule's is an `i32`. -/
def Fits (p : Policy) : Prop :=
  ∀ r, p.rules.highest = some r → r.number.toInt + ruleGap.toInt < 2 ^ 31

/-- `p'` decides as `p` every address that a rule of `p` matches, and the other ones that the value
matches as `rule` says. -/
def Appended (p p' : Policy) (value : RuleValue) (rule : Rule) : Prop :=
  ∀ lookupKey,
    ((∃ r ∈ p.rules.rows, r.matchesKey (normalizeAddress toLowercase lookupKey)) →
      p'.signupDecision toLowercase lookupKey = p.signupDecision toLowercase lookupKey) ∧
    ((¬∃ r ∈ p.rules.rows, r.matchesKey (normalizeAddress toLowercase lookupKey)) →
      value.matchesKey (normalizeAddress toLowercase lookupKey) = true →
      p'.signupDecision toLowercase lookupKey = rule.decision.answer rule.number)

/-- Every rule that decides an address with the value comes before the new rule, or both allow. -/
def Harmless (p : Policy) (number : Int32) (decision : Decision) (value : RuleValue) : Prop :=
  ∀ lookupKey, value.matchesKey (normalizeAddress toLowercase lookupKey) = true →
    ∀ r, p.rules.deciding (normalizeAddress toLowercase lookupKey) = some r →
      r.number < number ∨ Decision.parse r.decision = some .allow ∧ decision = .allow

/-- The insertion under a number is refused, or cannot be read back, or is harmless. -/
def Spares (p : Policy) (number : Int32) (decision : Decision) (value : RuleValue) : Prop :=
  (∃ r ∈ p.rules.rows, r.number = number) ∨
    (newRow number decision value).toRule toLowercase = none ∨
    Harmless toLowercase p number decision value

/-- A call that appends a rule does not panic, and keeps the policy if it succeeds. -/
def AddKeeps (checks : Bool) (p : Policy) (decision : Decision) (value : RuleValue) : Prop :=
  ∃ p' result, p.signupRuleAdd toLowercase checks none decision value = some (p', result) ∧
    ∀ rule, result = .ok rule → Appended toLowercase p p' value rule

variable {toLowercase}

theorem matchesKey_newRow (number : Int32) (decision : Decision) (value : RuleValue) (key : String) :
    (newRow number decision value).matchesKey key = value.matchesKey key := by
  rw [RuleRow.matchesKey, newRow, RuleKind.parse_asStr]
  rfl

theorem answer_newRow (number : Int32) (decision : Decision) (value : RuleValue) :
    (newRow number decision value).answer = decision.answer number := by
  rw [RuleRow.answer, newRow, Decision.parse_asStr]
  rfl

theorem answer_eq_iff {r : RuleRow} {number : Int32} (h : r.number ≠ number) :
    decision.answer number = r.answer ↔
      Decision.parse r.decision = some .allow ∧ decision = .allow := by
  rw [RuleRow.answer]
  cases hword : Decision.parse r.decision with
  | none => cases decision <;> simp [Decision.answer, h.symm]
  | some word => cases word <;> cases decision <;> simp [Decision.answer, h.symm]

variable {number : Int32} {lookupKey key : String}
  (hfree : ∀ r ∈ p.rules.rows, r.number ≠ (newRow number decision value).number)

theorem deciding_eq_none :
    p.rules.deciding key = none ↔ ¬∃ r ∈ p.rules.rows, r.matchesKey key = true := by
  simp [Rules.deciding]

theorem signupDecision_of_deciding {r : RuleRow}
    (h : p.rules.deciding (normalizeAddress toLowercase lookupKey) = some r) :
    p.signupDecision toLowercase lookupKey = r.answer := by
  rw [signupDecision, h]

theorem signupDecision_insert :
    signupDecision toLowercase
        { p with rules := p.rules.insert (newRow number decision value) hfree } lookupKey =
      if value.matchesKey (normalizeAddress toLowercase lookupKey) = true ∧
          ∀ r, p.rules.deciding (normalizeAddress toLowercase lookupKey) = some r →
            number < r.number
      then decision.answer number else p.signupDecision toLowercase lookupKey := by
  rw [signupDecision]
  dsimp only
  have hnumber : (newRow number decision value).number = number := rfl
  rw [Rules.deciding_insert, matchesKey_newRow, hnumber]
  by_cases hfirst : value.matchesKey (normalizeAddress toLowercase lookupKey) = true ∧
      ∀ r, p.rules.deciding (normalizeAddress toLowercase lookupKey) = some r → number < r.number
  · rw [if_pos hfirst, if_pos hfirst]
    exact answer_newRow ..
  · rw [if_neg hfirst, if_neg hfirst]
    rfl

/-- An inserted rule leaves the decisions of the others alone just if it is harmless. -/
theorem appended_insert_iff {rule : Rule} (hnumber : rule.number = number)
    (hdecision : rule.decision = decision) :
    Appended toLowercase p
      { p with rules := p.rules.insert (newRow number decision value) hfree } value rule ↔
    Harmless toLowercase p number decision value := by
  constructor
  · intro happ lookupKey hvalue r hr
    have hmem := List.mem_of_find?_eq_some hr
    have hfirst : r.matchesKey (normalizeAddress toLowercase lookupKey) = true := by
      simpa using List.find?_some hr
    have hmatch := (happ lookupKey).1 ⟨r, hmem, hfirst⟩
    have hne : r.number ≠ number := hfree r hmem
    rcases Int32.le_total r.number number with hle | hle
    · exact .inl ((Int32.le_iff_lt_or_eq.mp hle).resolve_right hne)
    · have hlt := (Int32.le_iff_lt_or_eq.mp hle).resolve_right hne.symm
      rw [signupDecision_insert, if_pos, signupDecision_of_deciding hr, answer_eq_iff hne] at hmatch
      · exact .inr hmatch
      · refine ⟨hvalue, fun r' hr' => ?_⟩
        rw [hr] at hr'
        cases hr'
        exact hlt
  · intro hharmless lookupKey
    constructor
    · intro hmatch
      rw [signupDecision_insert]
      split
      · rename_i hfirst
        cases hr : p.rules.deciding (normalizeAddress toLowercase lookupKey) with
        | none => exact absurd hmatch (deciding_eq_none.mp hr)
        | some r =>
          have hne : r.number ≠ number := hfree r (List.mem_of_find?_eq_some hr)
          rw [signupDecision_of_deciding hr, answer_eq_iff hne]
          refine (hharmless lookupKey hfirst.1 r hr).resolve_left fun hlt => ?_
          exact Int32.lt_irrefl (Int32.lt_trans hlt (hfirst.2 r hr))
      · rfl
    · intro hmatch hvalue
      rw [signupDecision_insert, if_pos, hdecision, hnumber]
      refine ⟨hvalue, fun r hr => ?_⟩
      rw [deciding_eq_none.mpr hmatch] at hr
      cases hr

/-- The new rule is read back as it was written. -/
theorem toRule_newRow {rule : Rule}
    (h : (newRow number decision value).toRule toLowercase = some rule) :
    rule.number = number ∧ rule.decision = decision := by
  simp only [RuleRow.toRule, newRow, Decision.parse_asStr, RuleKind.parse_asStr,
    Option.bind_eq_bind, Option.bind_some, Option.bind_eq_some_iff] at h
  obtain ⟨v, -, h⟩ := h
  cases h
  exact ⟨rfl, rfl⟩

/-- With a number that fits, the new rule comes last. -/
theorem harmless_of_fits (h : p.Fits) (hnumber : p.nextNumber checks = some number) :
    Harmless toLowercase p number decision value := by
  intro lookupKey _ r hr
  have hmem := List.mem_of_find?_eq_some hr
  cases hhighest : p.rules.highest with
  | none =>
    rw [Rules.highest, List.getLast?_eq_none_iff] at hhighest
    rw [hhighest] at hmem
    cases hmem
  | some last =>
    have hfits := h last hhighest
    rw [nextNumber, hhighest] at hnumber
    dsimp only at hnumber
    rw [if_neg (by omega)] at hnumber
    cases hnumber
    have hle := Int32.le_iff_toInt_le.mp (Rules.le_highest hhighest hmem)
    have hmin := last.number.le_toInt
    have hgap : ruleGap.toInt = 100 := by decide
    left
    rw [Int32.lt_iff_toInt_lt, Int32.toInt_add, Int.bmod_eq_of_le (by omega) (by omega)]
    omega

/-- Without overflow checks there always is a number. -/
theorem nextNumber_unchecked : ∃ number, p.nextNumber false = some number := by
  rw [nextNumber]
  split
  · exact ⟨_, rfl⟩
  · exact ⟨_, rfl⟩

/-- With them, there is one when it fits. -/
theorem nextNumber_checked : (∃ number, p.nextNumber true = some number) ↔ p.Fits := by
  rw [nextNumber, Fits]
  cases p.rules.highest with
  | none => exact iff_of_true ⟨_, rfl⟩ fun r hr => by cases hr
  | some r =>
    simp only [Option.some.injEq, forall_eq']
    split
    · rename_i h
      exact iff_of_false (by simp) (Int.not_lt.mpr h.2)
    · rename_i h
      exact iff_of_true ⟨_, rfl⟩ (Int.not_le.mp fun hle => h ⟨trivial, hle⟩)

theorem addKeeps_iff (h : p.nextNumber checks = some number) :
    AddKeeps toLowercase checks p decision value ↔
      Spares toLowercase p number decision value := by
  have hcall : p.signupRuleAdd toLowercase checks none decision value =
      some (p.addNumbered toLowercase number decision value) := by
    rw [signupRuleAdd, h]
    rfl
  rw [AddKeeps, hcall, Spares, addNumbered]
  by_cases hused : ∃ r ∈ p.rules.rows, r.number = number
  · rw [dif_pos hused]
    refine iff_of_true ⟨_, _, rfl, fun rule hrule => ?_⟩ (.inl hused)
    cases hrule
  · rw [dif_neg hused, or_iff_right hused]
    cases hrule : (newRow number decision value).toRule toLowercase with
    | none =>
      refine iff_of_true ⟨_, _, rfl, fun rule hrule => ?_⟩ (.inl rfl)
      cases hrule
    | some rule =>
      obtain ⟨hnumber, hdecision⟩ := toRule_newRow hrule
      rw [or_iff_right (by simp), ← appended_insert_iff
        (fun r hr he => hused ⟨r, hr, he⟩) hnumber hdecision]
      constructor
      · rintro ⟨p', result, heq, hall⟩
        cases heq
        exact hall rule rfl
      · intro happ
        refine ⟨_, _, rfl, fun rule' heq => ?_⟩
        cases heq
        exact happ

/-- A call that appends a rule keeps the policy if the number after the highest one fits. Otherwise
it panics where overflow checks are on, and elsewhere it uses a number that comes early. -/
theorem signup_rule_appended (toLowercase : String → String) (p : Policy) (decision : Decision)
    (value : RuleValue) :
    (AddKeeps toLowercase true p decision value ↔ p.Fits) ∧
    (AddKeeps toLowercase false p decision value ↔
      p.Fits ∨ ∃ r, p.rules.highest = some r ∧
        Spares toLowercase p (r.number + ruleGap) decision value) := by
  have hfits {checks number} (h : p.Fits) (hnumber : p.nextNumber checks = some number) :
      AddKeeps toLowercase checks p decision value :=
    (addKeeps_iff hnumber).mpr (.inr (.inr (harmless_of_fits h hnumber)))
  constructor
  · refine Iff.trans ⟨fun h => ?_, fun h => ?_⟩ nextNumber_checked
    · obtain ⟨p', result, hcall, -⟩ := h
      obtain ⟨number, hnumber, -⟩ := Option.map_eq_some_iff.mp hcall
      exact ⟨number, hnumber⟩
    · obtain ⟨number, hnumber⟩ := h
      exact hfits (nextNumber_checked.mp ⟨number, hnumber⟩) hnumber
  · cases hhighest : p.rules.highest with
    | none =>
      have hnumber : p.nextNumber false = some ruleGap := by rw [nextNumber, hhighest]
      have hempty : p.Fits := fun r hr => by
        rw [hhighest] at hr
        cases hr
      exact iff_of_true (hfits hempty hnumber) (.inl hempty)
    | some r =>
      have hnumber : p.nextNumber false = some (r.number + ruleGap) := by
        rw [nextNumber, hhighest]
        rfl
      rw [addKeeps_iff hnumber]
      constructor
      · exact fun h => .inr ⟨r, rfl, h⟩
      · rintro (h | ⟨r', hr', h⟩)
        · exact (addKeeps_iff hnumber).mp (hfits h hnumber)
        · cases hr'
          exact h

/-- A denied domain, under one of the last numbers. -/
def lastRule : RuleRow := ⟨2147483600, "deny", "domain", "a.io"⟩

/-- An allowed address of the domain overrides it, or the call panics. -/
theorem signup_rule_overflows :
    let p : Policy := ⟨⟨[lastRule], List.pairwise_singleton ..⟩, none⟩
    let value : RuleValue := ⟨.email, "x@a.io", by decide +kernel⟩
    p.signupDecision id "x@a.io" = .denied (.rule 2147483600) ∧
    (p.signupRuleAdd id true none .allow value).isNone ∧
    ((p.signupRuleAdd id false none .allow value).map fun out =>
      (out.2.toOption.map (·.number), out.1.signupDecision id "x@a.io")) =
        some (some (-2147483596), .allowed) ∧
    ¬AddKeeps id true p .allow value ∧ ¬AddKeeps id false p .allow value := by
  intro p value
  have hbefore : p.signupDecision id "x@a.io" = .denied (.rule 2147483600) := by decide +kernel
  have hnone : (p.signupRuleAdd id true none .allow value).isNone := by decide +kernel
  have hcall : (p.signupRuleAdd id false none .allow value).map (fun out =>
      (out.2.toOption.map (·.number), out.1.signupDecision id "x@a.io")) =
        some (some (-2147483596), .allowed) := by decide +kernel
  refine ⟨hbefore, hnone, hcall, ?_, ?_⟩
  · rintro ⟨p', result, heq, -⟩
    rw [heq] at hnone
    cases hnone
  · rintro ⟨p', result, heq, hall⟩
    rw [heq, Option.map_some, Option.some.injEq, Prod.mk.injEq] at hcall
    obtain ⟨hrule, hafter⟩ := hcall
    cases result with
    | error e => cases hrule
    | ok rule =>
      have hkept := (hall rule rfl "x@a.io").1 ⟨lastRule, List.mem_singleton_self _, by decide +kernel⟩
      rw [hafter, hbefore] at hkept
      cases hkept

end Policy

end TunnelWeaver.Server.Signup
