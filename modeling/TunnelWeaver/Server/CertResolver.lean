import TunnelWeaver.Lib.Automaton
import TunnelWeaver.Lib.Latches
import TunnelWeaver.Server.ManagedCerts

/-! The TLS handshakes of the relay (`cert/resolver.rs`), beside the orders of its certificates.
Each access of a handshake to the certificates or to the marks is a step of its own, and so are the
two halves of an insertion; a hold may time out at any time, and the clock may be set back. -/

namespace TunnelWeaver.Server

open Automaton
open Proto (toAsciiLowercase)

variable {κ : Type}

structure StoredCert (κ : Type) where
  key : κ
  notAfter : Int

/-- A `resolve`, by what it does next. -/
inductive Resolve (κ : Type)
  /-- It has read the clock, and looks for a certificate. -/
  | checking (certName : String) (now : Int)
  /-- There was none; `is_ordering` is next. -/
  | asking (certName : String)
  /-- `wait_for_ordering` takes the waiter. -/
  | joining (certName : String)
  | holding (certName : String) (waiter : Nat)
  | rechecking (certName : String)
  | ended (served : Option κ)
  deriving DecidableEq

/-- The resolver, its clock and its handshakes. `inserting` are the names whose certificate is
stored and whose waiter is not yet notified. -/
structure CertResolver (κ : Type) where
  managed : List ManagedCert
  certs : Map String (StoredCert κ) := ∅
  orderingWaiters : Latches String := Latches.empty
  now : Int
  inserting : List String := []
  handshakes : List (Resolve κ) := []

inductive ResolverAct (κ : Type)
  | clock (now : Int)
  | hello (sni : Option String)
  | go (i : Nat)
  | timeout (i : Nat)
  | insert (name : String) (key : κ) (notAfter : Int)
  | notify (name : String)
  | mark (name : String)
  | clear (name : String)

/-- The clock reads an instant before the given one, wherever the action sets it. -/
def ResolverAct.Before (limit : Int) : ResolverAct κ → Prop
  | .clock now => now < limit
  | _ => True

/-- The handshake may count on a certificate that is good until `notAfter` to be stored under its
name: it has not looked yet, or will look again. -/
def Resolve.Due (certName : String) (notAfter : Int) : Resolve κ → Prop
  | .checking name now => name = certName ∧ now < notAfter
  | .asking _ => False
  | .joining name => name = certName
  | .holding name _ => name = certName
  | .rechecking name => name = certName
  | .ended served => served ≠ none

namespace CertResolver

def withManaged (managed : List ManagedCert) (now : Int) : CertResolver κ where
  managed
  now

/-- The certificate whose identifiers cover a host. -/
def certNameFor (managed : List ManagedCert) (host : String) : Option String :=
  (managed.find? (·.covers host)).map (·.name)

/-- The certificate that is served under a name at an instant. -/
def serving (r : CertResolver κ) (certName : String) (now : Int) : Option κ :=
  (r.certs.lookup certName).bind fun cert => if now < cert.notAfter then some cert.key else none

def isPlaceholder (r : CertResolver κ) (name : String) : Bool :=
  match (certNameFor r.managed (toAsciiLowercase name)).bind r.certs.lookup with
  | some cert => decide (cert.notAfter ≤ r.now)
  | none => true

/-- The first half of `insert_cert_with_expiry`: a certificate stays if it outlives the new one. -/
def insertCert (r : CertResolver κ) (name : String) (key : κ) (notAfter : Int) : CertResolver κ :=
  let lower := toAsciiLowercase name
  { r with
    certs := match r.certs.lookup lower with
      | some existing =>
        if existing.notAfter ≤ notAfter then r.certs.insert lower ⟨key, notAfter⟩ else r.certs
      | none => r.certs.insert lower ⟨key, notAfter⟩
    inserting := lower :: r.inserting }

/-- Its second half, with the name in lower case already. -/
def notify (r : CertResolver κ) (lower : String) : CertResolver κ :=
  { r with
    orderingWaiters := r.orderingWaiters.clear lower
    inserting := r.inserting.erase lower }

def markOrdering (r : CertResolver κ) (name : String) : CertResolver κ :=
  { r with orderingWaiters := r.orderingWaiters.mark (toAsciiLowercase name) }

def clearOrdering (r : CertResolver κ) (name : String) : CertResolver κ :=
  { r with orderingWaiters := r.orderingWaiters.clear (toAsciiLowercase name) }

/-- A `resolve` begins: without a certificate for its host it is over at once. -/
def greet (r : CertResolver κ) (sni : Option String) : Resolve κ :=
  match sni.bind fun sni => certNameFor r.managed (toAsciiLowercase sni) with
  | some certName => .checking certName r.now
  | none => .ended none

/-- The next step of a handshake, unless it is held or over. -/
def next (r : CertResolver κ) : Resolve κ → Option (Resolve κ)
  | .checking certName now =>
    match r.serving certName now with
    | some key => some (.ended (some key))
    | none => some (.asking certName)
  | .asking certName =>
    some (if r.orderingWaiters.isMarked certName then .joining certName else .ended none)
  | .joining certName =>
    match r.orderingWaiters.table.lookup certName with
    | some waiter => some (.holding certName waiter)
    | none => some (.rechecking certName)
  | .holding certName waiter =>
    if r.orderingWaiters.isOpen waiter then some (.rechecking certName) else none
  | .rechecking certName => some (.ended (r.serving certName r.now))
  | .ended _ => none

/-- What a handshake goes on as when its hold times out. -/
def expire : Resolve κ → Option (Resolve κ)
  | .holding certName _ => some (.rechecking certName)
  | _ => none

/-- Handshake `i` goes on as `f` says. -/
def alter (r : CertResolver κ) (i : Nat) (f : Resolve κ → Option (Resolve κ)) :
    Option (CertResolver κ) :=
  (r.handshakes[i]?.bind f).map fun h => { r with handshakes := r.handshakes.set i h }

def step (r : CertResolver κ) : ResolverAct κ → Option (CertResolver κ)
  | .clock now => some { r with now }
  | .hello sni => some { r with handshakes := r.handshakes ++ [r.greet sni] }
  | .go i => r.alter i r.next
  | .timeout i => r.alter i expire
  | .insert name key notAfter => some (r.insertCert name key notAfter)
  | .notify lower => if lower ∈ r.inserting then some (r.notify lower) else none
  | .mark name => some (r.markOrdering name)
  | .clear name => some (r.clearOrdering name)

/-! ## One step -/

section
variable {r r' : CertResolver κ} {a : ResolverAct κ} {h h' : Resolve κ} {i j : Nat}
  {certName : String} {notAfter now : Int} {key : κ}

theorem serving_eq_some : r.serving certName now = some key ↔
    ∃ cert, r.certs.lookup certName = some cert ∧ now < cert.notAfter ∧ cert.key = key := by
  simp [serving, Option.bind_eq_some_iff]

theorem alter_eq_some {f : Resolve κ → Option (Resolve κ)} : r.alter i f = some r' ↔
    ∃ h h', r.handshakes[i]? = some h ∧ f h = some h' ∧
      r' = { r with handshakes := r.handshakes.set i h' } := by
  simp only [alter, Option.map_eq_some_iff, Option.bind_eq_some_iff]
  constructor
  · rintro ⟨h', ⟨h, hi, hf⟩, rfl⟩
    exact ⟨h, h', hi, hf, rfl⟩
  · rintro ⟨h, h', hi, hf, rfl⟩
    exact ⟨h', ⟨h, hi, hf⟩, rfl⟩

/-- What a step does. -/
inductive Steps (r : CertResolver κ) : ResolverAct κ → CertResolver κ → Prop
  | clock (now : Int) : Steps r (.clock now) { r with now }
  | hello (sni : Option String) :
    Steps r (.hello sni) { r with handshakes := r.handshakes ++ [r.greet sni] }
  | go {i : Nat} {h h' : Resolve κ} : r.handshakes[i]? = some h → r.next h = some h' →
    Steps r (.go i) { r with handshakes := r.handshakes.set i h' }
  | timeout {i : Nat} {h h' : Resolve κ} : r.handshakes[i]? = some h → expire h = some h' →
    Steps r (.timeout i) { r with handshakes := r.handshakes.set i h' }
  | insert (name : String) (key : κ) (notAfter : Int) :
    Steps r (.insert name key notAfter) (r.insertCert name key notAfter)
  | notify {lower : String} : lower ∈ r.inserting → Steps r (.notify lower) (r.notify lower)
  | mark (name : String) : Steps r (.mark name) (r.markOrdering name)
  | clear (name : String) : Steps r (.clear name) (r.clearOrdering name)

theorem steps_iff : r.step a = some r' ↔ Steps r a r' := by
  constructor
  · intro hr
    cases a with
    | go i =>
      obtain ⟨_, _, hi, hnext, rfl⟩ := alter_eq_some.mp hr
      exact .go hi hnext
    | timeout i =>
      obtain ⟨_, _, hi, hexpire, rfl⟩ := alter_eq_some.mp hr
      exact .timeout hi hexpire
    | notify lower =>
      simp only [step] at hr
      split at hr
      · cases hr
        exact .notify ‹_›
      · cases hr
    | clock now => cases hr; exact .clock now
    | hello sni => cases hr; exact .hello sni
    | insert name key notAfter => cases hr; exact .insert name key notAfter
    | mark name => cases hr; exact .mark name
    | clear name => cases hr; exact .clear name
  · intro hr
    cases hr with
    | go hi hnext => exact alter_eq_some.mpr ⟨_, _, hi, hnext, rfl⟩
    | timeout hi hexpire => exact alter_eq_some.mpr ⟨_, _, hi, hexpire, rfl⟩
    | notify hmem => exact if_pos hmem
    | clock _ => rfl
    | hello _ => rfl
    | insert _ _ _ => rfl
    | mark _ => rfl
    | clear _ => rfl

/-- How one step may change a handshake. -/
def Moves (r : CertResolver κ) (h h' : Resolve κ) : Prop :=
  h' = h ∨ r.next h = some h' ∨ expire h = some h'

theorem moves_set {x x' : Resolve κ} (hi : r.handshakes[i]? = some x) (hx : r.Moves x x')
    (hj : r.handshakes[j]? = some h) :
    ∃ h', (r.handshakes.set i x')[j]? = some h' ∧ r.Moves h h' := by
  obtain ⟨hlen, _⟩ := List.getElem?_eq_some_iff.mp hi
  rw [List.getElem?_set]
  by_cases hij : i = j
  · subst hij
    rw [if_pos rfl, if_pos hlen]
    cases hi.symm.trans hj
    exact ⟨x', rfl, hx⟩
  · rw [if_neg hij]
    exact ⟨h, hj, .inl rfl⟩

/-- A handshake that is there stays, and moves by its own steps only. -/
theorem Steps.moves (S : Steps r a r') (hj : r.handshakes[j]? = some h) :
    ∃ h', r'.handshakes[j]? = some h' ∧ r.Moves h h' := by
  cases S with
  | hello sni =>
    refine ⟨h, ?_, .inl rfl⟩
    rw [List.getElem?_append_left (List.getElem?_eq_some_iff.mp hj).1]
    exact hj
  | go hi hnext => exact moves_set hi (.inr (.inl hnext)) hj
  | timeout hi hexpire => exact moves_set hi (.inr (.inr hexpire)) hj
  | clock _ => exact ⟨h, hj, .inl rfl⟩
  | insert _ _ _ => exact ⟨h, hj, .inl rfl⟩
  | notify _ => exact ⟨h, hj, .inl rfl⟩
  | mark _ => exact ⟨h, hj, .inl rfl⟩
  | clear _ => exact ⟨h, hj, .inl rfl⟩

/-- Only an arrival adds a handshake. -/
theorem Steps.handshakes (S : Steps r a r') :
    (∃ sni, a = .hello sni ∧ r'.handshakes = r.handshakes ++ [r.greet sni]) ∨
      (∀ sni, a ≠ .hello sni) ∧ r'.handshakes.length = r.handshakes.length := by
  cases S with
  | hello sni => exact .inl ⟨sni, rfl, rfl⟩
  | go hi hnext => exact .inr ⟨fun _ h => (by cases h), List.length_set ..⟩
  | timeout hi hexpire => exact .inr ⟨fun _ h => (by cases h), List.length_set ..⟩
  | clock _ => exact .inr ⟨fun _ h => (by cases h), rfl⟩
  | insert _ _ _ => exact .inr ⟨fun _ h => (by cases h), rfl⟩
  | notify _ => exact .inr ⟨fun _ h => (by cases h), rfl⟩
  | mark _ => exact .inr ⟨fun _ h => (by cases h), rfl⟩
  | clear _ => exact .inr ⟨fun _ h => (by cases h), rfl⟩

/-- Every handshake after a step was there before it, or has just begun. -/
theorem Steps.of_getElem? (S : Steps r a r') (hj : r'.handshakes[j]? = some h') :
    (∃ h, r.handshakes[j]? = some h ∧ r.Moves h h') ∨
      ∃ sni, a = .hello sni ∧ j = r.handshakes.length ∧ h' = r.greet sni := by
  cases hold : r.handshakes[j]? with
  | some h =>
    obtain ⟨x, hx, hmoves⟩ := S.moves hold
    cases hx.symm.trans hj
    exact .inl ⟨h, rfl, hmoves⟩
  | none =>
    have hlt := (List.getElem?_eq_some_iff.mp hj).1
    have hge := List.getElem?_eq_none_iff.mp hold
    obtain ⟨sni, rfl, hnew⟩ | ⟨_, hlen⟩ := S.handshakes
    · rw [hnew, List.length_append, List.length_singleton] at hlt
      have heq : j = r.handshakes.length := by omega
      subst heq
      rw [hnew, List.getElem?_concat_length] at hj
      exact .inr ⟨sni, rfl, rfl, (Option.some.inj hj).symm⟩
    · omega

end

/-! ## The certificates -/

section
variable {r r' : CertResolver κ} {a : ResolverAct κ} {l : List (ResolverAct κ)} {h h' : Resolve κ}
  {i : Nat} {certName : String} {notAfter now : Int} {key : κ}

/-- A certificate at least as good as `notAfter` is stored under the name. -/
def Stored (r : CertResolver κ) (certName : String) (notAfter : Int) : Prop :=
  ∃ cert, r.certs.lookup certName = some cert ∧ notAfter ≤ cert.notAfter

theorem Stored.serving (h : r.Stored certName notAfter) (hnow : now < notAfter) :
    ∃ key, r.serving certName now = some key := by
  obtain ⟨cert, hcert, hle⟩ := h
  exact ⟨cert.key, serving_eq_some.mpr ⟨cert, hcert, by omega, rfl⟩⟩

theorem stored_insertCert (name : String) (key : κ) (notAfter : Int) :
    (r.insertCert name key notAfter).Stored (toAsciiLowercase name) notAfter := by
  simp only [Stored, insertCert]
  split
  · rename_i existing hexisting
    split
    · exact ⟨⟨key, notAfter⟩, by rw [Map.lookup_insert_ite, if_pos rfl], le_rfl⟩
    · exact ⟨existing, hexisting, by omega⟩
  · exact ⟨⟨key, notAfter⟩, by rw [Map.lookup_insert_ite, if_pos rfl], le_rfl⟩

/-- What is stored under a name after an insertion was stored there before it, or is what was
inserted. -/
theorem of_lookup_insertCert {name : String} {cert : StoredCert κ}
    (h : (r.insertCert name key notAfter).certs.lookup certName = some cert) :
    r.certs.lookup certName = some cert ∨
      certName = toAsciiLowercase name ∧ cert = ⟨key, notAfter⟩ := by
  have hinsert : (r.certs.insert (toAsciiLowercase name) ⟨key, notAfter⟩).lookup certName =
      some cert → r.certs.lookup certName = some cert ∨
        certName = toAsciiLowercase name ∧ cert = ⟨key, notAfter⟩ := by
    intro h
    rw [Map.lookup_insert_ite] at h
    split at h
    · exact .inr ⟨‹_›, (Option.some.inj h).symm⟩
    · exact .inl h
  simp only [insertCert] at h
  split at h
  · split at h
    · exact hinsert h
    · exact .inl h
  · exact hinsert h

theorem Stored.insertCert (h : r.Stored certName notAfter) (name : String) (key : κ) (na : Int) :
    (r.insertCert name key na).Stored certName notAfter := by
  obtain ⟨cert, hcert, hle⟩ := h
  by_cases hname : certName = toAsciiLowercase name
  · subst hname
    simp only [Stored, CertResolver.insertCert, hcert]
    split
    · exact ⟨⟨key, na⟩, by rw [Map.lookup_insert_ite, if_pos rfl], hle.trans ‹_›⟩
    · exact ⟨cert, hcert, hle⟩
  · refine ⟨cert, ?_, hle⟩
    simp only [CertResolver.insertCert]
    split
    · split
      · rw [Map.lookup_insert_ite, if_neg hname]
        exact hcert
      · exact hcert
    · rw [Map.lookup_insert_ite, if_neg hname]
      exact hcert

theorem Stored.step (hstored : r.Stored certName notAfter) (S : Steps r a r') :
    r'.Stored certName notAfter := by
  cases S with
  | insert name key na => exact hstored.insertCert name key na
  | clock _ => exact hstored
  | hello _ => exact hstored
  | go _ _ => exact hstored
  | timeout _ _ => exact hstored
  | notify _ => exact hstored
  | mark _ => exact hstored
  | clear _ => exact hstored

theorem Steps.before {limit : Int} (S : Steps r a r') (ha : a.Before limit) (hnow : r.now < limit) :
    r'.now < limit := by
  cases S with
  | clock now => exact ha
  | hello _ => exact hnow
  | go _ _ => exact hnow
  | timeout _ _ => exact hnow
  | insert _ _ _ => exact hnow
  | notify _ => exact hnow
  | mark _ => exact hnow
  | clear _ => exact hnow

theorem Moves.due (hmoves : r.Moves h h') (hstored : r.Stored certName notAfter)
    (hnow : r.now < notAfter) (hdue : h.Due certName notAfter) : h'.Due certName notAfter := by
  obtain rfl | hnext | hexpire := hmoves
  · exact hdue
  · cases h with
    | checking name now =>
      obtain ⟨rfl, hlt⟩ := hdue
      obtain ⟨key, hkey⟩ := hstored.serving hlt
      simp only [next, hkey] at hnext
      cases hnext
      exact Option.some_ne_none key
    | asking name => exact hdue.elim
    | joining name =>
      simp only [next] at hnext
      split at hnext <;> cases hnext <;> exact hdue
    | holding name waiter =>
      simp only [next] at hnext
      split at hnext
      · cases hnext
        exact hdue
      · cases hnext
    | rechecking name =>
      cases hdue
      obtain ⟨key, hkey⟩ := hstored.serving hnow
      simp only [next, hkey] at hnext
      cases hnext
      exact Option.some_ne_none key
    | ended served => cases hnext
  · cases h with
    | holding name waiter =>
      cases hexpire
      exact hdue
    | checking _ _ => cases hexpire
    | asking _ => cases hexpire
    | joining _ => cases hexpire
    | rechecking _ => cases hexpire
    | ended _ => cases hexpire

theorem due_of_run (hstored : r.Stored certName notAfter) (hnow : r.now < notAfter)
    (hbefore : ∀ a ∈ l, a.Before notAfter) (hi : r.handshakes[i]? = some h)
    (hdue : h.Due certName notAfter) (hrun : run step r l = some r') :
    ∃ h', r'.handshakes[i]? = some h' ∧ h'.Due certName notAfter := by
  induction l generalizing r h with
  | nil =>
    cases hrun
    exact ⟨h, hi, hdue⟩
  | cons a l ih =>
    obtain ⟨r₁, hr, hrun⟩ := run_cons_eq_some.mp hrun
    obtain ⟨ha, hl⟩ := List.forall_mem_cons.mp hbefore
    have S := steps_iff.mp hr
    obtain ⟨h₁, hi₁, hmoves⟩ := S.moves hi
    exact ih (hstored.step S) (S.before ha hnow) hl hi₁ (hmoves.due hstored hnow hdue) hrun

theorem stored_of_run (hstored : r.Stored certName notAfter) (hnow : r.now < notAfter)
    (hbefore : ∀ a ∈ l, a.Before notAfter) (hrun : run step r l = some r') :
    r'.Stored certName notAfter ∧ r'.now < notAfter := by
  refine run_invariant (I := fun r => r.Stored certName notAfter ∧ r.now < notAfter)
    (fun hI ha hr => ⟨hI.1.step (steps_iff.mp hr), (steps_iff.mp hr).before ha hI.2⟩)
    hbefore ⟨hstored, hnow⟩ hrun

/-- While a certificate that was inserted is in date, whatever is inserted, ordered and given up
meanwhile, no handshake that it was held for is rejected, and none that comes after it. -/
theorem never_rejected {name : String} (hnow : r.now < notAfter)
    (hbefore : ∀ a ∈ l, a.Before notAfter)
    (hrun : run step r (.insert name key notAfter :: l) = some r') :
    (∀ (i : Nat) (h : Resolve κ), r.handshakes[i]? = some h →
      h.Due (toAsciiLowercase name) notAfter →
      ∃ h', r'.handshakes[i]? = some h' ∧ h'.Due (toAsciiLowercase name) notAfter) ∧
    ∀ l₁ sni l₂ r₁, l = l₁ ++ .hello (some sni) :: l₂ →
      run step r (.insert name key notAfter :: l₁) = some r₁ →
      certNameFor r₁.managed (toAsciiLowercase sni) = some (toAsciiLowercase name) →
      ∃ h', r'.handshakes[r₁.handshakes.length]? = some h' ∧
        h'.Due (toAsciiLowercase name) notAfter := by
  have hstored := stored_insertCert (r := r) name key notAfter
  constructor
  · intro i h hi hdue
    obtain ⟨_, hr, hrun⟩ := run_cons_eq_some.mp hrun
    cases hr
    exact due_of_run hstored hnow hbefore hi hdue hrun
  · rintro l₁ sni l₂ r₁ rfl hrun₁ hname
    obtain ⟨hbefore₁, hbefore₂⟩ := List.forall_mem_append.mp hbefore
    obtain ⟨_, hr, hrun⟩ := run_cons_eq_some.mp hrun
    obtain ⟨_, hr', hrun₁⟩ := run_cons_eq_some.mp hrun₁
    cases hr
    cases hr'
    obtain ⟨r₂, hr₁, hrun⟩ := run_append_eq_some.mp hrun
    cases hr₁.symm.trans hrun₁
    obtain ⟨r₃, hr₂, hrun⟩ := run_cons_eq_some.mp hrun
    obtain ⟨hstored₁, hnow₁⟩ := stored_of_run hstored hnow hbefore₁ hrun₁
    have hi : r₃.handshakes[r₁.handshakes.length]? = some (r₁.greet (some sni)) := by
      cases hr₂
      exact List.getElem?_concat_length
    have S := steps_iff.mp hr₂
    refine due_of_run (hstored₁.step S) (S.before trivial hnow₁)
      (fun a ha => hbefore₂ a (List.mem_cons_of_mem _ ha)) hi ?_ hrun
    simp only [greet, Option.bind_some, hname]
    exact ⟨rfl, hnow₁⟩

end

/-! ## The waiters -/

section
variable {r r' : CertResolver κ} {a : ResolverAct κ} {l : List (ResolverAct κ)} {h h' : Resolve κ}
  {i : Nat} {certName : String} {waiter : Nat} {managed : List ManagedCert} {now : Int} {key : κ}

/-- Every handshake that is held took its waiter under its name. -/
def Held (r : CertResolver κ) : Prop := ∀ (i : Nat) certName waiter,
  r.handshakes[i]? = some (.holding certName waiter) → r.orderingWaiters.Taken certName waiter

theorem Steps.taken (S : Steps r a r') (h : r.orderingWaiters.Taken certName waiter) :
    r'.orderingWaiters.Taken certName waiter := by
  cases S with
  | notify _ => exact h.clear
  | mark _ => exact h.mark
  | clear _ => exact h.clear
  | clock _ => exact h
  | hello _ => exact h
  | go _ _ => exact h
  | timeout _ _ => exact h
  | insert _ _ _ => exact h

theorem Moves.taken (hmoves : r.Moves h (.holding certName waiter)) :
    h = .holding certName waiter ∨ r.orderingWaiters.table.lookup certName = some waiter := by
  obtain hsame | hnext | hexpire := hmoves
  · exact .inl hsame.symm
  · cases h with
    | joining name =>
      simp only [next] at hnext
      split at hnext
      · cases hnext
        exact .inr ‹_›
      · cases hnext
    | checking name now => simp only [next] at hnext; split at hnext <;> cases hnext
    | asking name => simp only [next] at hnext; split at hnext <;> cases hnext
    | holding name w => simp only [next] at hnext; split at hnext <;> cases hnext
    | rechecking name => cases hnext
    | ended served => cases hnext
  · cases h <;> cases hexpire

theorem Held.step (hheld : r.Held) (S : Steps r a r') : r'.Held := by
  intro j certName waiter hj
  obtain ⟨h, hold, hmoves⟩ | ⟨sni, rfl, _, hgreet⟩ := S.of_getElem? hj
  · obtain rfl | hlookup := hmoves.taken
    · exact S.taken (hheld _ _ _ hold)
    · exact S.taken (.inr hlookup)
  · simp only [greet] at hgreet
    split at hgreet <;> cases hgreet

theorem held_of_run (hrun : run step (withManaged managed now) l = some r) : r.Held := by
  refine run_invariant (p := fun _ => True) (fun hI _ hr => Held.step hI (steps_iff.mp hr))
    (fun _ _ => trivial) ?_ hrun
  intro i certName waiter hi
  rw [withManaged, List.getElem?_nil] at hi
  cases hi

/-- No wake-up is lost: a handshake is held only while its name has the mark it was held for. Once
the mark is gone, its next two steps serve it, if there is a certificate in date by then. -/
theorem blocked_iff (hrun : run step (withManaged managed now) l = some r)
    (hi : r.handshakes[i]? = some (.holding certName waiter)) :
    (r.step (.go i) = none ↔ r.orderingWaiters.table.lookup certName = some waiter) ∧
    (r.orderingWaiters.isMarked certName = false → ∃ r', run step r [.go i, .go i] = some r' ∧
      r'.handshakes[i]? = some (.ended (r.serving certName r.now))) := by
  have htaken := held_of_run hrun _ _ _ hi
  have hgo : ∀ h', r.next (.holding certName waiter) = some h' →
      r.step (.go i) = some { r with handshakes := r.handshakes.set i h' } :=
    fun h' hnext => alter_eq_some.mpr ⟨_, h', hi, hnext, rfl⟩
  have hlen := (List.getElem?_eq_some_iff.mp hi).1
  constructor
  · rw [← htaken.isOpen_eq_false_iff]
    cases hopen : r.orderingWaiters.isOpen waiter with
    | false =>
      refine iff_of_true ?_ rfl
      rw [step, alter, hi, Option.bind_some, next, hopen]
      rfl
    | true =>
      refine iff_of_false ?_ (Bool.noConfusion ·)
      rw [hgo _ (by rw [next, if_pos hopen])]
      exact Option.some_ne_none _
  · intro hmark
    have hopen : r.orderingWaiters.isOpen waiter = true := by
      refine htaken.resolve_right fun hlookup => ?_
      rw [Latches.isMarked, hlookup] at hmark
      cases hmark
    obtain ⟨r₁, hr₁⟩ : ∃ r₁,
        r₁ = { r with handshakes := r.handshakes.set i (.rechecking certName) } :=
      ⟨_, rfl⟩
    have hfirst : r.step (.go i) = some r₁ := by
      rw [hgo _ (by rw [next, if_pos hopen]), hr₁]
    have hi₁ : r₁.handshakes[i]? = some (.rechecking certName) := by
      rw [hr₁]
      exact List.getElem?_set_self hlen
    have hserving : r₁.serving certName r₁.now = r.serving certName r.now := by
      rw [hr₁]
      rfl
    refine ⟨{ r₁ with handshakes := r₁.handshakes.set i (.ended (r.serving certName r.now)) },
      ?_, ?_⟩
    · rw [run_cons, hfirst, Option.bind_some, run_singleton]
      exact alter_eq_some.mpr ⟨_, _, hi₁, by rw [next, hserving], rfl⟩
    · exact List.getElem?_set_self (List.getElem?_eq_some_iff.mp hi₁).1

end

/-! ## What is served -/

section
variable {r r' : CertResolver κ} {a : ResolverAct κ} {l : List (ResolverAct κ)} {h h' : Resolve κ}
  {i : Nat} {certName : String} {managed : List ManagedCert} {now : Int} {key : κ}

/-- The server names of the handshakes of a run, in their order. -/
def hellos (l : List (ResolverAct κ)) : List (Option String) :=
  l.filterMap fun a => match a with
    | .hello sni => some sni
    | _ => none

/-- The clock read the instant at some time of the run. -/
def Read (start : Int) (l : List (ResolverAct κ)) (now : Int) : Prop := now = start ∨ .clock now ∈ l

/-- The certificate was inserted under the name. -/
def Inserted (l : List (ResolverAct κ)) (certName : String) (key : κ) (notAfter : Int) : Prop :=
  ∃ name, .insert name key notAfter ∈ l ∧ toAsciiLowercase name = certName

/-- The certificate that covers a server name. -/
def Covers (managed : List ManagedCert) (sni : Option String) (certName : String) : Prop :=
  ∃ host, sni = some host ∧ certNameFor managed (toAsciiLowercase host) = some certName

/-- What a handshake has got, in the light of the run so far. -/
def Since (managed : List ManagedCert) (start : Int) (l : List (ResolverAct κ))
    (sni : Option String) : Resolve κ → Prop
  | .checking certName now => Covers managed sni certName ∧ Read start l now
  | .asking certName => Covers managed sni certName
  | .joining certName => Covers managed sni certName
  | .holding certName _ => Covers managed sni certName
  | .rechecking certName => Covers managed sni certName
  | .ended none => True
  | .ended (some key) => ∃ certName notAfter now, Covers managed sni certName ∧
      Inserted l certName key notAfter ∧ Read start l now ∧ now < notAfter

/-- The state in the light of the run that led to it. -/
structure History (managed : List ManagedCert) (start : Int) (l : List (ResolverAct κ))
    (r : CertResolver κ) : Prop where
  catalog : r.managed = managed
  now : Read start l r.now
  certs : ∀ {certName cert}, r.certs.lookup certName = some cert →
    Inserted l certName cert.key cert.notAfter
  length : r.handshakes.length = (hellos l).length
  since : ∀ {i : Nat} {h}, r.handshakes[i]? = some h →
    ∃ sni, (hellos l)[i]? = some sni ∧ Since managed start l sni h

theorem Read.snoc {start : Int} (h : Read start l now) : Read start (l ++ [a]) now :=
  h.imp_right (List.mem_append_left _)

theorem Inserted.snoc {notAfter : Int} (h : Inserted l certName key notAfter) :
    Inserted (l ++ [a]) certName key notAfter := by
  obtain ⟨name, hmem, hlower⟩ := h
  exact ⟨name, List.mem_append_left _ hmem, hlower⟩

theorem Since.snoc {start : Int} {sni : Option String} (h' : Since managed start l sni h) :
    Since managed start (l ++ [a]) sni h := by
  cases h with
  | checking certName now => exact ⟨h'.1, h'.2.snoc⟩
  | asking _ => exact h'
  | joining _ => exact h'
  | holding _ _ => exact h'
  | rechecking _ => exact h'
  | ended served =>
    cases served with
    | none => trivial
    | some key =>
      obtain ⟨certName, notAfter, now, hcovers, hinserted, hread, hlt⟩ := h'
      exact ⟨certName, notAfter, now, hcovers, hinserted.snoc, hread.snoc, hlt⟩

/-- What is served was inserted, and is in date by the clock. -/
theorem History.serves {start : Int} {sni : Option String} (H : History managed start l r)
    (hcovers : Covers managed sni certName) (hread : Read start l now) :
    Since managed start l sni (.ended (r.serving certName now)) := by
  cases hserving : r.serving certName now with
  | none => trivial
  | some key =>
    obtain ⟨cert, hcert, hlt, rfl⟩ := serving_eq_some.mp hserving
    exact ⟨certName, cert.notAfter, now, hcovers, H.certs hcert, hread, hlt⟩

theorem History.next {start : Int} {sni : Option String} (H : History managed start l r)
    (hsince : Since managed start l sni h) (hmoves : r.Moves h h') :
    Since managed start l sni h' := by
  obtain rfl | hnext | hexpire := hmoves
  · exact hsince
  · cases h with
    | checking certName now =>
      have hserves := H.serves hsince.1 hsince.2
      simp only [CertResolver.next] at hnext
      split at hnext
      · rename_i key hkey
        cases hnext
        rw [hkey] at hserves
        exact hserves
      · cases hnext
        exact hsince.1
    | asking certName =>
      cases hnext
      split
      · exact hsince
      · trivial
    | joining certName =>
      simp only [CertResolver.next] at hnext
      split at hnext <;> cases hnext <;> exact hsince
    | holding certName waiter =>
      simp only [CertResolver.next] at hnext
      split at hnext
      · cases hnext
        exact hsince
      · cases hnext
    | rechecking certName =>
      cases hnext
      exact H.serves hsince H.now
    | ended served => cases hnext
  · cases h with
    | holding certName waiter =>
      cases hexpire
      exact hsince
    | checking _ _ => cases hexpire
    | asking _ => cases hexpire
    | joining _ => cases hexpire
    | rechecking _ => cases hexpire
    | ended _ => cases hexpire

theorem History.greet {start : Int} (H : History managed start l r) (sni : Option String) :
    Since managed start l sni (r.greet sni) := by
  simp only [CertResolver.greet]
  split
  · rename_i certName hname
    obtain ⟨host, rfl, hcovers⟩ := Option.bind_eq_some_iff.mp hname
    rw [H.catalog] at hcovers
    exact ⟨⟨host, rfl, hcovers⟩, H.now⟩
  · trivial

theorem hellos_snoc (l : List (ResolverAct κ)) (a : ResolverAct κ) :
    (∃ sni, a = .hello sni ∧ hellos (l ++ [a]) = hellos l ++ [sni]) ∨
      (∀ sni, a ≠ .hello sni) ∧ hellos (l ++ [a]) = hellos l := by
  simp only [hellos, List.filterMap_append]
  cases a with
  | hello sni => exact .inl ⟨sni, rfl, rfl⟩
  | clock _ => exact .inr ⟨fun _ h => (by cases h), List.append_nil _⟩
  | go _ => exact .inr ⟨fun _ h => (by cases h), List.append_nil _⟩
  | timeout _ => exact .inr ⟨fun _ h => (by cases h), List.append_nil _⟩
  | insert _ _ _ => exact .inr ⟨fun _ h => (by cases h), List.append_nil _⟩
  | notify _ => exact .inr ⟨fun _ h => (by cases h), List.append_nil _⟩
  | mark _ => exact .inr ⟨fun _ h => (by cases h), List.append_nil _⟩
  | clear _ => exact .inr ⟨fun _ h => (by cases h), List.append_nil _⟩

theorem History.certs_step {start : Int} {cert : StoredCert κ} (H : History managed start l r)
    (S : Steps r a r') (h : r'.certs.lookup certName = some cert) :
    Inserted (l ++ [a]) certName cert.key cert.notAfter := by
  cases S with
  | insert name key notAfter =>
    obtain h | ⟨rfl, rfl⟩ := of_lookup_insertCert h
    · exact (H.certs h).snoc
    · exact ⟨name, List.mem_append_right _ (List.mem_singleton_self _), rfl⟩
  | clock _ => exact (H.certs h).snoc
  | hello _ => exact (H.certs h).snoc
  | go _ _ => exact (H.certs h).snoc
  | timeout _ _ => exact (H.certs h).snoc
  | notify _ => exact (H.certs h).snoc
  | mark _ => exact (H.certs h).snoc
  | clear _ => exact (H.certs h).snoc

theorem History.now_step {start : Int} (H : History managed start l r) (S : Steps r a r') :
    r'.managed = managed ∧ Read start (l ++ [a]) r'.now := by
  cases S with
  | clock now => exact ⟨H.catalog, .inr (List.mem_append_right _ (List.mem_singleton_self _))⟩
  | hello _ => exact ⟨H.catalog, H.now.snoc⟩
  | go _ _ => exact ⟨H.catalog, H.now.snoc⟩
  | timeout _ _ => exact ⟨H.catalog, H.now.snoc⟩
  | insert _ _ _ => exact ⟨H.catalog, H.now.snoc⟩
  | notify _ => exact ⟨H.catalog, H.now.snoc⟩
  | mark _ => exact ⟨H.catalog, H.now.snoc⟩
  | clear _ => exact ⟨H.catalog, H.now.snoc⟩

theorem History.step {start : Int} (H : History managed start l r) (S : Steps r a r') :
    History managed start (l ++ [a]) r' where
  catalog := (H.now_step S).1
  now := (H.now_step S).2
  certs := H.certs_step S
  length := by
    obtain ⟨sni, rfl, hhellos⟩ | ⟨hother, hhellos⟩ := hellos_snoc l a
    · obtain ⟨_, _, hnew⟩ | ⟨hother, _⟩ := S.handshakes
      · rw [hnew, hhellos, List.length_append, List.length_append, H.length]
        rfl
      · exact absurd rfl (hother sni)
    · obtain ⟨sni, rfl, _⟩ | ⟨_, hlen⟩ := S.handshakes
      · exact absurd rfl (hother sni)
      · rw [hlen, hhellos, H.length]
  since := by
    intro i h hi
    obtain ⟨h₀, hold, hmoves⟩ | ⟨sni, rfl, rfl, rfl⟩ := S.of_getElem? hi
    · obtain ⟨sni, hsni, hsince⟩ := H.since hold
      refine ⟨sni, ?_, (H.next hsince hmoves).snoc⟩
      obtain ⟨_, _, hhellos⟩ | ⟨_, hhellos⟩ := hellos_snoc l a
      · rw [hhellos, List.getElem?_append_left (List.getElem?_eq_some_iff.mp hsni).1]
        exact hsni
      · rw [hhellos]
        exact hsni
    · refine ⟨sni, ?_, (H.greet sni).snoc⟩
      obtain ⟨sni', heq, hhellos⟩ | ⟨hother, _⟩ := hellos_snoc l (.hello sni)
      · cases heq
        rw [hhellos, H.length]
        exact List.getElem?_concat_length
      · exact absurd rfl (hother sni)

theorem history_of_run {start : Int} (hrun : run step (withManaged managed start) l = some r) :
    History managed start l r := by
  induction l using List.reverseRecOn generalizing r with
  | nil =>
    cases hrun
    refine ⟨rfl, .inl rfl, fun h => ?_, rfl, fun h => ?_⟩
    · rw [withManaged, AList.lookup_empty] at h
      cases h
    · rw [withManaged, List.getElem?_nil] at h
      cases h
  | append_singleton l a ih =>
    obtain ⟨r₁, hrun, hr⟩ := run_append_eq_some.mp hrun
    rw [run_singleton] at hr
    exact (ih hrun).step (steps_iff.mp hr)

/-- Whatever is served to a handshake was inserted under the name of the first certificate of the
catalog that covers its server name, and was in date at some reading of the clock. -/
theorem served_covers {start : Int} (hrun : run step (withManaged managed start) l = some r)
    (hi : r.handshakes[i]? = some (.ended (some key))) :
    ∃ host cert name notAfter now, (hellos l)[i]? = some (some host) ∧
      managed.find? (·.covers (toAsciiLowercase host)) = some cert ∧
      .insert name key notAfter ∈ l ∧ toAsciiLowercase name = cert.name ∧
      (now = start ∨ .clock now ∈ l) ∧ now < notAfter := by
  obtain ⟨sni, hsni, certName, notAfter, now, ⟨host, rfl, hcovers⟩, ⟨name, hmem, rfl⟩, hread,
    hlt⟩ :=
    (history_of_run hrun).since hi
  obtain ⟨cert, hcert, hname⟩ := Option.map_eq_some_iff.mp hcovers
  exact ⟨host, cert, name, notAfter, now, hsni, hcert, hmem, hname.symm, hread, hlt⟩

end

/-- A host is a placeholder exactly while a handshake for it would not be served at once. -/
theorem isPlaceholder_iff {r : CertResolver κ} {name certName : String}
    (hname : certNameFor r.managed (toAsciiLowercase name) = some certName) :
    r.isPlaceholder name = true ↔ r.next (r.greet (some name)) = some (.asking certName) := by
  simp only [isPlaceholder, greet, Option.bind_some, hname, next, serving]
  cases r.certs.lookup certName with
  | none => simp
  | some cert => by_cases h : r.now < cert.notAfter <;> simp [h, not_le.mpr, not_lt.mp]

end CertResolver

/-! One certificate, whose first order holds a handshake. -/

namespace CertResolver.Sample

def wildcard : ManagedCert := ⟨"t.io", ["t.io", "*.t.io"], .dns01⟩

def start : CertResolver Nat := withManaged [wildcard] 0

/-- The order begins, and a handshake waits for it. -/
def hold : List (ResolverAct Nat) :=
  [.mark "t.io", .hello (some "A.t.io"), .go 0, .go 0, .go 0]

/-- The certificate comes, and so does another handshake. -/
def issue : List (ResolverAct Nat) :=
  [.hello (some "t.io"), .notify "t.io", .go 0, .clock 50, .go 0, .go 1]

/-- A handshake that asks once the mark is gone is turned away, though the certificate is there. -/
example : (run step start [.mark "t.io", .hello (some "t.io"), .go 0, .insert "t.io" 1 100,
    .notify "t.io", .go 0]).any (fun r => r.handshakes[0]? = some (.ended none) ∧
      r.serving "t.io" 0 = some 1) = true := by
  decide +kernel

theorem run_hold : ∃ r, run step start hold = some r ∧ r.now = 0 ∧ r.handshakes.length = 1 ∧
    r.orderingWaiters.table.lookup "t.io" = some 0 ∧
    r.handshakes[0]? = some (.holding "t.io" 0) := by
  have h : (run step start hold).any (fun r => r.now = 0 ∧ r.handshakes.length = 1 ∧
      r.orderingWaiters.table.lookup "t.io" = some 0 ∧
      r.handshakes[0]? = some (.holding "t.io" 0)) = true := by decide +kernel
  obtain ⟨r, hrun, hr⟩ := (Option.any_eq_true _ _).mp h
  exact ⟨r, hrun, of_decide_eq_true hr⟩

theorem run_issue : ∃ r, run step start (hold ++ .insert "T.io" 1 100 :: issue) = some r ∧
    r.handshakes[0]? = some (.ended (some 1)) := by
  have h : (run step start (hold ++ .insert "T.io" 1 100 :: issue)).any
      (fun r => r.handshakes[0]? = some (.ended (some 1))) = true := by decide +kernel
  obtain ⟨r, hrun, hr⟩ := (Option.any_eq_true _ _).mp h
  exact ⟨r, hrun, of_decide_eq_true hr⟩

end CertResolver.Sample

open CertResolver CertResolver.Sample

theorem never_rejected_issued : ∃ r r' : CertResolver Nat,
    run CertResolver.step start hold = some r ∧
    run CertResolver.step r (.insert "T.io" 1 100 :: issue) = some r' ∧
    (∃ h, r'.handshakes[0]? = some h ∧ h.Due (toAsciiLowercase "T.io") 100) ∧
    ∃ h, r'.handshakes[1]? = some h ∧ h.Due (toAsciiLowercase "T.io") 100 := by
  have hlower : "t.io" = toAsciiLowercase "T.io" := by decide +kernel
  obtain ⟨r, hrun, hnow, hlen, -, hi⟩ := run_hold
  obtain ⟨r', hall, -⟩ := run_issue
  obtain ⟨_, hfirst, hrun'⟩ := run_append_eq_some.mp hall
  cases hrun.symm.trans hfirst
  obtain ⟨hheld, hnew⟩ := never_rejected (by rw [hnow]; decide)
    (by simp [issue, ResolverAct.Before]) hrun'
  refine ⟨r, r', hrun, hrun', hheld 0 _ hi hlower, ?_⟩
  have hmanaged : r.managed = [wildcard] := (history_of_run hrun).catalog
  have hcovers : certNameFor r.managed (toAsciiLowercase "t.io") =
      some (toAsciiLowercase "T.io") := by
    rw [hmanaged]
    decide +kernel
  obtain ⟨h, hh, hdue⟩ := hnew [] "t.io" _ _ rfl rfl hcovers
  refine ⟨h, ?_, hdue⟩
  rw [← hh]
  exact congrArg (r'.handshakes[·]?) hlen.symm

theorem blocked_iff_hold : ∃ r : CertResolver Nat, run CertResolver.step start hold = some r ∧
    r.step (.go 0) = none := by
  obtain ⟨r, hrun, -, -, hlookup, hi⟩ := run_hold
  exact ⟨r, hrun, (blocked_iff hrun hi).1.mpr hlookup⟩

theorem served_covers_issued : ∃ host cert name notAfter now,
    (hellos (hold ++ .insert "T.io" 1 100 :: issue))[0]? = some (some host) ∧
      [wildcard].find? (·.covers (toAsciiLowercase host)) = some cert ∧
      .insert name 1 notAfter ∈ hold ++ .insert "T.io" 1 100 :: issue ∧
      toAsciiLowercase name = cert.name ∧
      (now = 0 ∨ .clock now ∈ hold ++ .insert "T.io" 1 100 :: issue) ∧ now < notAfter := by
  obtain ⟨r, hrun, hi⟩ := run_issue
  exact served_covers hrun hi

end TunnelWeaver.Server
