import TunnelWeaver.Lib.Automaton
import TunnelWeaver.Lib.Map

/-! The stored configuration (`store/mod.rs`, `email/otp.rs`): one JSON object, of which `set_config`
edits a key. A call reads the object and writes it back in two statements, and the calls come from
the daemon and from command line processes at once. JSON texts are told apart by what they are read
as. -/

namespace TunnelWeaver.Server.Configuration

open Automaton

/-- The text in the configuration row. -/
inductive ConfigJson (V : Type)
  | object (fields : Map String V)
  /-- It is not read as an object. -/
  | unreadable (text : String)

/-- How far a call is; `returned` carries the steps before. -/
inductive Phase (V : Type)
  | called
  | editing (fields : Map String V)
  | returned (time : Nat)
  | failed

structure SetConfig (V : Type) where
  key : String
  value : String
  /-- The steps before the call. -/
  began : Nat
  phase : Phase V

structure World (V : Type) where
  /-- `none` before anything was saved. -/
  stored : Option (ConfigJson V) := none
  calls : Map Nat (SetConfig V) := ∅
  clock : Nat := 0

inductive Act
  | call (id : Nat) (key value : String)
  | load (id : Nat) (fails : Bool)
  | write (id : Nat) (fails : Bool)
  deriving DecidableEq

/-- The key of the pending challenge. -/
def otpConfigKey : String := "email_otp"

/-- `PendingOtp::save`; `json` is the challenge. -/
def otpSave (id : Nat) (json : String) : Act := .call id otpConfigKey json

/-- `PendingOtp::clear`. -/
def otpClear (id : Nat) : Act := .call id otpConfigKey "null"

variable {V : Type}

/-- The object a text is read as. -/
def ConfigJson.fields? : ConfigJson V → Option (Map String V)
  | .object fields => some fields
  | .unreadable _ => none

namespace World

/-- What `set_config` starts from: the empty object when there is none that can be read. -/
def loaded (w : World V) : Map String V := (w.stored.bind ConfigJson.fields?).getD ∅

def setPhase (w : World V) (id : Nat) (c : SetConfig V) (phase : Phase V) : World V :=
  { w with calls := w.calls.insert id { c with phase }, clock := w.clock + 1 }

variable (jsonOf : String → V)

/-- `jsonOf` is the JSON value of a text, or the text itself as a JSON string. -/
def step (w : World V) : Act → Option (World V)
  | .call id key value =>
    match w.calls.lookup id with
    | some _ => none
    | none =>
      some { w with
        calls := w.calls.insert id { key, value, began := w.clock, phase := .called }
        clock := w.clock + 1 }
  | .load id fails =>
    match w.calls.lookup id with
    | none => none
    | some c => match c.phase with
      | .called => some (w.setPhase id c (if fails then .failed else .editing w.loaded))
      | _ => none
  | .write id fails =>
    match w.calls.lookup id with
    | none => none
    | some c => match c.phase with
      | .editing fields =>
        if fails then some (w.setPhase id c .failed)
        else some ({ w with stored := some (.object (fields.insert c.key (jsonOf c.value))) }.setPhase
          id c (.returned w.clock))
      | _ => none

def run (w : World V) (acts : List Act) : Option (World V) := Automaton.run (step jsonOf) w acts

/-! ## What the calls leave -/

def lookup (w : World V) (key : String) : Option V :=
  (w.stored.bind ConfigJson.fields?).bind (·.lookup key)

/-- Every call has returned `Ok`. -/
def Settled (w : World V) : Prop :=
  ∀ id c, w.calls.lookup id = some c → ∃ t, c.phase = .returned t

/-- No call is lost: a key has the value of a call that none of its calls came after, a key that was
not set keeps its value, and a text that is not an object stays. -/
structure Kept (w init : World V) : Prop where
  set : ∀ id c, w.calls.lookup id = some c → ∃ id' c' t, w.calls.lookup id' = some c' ∧
    c'.key = c.key ∧ c'.phase = .returned t ∧ w.lookup c.key = some (jsonOf c'.value) ∧
    ∀ id'' c'', w.calls.lookup id'' = some c'' → c''.key = c.key → c''.began ≤ t
  unset : ∀ key, (∀ id c, w.calls.lookup id = some c → c.key ≠ key) →
    w.lookup key = init.lookup key
  unreadable : ∀ text, init.stored = some (.unreadable text) → w.stored = init.stored

/-- A call does not read a text that is not an object, and it writes back what it read while that
is, up to its own key, what is stored. -/
def Fresh (w : World V) : Act → Prop
  | .call .. => True
  | .load .. => ∀ text, w.stored ≠ some (.unreadable text)
  | .write id _ => ∀ c fields, w.calls.lookup id = some c → c.phase = .editing fields →
    ∀ key, key ≠ c.key → fields.lookup key = w.lookup key

/-- Nothing has been called. -/
def Initial (w : World V) : Prop := ∀ id, w.calls.lookup id = none

/-! ## Steps -/

variable {jsonOf} {w w' init : World V} {a : Act}

theorem step_call {id : Nat} {key value : String} (h : w.step jsonOf (.call id key value) = some w') :
    w.calls.lookup id = none ∧ w' = { w with
      calls := w.calls.insert id { key, value, began := w.clock, phase := .called }
      clock := w.clock + 1 } := by
  simp only [step] at h
  cases hid : w.calls.lookup id with
  | some c =>
    rw [hid] at h
    cases h
  | none =>
    rw [hid] at h
    cases h
    exact ⟨rfl, rfl⟩

theorem step_load {id : Nat} {fails : Bool} (h : w.step jsonOf (.load id fails) = some w') :
    ∃ c phase, w.calls.lookup id = some c ∧ c.phase = .called ∧ (∀ t, phase ≠ .returned t) ∧
      w' = w.setPhase id c phase := by
  simp only [step] at h
  cases hid : w.calls.lookup id with
  | none =>
    rw [hid] at h
    cases h
  | some c =>
    rw [hid] at h
    dsimp only at h
    split at h
    · rename_i hphase
      refine ⟨c, _, rfl, hphase, ?_, (Option.some.inj h).symm⟩
      intro t
      split <;> intro he <;> cases he
    · cases h

theorem step_write {id : Nat} {fails : Bool} (h : w.step jsonOf (.write id fails) = some w') :
    ∃ c fields, w.calls.lookup id = some c ∧ c.phase = .editing fields ∧
      (w' = w.setPhase id c .failed ∨
        w' = { w with stored := some (.object (fields.insert c.key (jsonOf c.value))) }.setPhase
          id c (.returned w.clock)) := by
  simp only [step] at h
  cases hid : w.calls.lookup id with
  | none =>
    rw [hid] at h
    cases h
  | some c =>
    rw [hid] at h
    dsimp only at h
    split at h
    · rename_i fields hphase
      refine ⟨c, fields, rfl, hphase, ?_⟩
      split at h
      · exact .inl (Option.some.inj h).symm
      · exact .inr (Option.some.inj h).symm
    · cases h

/-! ## The invariant -/

/-- The calls on a key that have returned, and when. -/
def Returned (w : World V) (key : String) (c : SetConfig V) (t : Nat) : Prop :=
  c.key = key ∧ c.phase = .returned t ∧ ∃ id, w.calls.lookup id = some c

variable (jsonOf) in
structure Tracked (w init : World V) : Prop where
  past : ∀ id c, w.calls.lookup id = some c → c.began < w.clock ∧
    ∀ t, c.phase = .returned t → c.began ≤ t ∧ t < w.clock
  /-- A key has the value of the call that returned last. -/
  last : ∀ key, (∃ c t, w.Returned key c t ∧ w.lookup key = some (jsonOf c.value) ∧
      ∀ c' t', w.Returned key c' t' → t' ≤ t) ∨
    (∀ c t, ¬w.Returned key c t) ∧ w.lookup key = init.lookup key
  unreadable : ∀ text, init.stored = some (.unreadable text) → w.stored = init.stored ∧
    ∀ id c fields, w.calls.lookup id = some c → c.phase ≠ .editing fields

theorem Initial.tracked (h : init.Initial) : init.Tracked jsonOf init where
  past := by
    intro id c hid
    rw [h id] at hid
    cases hid
  last := by
    intro key
    refine .inr ⟨?_, rfl⟩
    rintro c t ⟨-, -, id, hid⟩
    rw [h id] at hid
    cases hid
  unreadable := by
    refine fun text _ => ⟨rfl, fun id c fields hid => ?_⟩
    rw [h id] at hid
    cases hid

/-- A step that returns no call and writes nothing. -/
theorem Tracked.of_same (h : w.Tracked jsonOf init) (hclock : w.clock ≤ w'.clock)
    (hstored : w'.stored = w.stored)
    (hcalls : ∀ id c, w'.calls.lookup id = some c → w.calls.lookup id = some c ∨
      c.began < w'.clock ∧ ∀ t, c.phase ≠ .returned t)
    (hback : ∀ key c t, w.Returned key c t → w'.Returned key c t)
    (hediting : ∀ id c fields, w'.calls.lookup id = some c → c.phase = .editing fields →
      (∃ id c, w.calls.lookup id = some c ∧ c.phase = .editing fields) ∨
        ∀ text, w.stored ≠ some (.unreadable text)) : w'.Tracked jsonOf init := by
  have hlookup (key : String) : w'.lookup key = w.lookup key := by
    rw [lookup, hstored]
    rfl
  have hreturned {key : String} {c : SetConfig V} {t : Nat} (hr : w'.Returned key c t) :
      w.Returned key c t := by
    obtain ⟨hkey, hphase, id, hid⟩ := hr
    rcases hcalls id c hid with hid | ⟨-, hnot⟩
    · exact ⟨hkey, hphase, id, hid⟩
    · exact absurd hphase (hnot t)
  refine ⟨?_, ?_, ?_⟩
  · intro id c hid
    rcases hcalls id c hid with hid | ⟨hbegan, hnot⟩
    · obtain ⟨hbegan, hpast⟩ := h.past id c hid
      exact ⟨by omega, fun t ht => ⟨(hpast t ht).1, by have := (hpast t ht).2; omega⟩⟩
    · exact ⟨hbegan, fun t ht => absurd ht (hnot t)⟩
  · intro key
    rcases h.last key with ⟨c, t, hr, hvalue, hmax⟩ | ⟨hnone, hinit⟩
    · exact .inl ⟨c, t, hback key c t hr, (hlookup key).trans hvalue,
        fun c' t' hr' => hmax c' t' (hreturned hr')⟩
    · exact .inr ⟨fun c t hr => hnone c t (hreturned hr), (hlookup key).trans hinit⟩
  · intro text htext
    obtain ⟨hsame, hnot⟩ := h.unreadable text htext
    refine ⟨hstored.trans hsame, fun id c fields hid hphase => ?_⟩
    rcases hediting id c fields hid hphase with ⟨id₀, c₀, hid₀, hphase₀⟩ | hreadable
    · exact hnot id₀ c₀ fields hid₀ hphase₀
    · exact hreadable text (hsame.trans htext)

/-- Moving a call on that has not returned. -/
theorem Tracked.setPhase {id : Nat} {c : SetConfig V} {phase : Phase V}
    (h : w.Tracked jsonOf init) (hid : w.calls.lookup id = some c)
    (hc : ∀ t, c.phase ≠ .returned t) (hphase : ∀ t, phase ≠ .returned t)
    (hediting : ∀ fields, phase = .editing fields → ∀ text, w.stored ≠ some (.unreadable text)) :
    (w.setPhase id c phase).Tracked jsonOf init := by
  refine h.of_same (Nat.le_succ _) rfl ?_ ?_ ?_
  · intro id' c' hid'
    rw [World.setPhase, Map.lookup_insert_ite] at hid'
    split at hid'
    · cases hid'
      exact .inr ⟨Nat.lt_succ_of_lt (h.past id c hid).1, hphase⟩
    · exact .inl hid'
  · rintro key c' t ⟨hkey, hr, id', hid'⟩
    refine ⟨hkey, hr, id', ?_⟩
    rw [World.setPhase, Map.lookup_insert_ite, if_neg, hid']
    rintro rfl
    rw [hid] at hid'
    cases hid'
    exact hc t hr
  · intro id' c' fields hid' hr
    rw [World.setPhase, Map.lookup_insert_ite] at hid'
    split at hid'
    · cases hid'
      exact .inr (hediting fields hr)
    · exact .inl ⟨id', c', hid', hr⟩

theorem Tracked.write {id : Nat} {c : SetConfig V} {fields : Map String V}
    (h : w.Tracked jsonOf init) (hid : w.calls.lookup id = some c) (hc : c.phase = .editing fields)
    (hfresh : ∀ key, key ≠ c.key → fields.lookup key = w.lookup key) :
    ({ w with stored := some (.object (fields.insert c.key (jsonOf c.value))) }.setPhase id c
      (.returned w.clock)).Tracked jsonOf init := by
  set c₁ : SetConfig V := { c with phase := .returned w.clock }
  set w₁ := { w with stored := some (.object (fields.insert c.key (jsonOf c.value))) }.setPhase id c
    (.returned w.clock)
  have hcalls (id' : Nat) : w₁.calls.lookup id' =
      if id' = id then some c₁ else w.calls.lookup id' := Map.lookup_insert_ite ..
  have hlookup (key : String) : w₁.lookup key =
      if key = c.key then some (jsonOf c.value) else w.lookup key := by
    change (fields.insert c.key (jsonOf c.value)).lookup key = _
    rw [Map.lookup_insert_ite]
    split
    · rfl
    · rename_i hkey
      exact hfresh key hkey
  have hself : w₁.Returned c.key c₁ w.clock := ⟨rfl, rfl, id, by rw [hcalls, if_pos rfl]⟩
  -- the other calls that have returned
  have hother {key : String} {c' : SetConfig V} {t : Nat} (hr : w₁.Returned key c' t) :
      c' = c₁ ∧ t = w.clock ∨ w.Returned key c' t := by
    obtain ⟨hkey, hphase, id', hid'⟩ := hr
    rw [hcalls] at hid'
    split at hid'
    · cases hid'
      cases hphase
      exact .inl ⟨rfl, rfl⟩
    · exact .inr ⟨hkey, hphase, id', hid'⟩
  have hback {key : String} {c' : SetConfig V} {t : Nat} (hr : w.Returned key c' t) :
      w₁.Returned key c' t := by
    obtain ⟨hkey, hphase, id', hid'⟩ := hr
    refine ⟨hkey, hphase, id', ?_⟩
    rw [hcalls, if_neg, hid']
    rintro rfl
    rw [hid] at hid'
    cases hid'
    rw [hc] at hphase
    cases hphase
  refine ⟨?_, ?_, ?_⟩
  · intro id' c' hid'
    rw [hcalls] at hid'
    split at hid'
    · cases hid'
      have hbegan := (h.past id c hid).1
      refine ⟨Nat.lt_succ_of_lt hbegan, fun t ht => ?_⟩
      cases ht
      exact ⟨Nat.le_of_lt hbegan, Nat.lt_succ_self _⟩
    · obtain ⟨hbegan, hpast⟩ := h.past id' c' hid'
      exact ⟨Nat.lt_succ_of_lt hbegan, fun t ht =>
        ⟨(hpast t ht).1, Nat.lt_succ_of_lt (hpast t ht).2⟩⟩
  · intro key
    by_cases hkey : key = c.key
    · subst hkey
      refine .inl ⟨c₁, w.clock, hself, by rw [hlookup, if_pos rfl], fun c' t' hr => ?_⟩
      rcases hother hr with ⟨-, rfl⟩ | ⟨-, hphase, id', hid'⟩
      · exact Nat.le_refl _
      · exact Nat.le_of_lt ((h.past id' c' hid').2 t' hphase).2
    · have hnot {c' : SetConfig V} {t : Nat} (hr : w₁.Returned key c' t) : w.Returned key c' t := by
        rcases hother hr with ⟨rfl, -⟩ | hr'
        · exact absurd hr.1.symm hkey
        · exact hr'
      rcases h.last key with ⟨c', t, hr, hvalue, hmax⟩ | ⟨hnone, hinit⟩
      · exact .inl ⟨c', t, hback hr, by rw [hlookup, if_neg hkey, hvalue],
          fun c'' t' hr' => hmax c'' t' (hnot hr')⟩
      · exact .inr ⟨fun c' t hr => hnone c' t (hnot hr), by rw [hlookup, if_neg hkey, hinit]⟩
  · intro text htext
    exact absurd hc ((h.unreadable text htext).2 id c fields hid)

theorem Tracked.step (h : w.Tracked jsonOf init) (hfresh : w.Fresh a)
    (hstep : w.step jsonOf a = some w') : w'.Tracked jsonOf init := by
  cases a with
  | call id key value =>
    obtain ⟨hid, rfl⟩ := step_call hstep
    have hlookup (id' : Nat) : (w.calls.insert id { key, value, began := w.clock, phase := .called }).lookup
        id' = if id' = id then some ⟨key, value, w.clock, .called⟩ else w.calls.lookup id' :=
      Map.lookup_insert_ite ..
    refine h.of_same (Nat.le_succ _) rfl ?_ ?_ ?_
    · intro id' c' hid'
      rw [hlookup] at hid'
      split at hid'
      · cases hid'
        exact .inr ⟨Nat.lt_succ_self _, fun t ht => by cases ht⟩
      · exact .inl hid'
    · rintro key' c' t ⟨hkey, hr, id', hid'⟩
      refine ⟨hkey, hr, id', ?_⟩
      change (w.calls.insert id _).lookup id' = _
      rw [hlookup, if_neg, hid']
      rintro rfl
      rw [hid] at hid'
      cases hid'
    · intro id' c' fields hid' hr
      rw [hlookup] at hid'
      split at hid'
      · cases hid'
        cases hr
      · exact .inl ⟨id', c', hid', hr⟩
  | load id fails =>
    obtain ⟨c, phase, hid, hc, hphase, rfl⟩ := step_load hstep
    refine h.setPhase hid (fun t ht => ?_) hphase fun fields _ => hfresh
    rw [hc] at ht
    cases ht
  | write id fails =>
    obtain ⟨c, fields, hid, hc, rfl | rfl⟩ := step_write hstep
    · refine h.setPhase hid (fun t ht => ?_) (fun t ht => by cases ht) fun fields hf => by cases hf
      rw [hc] at ht
      cases ht
    · exact h.write hid hc (hfresh c fields hid hc)

theorem Tracked.kept (h : w.Tracked jsonOf init) (hw : w.Settled) : w.Kept jsonOf init where
  set := by
    intro id c hid
    obtain ⟨t, ht⟩ := hw id c hid
    rcases h.last c.key with ⟨c', t', ⟨hkey, hphase, id', hid'⟩, hvalue, hmax⟩ | ⟨hnone, -⟩
    · refine ⟨id', c', t', hid', hkey, hphase, hvalue, fun id'' c'' hid'' hkey'' => ?_⟩
      obtain ⟨t'', ht''⟩ := hw id'' c'' hid''
      exact Nat.le_trans ((h.past id'' c'' hid'').2 t'' ht'').1
        (hmax c'' t'' ⟨hkey'', ht'', id'', hid''⟩)
    · exact absurd ⟨rfl, ht, id, hid⟩ (hnone c t)
  unset := by
    intro key hkey
    rcases h.last key with ⟨c, t, ⟨hc, -, id, hid⟩, -⟩ | ⟨-, hinit⟩
    · exact absurd hc (hkey id c hid)
    · exact hinit
  unreadable := fun text htext => (h.unreadable text htext).1

/-- Calls that find what they read still stored lose nothing. -/
theorem set_config_keeps {acts : List Act} (hinit : init.Initial)
    (hfresh : Meets (World.step jsonOf) Fresh init acts) (hrun : init.run jsonOf acts = some w)
    (hw : w.Settled) : w.Kept jsonOf init :=
  (run_invariant_of_meets (I := fun w => Tracked jsonOf w init) (fun h hf hs => h.step hf hs) hfresh
    hinit.tracked hrun).kept hw

namespace Sample

/-- One key is set. -/
def stored : World String := { stored := some (.object (AList.singleton "domain" "example.org")) }

/-- One call after the other, the second of them clearing the challenge. -/
def inTurn : List Act :=
  [.call 0 "port" "443", .load 0 false, .write 0 false, otpClear 1, .load 1 false, .write 1 false]

/-- Both calls read before either writes. -/
def crossed : List Act :=
  [.call 0 "port" "443", otpClear 1, .load 0 false, .load 1 false, .write 0 false, .write 1 false]

end Sample

theorem set_config_keeps_in_turn : ∃ w, Sample.stored.run id Sample.inTurn = some w ∧
    w.Kept id Sample.stored := by
  obtain ⟨w, hrun⟩ := Option.isSome_iff_exists.mp
    (show (Sample.stored.run id Sample.inTurn).isSome = true from by decide +kernel)
  have hfresh : Meets (World.step id) Fresh Sample.stored Sample.inTurn := by
    refine ⟨trivial, fun w₁ h₁ => ?_⟩
    cases h₁
    refine ⟨fun text h => (by cases h), fun w₂ h₂ => ?_⟩
    cases h₂
    refine ⟨fun c fields hc hphase => ?_, fun w₃ h₃ => ?_⟩
    · cases hc
      cases hphase
      exact fun key _ => rfl
    cases h₃
    refine ⟨trivial, fun w₄ h₄ => ?_⟩
    cases h₄
    refine ⟨fun text h => (by cases h), fun w₅ h₅ => ?_⟩
    cases h₅
    refine ⟨fun c fields hc hphase => ?_, fun w₆ h₆ => trivial⟩
    cases hc
    cases hphase
    exact fun key _ => rfl
  have hsettled : w.Settled := by
    cases hrun
    intro i c hc
    rcases List.mem_cons.mp (AList.mem_lookup_iff.mp hc) with h | h
    · cases h
      exact ⟨_, rfl⟩
    · cases List.mem_singleton.mp h
      exact ⟨_, rfl⟩
  exact ⟨w, hrun, set_config_keeps (fun _ => rfl) hfresh hrun hsettled⟩

/-- Of two crossing calls on different keys one is lost. -/
theorem set_config_loses : ¬∀ (w w' : World String) (acts : List Act), w.Initial →
    w.run id acts = some w' → w'.Settled → w'.Kept id w := by
  intro h
  obtain ⟨w, hrun⟩ := Option.isSome_iff_exists.mp
    (show (Sample.stored.run id Sample.crossed).isSome = true from by decide +kernel)
  have hkept := h Sample.stored w Sample.crossed (fun _ => rfl) hrun (by
    cases hrun
    intro i c hc
    rcases List.mem_cons.mp (AList.mem_lookup_iff.mp hc) with h | h
    · cases h
      exact ⟨_, rfl⟩
    · cases List.mem_singleton.mp h
      exact ⟨_, rfl⟩)
  cases hrun
  obtain ⟨id', c', t, hid, hkey, -, hvalue, -⟩ := hkept.set 0 _ rfl
  cases hvalue

end World

end TunnelWeaver.Server.Configuration
