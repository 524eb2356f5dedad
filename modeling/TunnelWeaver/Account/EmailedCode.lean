import TunnelWeaver.Account.Provenance

/-! The emailed code of one flow (`Challenge` of `account/second_factor.rs`), with any number of
submissions in progress. A submission reads the row and compares, in one step; what it writes is a
step of its own, and another code may be issued in between. -/

namespace TunnelWeaver.Account

open Automaton

namespace Store

/-- `Challenge::row`: the challenge of a flow, whichever column keys it. -/
def challengeOf (s : Store) (flow : Flow) : Option (RowId × LoginChallenge) :=
  s.challenges.find? fun _ c => c.flow = flow

theorem loginChallengeBySession_eq (s : Store) (sessionId : RowId) :
    s.loginChallengeBySession sessionId = s.challengeOf (.session sessionId) := rfl

variable {s : Store} {flow : Flow} {id : RowId} {c : LoginChallenge}

/-- Issuing leaves one row to the flow, under the id it had. -/
theorem challengeOf_upsert (s : Store) (challenge : LoginChallenge) : ∃ id,
    (s.loginChallengeUpsert challenge).challengeOf challenge.flow = some (id, challenge) ∧
      ∀ id' c, s.challengeOf challenge.flow = some (id', c) → id' = id := by
  unfold loginChallengeUpsert
  cases hfind : s.challenges.find? fun _ c => c.flow = challenge.flow with
  | some found =>
    obtain ⟨id, c⟩ := found
    refine ⟨id, Table.find?_set hfind (decide_eq_true rfl), ?_⟩
    intro id' c' h
    rw [challengeOf, hfind] at h
    cases h
    rfl
  | none =>
    refine ⟨s.challenges.next, ?_, ?_⟩
    · exact Table.find?_insert_new hfind (decide_eq_true rfl)
    · intro id' c' h
      rw [challengeOf, hfind] at h
      cases h

/-- A write to the row of a flow that leaves the flow alone. -/
theorem challengeOf_update {p : Nat → LoginChallenge → Bool} {f : LoginChallenge → LoginChallenge}
    (hflow : ∀ c, (f c).flow = c.flow) (h : s.challengeOf flow = some (id, c)) :
    challengeOf { s with challenges := s.challenges.update p f } flow =
      some (id, if p id c then f c else c) := by
  have hfind := Table.find?_update (t := s.challenges) (p := p) (f := f)
    (q := fun _ c => c.flow = flow) fun i c => by rw [hflow]
  change (s.challenges.update p f).find? _ = _
  rw [hfind]
  change (s.challengeOf flow).map _ = _
  rw [h]
  rfl

theorem challengeOf_consume (h : s.challengeOf flow = some (id, c)) (id' : RowId) (now : Int) :
    (s.loginChallengeConsume id' now).1.challengeOf flow = some (id,
      if id = id' && c.consumedAt.isNone then { c with consumedAt := some now } else c) :=
  challengeOf_update (fun _ => rfl) h

theorem challengeOf_recordAttempt (h : s.challengeOf flow = some (id, c)) (id' : RowId)
    (attempts : Int) : (s.loginChallengeRecordAttempt id' attempts).challengeOf flow = some (id,
      if id = id' then { c with attempts } else c) := by
  have hupdate := challengeOf_update (p := fun i _ => decide (i = id'))
    (f := fun c => { c with attempts }) (fun _ => rfl) h
  simp only [decide_eq_true_eq] at hupdate
  exact hupdate

/-- Consuming succeeds on a row that has not been consumed. -/
theorem consume_accepts (h : s.challengeOf flow = some (id, c)) (now : Int) :
    (s.loginChallengeConsume id now).2 = true ↔ c.consumedAt = none := by
  have hget := (Table.find?_some h).1
  refine decide_eq_true_iff.trans
    ((Table.count_id (q := fun c : LoginChallenge => c.consumedAt.isNone)).trans ?_)
  constructor
  · rintro ⟨c', hc', hnone⟩
    obtain rfl := Option.some.inj (hget.symm.trans hc')
    exact Option.isNone_iff_eq_none.mp hnone
  · intro hnone
    exact ⟨c, hget, Option.isNone_iff_eq_none.mpr hnone⟩

end Store

/-! ## Submissions -/

/-- What a submission goes on to write. -/
inductive Submission
  /-- The code matched. -/
  | consuming (id : RowId) (purpose : Purpose)
  /-- It did not; `attempts` is the count read, and one. -/
  | recording (id : RowId) (attempts maxAttempts : Int)
  deriving DecidableEq

def Submission.id : Submission → RowId
  | consuming id _ | recording id .. => id

def Submission.isRecording : Submission → Bool
  | consuming .. => false
  | recording .. => true

/-- `Challenge::verify` up to its write: read the row and compare. -/
def readChallenge (hashCode : String → String) (s : Store) (flow : Flow) (candidate : String)
    (now : Int) (fails : Bool) : Except Site.VerifyError Submission :=
  match (if fails then none else s.challengeOf flow) with
  | none => .error .expired
  | some (id, challenge) =>
    if challenge.consumedAt.isSome then .error .used
    else if challenge.expiresAt < now then .error .expired
    else if challenge.maxAttempts ≤ challenge.attempts then .error .tooManyAttempts
    else if hashCode candidate = challenge.codeHash then .ok (.consuming id challenge.purpose)
    else .ok (.recording id (challenge.attempts + 1) challenge.maxAttempts)

/-- The rest of `Challenge::verify`. -/
def concludeSubmission (s : Store) (now : Int) (fails : Bool) :
    Submission → Store × Except Site.VerifyError Purpose
  | .consuming id purpose =>
    if fails then (s, .error .used)
    else match s.loginChallengeConsume id now with
      | (s, true) => (s, .ok purpose)
      | (s, false) => (s, .error .used)
  | .recording id attempts maxAttempts =>
    (if fails then s else s.loginChallengeRecordAttempt id attempts,
      .error (if maxAttempts ≤ attempts then .tooManyAttempts else .wrong))

/-- A submission served at one instant is its two halves in a row. -/
theorem verifyChallenge_eq (rt : Runtime) (site : Site) (r : Request) (sessionId : RowId)
    (code : String) : site.verifyChallenge rt r sessionId code =
      match readChallenge rt.hashCode site.store (.session sessionId) code r.now
        (r.fails .challengeRead) with
      | .error e => (site, .error e)
      | .ok submission =>
        let (store, result) := concludeSubmission site.store r.now
          (r.fails (if submission.isRecording then .challengeAttempt else .challengeConsume))
          submission
        ({ site with store }, result) := by
  unfold Site.verifyChallenge readChallenge
  cases hread : r.fails .challengeRead with
  | true => rfl
  | false =>
    rw [if_neg (by decide), if_neg (by decide), Store.loginChallengeBySession_eq]
    cases site.store.challengeOf (.session sessionId) with
    | none => rfl
    | some found =>
      obtain ⟨id, challenge⟩ := found
      dsimp only
      by_cases hconsumed : challenge.consumedAt.isSome
      · rw [if_pos hconsumed, if_pos hconsumed]
      by_cases hexpired : challenge.expiresAt < r.now
      · rw [if_neg hconsumed, if_neg hconsumed, if_pos hexpired, if_pos hexpired]
      by_cases hattempts : challenge.maxAttempts ≤ challenge.attempts
      · simp only [if_neg hconsumed, if_neg hexpired, if_pos hattempts]
      by_cases hmatch : rt.hashCode code = challenge.codeHash
      · simp only [if_neg hconsumed, if_neg hexpired, if_neg hattempts, if_pos hmatch,
          concludeSubmission, Submission.isRecording, Bool.false_eq_true, if_false]
        split
        · rfl
        · cases site.store.loginChallengeConsume id r.now with
          | mk store ok => cases ok <;> rfl
      · simp only [if_neg hconsumed, if_neg hexpired, if_neg hattempts, if_neg hmatch,
          concludeSubmission, Submission.isRecording, if_true]
        cases r.fails .challengeAttempt <;> rfl

namespace EmailedCode

/-- The flow, with the submissions in progress, each with the number of the code it was compared
with. -/
structure World where
  store : Store
  flow : Flow
  submissions : List (Nat × Submission)
  /-- How many codes have been issued. -/
  issued : Nat
  /-- The wrong candidates compared with the newest. -/
  wrong : Nat
  /-- The codes accepted: each with the newest at the time. -/
  accepted : List (Nat × Nat)

inductive Act
  | issue (code : String) (purpose : Purpose) (now : Int) (fails : Bool)
  | read (candidate : String) (now : Int) (fails : Bool)
  | conclude (index : Nat) (now : Int) (fails : Bool)
  deriving DecidableEq

variable (hashCode : String → String)

namespace World

/-- `Challenge::issue`. -/
def issue (w : World) (code : String) (purpose : Purpose) (now : Int) : World :=
  { w with
    store := w.store.loginChallengeUpsert
      { flow := w.flow, purpose, codeHash := hashCode code, expiresAt := now + Site.otpTtlSecs
        attempts := 0, maxAttempts := Site.otpMaxAttempts, lastSentAt := now, consumedAt := none }
    issued := w.issued + 1
    wrong := 0 }

def step (w : World) : Act → Option World
  | .issue code purpose now fails => some (if fails then w else w.issue hashCode code purpose now)
  | .read candidate now fails =>
    match readChallenge hashCode w.store w.flow candidate now fails with
    | .error _ => some w
    | .ok submission => some
      { w with
        submissions := w.submissions ++ [(w.issued, submission)]
        wrong := if submission.isRecording then w.wrong + 1 else w.wrong }
  | .conclude index now fails =>
    match w.submissions[index]? with
    | none => none
    | some (number, submission) =>
      let (store, result) := concludeSubmission w.store now fails submission
      some
        { w with
          store
          submissions := w.submissions.eraseIdx index
          accepted :=
            if result.isOk then w.accepted ++ [(number, w.issued)] else w.accepted }

/-- The row of the flow. -/
def code (w : World) : Option (RowId × LoginChallenge) := w.store.challengeOf w.flow

structure Initial (w : World) : Prop where
  submissions : w.submissions = []
  wrong : w.wrong = 0
  accepted : w.accepted = []
  counts : ∀ id c, w.code = some (id, c) → 0 ≤ c.attempts ∧ 0 ≤ c.maxAttempts

/-! ## Guessing -/

/-- No more wrong candidates are compared with the newest code than it allows, and once they have
been every candidate is refused, the right one too. -/
def GuessesBounded (w : World) : Prop :=
  ∀ id c, w.code = some (id, c) → (w.wrong : Int) ≤ c.maxAttempts ∧
    (w.submissions = [] → c.maxAttempts ≤ w.wrong → c.consumedAt = none →
      ∀ candidate now, now ≤ c.expiresAt →
        readChallenge hashCode w.store w.flow candidate now false = .error .tooManyAttempts)

/-- A submission reads while no other is in progress, and a wrong entry is recorded. -/
def Alone (w : World) : Act → Prop
  | .read .. => w.submissions = []
  | .conclude index _ fails => fails → (w.submissions[index]?).all fun e => !e.2.isRecording
  | .issue .. => True

instance (w : World) : (a : Act) → Decidable (w.Alone a)
  | .read .. => inferInstanceAs (Decidable (w.submissions = []))
  | .conclude .. => inferInstanceAs (Decidable (_ → _))
  | .issue .. => inferInstanceAs (Decidable True)

/-- What the row counts once the submission has concluded. -/
def quota (c : LoginChallenge) : Submission → Int
  | .consuming .. => c.attempts
  | .recording _ attempts _ => attempts

/-- The wrong candidates are counted in the row, or will be. -/
inductive Counted (w : World) : Prop
  | idle (hidle : w.submissions = [])
    (hcount : ∀ id c, w.code = some (id, c) →
      (w.wrong : Int) ≤ c.maxAttempts ∧ (w.wrong : Int) ≤ c.attempts)
  | busy (number : Nat) (submission : Submission) (c : LoginChallenge)
    (hbusy : w.submissions = [(number, submission)])
    (hcode : w.code = some (submission.id, c))
    (hcount : (w.wrong : Int) ≤ c.maxAttempts ∧ (w.wrong : Int) ≤ quota c submission)

theorem Initial.counted {w : World} (h : w.Initial) : w.Counted := by
  refine .idle h.submissions fun id c hc => ?_
  rw [h.wrong]
  exact (h.counts id c hc).symm

/-- What a submission that goes on has read. -/
theorem read_ok {s : Store} {flow : Flow} {candidate : String} {now : Int} {fails : Bool}
    {submission : Submission}
    (h : readChallenge hashCode s flow candidate now fails = .ok submission) :
    ∃ c, s.challengeOf flow = some (submission.id, c) ∧ c.consumedAt = none ∧
      c.attempts < c.maxAttempts ∧
      (submission = .consuming submission.id c.purpose ∧ hashCode candidate = c.codeHash ∨
        submission = .recording submission.id (c.attempts + 1) c.maxAttempts ∧
          hashCode candidate ≠ c.codeHash) := by
  unfold readChallenge at h
  split at h
  · cases h
  rename_i id c hfind
  have hcode : s.challengeOf flow = some (id, c) := by
    cases fails with
    | true => cases hfind
    | false => exact hfind
  split_ifs at h with hconsumed hexpired hattempts hmatch
  · cases h
    exact ⟨c, hcode, by simpa using hconsumed, Int.not_le.mp hattempts, .inl ⟨rfl, hmatch⟩⟩
  · cases h
    exact ⟨c, hcode, by simpa using hconsumed, Int.not_le.mp hattempts, .inr ⟨rfl, hmatch⟩⟩

/-- What concluding a submission leaves of the row it read. -/
theorem conclude_code {w : World} {submission : Submission} {c : LoginChallenge}
    (h : w.code = some (submission.id, c)) (now : Int) (fails : Bool) : ∃ c',
    (concludeSubmission w.store now fails submission).1.challengeOf w.flow =
      some (submission.id, c') ∧ c'.maxAttempts = c.maxAttempts ∧
      c'.attempts = (if submission.isRecording && !fails then quota c submission else c.attempts) := by
  cases submission with
  | consuming id purpose =>
    cases fails with
    | true => exact ⟨c, h, rfl, rfl⟩
    | false =>
      have hcode := Store.challengeOf_consume h id now
      simp only [concludeSubmission, Bool.false_eq_true, if_false]
      cases hconsume : w.store.loginChallengeConsume id now with
      | mk store ok =>
        rw [hconsume] at hcode
        cases ok <;> refine ⟨_, hcode, ?_, ?_⟩ <;> split <;> rfl
  | recording id attempts maxAttempts =>
    cases fails with
    | true => exact ⟨c, h, rfl, rfl⟩
    | false =>
      have hcode := Store.challengeOf_recordAttempt h id attempts
      exact ⟨_, hcode.trans (congrArg (fun c => some (id, c)) (if_pos rfl)), rfl, rfl⟩

theorem Counted.step {w w' : World} {a : Act} (hc : w.Counted) (ha : w.Alone a)
    (h : w.step hashCode a = some w') : w'.Counted := by
  cases a with
  | issue code purpose now fails =>
    cases h
    cases fails with
    | true => exact hc
    | false =>
      obtain ⟨id, hcode, hsame⟩ := w.store.challengeOf_upsert
        { flow := w.flow, purpose, codeHash := hashCode code, expiresAt := now + Site.otpTtlSecs
          attempts := 0, maxAttempts := Site.otpMaxAttempts, lastSentAt := now, consumedAt := none }
      have hmax : 0 ≤ Site.otpMaxAttempts := by decide
      cases hc with
      | idle hidle hcount =>
        refine .idle hidle fun id' c' hc' => ?_
        obtain ⟨-, rfl⟩ := Prod.mk.inj (Option.some.inj (hcode.symm.trans hc'))
        exact ⟨hmax, Int.le_refl 0⟩
      | busy number submission c hbusy hold hcount =>
        obtain rfl := hsame _ _ hold
        refine .busy number submission _ hbusy hcode ⟨hmax, ?_⟩
        cases submission with
        | consuming => exact Int.le_refl 0
        | recording => exact Int.le_trans (Int.natCast_nonneg _) hcount.2
  | read candidate now fails =>
    cases hc with
    | busy number submission c hbusy =>
      have hnone : w.submissions = [] := ha
      rw [hbusy] at hnone
      cases hnone
    | idle hidle hcount =>
      simp only [World.step] at h
      cases hread : readChallenge hashCode w.store w.flow candidate now fails with
      | error e =>
        rw [hread] at h
        cases h
        exact .idle hidle hcount
      | ok submission =>
        rw [hread] at h
        cases h
        obtain ⟨c, hcode, -, hlt, hkind⟩ := read_ok hashCode hread
        obtain ⟨hmax, hattempts⟩ := hcount _ _ hcode
        refine .busy w.issued submission c (by rw [hidle, List.nil_append]) hcode ?_
        rcases hkind with ⟨hkind, -⟩ | ⟨hkind, -⟩
        · rw [hkind]
          exact ⟨hmax, hattempts⟩
        · rw [hkind]
          change ((w.wrong + 1 : Nat) : Int) ≤ c.maxAttempts ∧
            ((w.wrong + 1 : Nat) : Int) ≤ c.attempts + 1
          omega
  | conclude index now fails =>
    simp only [World.step] at h
    cases hc with
    | idle hidle hcount =>
      rw [hidle, List.getElem?_nil] at h
      cases h
    | busy number submission c hbusy hcode hcount =>
      obtain rfl : index = 0 := by
        by_contra hne
        rw [hbusy, List.getElem?_eq_none (by simp; omega)] at h
        cases h
      rw [hbusy] at h
      cases h
      obtain ⟨c', hcode', hmax, hattempts⟩ := conclude_code hcode now fails
      refine .idle rfl fun id c'' hc'' => ?_
      obtain ⟨-, rfl⟩ := Prod.mk.inj (Option.some.inj (hcode'.symm.trans hc''))
      rw [hmax, hattempts]
      refine ⟨hcount.1, ?_⟩
      cases submission with
      | consuming => exact hcount.2
      | recording =>
        have hstored : fails = false := by
          by_contra hfails
          have hnot := ha (by simpa using hfails)
          rw [hbusy] at hnot
          cases hnot
        rw [hstored]
        exact hcount.2

namespace Sample

def flow : Flow := .session 7

/-- No code has been issued yet. -/
def empty : World where
  store := {}
  flow
  submissions := []
  issued := 0
  wrong := 0
  accepted := []

theorem empty_initial : empty.Initial where
  submissions := rfl
  wrong := rfl
  accepted := rfl
  counts := by
    intro id c hc
    cases hc

/-- Wrong entries one after the other. -/
def inTurn : List Act :=
  [.issue "123456" .signIn 1000 false, .read "000000" 1010 false, .conclude 0 1010 false,
    .read "111111" 1020 false, .conclude 0 1020 false]

/-- Six wrong entries read the row before any is recorded. -/
def atOnce : List Act :=
  [.issue "123456" .signIn 1000 false, .read "000000" 1010 false, .read "111111" 1010 false,
    .read "222222" 1010 false, .read "333333" 1010 false, .read "444444" 1010 false,
    .read "555555" 1010 false]

end Sample

/-- No code is accepted twice, and none after another has been issued. -/
def NewestOnce (w : World) : Prop :=
  (w.accepted.map (·.1)).Nodup ∧ ∀ e ∈ w.accepted, e.1 = e.2

/-- A submission whose code matched goes on to consume while that code is the newest, or the newest
is spent. -/
def Unreplaced (w : World) : Act → Prop
  | .conclude index _ fails => (w.submissions[index]?).all fun e =>
    e.2.isRecording || fails || e.1 = w.issued || w.code.all (·.2.consumedAt.isSome)
  | .read .. | .issue .. => True

instance (w : World) : (a : Act) → Decidable (w.Unreplaced a)
  | .conclude .. => inferInstanceAs (Decidable (_ = true))
  | .read .. | .issue .. => inferInstanceAs (Decidable True)

/-- What concluding a submission makes of the mark on the row. -/
theorem conclude_consumed {w : World} {submission : Submission} {c c' : LoginChallenge} {now : Int}
    {fails : Bool} (h : w.code = some (submission.id, c))
    (h' : (concludeSubmission w.store now fails submission).1.challengeOf w.flow =
      some (submission.id, c')) : (c.consumedAt ≠ none → c'.consumedAt ≠ none) ∧
    ((concludeSubmission w.store now fails submission).2.isOk →
      submission.isRecording = false ∧ fails = false ∧ c.consumedAt = none ∧
        c'.consumedAt ≠ none) := by
  cases submission with
  | consuming id purpose =>
    cases fails with
    | true =>
      obtain ⟨-, rfl⟩ := Prod.mk.inj (Option.some.inj (h.symm.trans h'))
      refine ⟨fun hc => hc, fun hok => ?_⟩
      cases hok
    | false =>
      have hcode := Store.challengeOf_consume h id now
      have haccept := Store.consume_accepts h now
      rw [concludeSubmission, if_neg (by decide)] at h' ⊢
      cases hconsume : w.store.loginChallengeConsume id now with
      | mk store ok =>
        change (w.store.loginChallengeConsume id now).2 = true ↔ c.consumedAt = none at haccept
        rw [hconsume] at hcode haccept h'
        cases ok with
        | true =>
          have hnone := haccept.mp rfl
          obtain ⟨-, rfl⟩ := Prod.mk.inj (Option.some.inj (hcode.symm.trans h'))
          refine ⟨fun hc => absurd hnone hc, fun _ => ⟨rfl, rfl, hnone, ?_⟩⟩
          rw [hnone]
          simp [Submission.id]
        | false =>
          obtain ⟨-, rfl⟩ := Prod.mk.inj (Option.some.inj (hcode.symm.trans h'))
          refine ⟨fun hc => ?_, fun hok => ?_⟩
          · split
            · exact Option.some_ne_none _
            · exact hc
          · cases hok
  | recording id attempts maxAttempts =>
    refine ⟨fun hc => ?_, fun hok => ?_⟩
    · cases fails with
      | true =>
        obtain ⟨-, rfl⟩ := Prod.mk.inj (Option.some.inj (h.symm.trans h'))
        exact hc
      | false =>
        have hcode := Store.challengeOf_recordAttempt h id attempts
        obtain ⟨-, rfl⟩ := Prod.mk.inj (Option.some.inj (hcode.symm.trans h'))
        split <;> exact hc
    · cases hok

structure Spent (w : World) : Prop where
  submissions : ∀ e ∈ w.submissions, ∃ c, w.code = some (e.2.id, c)
  newest : w.NewestOnce
  issued : ∀ e ∈ w.accepted, e.1 ≤ w.issued
  spent : w.issued ∈ w.accepted.map (·.1) → ∀ id c, w.code = some (id, c) → c.consumedAt ≠ none

theorem Initial.spent {w : World} (h : w.Initial) : w.Spent := by
  refine ⟨?_, ⟨?_, ?_⟩, ?_, ?_⟩ <;> simp [h.submissions, h.accepted]

theorem Spent.step {w w' : World} {a : Act} (hs : w.Spent) (ha : w.Unreplaced a)
    (h : w.step hashCode a = some w') : w'.Spent := by
  cases a with
  | issue code purpose now fails =>
    cases h
    cases fails with
    | true => exact hs
    | false =>
      obtain ⟨id, hcode, hsame⟩ := w.store.challengeOf_upsert
        { flow := w.flow, purpose, codeHash := hashCode code, expiresAt := now + Site.otpTtlSecs
          attempts := 0, maxAttempts := Site.otpMaxAttempts, lastSentAt := now, consumedAt := none }
      refine ⟨fun e he => ?_, hs.newest, fun e he => Nat.le_succ_of_le (hs.issued e he), ?_⟩
      · obtain ⟨c, hc⟩ := hs.submissions e he
        obtain rfl := hsame _ _ hc
        exact ⟨_, hcode⟩
      · intro hmem
        obtain ⟨e, he, hnumber⟩ := List.mem_map.mp hmem
        have hle := hs.issued e he
        change e.1 = w.issued + 1 at hnumber
        omega
  | read candidate now fails =>
    simp only [World.step] at h
    cases hread : readChallenge hashCode w.store w.flow candidate now fails with
    | error e =>
      rw [hread] at h
      cases h
      exact hs
    | ok submission =>
      rw [hread] at h
      cases h
      obtain ⟨c, hcode, -⟩ := read_ok hashCode hread
      refine ⟨fun e he => ?_, hs.newest, hs.issued, hs.spent⟩
      rcases List.mem_append.mp he with he | he
      · exact hs.submissions e he
      · rw [List.mem_singleton.mp he]
        exact ⟨c, hcode⟩
  | conclude index now fails =>
    simp only [World.step] at h
    cases hget : w.submissions[index]? with
    | none =>
      rw [hget] at h
      cases h
    | some e =>
      obtain ⟨number, submission⟩ := e
      rw [hget] at h
      cases h
      obtain ⟨c, hcode⟩ := hs.submissions _ (List.mem_of_getElem? hget)
      obtain ⟨c', hcode', -⟩ := conclude_code hcode now fails
      obtain ⟨hstays, haccepted⟩ := conclude_consumed hcode hcode'
      have hsubs : ∀ e ∈ w.submissions.eraseIdx index, ∃ c,
          (concludeSubmission w.store now fails submission).1.challengeOf w.flow =
            some (e.2.id, c) := by
        intro e he
        obtain ⟨c₀, hc₀⟩ := hs.submissions e (List.mem_of_mem_eraseIdx he)
        obtain ⟨hid, -⟩ := Prod.mk.inj (Option.some.inj (hcode.symm.trans hc₀))
        exact ⟨c', hid ▸ hcode'⟩
      cases hok : (concludeSubmission w.store now fails submission).2.isOk with
      | false =>
        refine ⟨hsubs, hs.newest, hs.issued, fun hmem id c₁ hc₁ => ?_⟩
        obtain ⟨-, rfl⟩ := Prod.mk.inj (Option.some.inj (hcode'.symm.trans hc₁))
        exact hstays (hs.spent hmem _ _ hcode)
      | true =>
        obtain ⟨hmatched, hstored, hnone, hsome⟩ := haccepted hok
        -- the mark was not set, so the code consumed is the newest and has not been accepted yet
        have hnumber : number = w.issued := by
          rw [World.Unreplaced, hget, hcode] at ha
          simpa [hmatched, hstored, hnone] using ha
        subst hnumber
        have hnew : w.issued ∉ w.accepted.map (·.1) := fun hmem => hs.spent hmem _ _ hcode hnone
        have hlast {e : Nat × Nat} (he : e ∈ w.accepted ++ [(w.issued, w.issued)]) :
            e ∈ w.accepted ∨ e = (w.issued, w.issued) :=
          (List.mem_append.mp he).imp_right List.mem_singleton.mp
        refine ⟨hsubs, ⟨?_, fun e he => ?_⟩, fun e he => ?_, fun _ id c₁ hc₁ => ?_⟩
        · change ((w.accepted ++ [(w.issued, w.issued)]).map (·.1)).Nodup
          rw [List.map_append, List.map_singleton]
          refine List.nodup_append.mpr ⟨hs.newest.1, List.nodup_singleton _, ?_⟩
          rintro a ha b hb rfl
          obtain rfl : a = w.issued := List.mem_singleton.mp hb
          exact hnew ha
        · rcases hlast he with he | rfl
          · exact hs.newest.2 e he
          · rfl
        · rcases hlast he with he | rfl
          · exact hs.issued e he
          · exact Nat.le_refl _
        · obtain ⟨-, rfl⟩ := Prod.mk.inj (Option.some.inj (hcode'.symm.trans hc₁))
          exact hsome

/-- Only the newest code is accepted, and once, where no code is issued while another is being
consumed. -/
theorem newest_once {w w' : World} {acts : List Act} (hinit : w.Initial)
    (hm : Meets (step hashCode) Unreplaced w acts) (h : run (step hashCode) w acts = some w') :
    w'.NewestOnce := by
  have hs : w'.Spent :=
    run_invariant_of_meets (fun hs ha hstep => hs.step hashCode ha hstep) hm hinit.spent h
  exact hs.newest

namespace Sample

/-- The right code, entered twice at once. -/
def twice : List Act :=
  [.issue "123456" .signIn 1000 false, .read "123456" 1010 false, .read "123456" 1010 false,
    .conclude 0 1011 false, .conclude 0 1011 false]

/-- The right code is read, another is issued, and then the first is consumed. -/
def replaced : List Act :=
  [.issue "123456" .signIn 1000 false, .read "123456" 1060 false, .issue "654321" .signIn 1060 false,
    .conclude 0 1061 false]

end Sample

theorem newest_once_twice : ∃ w, run (step id) Sample.empty Sample.twice = some w ∧
    w.NewestOnce := by
  have hm : Meets (step id) Unreplaced Sample.empty Sample.twice := by
    decide +kernel
  exact ⟨_, rfl, newest_once id Sample.empty_initial hm rfl⟩

/-- The earlier code is accepted after the later one has been issued, and spends it. -/
theorem replaced_code_accepted : ¬∀ (hashCode : String → String) (w w' : World) (acts : List Act),
    w.Initial → run (step hashCode) w acts = some w' → w'.NewestOnce := by
  intro h
  obtain ⟨w, hw, hend⟩ := (Option.any_eq_true (fun w : World =>
    w.accepted.any fun e => decide (e.1 ≠ e.2)) (run (step id) Sample.empty
      Sample.replaced)).mp (by decide +kernel)
  obtain ⟨e, he, hne⟩ := List.any_eq_true.mp hend
  exact of_decide_eq_true hne ((h id Sample.empty w _ Sample.empty_initial hw).2 e he)

end World

end EmailedCode

end TunnelWeaver.Account
