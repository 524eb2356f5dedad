import TunnelWeaver.Account.Provenance

/-! Authenticator apps (`account/totp.rs`): the codes of a secret, the window a code is accepted in,
and the enrolments and sign-ins of an account as they interleave. A call reads the apps and matches
the code in one step; the conditional update that accepts it is a step of its own. -/

namespace TunnelWeaver.Account

open Automaton

namespace Authenticator

/-! ## Codes -/

def stepSecs : Int := 30

def digits : Nat := 6

/-- How many steps either side of now are accepted. -/
def driftSteps : Int := 1

/-- The time step a moment belongs to. -/
def stepAt (now : Int) : Int := now / stepSecs

/-- The big-endian bytes of a 64-bit step. -/
def toBeBytes (step : Int) : List UInt8 :=
  (List.range 8).map fun i => UInt8.ofNat (step / 256 ^ (7 - i) % 256).toNat

/-- The keyed hash of a message: 20 bytes. -/
abbrev Hmac := List UInt8 → List UInt8 → Vector UInt8 20

/-- A number as decimal characters, padded with zeros. -/
def padded (n : Nat) : String :=
  let text := Nat.toDigits 10 n
  String.ofList (List.replicate (digits - text.length) '0' ++ text)

/-- The code a secret produces for a step. -/
def codeForStep (hmac : Hmac) (secret : List UInt8) (step : Int) : String :=
  let digest := (hmac secret (toBeBytes step)).toList
  let offset := (digest.getD 19 0 &&& 0x0f).toNat
  let word := (List.range 4).foldl (fun n i => n * 256 + (digest.getD (offset + i) 0).toNat) 0
  padded (word % 2 ^ 31 % 10 ^ digits)

/-- The characters a string is trimmed of. -/
def isWhiteSpace (c : Char) : Bool :=
  (9 ≤ c.toNat && c.toNat ≤ 13) || (0x2000 ≤ c.toNat && c.toNat ≤ 0x200a) ||
    [0x20, 0x85, 0xa0, 0x1680, 0x2028, 0x2029, 0x202f, 0x205f, 0x3000].contains c.toNat

def trim (s : String) : String :=
  String.ofList ((s.toList.dropWhile isWhiteSpace).reverse.dropWhile isWhiteSpace).reverse

/-- The step a submitted code belongs to, if it is in the window; the current step is tried first. -/
def matchCode (hmac : Hmac) (secret : List UInt8) (candidate : String) (now : Int) : Option Int :=
  let candidate := trim candidate
  if candidate.utf8ByteSize ≠ digits then none
  else
    [0, -driftSteps, driftSteps].findSome? fun offset =>
      let step := stepAt now + offset
      if codeForStep hmac secret step = candidate then some step else none

/-- A code is accepted for a step next to now, whose code it is. -/
theorem matchCode_some {hmac : Hmac} {secret : List UInt8} {candidate : String} {now step : Int}
    (h : matchCode hmac secret candidate now = some step) :
    stepAt now - 1 ≤ step ∧ step ≤ stepAt now + 1 ∧
      codeForStep hmac secret step = trim candidate := by
  simp only [matchCode] at h
  split_ifs at h
  obtain ⟨offset, hoffset, hstep⟩ := List.exists_of_findSome?_eq_some h
  split_ifs at hstep with hcode
  cases hstep
  have hwindow : -1 ≤ offset ∧ offset ≤ 1 := by
    simp only [driftSteps, List.mem_cons, List.not_mem_nil, or_false] at hoffset
    omega
  exact ⟨by omega, by omega, hcode⟩

/-! ## Calls -/

/-- What is outside the store: the keyed hash, and unsealing the secret of an account. -/
structure Sealed where
  hmac : Hmac
  openSecret : RowId → String → Option (List UInt8)

/-- What a call that has matched a code goes on to write. -/
inductive Call
  | confirming (id accountId : RowId) (now step : Int)
  | recording (id : RowId) (now step : Int)
  deriving DecidableEq

structure World where
  totps : Table TotpCredential := ∅
  calls : List Call := []
  /-- The steps accepted, each with its app. -/
  accepted : List (RowId × Int) := []

inductive Act
  | begin (accountId : RowId) (secret : String) (now : Int)
  | remove (id accountId : RowId)
  /-- The account sweep drops an old enrolment that was never confirmed. -/
  | sweep (cutoff : Int)
  | confirm (id accountId : RowId) (candidate : String) (now : Int) (fails : Bool)
  | verify (accountId : RowId) (candidate : String) (wrongCodes : Nat) (now : Int) (fails : Bool)
  | conclude (index : Nat) (fails : Bool)
  deriving DecidableEq

variable (x : Sealed)

/-- `confirm` up to its write. -/
def confirmMatch (totps : Table TotpCredential) (id accountId : RowId) (candidate : String)
    (now : Int) : Option Call := do
  let row ← (totps.get? id).filter (·.accountId = accountId)
  if row.confirmedAt.isSome then none
  else
    let secret ← x.openSecret accountId row.secret
    let step ← matchCode x.hmac secret candidate now
    return .confirming id accountId now step

/-- `totp_confirmed_for_account`. -/
def confirmedForAccount (totps : Table TotpCredential) (accountId : RowId) :
    List (RowId × TotpCredential) :=
  (totps.rows.filter fun e => e.2.accountId = accountId && e.2.confirmedAt.isSome).mergeSort
    fun a b => a.2.createdAt ≤ b.2.createdAt

/-- The app whose window the code is in: the first decides. -/
def matchApps (apps : List (RowId × TotpCredential)) (accountId : RowId) (candidate : String)
    (now : Int) : Option (RowId × Int) :=
  apps.findSome? fun app => do
    let secret ← x.openSecret accountId app.2.secret
    let step ← matchCode x.hmac secret candidate now
    return (app.1, step)

/-- `verify` up to its write. -/
def verifyMatch (totps : Table TotpCredential) (accountId : RowId) (candidate : String)
    (wrongCodes : Nat) (now : Int) : Option Call :=
  if Site.maxWrongCodes ≤ wrongCodes then none
  else (matchApps x (confirmedForAccount totps accountId) accountId candidate now).map fun found =>
    .recording found.1 now found.2

/-- `totp_confirm`. -/
def totpConfirm (totps : Table TotpCredential) (id accountId : RowId) (now step : Int) :
    Table TotpCredential × Bool :=
  let pending := fun i (t : TotpCredential) =>
    i = id && (t.accountId = accountId && t.confirmedAt.isNone)
  (totps.update pending fun t => { t with confirmedAt := some now, lastUsedStep := some step },
    totps.count pending = 1)

/-- `totp_record_use`. -/
def totpRecordUse (totps : Table TotpCredential) (id : RowId) (step : Int) :
    Table TotpCredential × Bool :=
  let behind := fun i (t : TotpCredential) => i = id && t.lastUsedStep.all (· < step)
  (totps.update behind fun t => { t with lastUsedStep := some step }, totps.count behind = 1)

/-- The site's own record of a use is this one. -/
theorem site_totpRecordUse_eq (site : Site) (id : RowId) (step : Int) :
    site.totpRecordUse id step =
      ({ site with totps := (totpRecordUse site.totps id step).1 },
        (totpRecordUse site.totps id step).2) := rfl

/-- The write of a call, and the step it accepted. -/
def concludeCall (totps : Table TotpCredential) :
    Call → Table TotpCredential × Option (RowId × Int)
  | .confirming id accountId now step =>
    let (totps, ok) := totpConfirm totps id accountId now step
    (totps, if ok then some (id, step) else none)
  | .recording id _ step =>
    let (totps, ok) := totpRecordUse totps id step
    (totps, if ok then some (id, step) else none)

/-- A conditional update of one row, and whether it applied. -/
theorem update_id {totps : Table TotpCredential} {id : RowId} {q : TotpCredential → Bool}
    {f : TotpCredential → TotpCredential} :
    (totps.count (fun i t => i = id && q t) ≠ 1 ∧
      ∀ i, (totps.update (fun i t => i = id && q t) f).get? i = totps.get? i) ∨
    (totps.count (fun i t => i = id && q t) = 1 ∧ ∃ t, totps.get? id = some t ∧ q t = true ∧
      ∀ i, (totps.update (fun i t => i = id && q t) f).get? i =
        if i = id then some (f t) else totps.get? i) := by
  by_cases h : totps.count (fun i t => i = id && q t) = 1
  · obtain ⟨t, ht, hq⟩ := Table.count_id.mp h
    refine .inr ⟨h, t, ht, hq, fun i => ?_⟩
    rw [Table.get?_update]
    by_cases hi : i = id
    · subst hi
      simp [ht, hq]
    · simp [hi]
  · refine .inl ⟨h, fun i => ?_⟩
    rw [Table.get?_update]
    cases hget : totps.get? i with
    | none => rfl
    | some t =>
      have hno : ¬(i = id ∧ q t = true) := by
        rintro ⟨rfl, hq⟩
        exact h (Table.count_id.mpr ⟨t, hget, hq⟩)
      simp only [Option.map_some, Bool.and_eq_true, decide_eq_true_eq, if_neg hno]

/-- What the write of a call does: nothing, or one row takes the step. -/
theorem concludeCall_cases (totps : Table TotpCredential) (call : Call) :
    (concludeCall totps call).1.next = totps.next ∧
    (((concludeCall totps call).2 = none ∧
        ∀ i, (concludeCall totps call).1.get? i = totps.get? i) ∨
      ∃ id step t t', (concludeCall totps call).2 = some (id, step) ∧ totps.get? id = some t ∧
        (∀ i, (concludeCall totps call).1.get? i = if i = id then some t' else totps.get? i) ∧
        t'.lastUsedStep = some step ∧
        ((t.confirmedAt = none ∧ t'.confirmedAt.isSome) ∨
          (∃ now, call = .recording id now step) ∧ t.lastUsedStep.all (· < step) ∧
            t'.confirmedAt = t.confirmedAt)) := by
  refine ⟨by cases call <;> rfl, ?_⟩
  cases call with
  | confirming id accountId now step =>
    simp only [concludeCall, totpConfirm]
    rcases update_id with ⟨hcount, hget⟩ | ⟨hcount, t, ht, hq, hget⟩
    · exact .inl ⟨if_neg (by simpa using hcount), hget⟩
    · simp only [Bool.and_eq_true, decide_eq_true_eq, Option.isNone_iff_eq_none] at hq
      exact .inr ⟨id, step, t, _, if_pos (decide_eq_true hcount), ht, hget, rfl, .inl ⟨hq.2, rfl⟩⟩
  | recording id now step =>
    simp only [concludeCall, totpRecordUse]
    rcases update_id with ⟨hcount, hget⟩ | ⟨hcount, t, ht, hq, hget⟩
    · exact .inl ⟨if_neg (by simpa using hcount), hget⟩
    · exact .inr ⟨id, step, t, _, if_pos (decide_eq_true hcount), ht, hget, rfl,
        .inr ⟨⟨now, rfl⟩, hq, rfl⟩⟩

theorem verifyMatch_some {totps : Table TotpCredential} {accountId : RowId} {candidate : String}
    {wrongCodes : Nat} {now : Int} {call : Call}
    (h : verifyMatch x totps accountId candidate wrongCodes now = some call) :
    ∃ id step t, call = .recording id now step ∧ totps.get? id = some t ∧ t.confirmedAt.isSome := by
  unfold verifyMatch at h
  split_ifs at h
  obtain ⟨found, hfound, rfl⟩ := Option.map_eq_some_iff.mp h
  obtain ⟨app, happ, hmatch⟩ := List.exists_of_findSome?_eq_some hfound
  simp only [Option.bind_eq_bind, Option.bind_eq_some_iff, Option.pure_def,
    Option.some.injEq] at hmatch
  obtain ⟨secret, -, step, -, rfl⟩ := hmatch
  rw [confirmedForAccount, List.mem_mergeSort, List.mem_filter, Bool.and_eq_true] at happ
  exact ⟨app.1, step, app.2, rfl, Table.get?_eq_some.mpr happ.1, happ.2.2⟩

theorem confirmMatch_some {totps : Table TotpCredential} {id accountId : RowId}
    {candidate : String} {now : Int} {call : Call}
    (h : confirmMatch x totps id accountId candidate now = some call) :
    ∃ step, call = .confirming id accountId now step := by
  simp only [confirmMatch, Option.bind_eq_bind, Option.bind_eq_some_iff] at h
  obtain ⟨row, -, h⟩ := h
  split_ifs at h
  simp only [Option.bind_eq_some_iff, Option.pure_def, Option.some.injEq] at h
  obtain ⟨-, -, step, -, rfl⟩ := h
  exact ⟨step, rfl⟩

namespace World

def step (w : World) : Act → Option World
  | .begin accountId secret now => some
      { w with
        totps := w.totps.insert
          { accountId, secret, confirmedAt := none, lastUsedStep := none, createdAt := now } }
  | .remove id accountId => some
      { w with totps := w.totps.delete fun i t => i = id && t.accountId = accountId }
  | .sweep cutoff => some
      { w with totps := w.totps.delete fun _ t => t.confirmedAt.isNone && t.createdAt < cutoff }
  | .confirm id accountId candidate now fails =>
    some { w with
      calls := w.calls ++
        (if fails then none else confirmMatch x w.totps id accountId candidate now).toList }
  | .verify accountId candidate wrongCodes now fails =>
    some { w with
      calls := w.calls ++
        (if fails then none else verifyMatch x w.totps accountId candidate wrongCodes now).toList }
  | .conclude index fails =>
    match w.calls[index]? with
    | none => none
    | some call =>
      let (totps, taken) := if fails then (w.totps, none) else concludeCall w.totps call
      some
        { totps
          calls := w.calls.eraseIdx index
          accepted := w.accepted ++ taken.toList }

/-- The steps accepted for an app, in order. -/
def stepsOf (w : World) (id : RowId) : List Int :=
  (w.accepted.filter (·.1 = id)).map (·.2)

/-- What is accepted of an app is recorded in its row. -/
structure Burned (w : World) : Prop where
  pending : ∀ id t, w.totps.get? id = some t → t.confirmedAt = none → t.lastUsedStep = none
  recorded : ∀ id t, w.totps.get? id = some t → ∀ step ∈ w.stepsOf id,
    ∃ last, t.lastUsedStep = some last ∧ step ≤ last
  known : ∀ e ∈ w.accepted, e.1 < w.totps.next
  confirmed : ∀ id now step, .recording id now step ∈ w.calls → id < w.totps.next ∧
    ∀ t, w.totps.get? id = some t → t.confirmedAt.isSome
  increasing : ∀ id, (w.stepsOf id).Pairwise (· < ·)

/-- Rows that go, or that no call has seen yet, break nothing. -/
theorem Burned.of_get? {w : World} {totps : Table TotpCredential} (h : w.Burned)
    (hnext : w.totps.next ≤ totps.next)
    (hget : ∀ id t, totps.get? id = some t → w.totps.get? id = some t ∨
      w.totps.next ≤ id ∧ t.confirmedAt = none ∧ t.lastUsedStep = none) :
    Burned { w with totps } where
  pending := by
    intro id t ht hpending
    rcases hget id t ht with hold | ⟨-, -, hstep⟩
    · exact h.pending id t hold hpending
    · exact hstep
  recorded := by
    intro id t ht step hmem
    rcases hget id t ht with hold | ⟨hid, -⟩
    · exact h.recorded id t hold step hmem
    · obtain ⟨e, he, -⟩ := List.mem_map.mp hmem
      obtain ⟨he, heid⟩ := List.mem_filter.mp he
      have hlt : id < w.totps.next := of_decide_eq_true heid ▸ h.known e he
      omega
  known := fun e he => Nat.lt_of_lt_of_le (h.known e he) hnext
  confirmed := by
    intro id now step hmem
    obtain ⟨hlt, hconfirmed⟩ := h.confirmed id now step hmem
    refine ⟨Nat.lt_of_lt_of_le hlt hnext, fun t ht => ?_⟩
    rcases hget id t ht with hold | ⟨hid, -⟩
    · exact hconfirmed t hold
    · omega
  increasing := h.increasing

/-- A call that records goes on from a confirmed app. -/
theorem Burned.of_calls {w : World} {call : Option Call} (h : w.Burned)
    (hcall : ∀ id now step, call = some (.recording id now step) →
      ∃ t, w.totps.get? id = some t ∧ t.confirmedAt.isSome) :
    Burned { w with calls := w.calls ++ call.toList } where
  pending := h.pending
  recorded := h.recorded
  known := h.known
  confirmed := by
    intro id now step hmem
    rcases List.mem_append.mp hmem with hmem | hmem
    · exact h.confirmed id now step hmem
    · obtain ⟨t, ht, hconfirmed⟩ := hcall id now step (Option.mem_toList.mp hmem)
      refine ⟨Table.lt_next ht, fun t' ht' => ?_⟩
      rw [Option.some.inj (ht'.symm.trans ht)]
      exact hconfirmed
  increasing := h.increasing

theorem stepsOf_append {w w' : World} {id : RowId} {step : Int}
    (h : w'.accepted = w.accepted ++ [(id, step)]) (i : RowId) :
    w'.stepsOf i = w.stepsOf i ++ if i = id then [step] else [] := by
  unfold stepsOf
  rw [h, List.filter_append, List.map_append]
  by_cases hi : i = id
  · simp [hi]
  · simp [hi, Ne.symm hi]

/-- The write of a call: the step it accepts is ahead of every one accepted before. -/
theorem Burned.conclude {w w' : World} {call : Call} (h : w.Burned) (hcall : call ∈ w.calls)
    (hcalls : ∀ c ∈ w'.calls, c ∈ w.calls) (htotps : w'.totps = (concludeCall w.totps call).1)
    (haccepted : w'.accepted = w.accepted ++ (concludeCall w.totps call).2.toList) :
    w'.Burned := by
  obtain ⟨hnext, ⟨hnone, hget⟩ | ⟨id, step, t, t', hsome, ht, hget, hlast, hkind⟩⟩ :=
    concludeCall_cases w.totps call
  · rw [hnone, Option.toList_none, List.append_nil] at haccepted
    have hkept : Burned { w with totps := w'.totps } :=
      h.of_get? (by rw [htotps, hnext]) fun id t ht => .inl (by rwa [htotps, hget] at ht)
    have hsteps : w'.stepsOf = w.stepsOf := by
      funext i
      rw [stepsOf, haccepted, stepsOf]
    refine ⟨hkept.pending, ?_, ?_, fun id now step hmem => hkept.confirmed id now step (hcalls _ hmem),
      ?_⟩
    · rw [hsteps]
      exact hkept.recorded
    · rw [haccepted]
      exact hkept.known
    · rw [hsteps]
      exact hkept.increasing
  · rw [hsome, Option.toList_some] at haccepted
    have hsteps := stepsOf_append haccepted
    -- every step accepted for the app is behind this one
    have hbehind : ∀ old ∈ w.stepsOf id, old < step := by
      intro old hold
      obtain ⟨last, hlastUsed, hle⟩ := h.recorded id t ht old hold
      rcases hkind with ⟨hpending, -⟩ | ⟨-, hfresh, -⟩
      · rw [h.pending id t ht hpending] at hlastUsed
        cases hlastUsed
      · rw [hlastUsed] at hfresh
        have hlt : last < step := by simpa using hfresh
        omega
    have hnow : t'.confirmedAt.isSome := by
      rcases hkind with ⟨-, hset⟩ | ⟨⟨now, rfl⟩, -, hsame⟩
      · exact hset
      · rw [hsame]
        exact (h.confirmed id now step hcall).2 t ht
    rw [← htotps] at hget
    constructor
    case pending =>
      intro i s hs hpending
      rw [hget] at hs
      split at hs
      · cases hs
        rw [hpending] at hnow
        cases hnow
      · exact h.pending i s hs hpending
    case recorded =>
      intro i s hs old hold
      rw [hget] at hs
      rw [hsteps] at hold
      by_cases hi : i = id
      · subst hi
        rw [if_pos rfl] at hs hold
        cases hs
        refine ⟨step, hlast, ?_⟩
        rcases List.mem_append.mp hold with hold | hold
        · exact Int.le_of_lt (hbehind old hold)
        · exact Int.le_of_eq (List.mem_singleton.mp hold)
      · rw [if_neg hi] at hs hold
        rw [List.append_nil] at hold
        exact h.recorded i s hs old hold
    case known =>
      rw [haccepted, htotps, hnext]
      intro e he
      rcases List.mem_append.mp he with he | he
      · exact h.known e he
      · rw [List.mem_singleton.mp he]
        exact Table.lt_next ht
    case confirmed =>
      intro i now s hmem
      obtain ⟨hlt, hconfirmed⟩ := h.confirmed i now s (hcalls _ hmem)
      refine ⟨by rwa [htotps, hnext], fun s hs => ?_⟩
      rw [hget] at hs
      split at hs
      · cases hs
        exact hnow
      · exact hconfirmed s hs
    case increasing =>
      intro i
      rw [hsteps]
      by_cases hi : i = id
      · subst hi
        rw [if_pos rfl]
        refine List.pairwise_append.mpr ⟨h.increasing i, List.pairwise_singleton .., ?_⟩
        intro old hold new hnew
        rw [List.mem_singleton.mp hnew]
        exact hbehind old hold
      · rw [if_neg hi, List.append_nil]
        exact h.increasing i

theorem Burned.step {w w' : World} {a : Act} (h : w.Burned) (hstep : w.step x a = some w') :
    w'.Burned := by
  cases a with
  | begin accountId secret now =>
    cases hstep
    refine h.of_get? (Nat.le_succ _) fun id t ht => ?_
    rw [Table.get?_insert] at ht
    split at ht
    · cases ht
      exact .inr ⟨Nat.le_of_eq (Eq.symm ‹_›), rfl, rfl⟩
    · exact .inl ht
  | remove id accountId =>
    cases hstep
    refine h.of_get? (Nat.le_refl _) fun id t ht => .inl ?_
    rw [Table.get?_delete] at ht
    exact (Option.filter_eq_some_iff.mp ht).1
  | sweep cutoff =>
    cases hstep
    refine h.of_get? (Nat.le_refl _) fun id t ht => .inl ?_
    rw [Table.get?_delete] at ht
    exact (Option.filter_eq_some_iff.mp ht).1
  | confirm id accountId candidate now fails =>
    cases hstep
    refine h.of_calls fun i n step hcall => ?_
    split at hcall
    · cases hcall
    · obtain ⟨step', hconfirming⟩ := confirmMatch_some x hcall
      cases hconfirming
  | verify accountId candidate wrongCodes now fails =>
    cases hstep
    refine h.of_calls fun i n step hcall => ?_
    split at hcall
    · cases hcall
    · obtain ⟨id, step', t, hrecording, ht, hconfirmed⟩ := verifyMatch_some x hcall
      cases hrecording
      exact ⟨t, ht, hconfirmed⟩
  | conclude index fails =>
    simp only [World.step] at hstep
    cases hget : w.calls[index]? with
    | none =>
      rw [hget] at hstep
      cases hstep
    | some call =>
      rw [hget] at hstep
      have hcall := List.mem_of_getElem? hget
      have hcalls : ∀ c ∈ w.calls.eraseIdx index, c ∈ w.calls := fun c => List.mem_of_mem_eraseIdx
      cases fails with
      | true =>
        cases hstep
        rw [if_pos rfl, Option.toList_none, List.append_nil]
        exact ⟨h.pending, h.recorded, h.known,
          fun id now step hmem => h.confirmed id now step (hcalls _ hmem), h.increasing⟩
      | false =>
        cases hstep
        exact h.conclude hcall hcalls rfl rfl

theorem burned_empty : Burned {} := by
  constructor <;> simp [stepsOf]

/-- No code is accepted twice: the steps accepted for an app increase, whatever interleaves, and the
code a call accepts is that of a step next to now. -/
theorem codes_never_replay {w : World} {acts : List Act} (h : run (step x) {} acts = some w) :
    (∀ id, (w.stepsOf id).Pairwise (· < ·)) ∧
      ∀ secret candidate now step, matchCode x.hmac secret candidate now = some step →
        stepAt now - 1 ≤ step ∧ step ≤ stepAt now + 1 ∧
          codeForStep x.hmac secret step = trim candidate := by
  have hburned : w.Burned := run_invariant (p := fun _ => True)
    (fun hb _ hstep => hb.step x hstep) (fun _ _ => trivial) burned_empty h
  exact ⟨hburned.increasing, fun _ _ _ _ => matchCode_some⟩

namespace Sample

/-- The secret of the published test vectors. -/
def secret : List UInt8 := (List.range 20).map fun i => UInt8.ofNat (48 + (i + 1) % 10)

/-- The keyed hashes of the first steps under it. -/
def hmac : Hmac := fun key message =>
  if key ≠ secret then Vector.replicate 20 0
  else if message = toBeBytes 0 then
    #v[204, 147, 207, 24, 80, 141, 148, 147, 76, 100, 182, 93, 139, 167, 102, 127, 183, 205, 228, 176]
  else if message = toBeBytes 1 then
    #v[117, 164, 138, 25, 212, 203, 225, 0, 100, 78, 138, 193, 57, 126, 234, 116, 122, 45, 51, 171]
  else if message = toBeBytes 2 then
    #v[11, 172, 183, 250, 8, 47, 239, 48, 120, 34, 17, 147, 139, 193, 197, 231, 4, 22, 255, 68]
  else Vector.replicate 20 0

def sealed : Sealed where
  hmac
  openSecret := fun _ text => if text = "sealed" then some secret else none

/-- An app is enrolled with the code of step 1; the next is accepted once, though entered twice. -/
def acts : List Act :=
  [.begin 4 "sealed" 40, .confirm 1 4 "287082" 45 false, .conclude 0 false,
    .verify 4 " 359152" 0 75 false, .verify 4 "359152" 0 75 false, .conclude 0 false,
    .conclude 0 false, .verify 4 "287082" 0 80 false, .conclude 0 false]

end Sample

theorem codes_never_replay_enrolled : ∃ w, run (step Sample.sealed) {} Sample.acts = some w ∧
    w.accepted = [(1, 1), (1, 2)] ∧ (w.stepsOf 1).Pairwise (· < ·) := by
  obtain ⟨w, hw, haccepted⟩ := (Option.any_eq_true (fun w : World =>
    decide (w.accepted = [(1, 1), (1, 2)])) (run (step Sample.sealed) {} Sample.acts)).mp
      (by decide +kernel)
  exact ⟨w, hw, of_decide_eq_true haccepted, (codes_never_replay Sample.sealed hw).1 1⟩

end World

end Authenticator

end TunnelWeaver.Account
