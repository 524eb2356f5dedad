import TunnelWeaver.Account.Store
import TunnelWeaver.Lib.Automaton

/-! The inactivity sweep (`account/inactivity.rs`): accounts that nobody uses are warned, then
deleted. A tick reads the due accounts page by page and settles each of them; meanwhile people sign
in, services are metered, and sessions and tunnels come and go. -/

namespace TunnelWeaver.Account.Inactivity

open Automaton

/-- What the sweep reads of an account. -/
structure AccountRow where
  activatedAt : Int
  lastLoginAt : Option Int := none
  warningAt : Option Int := none
  deriving DecidableEq

/-- `Timeline`; `Config::load` rejects a warning that does not come first. -/
structure Timeline where
  deleteAfter : Int
  /-- How long before the deletion the warning is sent. -/
  lead : Int
  lead_pos : 0 < lead
  lead_lt : lead < deleteAfter

def Timeline.warnAfter (l : Timeline) : Int := l.deleteAfter - l.lead

structure InactivityCandidate where
  accountId : RowId
  lastActivity : Int
  warningAt : Option Int
  hasLiveSession : Bool
  deriving DecidableEq

inductive Warned
  | sent
  | skipped
  | failed
  deriving DecidableEq

/-- What `settle` has decided on. -/
inductive Settling
  | warn (c : InactivityCandidate)
  | delete (c : InactivityCandidate)
  deriving DecidableEq

def Settling.candidate : Settling → InactivityCandidate
  | warn c | delete c => c

/-- A tick under way. -/
structure Sweep where
  tick : Int
  page : List InactivityCandidate
  afterId : RowId
  /-- The page was as long as a page gets. -/
  full : Bool
  settling : Option Settling := none
  deriving DecidableEq

/-- A candidate settled between its warning and its deletion; not `noticed` if a warning was due and
was not sent or not recorded. -/
structure Visit where
  accountId : RowId
  lastActivity : Int
  noticed : Bool
  deriving DecidableEq

/-- A deleted account, as it was then. -/
structure Deletion where
  lastActivity : Int
  warningAt : Option Int
  deriving DecidableEq

structure World where
  accounts : Table AccountRow := ∅
  /-- The metered days of the services of each account. -/
  usage : List (RowId × Int) := []
  /-- The live sessions that passed the second factor, and when they expire. -/
  sessions : List (RowId × Int) := []
  /-- The accounts with a machine that is connected. -/
  tunnels : List RowId := []
  sweep : Option Sweep := none
  visits : List Visit := []
  deletions : List Deletion := []

inductive Act
  | activate (at_ : Int)
  | recordLogin (account : RowId) (at_ : Int)
  | meter (account : RowId) (day : Int)
  /-- Usage rows go with their services and with the retention. -/
  | dropUsage (account : RowId) (days : List Int)
  | openSession (account : RowId) (expiresAt : Int)
  | endSession (account : RowId)
  | connect (account : RowId)
  | disconnect (account : RowId)
  | deleteAccount (account : RowId)
  | tick (at_ : Int)
  /-- The next candidate; `unread` is whether its machines could not be read. -/
  | settle (unread : Bool)
  /-- The warning is sent; `recorded` is whether the store took it. -/
  | warn (outcome : Warned) (recorded : Bool)
  | delete (fails : Bool)
  /-- The page is settled: read the next one, if there may be one. -/
  | turn
  deriving DecidableEq

namespace World

def newestDay (w : World) (id : RowId) : Option Int :=
  ((w.usage.filter (·.1 = id)).map (·.2)).max?

/-- `activity_of`. -/
def activityOf (signIn : Int) (newestDay : Option Int) : Int :=
  match newestDay with
  | some day => max signIn (day * 86400)
  | none => signIn

def activity (w : World) (id : RowId) (account : AccountRow) : Int :=
  activityOf (account.lastLoginAt.getD account.activatedAt) (w.newestDay id)

def sweepPage : Nat := 100

def candidate (w : World) (now : Int) (e : RowId × AccountRow) : InactivityCandidate where
  accountId := e.1
  lastActivity := w.activity e.1 e.2
  warningAt := e.2.warningAt
  hasLiveSession := w.sessions.any fun s => s.1 = e.1 && now < s.2

/-- `inactivity_candidates`. -/
def candidates (w : World) (now threshold : Int) (afterId : RowId) : List InactivityCandidate :=
  let cutoff := now - threshold
  ((w.accounts.rows.filter fun e => afterId < e.1 && e.2.activatedAt ≤ cutoff &&
    e.2.lastLoginAt.all (· ≤ cutoff)).take sweepPage).map (w.candidate now)

/-- `not_warned_since`. -/
def notWarnedSince (c : InactivityCandidate) : Bool := c.warningAt.all (· < c.lastActivity)

variable (l : Timeline)

/-- Read a page. -/
def readPage (w : World) (tick : Int) (afterId : RowId) : World :=
  let page := w.candidates tick l.warnAfter afterId
  { w with
    sweep := page.getLast?.map fun last =>
      { tick, page, afterId := last.accountId, full := page.length = sweepPage } }

def visit (w : World) (c : InactivityCandidate) (noticed : Bool) : World :=
  { w with visits := ⟨c.accountId, c.lastActivity, noticed⟩ :: w.visits }

def removeAccount (w : World) (id : RowId) : World :=
  { w with
    accounts := w.accounts.delete fun i _ => i = id
    usage := w.usage.filter (·.1 ≠ id)
    sessions := w.sessions.filter (·.1 ≠ id) }

/-- `settle`, up to the warning or the deletion. -/
def settle (w : World) (s : Sweep) (c : InactivityCandidate) (unread : Bool) : World :=
  if c.hasLiveSession then { w with sweep := some s }
  else if !unread && c.accountId ∈ w.tunnels then { w with sweep := some s }
  else
    let idle := s.tick - c.lastActivity
    if l.deleteAfter ≤ idle then { w with sweep := some { s with settling := some (.delete c) } }
    else if l.warnAfter ≤ idle then
      if notWarnedSince c then { w with sweep := some { s with settling := some (.warn c) } }
      else { w with sweep := some s }.visit c true
    else { w with sweep := some s }

/-- `account_mark_inactivity_warning`. -/
def markWarning (w : World) (id : RowId) (now : Int) : World :=
  { w with
    accounts := w.accounts.update (fun i _ => i = id) fun a => { a with warningAt := some now } }

def step (w : World) : Act → Option World
  | .activate at_ => some { w with accounts := w.accounts.insert { activatedAt := at_ } }
  | .recordLogin account at_ => some { w with
      accounts := w.accounts.update (fun i _ => i = account) fun a =>
        { a with lastLoginAt := some at_ } }
  | .meter account day => some { w with usage := (account, day) :: w.usage }
  | .dropUsage account days => some { w with
      usage := w.usage.filter fun e => !(e.1 = account && e.2 ∈ days) }
  | .openSession account expiresAt => some { w with
      sessions := (account, expiresAt) :: w.sessions }
  | .endSession account => some { w with sessions := w.sessions.filter (·.1 ≠ account) }
  | .connect account => some { w with tunnels := account :: w.tunnels }
  | .disconnect account => some { w with tunnels := w.tunnels.filter (· ≠ account) }
  | .deleteAccount account => some (w.removeAccount account)
  | .tick at_ =>
    match w.sweep with
    | some _ => none
    | none => some (w.readPage l at_ 0)
  | .settle unread =>
    match w.sweep with
    | some s => match s.settling, s.page with
      | none, c :: page => some (w.settle l { s with page } c unread)
      | _, _ => none
    | none => none
  | .warn outcome recorded =>
    match w.sweep with
    | some s => match s.settling with
      | some (.warn c) =>
        let w := { w with sweep := some { s with settling := none } }
        some (if outcome = .sent && recorded then (w.markWarning c.accountId s.tick).visit c true
          else w.visit c false)
      | _ => none
    | none => none
  | .delete fails =>
    match w.sweep with
    | some s => match s.settling with
      | some (.delete c) =>
        let w := { w with sweep := some { s with settling := none } }
        some (if fails then w else match w.accounts.get? c.accountId with
          | none => w
          | some a => { w.removeAccount c.accountId with
              deletions := ⟨w.activity c.accountId a, a.warningAt⟩ :: w.deletions })
      | _ => none
    | none => none
  | .turn =>
    match w.sweep with
    | some s => match s.settling, s.page with
      | none, [] =>
        some (if s.full then w.readPage l s.tick s.afterId else { w with sweep := none })
      | _, _ => none
    | none => none

def run (w : World) (acts : List Act) : Option World := Automaton.run (step l) w acts

/-- No account was deleted without a warning since its last activity. -/
def Warns (w : World) : Prop :=
  ∀ d ∈ w.deletions, ∃ at_, d.warningAt = some at_ ∧ d.lastActivity ≤ at_

/-- An account that is deleted was not used since its page was read, and a tick came by between its
warning and its deletion, found it not live and did not fail to warn it. -/
def Foreseen (w : World) : Act → Prop
  | .delete fails => fails = false → ∀ s ∈ w.sweep, ∀ c ∈ s.settling,
    ∀ a ∈ w.accounts.get? c.candidate.accountId,
      w.activity c.candidate.accountId a ≤ c.candidate.lastActivity ∧
      ∃ v ∈ w.visits, v.accountId = c.candidate.accountId ∧ v.noticed = true ∧
        c.candidate.lastActivity ≤ v.lastActivity
  | _ => True

instance (w : World) (a : Act) : Decidable (w.Foreseen a) := by
  cases a <;> unfold Foreseen <;> infer_instance

/-- The first tick is still to come. -/
structure Initial (w : World) : Prop where
  sweep : w.sweep = none
  visits : w.visits = []
  deletions : w.deletions = []

end World

/-- The candidates of the page that are not settled yet. -/
def Sweep.pending (s : Sweep) : List InactivityCandidate :=
  (s.settling.map (·.candidate)).toList ++ s.page

namespace World

/-! ## The invariant -/

variable {l} {w w' : World} {a : Act}

/-- The warning of a candidate is the one on record. -/
def Current (w : World) (c : InactivityCandidate) : Prop :=
  c.accountId < w.accounts.next ∧
    ∀ a, w.accounts.get? c.accountId = some a → a.warningAt = c.warningAt

/-- The account has been warned since an instant. -/
def WarnedSince (w : World) (id : RowId) (since : Int) : Prop :=
  id < w.accounts.next ∧
    ∀ a, w.accounts.get? id = some a → ∃ at_, a.warningAt = some at_ ∧ since ≤ at_

structure Tracked (w : World) : Prop where
  warns : w.Warns
  visits : ∀ v ∈ w.visits, v.noticed = true → w.WarnedSince v.accountId v.lastActivity
  current : ∀ s, w.sweep = some s → ∀ c ∈ s.pending, w.Current c
  distinct : ∀ s, w.sweep = some s → s.pending.Pairwise (·.accountId ≠ ·.accountId)
  due : ∀ s c, w.sweep = some s → s.settling = some (.warn c) →
    c.lastActivity ≤ s.tick ∧ notWarnedSince c = true

theorem Initial.tracked (h : w.Initial) : w.Tracked where
  warns := by
    intro d hd
    rw [h.deletions] at hd
    cases hd
  visits := by
    intro v hv
    rw [h.visits] at hv
    cases hv
  current := by
    intro s hs
    cases h.sweep.symm.trans hs
  distinct := by
    intro s hs
    cases h.sweep.symm.trans hs
  due := by
    intro s c hs
    cases h.sweep.symm.trans hs

/-- The warnings on record are kept. -/
def Kept (w w' : World) : Prop :=
  w.accounts.next ≤ w'.accounts.next ∧ ∀ id a', id < w.accounts.next →
    w'.accounts.get? id = some a' → ∃ a, w.accounts.get? id = some a ∧ a'.warningAt = a.warningAt

theorem Kept.of_eq (h : w'.accounts = w.accounts) : Kept w w' := by
  rw [Kept, h]
  exact ⟨Nat.le_refl _, fun _ a' _ ha' => ⟨a', ha', rfl⟩⟩

theorem Current.kept {c : InactivityCandidate} (h : w.Current c) (hkept : Kept w w') :
    w'.Current c := by
  refine ⟨Nat.lt_of_lt_of_le h.1 hkept.1, fun a' ha' => ?_⟩
  obtain ⟨a, ha, hsame⟩ := hkept.2 _ a' h.1 ha'
  exact hsame.trans (h.2 a ha)

theorem WarnedSince.kept {id : RowId} {since : Int} (h : w.WarnedSince id since)
    (hkept : Kept w w') : w'.WarnedSince id since := by
  refine ⟨Nat.lt_of_lt_of_le h.1 hkept.1, fun a' ha' => ?_⟩
  obtain ⟨a, ha, hsame⟩ := hkept.2 _ a' h.1 ha'
  rw [hsame]
  exact h.2 a ha

/-- A step that is not one of the sweep. -/
theorem Tracked.of_kept (h : w.Tracked) (hkept : Kept w w') (hsweep : w'.sweep = w.sweep)
    (hvisits : w'.visits = w.visits) (hdeletions : w'.deletions = w.deletions) : w'.Tracked where
  warns := by
    rw [Warns, hdeletions]
    exact h.warns
  visits := by
    rw [hvisits]
    exact fun v hv hn => (h.visits v hv hn).kept hkept
  current := by
    rw [hsweep]
    exact fun s hs c hc => (h.current s hs c hc).kept hkept
  distinct := by
    rw [hsweep]
    exact h.distinct
  due := by
    rw [hsweep]
    exact h.due

theorem kept_removeAccount (w : World) (id : RowId) : Kept w (w.removeAccount id) := by
  refine ⟨Nat.le_refl _, fun i a' _ ha' => ?_⟩
  rw [removeAccount, Table.get?_delete] at ha'
  exact ⟨a', (Option.filter_eq_some_iff.mp ha').1, rfl⟩

theorem kept_activate (w : World) (at_ : Int) :
    Kept w { w with accounts := w.accounts.insert { activatedAt := at_ } } := by
  refine ⟨Nat.le_succ _, fun i a' hi ha' => ?_⟩
  change (w.accounts.insert { activatedAt := at_ }).get? i = some a' at ha'
  rw [Table.get?_insert, if_neg (Nat.ne_of_lt hi)] at ha'
  exact ⟨a', ha', rfl⟩

theorem kept_recordLogin (w : World) (account : RowId) (at_ : Int) :
    Kept w { w with
      accounts := w.accounts.update (fun i _ => i = account) fun a =>
        { a with lastLoginAt := some at_ } } := by
  refine ⟨Nat.le_refl _, fun i a' _ ha' => ?_⟩
  rw [Table.get?_update] at ha'
  obtain ⟨a, ha, rfl⟩ := Option.map_eq_some_iff.mp ha'
  refine ⟨a, ha, ?_⟩
  split <;> rfl

/-! ## The sweep -/

theorem candidates_current (w : World) (now threshold : Int) (afterId : RowId) :
    ∀ c ∈ w.candidates now threshold afterId, w.Current c := by
  intro c hc
  obtain ⟨e, he, rfl⟩ := List.mem_map.mp hc
  have hrow := Table.get?_eq_some.mpr (List.mem_of_mem_filter (List.mem_of_mem_take he))
  refine ⟨Table.lt_next hrow, fun a ha => ?_⟩
  cases hrow.symm.trans ha
  rfl

theorem candidates_distinct (w : World) (now threshold : Int) (afterId : RowId) :
    (w.candidates now threshold afterId).Pairwise (·.accountId ≠ ·.accountId) := by
  refine List.pairwise_map.mpr (List.Pairwise.take (List.Pairwise.filter _ ?_))
  exact w.accounts.sorted.imp fun hlt => Nat.ne_of_lt hlt

theorem Tracked.readPage (h : w.Tracked) (tick : Int) (afterId : RowId) :
    (w.readPage l tick afterId).Tracked := by
  have hsweep {s : Sweep} (hs : (w.readPage l tick afterId).sweep = some s) :
      s.pending = w.candidates tick l.warnAfter afterId ∧ s.settling = none := by
    obtain ⟨last, -, rfl⟩ := Option.map_eq_some_iff.mp hs
    exact ⟨rfl, rfl⟩
  refine ⟨h.warns, h.visits, ?_, ?_, ?_⟩
  · intro s hs
    rw [(hsweep hs).1]
    exact candidates_current w tick l.warnAfter afterId
  · intro s hs
    rw [(hsweep hs).1]
    exact w.candidates_distinct ..
  · intro s c hs hc
    cases (hsweep hs).2.symm.trans hc

/-- Going on with the sweep, what is pending only shrinking. -/
theorem Tracked.setSweep (h : w.Tracked) {s s' : Sweep} (hs : w.sweep = some s)
    (hpending : s'.pending.Sublist s.pending)
    (hdue : ∀ c, s'.settling = some (.warn c) → c.lastActivity ≤ s'.tick ∧
      notWarnedSince c = true) : Tracked { w with sweep := some s' } where
  warns := h.warns
  visits := h.visits
  current := by
    intro s₁ hs₁
    cases hs₁
    exact fun c hc => h.current s hs c (hpending.subset hc)
  distinct := by
    intro s₁ hs₁
    cases hs₁
    exact (h.distinct s hs).sublist hpending
  due := by
    intro s₁ c hs₁
    cases hs₁
    exact hdue c

theorem Tracked.visit (h : w.Tracked) {c : InactivityCandidate} {noticed : Bool}
    (hc : noticed = true → w.WarnedSince c.accountId c.lastActivity) :
    (w.visit c noticed).Tracked where
  warns := h.warns
  visits := by
    intro v hv hn
    rcases List.mem_cons.mp hv with rfl | hv
    · exact hc hn
    · exact h.visits v hv hn
  current := h.current
  distinct := h.distinct
  due := h.due

theorem Tracked.settle (h : w.Tracked) {s : Sweep} {c : InactivityCandidate}
    {page : List InactivityCandidate} {unread : Bool} (hs : w.sweep = some s)
    (hsettling : s.settling = none) (hpage : s.page = c :: page) :
    (w.settle l { s with page } c unread).Tracked := by
  have hpending : s.pending = c :: page := by rw [Sweep.pending, hsettling, hpage]; rfl
  have hskip : Tracked { w with sweep := some { s with page } } := by
    refine h.setSweep hs ?_ ?_
    · rw [hpending, Sweep.pending, hsettling]
      exact List.sublist_cons_self ..
    · intro c' hc'
      cases hsettling.symm.trans hc'
  have hnext (next : Settling) (hcandidate : next.candidate = c)
      (hdue : ∀ c', next = .warn c' → c'.lastActivity ≤ s.tick ∧ notWarnedSince c' = true) :
      Tracked { w with sweep := some { s with page, settling := some next } } := by
    refine h.setSweep hs ?_ ?_
    · rw [hpending, Sweep.pending, Option.map_some, hcandidate]
      exact .refl _
    · intro c' hc'
      exact hdue c' (Option.some.inj hc')
  have hlead := l.lead_lt
  unfold World.settle
  split
  · exact hskip
  split
  · exact hskip
  dsimp only
  split
  · exact hnext (.delete c) rfl fun c' hc' => by cases hc'
  split
  · rename_i hwarn
    split
    · rename_i hnot
      refine hnext (.warn c) rfl fun c' hc' => ?_
      cases hc'
      refine ⟨?_, hnot⟩
      rw [Timeline.warnAfter] at hwarn
      omega
    · rename_i hnot
      refine hskip.visit fun _ => ?_
      have hcurrent := h.current s hs c (by rw [hpending]; exact List.mem_cons_self)
      refine ⟨hcurrent.1, fun a ha => ?_⟩
      have hwarning := hcurrent.2 a ha
      cases hat : c.warningAt with
      | none =>
        rw [notWarnedSince, hat] at hnot
        exact absurd rfl hnot
      | some at_ =>
        rw [notWarnedSince, hat, Option.all_some, decide_eq_true_eq] at hnot
        exact ⟨at_, hwarning.trans hat, Int.not_lt.mp hnot⟩
  · exact hskip

theorem get?_markWarning (w : World) (id : RowId) (now : Int) (i : RowId) :
    (w.markWarning id now).accounts.get? i =
      (w.accounts.get? i).map fun a => if i = id then { a with warningAt := some now } else a := by
  rw [markWarning, Table.get?_update]
  simp

theorem Tracked.warn (h : w.Tracked) {s : Sweep} {c : InactivityCandidate} (hs : w.sweep = some s)
    (hsettling : s.settling = some (.warn c)) :
    (({ w with sweep := some { s with settling := none } }.markWarning c.accountId s.tick).visit c
      true).Tracked := by
  obtain ⟨htick, hnot⟩ := h.due s c hs hsettling
  have hpending : s.pending = c :: s.page := by rw [Sweep.pending, hsettling]; rfl
  have hcurrent := h.current s hs c (by rw [hpending]; exact List.mem_cons_self)
  have hdistinct := h.distinct s hs
  rw [hpending] at hdistinct
  have hpage := (List.pairwise_cons.mp hdistinct).1
  set w₁ : World := { w with sweep := some { s with settling := none } }
  have hget (i : RowId) := get?_markWarning w₁ c.accountId s.tick i
  have hmarked : (w₁.markWarning c.accountId s.tick).Tracked := by
    refine ⟨h.warns, ?_, ?_, ?_, ?_⟩
    · intro v hv hn
      have hsince := h.visits v hv hn
      refine ⟨hsince.1, fun a' ha' => ?_⟩
      rw [hget] at ha'
      obtain ⟨a, ha, rfl⟩ := Option.map_eq_some_iff.mp ha'
      obtain ⟨at_, hat, hle⟩ := hsince.2 a ha
      split
      · rename_i he
        refine ⟨s.tick, rfl, ?_⟩
        -- the new warning is later than the one on record
        have ha : w.accounts.get? v.accountId = some a := ha
        rw [he] at ha
        have hold := hcurrent.2 a ha
        rw [notWarnedSince, ← hold, hat, Option.all_some, decide_eq_true_eq] at hnot
        omega
      · exact ⟨at_, hat, hle⟩
    · intro s₁ hs₁ c' hc'
      cases hs₁
      have hmem : c' ∈ s.page := hc'
      have hcurrent' := h.current s hs c' (by rw [hpending]; exact List.mem_cons_of_mem _ hmem)
      refine ⟨hcurrent'.1, fun a' ha' => ?_⟩
      rw [hget] at ha'
      obtain ⟨a, ha, rfl⟩ := Option.map_eq_some_iff.mp ha'
      rw [if_neg (hpage c' hmem).symm]
      exact hcurrent'.2 a ha
    · intro s₁ hs₁
      cases hs₁
      exact (List.pairwise_cons.mp hdistinct).2
    · intro s₁ c' hs₁ hc'
      cases hs₁
      cases hc'
  refine hmarked.visit fun _ => ⟨hcurrent.1, fun a' ha' => ?_⟩
  rw [hget] at ha'
  obtain ⟨a, -, rfl⟩ := Option.map_eq_some_iff.mp ha'
  rw [if_pos rfl]
  exact ⟨s.tick, rfl, htick⟩

theorem Tracked.delete (h : w.Tracked) {s : Sweep} {c : InactivityCandidate} {a : AccountRow}
    (hs : w.sweep = some s) (hsettling : s.settling = some (.delete c))
    (ha : w.accounts.get? c.accountId = some a)
    (hactivity : w.activity c.accountId a ≤ c.lastActivity)
    (hvisit : ∃ v ∈ w.visits, v.accountId = c.accountId ∧ v.noticed = true ∧
      c.lastActivity ≤ v.lastActivity) :
    Tracked { ({ w with sweep := some { s with settling := none } } : World).removeAccount
        c.accountId with
      deletions := ⟨w.activity c.accountId a, a.warningAt⟩ :: w.deletions } := by
  obtain ⟨v, hv, hid, hnoticed, hle⟩ := hvisit
  have hstop : Tracked { w with sweep := some { s with settling := none } } := by
    refine h.setSweep hs ?_ fun c' hc' => by cases hc'
    rw [Sweep.pending, Sweep.pending, hsettling]
    exact List.sublist_cons_self ..
  have hremoved := hstop.of_kept (kept_removeAccount _ c.accountId) rfl rfl rfl
  refine ⟨?_, hremoved.visits, hremoved.current, hremoved.distinct, hremoved.due⟩
  intro d hd
  rcases List.mem_cons.mp hd with rfl | hd
  · obtain ⟨at_, hat, hsince⟩ := (h.visits v hv hnoticed).2 a (hid ▸ ha)
    exact ⟨at_, hat, Int.le_trans hactivity (Int.le_trans hle hsince)⟩
  · exact h.warns d hd

theorem Tracked.step (h : w.Tracked) (hforeseen : w.Foreseen a) (hstep : w.step l a = some w') :
    w'.Tracked := by
  cases a with
  | activate at_ =>
    cases hstep
    exact h.of_kept (kept_activate w at_) rfl rfl rfl
  | recordLogin account at_ =>
    cases hstep
    exact h.of_kept (kept_recordLogin w account at_) rfl rfl rfl
  | meter | dropUsage | openSession | endSession | connect | disconnect =>
    cases hstep
    exact h.of_kept (.of_eq rfl) rfl rfl rfl
  | deleteAccount account =>
    cases hstep
    exact h.of_kept (kept_removeAccount w account) rfl rfl rfl
  | tick at_ =>
    simp only [World.step] at hstep
    split at hstep
    · cases hstep
    · cases hstep
      exact h.readPage at_ 0
  | settle unread =>
    simp only [World.step] at hstep
    split at hstep
    · rename_i s hs
      split at hstep
      · rename_i c page hsettling hpage
        cases hstep
        exact h.settle hs hsettling hpage
      · cases hstep
    · cases hstep
  | warn outcome recorded =>
    simp only [World.step] at hstep
    split at hstep
    · rename_i s hs
      split at hstep
      · rename_i c hsettling
        cases hstep
        split
        · exact h.warn hs hsettling
        · refine Tracked.visit ?_ fun hn => by cases hn
          refine h.setSweep hs ?_ fun c' hc' => by cases hc'
          rw [Sweep.pending, Sweep.pending, hsettling]
          exact List.sublist_cons_self ..
      · cases hstep
    · cases hstep
  | delete fails =>
    simp only [World.step] at hstep
    split at hstep
    · rename_i s hs
      split at hstep
      · rename_i c hsettling
        have hstop : Tracked { w with sweep := some { s with settling := none } } := by
          refine h.setSweep hs ?_ fun c' hc' => by cases hc'
          rw [Sweep.pending, Sweep.pending, hsettling]
          exact List.sublist_cons_self ..
        cases hstep
        split
        · exact hstop
        · rename_i hfails
          split
          · exact hstop
          · rename_i a ha
            obtain ⟨hactivity, hvisit⟩ :=
              hforeseen (Bool.eq_false_iff.mpr hfails) s hs _ hsettling a ha
            exact h.delete hs hsettling ha hactivity hvisit
      · cases hstep
    · cases hstep
  | turn =>
    simp only [World.step] at hstep
    split at hstep
    · rename_i s hs
      split at hstep
      · cases hstep
        split
        · exact h.readPage s.tick s.afterId
        · refine ⟨h.warns, h.visits, ?_, ?_, ?_⟩
          · intro s₁ hs₁
            cases hs₁
          · intro s₁ hs₁
            cases hs₁
          · intro s₁ c hs₁
            cases hs₁
      · cases hstep
    · cases hstep

/-- Foreseen deletions come after a warning. -/
theorem inactive_warned {init : World} {acts : List Act} (hinit : init.Initial)
    (hforeseen : Meets (World.step l) Foreseen init acts) (hrun : init.run l acts = some w) :
    w.Warns :=
  (run_invariant_of_meets (I := Tracked) (fun h hf hs => h.step hf hs) hforeseen hinit.tracked
    hrun).warns

namespace Sample

/-- A year, and a month before its end. -/
def year : Timeline := ⟨31536000, 2592000, by decide, by decide⟩

theorem initial : Initial {} := ⟨rfl, rfl, rfl⟩

/-- An account is activated; ticks come at the warning and at the deletion. -/
def onTime : List Act :=
  [.activate 0, .tick 28944000, .settle false, .warn .sent true, .turn, .tick 31536000,
    .settle false, .delete false, .turn]

/-- The relay was down from the activation to the deletion. -/
def late : List Act := [.activate 0, .tick 31536000, .settle false, .delete false, .turn]

end Sample

theorem inactive_warned_on_time : ∃ w, run Sample.year {} Sample.onTime = some w ∧
    w.deletions = [⟨0, some 28944000⟩] ∧ w.Warns := by
  have hforeseen : Meets (World.step Sample.year) Foreseen {} Sample.onTime := by decide +kernel
  obtain ⟨w, hrun, hw⟩ := (Option.any_eq_true (fun w : World =>
    w.deletions = [⟨0, some 28944000⟩]) (run Sample.year {} Sample.onTime)).mp (by decide +kernel)
  exact ⟨w, hrun, of_decide_eq_true hw, inactive_warned Sample.initial hforeseen hrun⟩

/-- The first tick after a long downtime deletes without a warning. -/
theorem inactive_unwarned : ¬∀ (l : Timeline) (w w' : World) (acts : List Act), w.Initial →
    w.run l acts = some w' → w'.Warns := by
  intro h
  obtain ⟨w, hrun, hw⟩ := (Option.any_eq_true (fun w : World => w.deletions = [⟨0, none⟩])
    (run Sample.year {} Sample.late)).mp (by decide +kernel)
  obtain ⟨at_, hat, -⟩ := h _ _ w _ Sample.initial hrun ⟨0, none⟩
    (by rw [of_decide_eq_true hw]; exact List.mem_cons_self)
  cases hat

end World

end TunnelWeaver.Account.Inactivity
