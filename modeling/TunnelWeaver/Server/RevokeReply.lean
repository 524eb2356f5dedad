import TunnelWeaver.Server.Revocation

/-! The reply to a `Revoke` request (`on_first_message` of `tunnel/connection.rs`): the machine is
deleted and its connection unregistered off the loop, then the reply is handed to the driver of the
connection. What closes the connection meanwhile: the timer that verifies the key again, a close code
sent by the registry, and the grace of an earlier request. -/

namespace TunnelWeaver.Server.RevokeReply

open Automaton
open Mux (KeyId CloseCode)

/-- A registered connection. -/
structure Tunnel where
  key : KeyId
  connectionId : ConnectionId
  /-- Its close channel. -/
  closeTx : Oneshot

/-- What is handed to the driver. -/
inductive Command
  /-- Queue `Revoked` on the stream of the request. -/
  | reply (id : Nat)
  | refuse (id : Nat)
  | close (code : CloseCode)
  deriving DecidableEq

def Command.closes : Command → Bool
  | .close _ => true
  | _ => false

inductive Phase
  | requested
  /-- `revoke_machine` has committed. -/
  | revoked
  | unregistered
  /-- The reply is handed to the driver; the grace runs. -/
  | replying
  | over
  | refused
  deriving DecidableEq

structure Request where
  phase : Phase
  /-- The machine was revoked while the connection was open. -/
  confirmed : Bool := false
  /-- The reply is queued on the stream. -/
  answered : Bool := false
  deriving DecidableEq

/-- Until the reply, or the refusal, is handed to the driver. -/
def Request.working (r : Request) : Bool :=
  r.phase = .requested || r.phase = .revoked || r.phase = .unregistered

/-- Until the reply is queued. -/
def Request.underWay (r : Request) : Bool := r.working || (r.confirmed && !r.answered)

structure World where
  registry : Registry
  store : MachineStore := {}
  revoking : Bool := false
  /-- The driver waits for the identity of the key. -/
  verifying : Bool := false
  /-- A code that the close task has received. -/
  closing : Option CloseCode := none
  commands : List Command := []
  requests : Map Nat Request := ∅
  closed : Bool := false

inductive Act
  /-- A `Revoke` head arrives. -/
  | request (id : Nat)
  | revokeMachine (id : Nat) (fails : Bool)
  | unregister (id : Nat) (now : Int)
  /-- `full` is whether the command queue has no room. -/
  | sendReply (id : Nat) (full : Bool)
  | graceOver (id : Nat) (full : Bool)
  /-- The close task hands its code to the driver. -/
  | carryClose (full : Bool)
  /-- The driver runs the next command. -/
  | command
  /-- The timer: `still_valid` reads the flag, then the identity. -/
  | verify
  | identity (fails : Bool)
  /-- `close_connection`, of the console. -/
  | closeConnection (key : KeyId) (code : CloseCode)
  /-- Another connection authenticates. -/
  | registerConnection (key : KeyId) (closeTx : Oneshot) (now : Int)
  /-- A connection has closed. -/
  | unregisterConnection (key : KeyId) (connectionId : ConnectionId) (now : Int)
  /-- The console revokes a machine. -/
  | deleteMachine (key : KeyId)
  | createMachine (person : Nat) (name : String) (key : KeyId)
  deriving DecidableEq

namespace World

variable (t : Tunnel)

/-- The other end of the close channel receives what the registry sent. -/
def deliver (w : World) (sent : Option (Oneshot × CloseCode)) : World :=
  match sent with
  | some (tx, code) => if tx = t.closeTx then { w with closing := some code } else w
  | none => w

def setRequest (w : World) (id : Nat) (r : Request) : World :=
  { w with requests := w.requests.insert id r }

/-- `Handle::spawn_on`: dropped when the queue is full. -/
def spawnOn (w : World) (c : Command) (full : Bool) : World :=
  if full then w else { w with commands := w.commands ++ [c] }

/-- The step of a request that is in a phase. -/
def inPhase (w : World) (id : Nat) (phase : Phase) (f : Request → World) : Option World :=
  match w.requests.lookup id with
  | none => none
  | some r => if r.phase = phase then some (f r) else none

/-- Run a command. -/
def perform (w : World) : Command → World
  | .reply id => match w.requests.lookup id with
    | some r => w.setRequest id { r with answered := true }
    | none => w
  | .refuse _ => w
  | .close _ => { w with closed := true }

def step (w : World) : Act → Option World
  | .request id =>
    if w.closed || w.verifying || (w.requests.lookup id).isSome then none
    else some { w.setRequest id { phase := .requested } with revoking := true }
  | .revokeMachine id fails => w.inPhase id .requested fun r =>
    if fails then
      { (w.setRequest id { r with phase := .refused }).spawnOn (.refuse id) false with
        revoking := false }
    else { w.setRequest id { r with phase := .revoked, confirmed := !w.closed } with
      store := w.store.revokeMachine t.key }
  | .unregister id now => w.inPhase id .revoked fun r =>
    { w.setRequest id { r with phase := .unregistered } with
      registry := w.registry.unregisterConnection t.key t.connectionId now }
  | .sendReply id full => w.inPhase id .unregistered fun r =>
    (w.setRequest id { r with phase := .replying }).spawnOn (.reply id) full
  | .graceOver id full => w.inPhase id .replying fun r =>
    (w.setRequest id { r with phase := .over }).spawnOn (.close .keyRevoked) full
  | .carryClose full =>
    match w.closing with
    | none => none
    | some code => some ({ w with closing := none }.spawnOn (.close code) full)
  | .command =>
    match w.commands with
    | [] => none
    | c :: commands =>
      if w.closed || w.verifying then none else some ({ w with commands }.perform c)
  | .verify =>
    if w.closed || w.verifying then none else some { w with verifying := !w.revoking }
  | .identity fails =>
    if w.verifying then
      some { w with
        verifying := false
        closed := w.closed || fails || (w.store.machineByKey t.key).isNone }
    else none
  | .closeConnection key code =>
    let (registry, sent, _) := w.registry.closeConnection key code fun _ => true
    some ({ w with registry }.deliver t sent)
  | .registerConnection key closeTx now =>
    if closeTx = t.closeTx then none
    else
      let (registry, _, sent) := w.registry.registerConnection key closeTx now
      some ({ w with registry }.deliver t sent)
  | .unregisterConnection key connectionId now =>
    if key = t.key && connectionId = t.connectionId && !w.closed then none
    else some { w with registry := w.registry.unregisterConnection key connectionId now }
  | .deleteMachine key => some { w with store := w.store.revokeMachine key }
  | .createMachine person name key =>
    some { w with store := w.store.createMachine person name key }

def run (w : World) (acts : List Act) : Option World := Automaton.run (step t) w acts

/-- A revoke that was confirmed before the connection closed has been answered before that. -/
def Answered (w : World) : Prop :=
  w.closed = true → ∀ id r, w.requests.lookup id = some r → r.confirmed = true → r.answered = true

/-- No confirmed request has yet to hand its reply to the driver. -/
def Unhurried (w : World) : Prop :=
  ∀ e ∈ w.requests.entries, e.2.confirmed = true → e.2.working = false

/-- The connection is not about to close when a machine is revoked, a reply finds room in the queue,
a close is handed to the driver after the replies, and the timer does not find the flag cleared by
another request. -/
def Orderly (w : World) : Act → Prop
  | .revokeMachine _ fails => fails = false → ∀ c ∈ w.commands, c.closes = false
  | .sendReply _ full => full = false
  | .graceOver _ full | .carryClose full => full = false → w.Unhurried
  | .verify => w.revoking = true ∨ ∀ e ∈ w.requests.entries, e.2.underWay = false
  | _ => True

instance (w : World) : Decidable w.Unhurried := List.decidableBAll _ _

instance (w : World) (a : Act) : Decidable (w.Orderly a) := by
  cases a <;> unfold Orderly <;> infer_instance

/-- No revoke was requested. -/
def Initial (w : World) : Prop := ∀ id, w.requests.lookup id = none

/-! ## Steps -/

variable {t} {w w' : World} {a : Act} {id : Nat} {r : Request}

theorem inPhase_eq_some {phase : Phase} {f : Request → World}
    (h : w.inPhase id phase f = some w') :
    ∃ r, w.requests.lookup id = some r ∧ r.phase = phase ∧ w' = f r := by
  unfold inPhase at h
  cases hid : w.requests.lookup id with
  | none =>
    rw [hid] at h
    cases h
  | some r =>
    rw [hid] at h
    dsimp only at h
    split at h
    · rename_i hphase
      exact ⟨r, rfl, hphase, (Option.some.inj h).symm⟩
    · cases h

theorem lookup_setRequest (w : World) (id : Nat) (r : Request) (id' : Nat) :
    (w.setRequest id r).requests.lookup id' = if id' = id then some r else w.requests.lookup id' :=
  Map.lookup_insert_ite ..

theorem mem_entries (h : w.requests.lookup id = some r) : ⟨id, r⟩ ∈ w.requests.entries :=
  AList.mem_lookup_iff.mp h

/-! ## The invariant -/

/-- The reply of a request comes before any close. -/
def RepliesFirst (commands : List Command) (id : Nat) : Prop :=
  ∃ before after, commands = before ++ .reply id :: after ∧ ∀ c ∈ before, c.closes = false

/-- A confirmed request whose reply is not queued yet. -/
def Due (w : World) (id : Nat) (r : Request) : Prop :=
  r.working = true ∧ (∀ c ∈ w.commands, c.closes = false) ∨
    r.working = false ∧ RepliesFirst w.commands id

structure Tracked (w : World) : Prop where
  answered : w.Answered
  fresh : ∀ id r, w.requests.lookup id = some r → r.phase = .requested ∨ r.phase = .refused →
    r.confirmed = false
  due : w.closed = false → ∀ id r, w.requests.lookup id = some r → r.confirmed = true →
    r.answered = false → w.Due id r
  verifying : w.verifying = true → ∀ id r, w.requests.lookup id = some r → r.underWay = false

theorem Initial.tracked (h : w.Initial) : w.Tracked where
  answered := by
    intro _ id r hid
    rw [h id] at hid
    cases hid
  fresh := by
    intro id r hid
    rw [h id] at hid
    cases hid
  due := by
    intro _ id r hid
    rw [h id] at hid
    cases hid
  verifying := by
    intro _ id r hid
    rw [h id] at hid
    cases hid

theorem RepliesFirst.append {commands : List Command} (h : RepliesFirst commands id)
    (more : List Command) : RepliesFirst (commands ++ more) id := by
  obtain ⟨before, after, rfl, hbefore⟩ := h
  exact ⟨before, after ++ more, by simp, hbefore⟩

/-- Handing over what does not close, or what closes after the replies. -/
theorem Due.append {commands : List Command} (h : w.Due id r)
    (hcommands : w'.commands = w.commands ++ commands)
    (hcloses : r.working = true → ∀ c ∈ commands, c.closes = false) : w'.Due id r := by
  rw [Due, hcommands]
  rcases h with ⟨hworking, hnone⟩ | ⟨hworking, hfirst⟩
  · refine .inl ⟨hworking, fun c hc => ?_⟩
    rcases List.mem_append.mp hc with hc | hc
    · exact hnone c hc
    · exact hcloses hworking c hc
  · exact .inr ⟨hworking, hfirst.append commands⟩

/-- A step that changes neither the requests nor what closes the connection. -/
theorem Tracked.of_same (h : w.Tracked) (hrequests : w'.requests = w.requests)
    (hcommands : w'.commands = w.commands) (hclosed : w'.closed = w.closed)
    (hverifying : w'.verifying = true → w.verifying = true) : w'.Tracked where
  answered := by
    rw [Answered, hclosed, hrequests]
    exact h.answered
  fresh := by
    rw [hrequests]
    exact h.fresh
  due := by
    rw [hclosed, hrequests]
    intro hopen id r hid hconfirmed hanswered
    rw [Due, hcommands]
    exact h.due hopen id r hid hconfirmed hanswered
  verifying := by
    rw [hrequests]
    exact fun hv => h.verifying (hverifying hv)

/-- A step of a request, which may hand something to the driver. -/
theorem Tracked.of_request (h : w.Tracked) (r' : Request) (commands : List Command)
    (hid : w.requests.lookup id = some r)
    (hrequests : ∀ id', w'.requests.lookup id' = if id' = id then some r' else w.requests.lookup id')
    (hcommands : w'.commands = w.commands ++ commands) (hclosed : w'.closed = w.closed)
    (hverifying : w'.verifying = w.verifying)
    (hunderWay : r.underWay = true ∨ r'.underWay = false)
    (hfresh : r'.phase = .requested ∨ r'.phase = .refused → r'.confirmed = false)
    (hconfirmed : w.closed = true → r'.confirmed = true → r'.answered = true)
    (hdue : w.closed = false → r'.confirmed = true → r'.answered = false → w'.Due id r')
    (hcloses : ∀ id' r', w.requests.lookup id' = some r' → r'.confirmed = true →
      r'.working = true → id' ≠ id → ∀ c ∈ commands, c.closes = false) : w'.Tracked where
  answered := by
    intro hc id' r₁ hid' hconfirmed'
    rw [hclosed] at hc
    rw [hrequests] at hid'
    split at hid'
    · cases hid'
      exact hconfirmed hc hconfirmed'
    · exact h.answered hc id' r₁ hid' hconfirmed'
  fresh := by
    intro id' r₁ hid'
    rw [hrequests] at hid'
    split at hid'
    · cases hid'
      exact hfresh
    · exact h.fresh id' r₁ hid'
  due := by
    intro hopen id' r₁ hid' hconfirmed' hanswered
    rw [hclosed] at hopen
    rw [hrequests] at hid'
    split at hid'
    · rename_i he
      cases hid'
      rw [he]
      exact hdue hopen hconfirmed' hanswered
    · rename_i hne
      exact (h.due hopen id' r₁ hid' hconfirmed' hanswered).append hcommands
        fun hworking => hcloses id' r₁ hid' hconfirmed' hworking hne
  verifying := by
    intro hv id' r₁ hid'
    rw [hverifying] at hv
    rw [hrequests] at hid'
    split at hid'
    · cases hid'
      rcases hunderWay with hr | hr
      · rw [h.verifying hv id r hid] at hr
        cases hr
      · exact hr
    · exact h.verifying hv id' r₁ hid'

theorem Tracked.request (h : w.Tracked) (hopen : w.closed = false)
    (hverifying : w.verifying = false) :
    Tracked { w.setRequest id { phase := .requested } with revoking := true } := by
  have hlookup := lookup_setRequest w id { phase := .requested }
  refine ⟨?_, ?_, ?_, ?_⟩
  · intro hc
    exact absurd (hopen.symm.trans hc) (by decide)
  · intro id' r hid'
    change (w.setRequest id { phase := .requested }).requests.lookup id' = some r at hid'
    rw [hlookup] at hid'
    split at hid'
    · cases hid'
      exact fun _ => rfl
    · exact h.fresh id' r hid'
  · intro hc id' r hid'
    change (w.setRequest id { phase := .requested }).requests.lookup id' = some r at hid'
    rw [hlookup] at hid'
    split at hid'
    · cases hid'
      exact fun hconfirmed => absurd hconfirmed (by decide)
    · exact h.due hc id' r hid'
  · intro hv
    exact absurd (hverifying.symm.trans hv) (by decide)

theorem Tracked.revokeMachine (h : w.Tracked) {fails : Bool}
    (horderly : fails = false → ∀ c ∈ w.commands, c.closes = false)
    (hstep : w.step t (.revokeMachine id fails) = some w') : w'.Tracked := by
  obtain ⟨r, hid, hphase, rfl⟩ := inPhase_eq_some hstep
  have hunderWay : r.underWay = true := by simp [Request.underWay, Request.working, hphase]
  have hconfirmed := h.fresh id r hid (.inl hphase)
  cases fails with
  | true =>
    refine h.of_request _ [.refuse id] hid (lookup_setRequest w id _) rfl rfl rfl
      (.inl hunderWay) (fun _ => hconfirmed) ?_ ?_ ?_
    · intro _ hc
      exact absurd (hconfirmed.symm.trans hc) (by decide)
    · intro _ hc
      exact absurd (hconfirmed.symm.trans hc) (by decide)
    · intro _ _ _ _ _ _ c hc
      rw [List.mem_singleton.mp hc]
      rfl
  | false =>
    refine h.of_request _ [] hid (lookup_setRequest w id _) (by simp [setRequest])
      rfl rfl (.inl hunderWay) ?_ ?_ ?_ ?_
    · rintro (he | he) <;> cases he
    · intro hc hconfirmed'
      simp [hc] at hconfirmed'
    · exact fun _ _ _ => .inl ⟨rfl, horderly rfl⟩
    · exact fun _ _ _ _ _ _ c hc => absurd hc List.not_mem_nil

/-- A step of a request that leaves what was confirmed and answered. -/
theorem Tracked.advance (h : w.Tracked) (phase : Phase) (commands : List Command)
    (hid : w.requests.lookup id = some r) (hphase : phase ≠ .requested ∧ phase ≠ .refused)
    (hrequests : w'.requests = (w.setRequest id { r with phase }).requests)
    (hcommands : w'.commands = w.commands ++ commands) (hclosed : w'.closed = w.closed)
    (hverifying : w'.verifying = w.verifying)
    (hworking : r.working = true ∨ Request.working { r with phase } = false)
    (hdue : w.Due id r → w'.Due id { r with phase })
    (hcloses : ∀ id' r', w.requests.lookup id' = some r' → r'.confirmed = true →
      r'.working = true → id' ≠ id → ∀ c ∈ commands, c.closes = false) : w'.Tracked := by
  refine h.of_request { r with phase } commands hid ?_ hcommands hclosed hverifying ?_ ?_ ?_ ?_
    hcloses
  · intro id'
    rw [hrequests]
    exact lookup_setRequest w id _ id'
  · rcases hworking with hr | hr
    · exact .inl (by rw [Request.underWay, hr, Bool.true_or])
    · by_cases hdue : (r.confirmed && !r.answered) = true
      · exact .inl (by rw [Request.underWay, hdue, Bool.or_true])
      · exact .inr (by rw [Request.underWay, hr, Bool.false_or, Bool.eq_false_iff.mpr hdue])
  · rintro (he | he)
    · exact absurd he hphase.1
    · exact absurd he hphase.2
  · exact fun hc => h.answered hc id r hid
  · exact fun hopen hconfirmed hanswered => hdue (h.due hopen id r hid hconfirmed hanswered)

theorem Tracked.unregister (h : w.Tracked) {now : Int}
    (hstep : w.step t (.unregister id now) = some w') : w'.Tracked := by
  obtain ⟨r, hid, hphase, rfl⟩ := inPhase_eq_some hstep
  have hworking : r.working = true := by simp [Request.working, hphase]
  refine h.advance _ [] hid (by decide) rfl (by simp [setRequest]) rfl rfl
    (.inl hworking) ?_ fun _ _ _ _ _ _ c hc => absurd hc List.not_mem_nil
  intro hdue
  rcases hdue with ⟨-, hnone⟩ | ⟨hr, -⟩
  · exact .inl ⟨rfl, hnone⟩
  · exact absurd (hworking.symm.trans hr) (by decide)

theorem Tracked.sendReply (h : w.Tracked) (hstep : w.step t (.sendReply id false) = some w') :
    w'.Tracked := by
  obtain ⟨r, hid, hphase, rfl⟩ := inPhase_eq_some hstep
  have hworking : r.working = true := by simp [Request.working, hphase]
  refine h.advance _ [.reply id] hid (by decide) rfl rfl rfl rfl (.inl hworking) ?_ ?_
  · intro hdue
    rcases hdue with ⟨-, hnone⟩ | ⟨hr, -⟩
    · exact .inr ⟨rfl, w.commands, [], rfl, hnone⟩
    · exact absurd (hworking.symm.trans hr) (by decide)
  · intro _ _ _ _ _ _ c hc
    rw [List.mem_singleton.mp hc]
    rfl

theorem spawnOn_close (w : World) (code : CloseCode) (full : Bool) :
    ∃ commands, (w.spawnOn (.close code) full).commands = w.commands ++ commands ∧
      (full = true → commands = []) := by
  cases full with
  | true => exact ⟨[], by simp [spawnOn], fun _ => rfl⟩
  | false => exact ⟨[.close code], rfl, fun h => absurd h (by decide)⟩

/-- What is handed to the driver besides closes when no reply is on its way. -/
theorem closes_of_unhurried {commands : List Command} {full : Bool}
    (horderly : full = false → w.Unhurried) (hfull : full = true → commands = []) :
    ∀ id' r', w.requests.lookup id' = some r' → r'.confirmed = true → r'.working = true →
      ∀ c ∈ commands, c.closes = false := by
  intro id' r' hid' hconfirmed hworking c hc
  cases full with
  | true =>
    rw [hfull rfl] at hc
    cases hc
  | false =>
    have hnot := horderly rfl _ (mem_entries hid') hconfirmed
    exact absurd (hworking.symm.trans hnot) (by decide)

theorem Tracked.graceOver (h : w.Tracked) {full : Bool} (horderly : full = false → w.Unhurried)
    (hstep : w.step t (.graceOver id full) = some w') : w'.Tracked := by
  obtain ⟨r, hid, hphase, rfl⟩ := inPhase_eq_some hstep
  have hworking : r.working = false := by simp [Request.working, hphase]
  obtain ⟨commands, hcommands, hfull⟩ :=
    spawnOn_close (w.setRequest id { r with phase := .over }) .keyRevoked full
  refine h.advance .over commands hid (by decide) ?_ hcommands ?_ ?_
    (.inr rfl) ?_ fun id' r' hid' hconfirmed hr _ =>
      closes_of_unhurried horderly hfull id' r' hid' hconfirmed hr
  · cases full <;> rfl
  · cases full <;> rfl
  · cases full <;> rfl
  · intro hdue
    rcases hdue with ⟨hr, -⟩ | ⟨-, hfirst⟩
    · exact absurd (hworking.symm.trans hr) (by decide)
    · refine .inr ⟨rfl, ?_⟩
      rw [hcommands]
      exact hfirst.append commands

theorem Tracked.carryClose (h : w.Tracked) {full : Bool} (horderly : full = false → w.Unhurried)
    (hstep : w.step t (.carryClose full) = some w') : w'.Tracked := by
  simp only [step] at hstep
  split at hstep
  · cases hstep
  · rename_i code hcode
    cases hstep
    obtain ⟨commands, hcommands, hfull⟩ := spawnOn_close { w with closing := none } code full
    have hrequests : ({ w with closing := none }.spawnOn (.close code) full).requests =
        w.requests := by cases full <;> rfl
    have hclosed : ({ w with closing := none }.spawnOn (.close code) full).closed =
        w.closed := by cases full <;> rfl
    have hverifying : ({ w with closing := none }.spawnOn (.close code) full).verifying =
        w.verifying := by cases full <;> rfl
    refine ⟨?_, ?_, ?_, ?_⟩
    · rw [Answered, hclosed, hrequests]
      exact h.answered
    · rw [hrequests]
      exact h.fresh
    · rw [hclosed, hrequests]
      intro hopen id r hid hconfirmed hanswered
      exact (h.due hopen id r hid hconfirmed hanswered).append hcommands
        fun hr => closes_of_unhurried horderly hfull id r hid hconfirmed hr
    · rw [hverifying, hrequests]
      exact h.verifying

theorem Due.tail {c : Command} {commands : List Command} (h : w.Due id r)
    (hcommands : w.commands = c :: commands) (hc : c ≠ .reply id)
    (hw' : w'.commands = commands) : w'.Due id r := by
  rw [Due, hw']
  rcases h with ⟨hworking, hnone⟩ | ⟨hworking, before, after, hsplit, hbefore⟩
  · rw [hcommands] at hnone
    exact .inl ⟨hworking, fun c' hc' => hnone c' (List.mem_cons_of_mem _ hc')⟩
  · rw [hcommands] at hsplit
    cases before with
    | nil =>
      rw [List.nil_append, List.cons.injEq] at hsplit
      exact absurd hsplit.1 hc
    | cons c' before =>
      rw [List.cons_append, List.cons.injEq] at hsplit
      exact .inr ⟨hworking, before, after, hsplit.2,
        fun c' hc' => hbefore c' (List.mem_cons_of_mem _ hc')⟩

/-- The next command does not close while a reply is due. -/
theorem Due.head {c : Command} {commands : List Command} (h : w.Due id r)
    (hcommands : w.commands = c :: commands) : c.closes = false := by
  rcases h with ⟨-, hnone⟩ | ⟨-, before, after, hsplit, hbefore⟩
  · exact hnone c (by rw [hcommands]; exact List.mem_cons_self)
  · rw [hcommands] at hsplit
    cases before with
    | nil =>
      rw [List.nil_append, List.cons.injEq] at hsplit
      rw [hsplit.1]
      rfl
    | cons c' before =>
      rw [List.cons_append, List.cons.injEq] at hsplit
      rw [hsplit.1]
      exact hbefore c' List.mem_cons_self

theorem Tracked.perform (h : w.Tracked) {c : Command} {commands : List Command}
    (hcommands : w.commands = c :: commands) (hopen : w.closed = false)
    (hverifying : w.verifying = false) : ({ w with commands }.perform c).Tracked := by
  cases c with
  | refuse id₀ =>
    refine ⟨h.answered, h.fresh, ?_, h.verifying⟩
    intro hc id r hid hconfirmed hanswered
    exact (h.due hc id r hid hconfirmed hanswered).tail hcommands Command.noConfusion rfl
  | close code =>
    refine ⟨?_, h.fresh, ?_, ?_⟩
    · intro _ id r hid hconfirmed
      by_contra hanswered
      have hdue := h.due hopen id r hid hconfirmed (Bool.eq_false_iff.mpr hanswered)
      cases hdue.head hcommands
    · intro hc
      cases hc
    · exact h.verifying
  | reply id₀ =>
    unfold World.perform
    dsimp only
    split
    · rename_i r₀ hid₀
      have hlookup := lookup_setRequest { w with commands } id₀ { r₀ with answered := true }
      refine ⟨?_, ?_, ?_, ?_⟩
      · intro hc
        exact absurd (hopen.symm.trans hc) (by decide)
      · intro id r hid
        rw [hlookup] at hid
        split at hid
        · cases hid
          exact h.fresh id₀ r₀ hid₀
        · exact h.fresh id r hid
      · intro hc id r hid hconfirmed hanswered
        rw [hlookup] at hid
        split at hid
        · cases hid
          cases hanswered
        · rename_i hne
          refine (h.due hc id r hid hconfirmed hanswered).tail hcommands ?_ rfl
          intro he
          cases he
          exact hne rfl
      · intro hv
        exact absurd (hverifying.symm.trans hv) (by decide)
    · rename_i hnone
      refine ⟨h.answered, h.fresh, ?_, h.verifying⟩
      intro hc id r hid hconfirmed hanswered
      refine (h.due hc id r hid hconfirmed hanswered).tail hcommands ?_ rfl
      intro he
      cases he
      cases hnone.symm.trans hid

theorem Tracked.step (h : w.Tracked) (horderly : w.Orderly a) (hstep : w.step t a = some w') :
    w'.Tracked := by
  cases a with
  | request id =>
    simp only [World.step] at hstep
    split at hstep
    · cases hstep
    · rename_i hfree
      cases hstep
      simp only [Bool.or_eq_true, not_or, Bool.not_eq_true] at hfree
      exact h.request hfree.1.1 hfree.1.2
  | revokeMachine id fails => exact h.revokeMachine horderly hstep
  | unregister id now => exact h.unregister hstep
  | sendReply id full =>
    cases (horderly : full = false)
    exact h.sendReply hstep
  | graceOver id full => exact h.graceOver horderly hstep
  | carryClose full => exact h.carryClose horderly hstep
  | command =>
    simp only [World.step] at hstep
    split at hstep
    · cases hstep
    · rename_i c commands hcommands
      split at hstep
      · cases hstep
      · rename_i hfree
        cases hstep
        simp only [Bool.or_eq_true, not_or, Bool.not_eq_true] at hfree
        exact h.perform hcommands hfree.1 hfree.2
  | verify =>
    simp only [World.step] at hstep
    split at hstep
    · cases hstep
    · cases hstep
      refine ⟨h.answered, h.fresh, h.due, ?_⟩
      intro hv id r hid
      rcases horderly with hrevoking | hnone
      · simp [hrevoking] at hv
      · exact hnone _ (mem_entries hid)
  | identity fails =>
    simp only [World.step] at hstep
    split at hstep
    · rename_i hverifying
      cases hstep
      refine ⟨?_, h.fresh, ?_, ?_⟩
      · intro _ id r hid hconfirmed
        have hunder := h.verifying hverifying id r hid
        simp only [Request.underWay, Bool.or_eq_false_iff, hconfirmed, Bool.true_and,
          Bool.not_eq_false'] at hunder
        exact hunder.2
      · intro hc
        simp only [Bool.or_eq_false_iff] at hc
        exact h.due hc.1.1
      · intro hv
        cases hv
    · cases hstep
  | closeConnection key code =>
    cases hstep
    unfold deliver
    split
    · split <;> exact h.of_same rfl rfl rfl id
    · exact h.of_same rfl rfl rfl id
  | registerConnection key closeTx now =>
    simp only [World.step] at hstep
    split at hstep
    · cases hstep
    · cases hstep
      unfold deliver
      split
      · split <;> exact h.of_same rfl rfl rfl id
      · exact h.of_same rfl rfl rfl id
  | unregisterConnection key connectionId now =>
    simp only [World.step] at hstep
    split at hstep
    · cases hstep
    · cases hstep
      exact h.of_same rfl rfl rfl id
  | deleteMachine key =>
    cases hstep
    exact h.of_same rfl rfl rfl id
  | createMachine person name key =>
    cases hstep
    exact h.of_same rfl rfl rfl id

/-- Orderly runs answer a confirmed revoke before the connection closes. -/
theorem revoke_answered {init : World} {acts : List Act} (hinit : init.Initial)
    (horderly : Meets (World.step t) Orderly init acts) (hrun : init.run t acts = some w) :
    w.Answered :=
  (run_invariant_of_meets (I := Tracked) (fun h ho hs => h.step ho hs) horderly hinit.tracked
    hrun).answered

namespace Sample

def tunnel : Tunnel := ⟨Plane.Sample.keyId 1, 1, 0⟩

/-- The connection is registered, and `ann` holds the machine. -/
def connected : World where
  registry := ({ tunnelDomain := "relay.test" : Registry }.registerConnection
    (Plane.Sample.keyId 1) 0 0).1
  store := ({} : MachineStore).createPerson 1 "ann" |>.createMachine 1 "laptop" (Plane.Sample.keyId 1)

/-- A revoke whose client does not close. -/
def revoked : List Act :=
  [.request 0, .revokeMachine 0 false, .verify, .unregister 0 0, .sendReply 0 false, .command,
    .graceOver 0 false, .command]

/-- The console disconnects the machine while it is revoked. -/
def disconnected : List Act :=
  [.request 0, .revokeMachine 0 false, .closeConnection (Plane.Sample.keyId 1) .rejected,
    .carryClose false, .command]

end Sample

theorem revoke_answered_grace : ∃ w, Sample.connected.run Sample.tunnel Sample.revoked = some w ∧
    w.closed = true ∧ w.Answered := by
  have horderly : Meets (World.step Sample.tunnel) Orderly Sample.connected Sample.revoked := by
    decide +kernel
  obtain ⟨w, hrun, hclosed⟩ := (Option.any_eq_true (fun w : World => w.closed)
    (run Sample.tunnel Sample.connected Sample.revoked)).mp (by decide +kernel)
  exact ⟨w, hrun, hclosed, revoke_answered (fun _ => rfl) horderly hrun⟩

/-- A disconnect closes the connection on the reply. -/
theorem disconnect_drops_reply : ¬∀ (t : Tunnel) (w w' : World) (acts : List Act), w.Initial →
    w.run t acts = some w' → w'.Answered := by
  intro h
  obtain ⟨w, hrun, hw⟩ := (Option.any_eq_true (fun w : World => w.closed &&
    (w.requests.lookup 0).any fun r => r.confirmed && !r.answered)
      (run Sample.tunnel Sample.connected Sample.disconnected)).mp (by decide +kernel)
  obtain ⟨hclosed, hrequest⟩ := (Bool.and_eq_true ..).mp hw
  obtain ⟨r, hr, hunanswered⟩ := (Option.any_eq_true ..).mp hrequest
  obtain ⟨hconfirmed, hnot⟩ := (Bool.and_eq_true ..).mp hunanswered
  have hanswered := h _ _ w _ (fun _ => rfl) hrun hclosed 0 r hr hconfirmed
  rw [hanswered] at hnot
  cases hnot

end World

end TunnelWeaver.Server.RevokeReply
