import TunnelWeaver.Lib.Automaton
import TunnelWeaver.Mux.Guarantees

/-! The event loop that pumps a connection over a transport (`weaver-tokio`, `driver.rs`), and the
bounded channel through which other tasks hand it commands. The loop is cut at its await points,
where tasks may submit; what it waits for there (the transport, the clock, the key lookup) is an
argument of the step. A submission made while the loop computes takes effect after that step, which
is no different: only the `select!` reads the channel. -/

namespace TunnelWeaver.Tokio

open Mux (Bytes CloseReason Connection Event Instant KeyId ProtocolError ThirdParty)
open Automaton (run Meets)

/-- `mpsc::channel(256)`. -/
def commandCapacity : Nat := 256

def maxFramesPerFlush : Nat := 64

/-- 20 ms. -/
def maxFlushTime : Nat := 20000000

/-- Application logic plugged into a driver: its reaction to an event, and what its commands do. -/
structure StreamHandler (H C : Type) where
  onEvent : Connection → H → Event → Connection × H
  exec : C → Connection → H → Connection × H

inductive Command (C : Type) where
  | run (c : C)
  | close (reason : CloseReason)
  deriving DecidableEq

/-- The command channel, with what was submitted while the driver ran and what it executed. -/
structure Commands (C : Type) where
  queue : List (Command C) := []
  submitted : List (Command C) := []
  executed : List (Command C) := []

/-- `try_send`: a command that finds the channel full is dropped. -/
def Commands.trySend {C : Type} (q : Commands C) (cmd : Command C) : Commands C :=
  { q with
    submitted := q.submitted ++ [cmd]
    queue := if q.queue.length < commandCapacity then q.queue ++ [cmd] else q.queue }

section
variable {C : Type} {q : Commands C} (cmds : List (Command C))

theorem Commands.length_submitted :
    (cmds.foldl Commands.trySend q).submitted.length = q.submitted.length + cmds.length := by
  induction cmds generalizing q with
  | nil => rfl
  | cons cmd cmds ih =>
    rw [List.foldl_cons, ih, trySend, List.length_append, List.length_singleton, List.length_cons]
    omega

theorem Commands.executed_foldl : (cmds.foldl Commands.trySend q).executed = q.executed := by
  induction cmds generalizing q with
  | nil => rfl
  | cons cmd cmds ih => exact ih

theorem Commands.length_queue (h : q.queue.length ≤ commandCapacity) :
    (cmds.foldl Commands.trySend q).queue.length =
      min commandCapacity (q.queue.length + cmds.length) := by
  induction cmds generalizing q with
  | nil => exact (Nat.min_eq_right h).symm
  | cons cmd cmds ih =>
    have hlen : (q.trySend cmd).queue.length = min commandCapacity (q.queue.length + 1) := by
      rw [trySend]
      split <;> simp only [List.length_append, List.length_singleton] <;> omega
    rw [List.foldl_cons, ih (hlen ▸ Nat.min_le_left ..), hlen, List.length_cons]
    omega

end

/-- Nothing submitted is lost, repeated or out of order. -/
def Commands.Kept {C : Type} (q : Commands C) : Prop := q.executed ++ q.queue = q.submitted

inductive DriverError where
  | transportClosed
  | transport (error : String)
  | protocol (error : ProtocolError)

/-- What the loop does once no event is left. -/
inductive After where
  | turn
  | closed
  | failed (error : DriverError)

/-- Where the loop is. -/
inductive Phase where
  | starting
  | flushing (started : Instant) (rounds : Nat)
  | sending (started : Instant) (rounds : Nat)
  | flushed
  | waiting (saturated : Bool)
  | dispatching (after : After)
  | finished (result : Except DriverError CloseReason)

/-- What woke the event loop. -/
inductive Input where
  | message (bytes : Option Bytes)
  | error (error : String)
  | closed
  | command
  | deadline
  deriving DecidableEq

/-- `sent` are the frames given to the transport. -/
structure Driver (H C : Type) where
  conn : Connection
  handler : H
  commands : Commands C := {}
  lastClose : Option CloseReason := none
  outcome : Option (Except DriverError CloseReason) := none
  sent : List Bytes := []
  phase : Phase := .starting

/-- A step of the loop, or a call of `Handle::spawn_on` by some task. -/
inductive DriverAction (C : Type) where
  | spawnOn (cmd : Command C)
  | start (now : Instant)
  | flush (now : Instant) (stillValid : Nat → KeyId → Bool) (fuel : Nat)
  | sent (result : Except String Unit)
  | turn (now : Instant) (stillValid : Nat → KeyId → Bool) (fuel : Nat)
  | select (input : Input) (now : Instant) (stillValid : Nat → KeyId → Bool) (fuel : Nat)
  | dispatch

variable {H C : Type}

namespace Driver

def isFinished (d : Driver H C) : Bool :=
  match d.phase with
  | .finished _ => true
  | _ => false

/-- Silently dropped if the driver has already finished. -/
def spawnOn (d : Driver H C) (cmd : Command C) : Driver H C :=
  if d.isFinished then d else { d with commands := d.commands.trySend cmd }

variable [ThirdParty]

/-- The transport is gone: close the mux, so that the handler sees its streams end. -/
def finish (d : Driver H C) (error : DriverError) : Driver H C :=
  { d with conn := d.conn.close (.new .shutdown), phase := .dispatching (.failed error) }

def closeReason (d : Driver H C) : CloseReason := d.lastClose.getD (.new .shutdown)

/-- One round of `flush`: expired timers, then one frame. -/
def flush (d : Driver H C) (started : Instant) (rounds : Nat) (now : Instant)
    (stillValid : Nat → KeyId → Bool) (fuel : Nat) : Option (Driver H C) :=
  match rounds with
  | 0 => some { d with phase := .flushed }
  | rounds + 1 =>
    match d.conn.handleTimeout now stillValid fuel with
    | none => none
    | some conn =>
      if maxFlushTime < now - started then some { d with conn, phase := .flushed }
      else match conn.pollTransmit with
        | (conn, none) => some { d with conn, phase := .flushed }
        | (conn, some frame) =>
          some { d with conn, sent := d.sent ++ [frame], phase := .sending started rounds }

/-- Between `flush` and `select!`. -/
def turn (d : Driver H C) (now : Instant) (stillValid : Nat → KeyId → Bool) (fuel : Nat) :
    Option (Driver H C) :=
  match d.outcome with
  | some result => some { d with outcome := none, phase := .finished result }
  | none =>
    if d.conn.isClosed then some { d with phase := .dispatching .closed }
    else if d.conn.wantsTransmit then
      (d.conn.handleTimeout now stillValid fuel).map fun conn =>
        { d with conn, phase := .waiting true }
    else some { d with phase := .waiting false }

/-- Act on an input. Transport input comes first, then commands; the deadline (or, with frames still
queued, the immediate wake-up) only when there is neither. -/
def select (h : StreamHandler H C) (d : Driver H C) (saturated : Bool) (now : Instant)
    (stillValid : Nat → KeyId → Bool) (fuel : Nat) : Input → Option (Driver H C)
  | .message none => some { d with phase := .dispatching .turn }
  | .message (some bytes) =>
    match d.conn.recv now bytes with
    | (conn, .ok ()) => some { d with conn, phase := .dispatching .turn }
    | (conn, .error e) =>
      some { d with conn, outcome := some (.error (.protocol e)), phase := .dispatching .turn }
  | .error e => some (d.finish (.transport e))
  | .closed => some (d.finish .transportClosed)
  | .command =>
    match d.commands.queue with
    | [] => none
    | cmd :: rest =>
      let r := match cmd with
        | .run c => h.exec c d.conn d.handler
        | .close reason => (d.conn.close reason, d.handler)
      some { d with
        conn := r.1
        handler := r.2
        commands := { d.commands with queue := rest, executed := d.commands.executed ++ [cmd] }
        phase := .dispatching .turn }
  | .deadline =>
    if !d.commands.queue.isEmpty then none
    else if saturated then some { d with phase := .dispatching .turn }
    else (d.conn.handleTimeout now stillValid fuel).map fun conn =>
      { d with conn, phase := .dispatching .turn }

/-- Hand one event to the handler, or go on once there is none. -/
def dispatch (h : StreamHandler H C) (d : Driver H C) (after : After) : Driver H C :=
  match d.conn.pollEvent with
  | (conn, some ev) =>
    let r := h.onEvent conn d.handler ev
    { d with
      conn := r.1
      handler := r.2
      lastClose := match ev with
        | .closed reason => some reason
        | _ => d.lastClose }
  | (_, none) =>
    match after with
    | .turn =>
      if d.outcome.isNone && d.conn.isClosed then
        { d with outcome := some (.ok d.closeReason), lastClose := none, phase := .starting }
      else { d with phase := .starting }
    | .closed => { d with lastClose := none, phase := .finished (.ok d.closeReason) }
    | .failed e => { d with phase := .finished (.error e) }

def step (h : StreamHandler H C) (d : Driver H C) : DriverAction C → Option (Driver H C)
  | .spawnOn cmd => some (d.spawnOn cmd)
  | .start now =>
    match d.phase with
    | .starting => some { d with phase := .flushing now maxFramesPerFlush }
    | _ => none
  | .flush now stillValid fuel =>
    match d.phase with
    | .flushing started rounds => d.flush started rounds now stillValid fuel
    | _ => none
  | .sent result =>
    match d.phase, result with
    | .sending started rounds, .ok () => some { d with phase := .flushing started rounds }
    | .sending .., .error e => some (d.finish (.transport e))
    | _, _ => none
  | .turn now stillValid fuel =>
    match d.phase with
    | .flushed => d.turn now stillValid fuel
    | _ => none
  | .select input now stillValid fuel =>
    match d.phase with
    | .waiting saturated => d.select h saturated now stillValid fuel input
    | _ => none
  | .dispatch =>
    match d.phase with
    | .dispatching after => some (d.dispatch h after)
    | _ => none

/-! ## What a step does to the commands -/

variable {h : StreamHandler H C} {d d' : Driver H C}

omit [ThirdParty] in
theorem dispatch_commands (after : After) : (d.dispatch h after).commands = d.commands := by
  unfold dispatch
  split
  · rfl
  · split
    · split <;> rfl
    · rfl
    · rfl

theorem flush_commands {started now : Instant} {rounds fuel : Nat}
    {stillValid : Nat → KeyId → Bool} (H : d.flush started rounds now stillValid fuel = some d') :
    d'.commands = d.commands := by
  unfold flush at H
  split at H
  · cases H
    rfl
  · split at H
    · cases H
    · split at H
      · cases H
        rfl
      · split at H <;> cases H <;> rfl

theorem turn_commands {now : Instant} {stillValid : Nat → KeyId → Bool} {fuel : Nat}
    (H : d.turn now stillValid fuel = some d') : d'.commands = d.commands := by
  unfold turn at H
  split at H
  · cases H
    rfl
  · split at H
    · cases H
      rfl
    · split at H
      · obtain ⟨_, _, rfl⟩ := Option.map_eq_some_iff.mp H
        rfl
      · cases H
        rfl

theorem select_commands {saturated : Bool} {now : Instant} {stillValid : Nat → KeyId → Bool}
    {fuel : Nat} {input : Input} (H : d.select h saturated now stillValid fuel input = some d') :
    (input ≠ .command ∧ d'.commands = d.commands) ∨
    ∃ cmd rest, input = .command ∧ d.commands.queue = cmd :: rest ∧
      d'.commands = { d.commands with queue := rest, executed := d.commands.executed ++ [cmd] } := by
  cases input with
  | message bytes =>
    refine .inl ⟨by simp, ?_⟩
    cases bytes with
    | none =>
      cases H
      rfl
    | some bytes =>
      simp only [select] at H
      split at H <;> cases H <;> rfl
  | error e =>
    cases H
    exact .inl ⟨by simp, rfl⟩
  | closed =>
    cases H
    exact .inl ⟨by simp, rfl⟩
  | command =>
    simp only [select] at H
    split at H
    · cases H
    · rename_i cmd rest hq
      cases H
      exact .inr ⟨cmd, rest, rfl, hq, rfl⟩
  | deadline =>
    refine .inl ⟨by simp, ?_⟩
    simp only [select] at H
    split at H
    · cases H
    · split at H
      · cases H
        rfl
      · obtain ⟨_, _, rfl⟩ := Option.map_eq_some_iff.mp H
        rfl

/-- The loop takes its turn to run a command. -/
def isTurn : DriverAction C → Bool
  | .select .command .. => true
  | _ => false

/-- A step submits, takes the oldest command, or leaves the commands alone. -/
theorem step_commands {a : DriverAction C} (H : d.step h a = some d') :
    (∃ cmd, a = .spawnOn cmd ∧ d.isFinished = false ∧ d'.commands = d.commands.trySend cmd) ∨
    (isTurn a = true ∧ ∃ cmd rest, d.commands.queue = cmd :: rest ∧ d'.commands =
      { d.commands with queue := rest, executed := d.commands.executed ++ [cmd] }) ∨
    isTurn a = false ∧ (∀ cmd, a = .spawnOn cmd → d.isFinished = true) ∧
      d'.commands = d.commands := by
  cases a with
  | spawnOn cmd =>
    cases H
    unfold spawnOn
    split
    · rename_i hf
      exact .inr (.inr ⟨rfl, fun _ _ => hf, rfl⟩)
    · rename_i hf
      exact .inl ⟨cmd, rfl, by simpa using hf, rfl⟩
  | start now =>
    simp only [step] at H
    split at H
    · cases H
      exact .inr (.inr ⟨rfl, by simp, rfl⟩)
    · cases H
  | flush now stillValid fuel =>
    simp only [step] at H
    split at H
    · exact .inr (.inr ⟨rfl, by simp, flush_commands H⟩)
    · cases H
  | sent result =>
    simp only [step] at H
    split at H
    · cases H
      exact .inr (.inr ⟨rfl, by simp, rfl⟩)
    · cases H
      exact .inr (.inr ⟨rfl, by simp, rfl⟩)
    · cases H
  | turn now stillValid fuel =>
    simp only [step] at H
    split at H
    · exact .inr (.inr ⟨rfl, by simp, turn_commands H⟩)
    · cases H
  | select input now stillValid fuel =>
    simp only [step] at H
    split at H
    · rcases select_commands H with ⟨hi, hc⟩ | ⟨cmd, rest, rfl, hq, hc⟩
      · refine .inr (.inr ⟨?_, by simp, hc⟩)
        cases input <;> simp_all [isTurn]
      · exact .inr (.inl ⟨rfl, cmd, rest, hq, hc⟩)
    · cases H
  | dispatch =>
    simp only [step] at H
    split at H
    · cases H
      exact .inr (.inr ⟨rfl, by simp, dispatch_commands _⟩)
    · cases H

/-! ## No command is lost -/

/-- A submission finds room in the channel. -/
def Roomy (d : Driver H C) : DriverAction C → Bool
  | .spawnOn _ => d.isFinished || decide (d.commands.queue.length < commandCapacity)
  | _ => true

theorem step_kept {a : DriverAction C} (K : d.commands.Kept) (hr : d.Roomy a)
    (H : d.step h a = some d') : d'.commands.Kept := by
  unfold Commands.Kept at K ⊢
  rcases step_commands H with ⟨cmd, rfl, hf, hc⟩ | ⟨_, cmd, rest, hq, hc⟩ | ⟨_, _, hc⟩
  · have hlt : d.commands.queue.length < commandCapacity := by simpa [Roomy, hf] using hr
    rw [hc, Commands.trySend, if_pos hlt, ← K, List.append_assoc]
  · rw [hc, ← K, hq]
    simp
  · rw [hc, K]

/-- Commands that reach a driver that is not finished are sent one after the other. -/
theorem run_spawnOn (hf : d.isFinished = false) (cmds : List (Command C)) :
    run (step h) d (cmds.map .spawnOn) =
      some { d with commands := cmds.foldl Commands.trySend d.commands } := by
  induction cmds generalizing d with
  | nil => rfl
  | cons cmd cmds ih =>
    have hsend : d.spawnOn cmd = { d with commands := d.commands.trySend cmd } := by
      rw [spawnOn, if_neg (by simp [hf])]
    rw [List.map_cons, Automaton.run_cons, step, hsend]
    exact ih hf

/-- The number of commands dropped. -/
def lost (d : Driver H C) : Int :=
  d.commands.submitted.length - (d.commands.executed.length + d.commands.queue.length)

theorem step_lost {a : DriverAction C} (H : d.step h a = some d') :
    d.lost ≤ d'.lost ∧ (d.Roomy a = false → d.lost < d'.lost) := by
  rcases step_commands H with ⟨cmd, rfl, hf, hc⟩ | ⟨ht, cmd, rest, hq, hc⟩ | ⟨_, hf, hc⟩
  · simp only [lost, hc, Commands.trySend, Roomy, hf, Bool.false_or, decide_eq_false_iff_not]
    split <;> simp only [List.length_append, List.length_singleton] <;> omega
  · have hroomy : d.Roomy a = true := by cases a <;> simp_all [isTurn, Roomy]
    simp only [lost, hc, hq, hroomy, List.length_append, List.length_cons, List.length_nil]
    exact ⟨by omega, fun h => by cases h⟩
  · have hroomy : d.Roomy a = true := by cases a <;> simp_all [Roomy]
    simp [lost, hc, hroomy]

theorem run_lost {actions : List (DriverAction C)} (H : run (step h) d actions = some d') :
    d.lost ≤ d'.lost := by
  induction actions generalizing d with
  | nil =>
    cases H
    exact le_rfl
  | cons a actions ih =>
    obtain ⟨d₁, h₁, H⟩ := Automaton.run_cons_eq_some.mp H
    exact (step_lost h₁).1.trans (ih H)

theorem run_kept_iff {actions : List (DriverAction C)} (K : d.commands.Kept)
    (H : run (step h) d actions = some d') :
    d'.commands.Kept ↔ Meets (step h) (fun d a => d.Roomy a) d actions := by
  refine ⟨fun K' => ?_, fun hm => Automaton.run_invariant_of_meets
    (I := fun d => d.commands.Kept) (fun K hr H => step_kept K hr H) hm K H⟩
  induction actions generalizing d with
  | nil => trivial
  | cons a actions ih =>
    obtain ⟨d₁, h₁, H⟩ := Automaton.run_cons_eq_some.mp H
    have hroomy : d.Roomy a = true := by
      -- A command dropped now is still missing at the end.
      by_contra hno
      have hlt := (step_lost h₁).2 (by simpa using hno)
      have hle := run_lost H
      have hlen := congrArg List.length K
      have hlen' := congrArg List.length K'
      simp only [lost, List.length_append] at hlt hle hlen hlen'
      omega
    refine ⟨hroomy, fun d₂ h₂ => ?_⟩
    cases h₁.symm.trans h₂
    exact ih (step_kept K hroomy h₁) H

theorem run_turns {actions : List (DriverAction C)} (H : run (step h) d actions = some d') :
    d'.commands.executed.length = d.commands.executed.length + actions.countP isTurn := by
  induction actions generalizing d with
  | nil =>
    cases H
    rfl
  | cons a actions ih =>
    obtain ⟨d₁, h₁, H⟩ := Automaton.run_cons_eq_some.mp H
    rw [ih H, List.countP_cons]
    rcases step_commands h₁ with ⟨cmd, rfl, _, hc⟩ | ⟨ht, cmd, rest, _, hc⟩ | ⟨ht, _, hc⟩
    · simp [hc, Commands.trySend, isTurn]
    · simp only [hc, ht, List.length_append, List.length_singleton, if_true]
      omega
    · simp [hc, ht]

/-- Exactly in the runs in which every submission finds room, the commands submitted while the driver
runs are those executed, one for each turn the loop took, followed by those still queued. A loop that
waits with commands queued and nothing to read runs the oldest. -/
theorem commands_executed_iff {conn : Connection} {handler : H} {actions : List (DriverAction C)}
    (H : run (step h) { conn, handler } actions = some d) :
    (d.commands.executed ++ d.commands.queue = d.commands.submitted ↔
      Meets (step h) (fun d a => d.Roomy a) { conn, handler } actions) ∧
    d.commands.executed.length = actions.countP isTurn ∧
    ∀ saturated cmd rest now stillValid fuel, d.phase = .waiting saturated →
      d.commands.queue = cmd :: rest →
      d.step h (.select .deadline now stillValid fuel) = none ∧
      ∃ d', d.step h (.select .command now stillValid fuel) = some d' ∧
        d'.commands.executed = d.commands.executed ++ [cmd] ∧ d'.commands.queue = rest := by
  refine ⟨run_kept_iff rfl H, ?_, fun saturated cmd rest now stillValid fuel hp hq => ⟨?_, ?_⟩⟩
  · have hturns := run_turns H
    rwa [List.length_nil, Nat.zero_add] at hturns
  · simp [step, hp, select, hq]
  · simp only [step, hp, select, hq]
    exact ⟨_, rfl, rfl, rfl⟩

end Driver

namespace Sample

open Mux.Sample

/-- A handler that does nothing. -/
def idle : StreamHandler Unit Nat := ⟨fun conn h _ => (conn, h), fun _ conn h => (conn, h)⟩

def driver : Driver Unit Nat where
  conn := .new setup.server 0
  handler := ()

/-- The transport does not take the first frame, and tasks submit more commands than the channel
holds. -/
def blocked : List (DriverAction Nat) :=
  .start 0 :: .flush 0 (fun _ _ => true) 1 ::
    (List.range (commandCapacity + 1)).map fun n => .spawnOn (.run n)

/-- Two commands are submitted, and the loop comes to the first. -/
def running : List (DriverAction Nat) :=
  [.start 0, .flush 0 (fun _ _ => true) 1, .spawnOn (.run 5), .sent (.ok ()), .spawnOn (.run 6),
    .flush 0 (fun _ _ => true) 1, .turn 0 (fun _ _ => true) 1,
    .select .command 0 (fun _ _ => true) 1]

end Sample

open Sample Mux.Sample

theorem commands_executed_iff_running : ∃ d, run (Driver.step idle) driver running = some d ∧
    d.commands.submitted = [.run 5, .run 6] ∧
    d.commands.executed ++ d.commands.queue = d.commands.submitted ∧
    d.commands.executed.length = 1 := by
  have h : (run (Driver.step idle) driver running).any fun d =>
      decide (d.commands.submitted = [.run 5, .run 6]) := by decide +kernel
  obtain ⟨d, H, h⟩ := (Option.any_eq_true _ _).mp h
  obtain ⟨hiff, hturns, _⟩ := Driver.commands_executed_iff H
  exact ⟨d, H, of_decide_eq_true h, hiff.mpr (by decide +kernel), hturns⟩

/-- The last command finds the channel full while the driver runs, and is never executed. -/
theorem command_lost : ∃ d, run (Driver.step idle) driver blocked = some d ∧ d.isFinished = false ∧
    ∀ actions d', run (Driver.step idle) d actions = some d' →
      d'.commands.executed ++ d'.commands.queue ≠ d'.commands.submitted := by
  have h : (run (Driver.step idle) driver [.start 0, .flush 0 (fun _ _ => true) 1]).any fun d =>
      decide (d.isFinished = false ∧ d.commands.queue = [] ∧ d.lost = 0) := by decide +kernel
  obtain ⟨d₀, H₀, h⟩ := (Option.any_eq_true _ _).mp h
  obtain ⟨hf, hqueue, hnone⟩ := of_decide_eq_true h
  obtain ⟨d, H, hf, hlost⟩ : ∃ d, run (Driver.step idle) driver blocked = some d ∧
      d.isFinished = false ∧ d.lost = 1 := by
    obtain ⟨cmds, hlen, hsplit⟩ : ∃ cmds : List (Command Nat), cmds.length = commandCapacity + 1 ∧
        blocked = [.start 0, .flush 0 (fun _ _ => true) 1] ++ cmds.map .spawnOn :=
      ⟨(List.range (commandCapacity + 1)).map .run, by simp, by simp [blocked, Function.comp_def]⟩
    rw [hsplit]
    refine ⟨_, Automaton.run_append_eq_some.mpr ⟨d₀, H₀, Driver.run_spawnOn hf cmds⟩, hf, ?_⟩
    rw [Driver.lost, Commands.length_submitted, Commands.executed_foldl,
      Commands.length_queue _ (by simp [hqueue]), hlen, hqueue]
    rw [Driver.lost, hqueue] at hnone
    simp only [List.length_nil] at hnone ⊢
    omega
  refine ⟨d, H, hf, fun actions d' H' K => ?_⟩
  have hle := Driver.run_lost H'
  have hlen := congrArg List.length K
  rw [hlost, Driver.lost] at hle
  rw [List.length_append] at hlen
  omega

end TunnelWeaver.Tokio
