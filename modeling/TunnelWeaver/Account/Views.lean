import TunnelWeaver.Lib.Automaton
import TunnelWeaver.Lib.Broadcast
import TunnelWeaver.Server.Live

/-! The streams of the console (`account/views/mod.rs`), beside the writers of what they show. A
write, its announcement on the bus and each step of a stream are separate; a load of the view reads
the store at one instant. The bus is never closed: the stream itself holds on to it. -/

namespace TunnelWeaver.Views

open Automaton
open Broadcast
open Server (Change Interest Viewer liveCapacity)

/-- The rendered snapshot of a view, and what it listens to. -/
structure View where
  body : List UInt8
  viewer : Viewer
  interests : List Interest
  deriving DecidableEq

/-- `V::load`: the view, or a refusal. -/
inductive Load
  | ok (view : View)
  | unauthorized
  | notFound
  | failed
  deriving DecidableEq

inductive Frame
  | data (body : List UInt8)
  | expired
  | gone
  | ping
  deriving DecidableEq

/-- The snapshots among the frames. -/
def bodies (frames : List Frame) : List (List UInt8) :=
  frames.filterMap fun frame => match frame with
    | .data body => some body
    | _ => none

/-- Nothing follows the end of a stream. -/
def Frame.Terminal (frame : Frame) : Prop := frame = .expired ∨ frame = .gone

inductive Phase
  | loading
  | waiting
  /-- Swallowing every change of the coalescing window. -/
  | coalescing
  | ended
  deriving DecidableEq

/-- The store, the changes that are written and not announced, the bus, and the stream: where it is
in the bus, its loop variables, and the frames it sent. -/
structure World (σ : Type) where
  store : σ
  pending : List Change := []
  sent : List Change := []
  next : Nat := 0
  phase : Phase := .loading
  last : Option (List UInt8) := none
  viewer : Viewer := .anyone
  interests : List Interest := []
  frames : List Frame := []
  /-- The client is gone. -/
  closed : Bool := false
  /-- The last load gave the view. -/
  loaded : Bool := false

inductive Act (σ : Type)
  /-- A transaction that is to be announced by `changes`. -/
  | write (store : σ) (changes : List Change)
  | publish (i : Nat)
  /-- The view is loaded again; the read of the store may fail. -/
  | load (fails : Bool)
  | recv
  /-- The coalescing window passes without a change. -/
  | settle
  /-- A keep-alive tick. -/
  | heartbeat
  | hangUp

variable {σ : Type}

namespace World

/-- Sends a frame, or ends the stream when the client is gone. -/
def send (w : World σ) (frame : Frame) (phase : Phase) : World σ :=
  if w.closed then { w with phase := .ended }
  else { w with frames := w.frames ++ [frame], phase := phase }

/-- What the loop makes of a load. -/
def render (w : World σ) : Load → World σ
  | .ok view =>
    let w := { w with viewer := view.viewer, interests := view.interests, loaded := true }
    if w.last = some view.body then { w with phase := .waiting }
    else if w.closed then { w with phase := .ended }
    else { w with
      frames := w.frames ++ [.data view.body], last := some view.body, phase := .waiting }
  | .unauthorized => w.send .expired .ended
  | .notFound => w.send .gone .ended
  | .failed => { w with loaded := false, phase := .waiting }

/-- What the loop makes of what the bus gives it. -/
def hear (w : World σ) : Option (World σ) :=
  match w.phase, recv liveCapacity w.sent w.next with
  | .waiting, .value change next =>
    some { w with
      next := next
      phase := if change.invalidates w.viewer w.interests then .coalescing else .waiting }
  | .waiting, .lagged next => some { w with next := next, phase := .coalescing }
  | .coalescing, .value _ next => some { w with next := next }
  | .coalescing, .lagged next => some { w with next := next }
  | _, _ => none

/-- A step, with what a load of the view reads from the store. -/
def step (load : σ → Load) (w : World σ) : Act σ → Option (World σ)
  | .write store changes => some { w with store := store, pending := w.pending ++ changes }
  | .publish i => w.pending[i]?.map fun change =>
    { w with pending := w.pending.eraseIdx i, sent := w.sent ++ [change] }
  | .load fails =>
    if w.phase = .loading then some (w.render (if fails then .failed else load w.store)) else none
  | .recv => w.hear
  | .settle =>
    if w.phase = .coalescing ∧ w.next = w.sent.length then some { w with phase := .loading } else none
  | .heartbeat => if w.phase = .waiting then some (w.send .ping .waiting) else none
  | .hangUp => some { w with closed := true }

/-- A stream that has just subscribed. -/
structure Subscribed (w : World σ) : Prop where
  next : w.next = w.sent.length
  phase : w.phase = .loading
  last : w.last = none
  frames : w.frames = []
  loaded : w.loaded = false

/-- A change makes a loaded view stale. -/
def Stale (change : Change) (load : Load) : Prop :=
  ∃ view, load = .ok view ∧ change.invalidates view.viewer view.interests = true

/-- Every write is announced to the views it changes. -/
def Announces (load : σ → Load) (w : World σ) : Act σ → Prop
  | .write store changes => Announced load (fun c l => Stale c l) w.store store changes
  | _ => True

/-! ## Nothing is missed -/

variable {load : σ → Load} {w w' w₀ : World σ} {l : List (Act σ)} {a : Act σ}

/-- What the stream holds of the view. -/
def Holds (load : σ → Load) (w : World σ) (body : List UInt8) : Prop :=
  UpToDate load (fun c l => Stale c l) w.store w.pending (unread w.sent w.next)
    (.ok ⟨body, w.viewer, w.interests⟩)

/-- The stream is not ahead of the bus; and while it waits it holds the view it sent last, up to
the changes that are to be announced or read. -/
structure Watches (load : σ → Load) (w : World σ) : Prop where
  cursor : w.next ≤ w.sent.length
  fresh : w.phase = .waiting → w.loaded = true → ∃ body, w.last = some body ∧ w.Holds load body

theorem stale_iff {change : Change} {body : List UInt8} :
    Stale change (.ok ⟨body, w.viewer, w.interests⟩) ↔
      change.invalidates w.viewer w.interests = true := by
  constructor
  · rintro ⟨view, ⟨⟩, h⟩
    exact h
  · intro h
    exact ⟨_, rfl, h⟩

theorem Subscribed.watches (h : w.Subscribed) : w.Watches load where
  cursor := h.next.le
  fresh hphase := by
    rw [h.phase] at hphase
    cases hphase

theorem Watches.hear (h : w.Watches load) (hhear : w.hear = some w') : w'.Watches load := by
  have hcursor := h.cursor
  unfold World.hear at hhear
  split at hhear
  · rename_i change next hphase hrecv
    cases hhear
    obtain ⟨rfl, hunread⟩ := recv_eq_value hrecv
    refine ⟨?_, fun hwaiting hloaded => ?_⟩
    · have hne : unread w.sent w.next ≠ [] := by simp [hunread]
      have := List.length_lt_of_drop_ne_nil hne
      exact this
    · dsimp only at hwaiting
      split at hwaiting
      · cases hwaiting
      · rename_i hkeep
        obtain ⟨body, hlast, hholds⟩ := h.fresh hphase hloaded
        refine ⟨body, hlast, hholds.skip hrecv ?_⟩
        rw [stale_iff]
        exact hkeep
  · rename_i next hphase hrecv
    cases hhear
    exact ⟨(recv_eq_lagged hrecv).2, fun hwaiting => by cases hwaiting⟩
  · rename_i change next hphase hrecv
    cases hhear
    obtain ⟨rfl, hunread⟩ := recv_eq_value hrecv
    refine ⟨?_, fun hwaiting => ?_⟩
    · have hne : unread w.sent w.next ≠ [] := by simp [hunread]
      exact List.length_lt_of_drop_ne_nil hne
    · rw [show w.phase = .waiting from hwaiting] at hphase
      cases hphase
  · rename_i next hphase hrecv
    cases hhear
    refine ⟨(recv_eq_lagged hrecv).2, fun hwaiting => ?_⟩
    rw [show w.phase = .waiting from hwaiting] at hphase
    cases hphase
  · cases hhear

theorem send_ended {frame : Frame} : (w.send frame .ended).phase ≠ .waiting := by
  rw [send]
  split <;> exact Phase.noConfusion

theorem send_bus (w : World σ) (frame : Frame) (phase : Phase) : (w.send frame phase).next = w.next ∧
    (w.send frame phase).sent = w.sent ∧ (w.send frame phase).store = w.store ∧
      (w.send frame phase).pending = w.pending := by
  rw [send]
  split <;> exact ⟨rfl, rfl, rfl, rfl⟩

/-- A load leaves the bus alone. -/
theorem render_bus (w : World σ) (read : Load) : (w.render read).next = w.next ∧ (w.render read).sent = w.sent ∧
    (w.render read).store = w.store ∧ (w.render read).pending = w.pending := by
  cases read with
  | ok view =>
    rw [render]
    dsimp only
    split
    · exact ⟨rfl, rfl, rfl, rfl⟩
    · split <;> exact ⟨rfl, rfl, rfl, rfl⟩
  | unauthorized => exact w.send_bus _ _
  | notFound => exact w.send_bus _ _
  | failed => exact ⟨rfl, rfl, rfl, rfl⟩

theorem Watches.render (h : w.Watches load) (fails : Bool) :
    (w.render (if fails then .failed else load w.store)).Watches load := by
  generalize hread : (if fails then Load.failed else load w.store) = read
  obtain ⟨hnext, hsent, -, -⟩ := w.render_bus read
  refine ⟨by rw [hnext, hsent]; exact h.cursor, fun hphase hloaded => ?_⟩
  cases read with
  | ok view =>
    have hload : load w.store = .ok view := by
      split at hread
      · cases hread
      · exact hread
    rw [World.render] at hphase ⊢
    dsimp only at hphase ⊢
    split at hphase
    · rename_i hlast
      rw [if_pos hlast]
      exact ⟨view.body, hlast, .inl hload⟩
    · split at hphase
      · cases hphase
      · rename_i hlast hclosed
        rw [if_neg hlast, if_neg hclosed]
        exact ⟨view.body, rfl, .inl hload⟩
  | unauthorized => exact absurd hphase send_ended
  | notFound => exact absurd hphase send_ended
  | failed => cases hloaded

theorem Watches.step (h : w.Watches load) (hg : w.Announces load a) (hstep : w.step load a = some w') :
    w'.Watches load := by
  have hcursor := h.cursor
  cases a with
  | write store changes =>
    cases hstep
    refine ⟨hcursor, fun hphase hloaded => ?_⟩
    obtain ⟨body, hlast, hholds⟩ := h.fresh hphase hloaded
    exact ⟨body, hlast, hholds.write hg⟩
  | publish i =>
    obtain ⟨change, hi, rfl⟩ := Option.map_eq_some_iff.mp hstep
    refine ⟨hcursor.trans (by simp), fun hphase hloaded => ?_⟩
    obtain ⟨body, hlast, hholds⟩ := h.fresh hphase hloaded
    exact ⟨body, hlast, hholds.publish hcursor hi⟩
  | load fails =>
    obtain ⟨-, ⟨⟩⟩ := Option.ite_none_right_eq_some.mp hstep
    exact h.render fails
  | recv => exact h.hear hstep
  | settle =>
    obtain ⟨-, ⟨⟩⟩ := Option.ite_none_right_eq_some.mp hstep
    exact ⟨hcursor, fun hphase => by cases hphase⟩
  | heartbeat =>
    obtain ⟨hphase, ⟨⟩⟩ := Option.ite_none_right_eq_some.mp hstep
    rw [send]
    split
    · exact ⟨hcursor, fun h => by cases h⟩
    · exact ⟨hcursor, fun _ hloaded => h.fresh hphase hloaded⟩
  | hangUp =>
    cases hstep
    exact ⟨hcursor, h.fresh⟩

/-! ## The frames -/

/-- No snapshot is sent twice in a row, the last one is the one the loop remembers, and nothing is
sent after the end. -/
structure Orderly (w : World σ) : Prop where
  differ : (bodies w.frames).IsChain (· ≠ ·)
  last : w.last = (bodies w.frames).getLast?
  running : w.phase ≠ .ended → ∀ frame ∈ w.frames, ¬frame.Terminal
  ended : ∀ frame ∈ w.frames.dropLast, ¬frame.Terminal

theorem Subscribed.orderly (h : w.Subscribed) : w.Orderly := by
  constructor <;> simp [h.frames, h.last, bodies]

theorem bodies_append (frames : List Frame) (frame : Frame) :
    bodies (frames ++ [frame]) = bodies frames ++ bodies [frame] := List.filterMap_append

theorem Orderly.send (h : w.Orderly) (hphase : w.phase ≠ .ended) {frame : Frame} {phase : Phase}
    (hbody : bodies [frame] = []) (hterminal : phase ≠ .ended → ¬frame.Terminal) :
    (w.send frame phase).Orderly := by
  rw [World.send]
  split
  · exact ⟨h.differ, h.last, fun hne => absurd rfl hne, h.ended⟩
  · have hbodies : bodies (w.frames ++ [frame]) = bodies w.frames := by
      rw [bodies_append, hbody, List.append_nil]
    refine ⟨?_, ?_, fun hne f hf => ?_, fun f hf => ?_⟩
    · dsimp only
      rw [hbodies]
      exact h.differ
    · dsimp only
      rw [hbodies]
      exact h.last
    · rcases List.mem_append.mp hf with hf | hf
      · exact h.running hphase f hf
      · rw [List.mem_singleton.mp hf]
        exact hterminal hne
    · rw [List.dropLast_concat] at hf
      exact h.running hphase f hf

theorem Orderly.render (h : w.Orderly) (hphase : w.phase = .loading) (read : Load) :
    (w.render read).Orderly := by
  have hne : w.phase ≠ .ended := by
    rw [hphase]
    exact Phase.noConfusion
  cases read with
  | ok view =>
    rw [World.render]
    dsimp only
    split
    · exact ⟨h.differ, h.last, fun _ => h.running hne, h.ended⟩
    · split
      · exact ⟨h.differ, h.last, fun hne => absurd rfl hne, h.ended⟩
      · rename_i hlast hclosed
        have hbodies : bodies (w.frames ++ [.data view.body]) = bodies w.frames ++ [view.body] :=
          bodies_append _ _
        refine ⟨?_, ?_, fun _ f hf => ?_, fun f hf => ?_⟩
        · dsimp only
          rw [hbodies]
          refine List.isChain_append.mpr ⟨h.differ, List.isChain_singleton _, fun b hb b' hb' => ?_⟩
          rw [← h.last] at hb
          obtain rfl := Option.some.inj hb'
          rintro rfl
          exact hlast hb
        · dsimp only
          rw [hbodies, List.getLast?_concat]
        · rcases List.mem_append.mp hf with hf | hf
          · exact h.running hne f hf
          · rw [List.mem_singleton.mp hf]
            rintro (hterminal | hterminal) <;> cases hterminal
        · rw [List.dropLast_concat] at hf
          exact h.running hne f hf
  | unauthorized => exact h.send hne rfl fun hended => absurd rfl hended
  | notFound => exact h.send hne rfl fun hended => absurd rfl hended
  | failed => exact ⟨h.differ, h.last, fun _ => h.running hne, h.ended⟩

theorem Orderly.step (h : w.Orderly) (hstep : w.step load a = some w') : w'.Orderly := by
  cases a with
  | write store changes =>
    cases hstep
    exact ⟨h.differ, h.last, h.running, h.ended⟩
  | publish i =>
    obtain ⟨change, -, rfl⟩ := Option.map_eq_some_iff.mp hstep
    exact ⟨h.differ, h.last, h.running, h.ended⟩
  | load fails =>
    obtain ⟨hphase, ⟨⟩⟩ := Option.ite_none_right_eq_some.mp hstep
    exact h.render hphase _
  | recv =>
    have hstep : w.hear = some w' := hstep
    unfold World.hear at hstep
    split at hstep <;> cases hstep
    all_goals
      rename_i hphase hrecv
      refine ⟨h.differ, h.last, fun _ => h.running ?_, h.ended⟩
      rw [hphase]
      exact Phase.noConfusion
  | settle =>
    obtain ⟨hphase, ⟨⟩⟩ := Option.ite_none_right_eq_some.mp hstep
    refine ⟨h.differ, h.last, fun _ => h.running ?_, h.ended⟩
    rw [hphase.1]
    exact Phase.noConfusion
  | heartbeat =>
    obtain ⟨hphase, ⟨⟩⟩ := Option.ite_none_right_eq_some.mp hstep
    refine h.send (by rw [hphase]; exact Phase.noConfusion) rfl fun _ => ?_
    rintro (hterminal | hterminal) <;> cases hterminal
  | hangUp =>
    cases hstep
    exact ⟨h.differ, h.last, h.running, h.ended⟩

/-- What the stream does by itself when the bus has something, the window passes, or it loads. -/
def Own (a : Act σ) : Prop := a = .recv ∨ a = .settle ∨ a = .load false

/-- The stream is over, or shows what a load of its view gives. -/
def Current (load : σ → Load) (w : World σ) : Prop :=
  w.phase = .ended ∨ w.phase = .waiting ∧ w.loaded = true ∧
    ∃ view, load w.store = .ok view ∧ w.last = some view.body

theorem current_of_load (hload : load w.store ≠ .failed) : (w.render (load w.store)).Current load := by
  obtain ⟨-, -, hstore, -⟩ := w.render_bus (load w.store)
  rw [Current, hstore]
  generalize hread : load w.store = read at hload
  cases read with
  | ok view =>
    rw [render]
    dsimp only
    split
    · rename_i hlast
      exact .inr ⟨rfl, rfl, view, rfl, hlast⟩
    · split
      · exact .inl rfl
      · exact .inr ⟨rfl, rfl, view, rfl, rfl⟩
  | unauthorized =>
    rw [render, send]
    split <;> exact .inl rfl
  | notFound =>
    rw [render, send]
    split <;> exact .inl rfl
  | failed => exact absurd rfl hload

/-- While something is unread, the stream goes on reading. -/
theorem exists_hear (hphase : w.phase = .waiting ∨ w.phase = .coalescing)
    (hunread : w.next < w.sent.length) : ∃ w', w.hear = some w' ∧ w.next < w'.next ∧
      w'.sent = w.sent ∧ w'.store = w.store ∧ w'.pending = w.pending ∧ w'.loaded = w.loaded ∧
      (w'.phase = .waiting ∧ w.phase = .waiting ∨ w'.phase = .coalescing) := by
  unfold World.hear
  cases hrecv : recv liveCapacity w.sent w.next with
  | empty =>
    have hlen := List.drop_eq_nil_iff.mp (recv_eq_empty hrecv)
    omega
  | value change next =>
    obtain ⟨rfl, -⟩ := recv_eq_value hrecv
    rcases hphase with hphase | hphase
    · rw [hphase]
      refine ⟨_, rfl, Nat.lt_succ_self _, rfl, rfl, rfl, rfl, ?_⟩
      dsimp only
      split
      · exact .inr rfl
      · exact .inl ⟨rfl, rfl⟩
    · rw [hphase]
      exact ⟨_, rfl, Nat.lt_succ_self _, rfl, rfl, rfl, rfl, .inr rfl⟩
  | lagged next =>
    obtain ⟨hlt, -⟩ := recv_eq_lagged hrecv
    rcases hphase with hphase | hphase
    · rw [hphase]
      exact ⟨_, rfl, hlt, rfl, rfl, rfl, rfl, .inr rfl⟩
    · rw [hphase]
      exact ⟨_, rfl, hlt, rfl, rfl, rfl, rfl, .inr rfl⟩

/-- The steps that take a stream with unread changes to the present. -/
theorem exists_own (h : w.Watches load) (hphase : w.phase = .waiting ∨ w.phase = .coalescing)
    (hloaded : w.phase = .waiting → w.loaded = true) (hpending : w.pending = [])
    (hload : load w.store ≠ .failed) : ∃ l w', (∀ a ∈ l, Own a) ∧
      l.length ≤ w.sent.length - w.next + 2 ∧ run (step load) w l = some w' ∧ w'.Current load := by
  induction hn : w.sent.length - w.next using Nat.strong_induction_on generalizing w with
  | _ n ih =>
    by_cases hread : w.next = w.sent.length
    · rcases hphase with hphase | hphase
      · obtain ⟨body, hlast, hholds⟩ := h.fresh hphase (hloaded hphase)
        rw [Holds, hpending, hread, unread, List.drop_length] at hholds
        refine ⟨[], w, ?_, Nat.zero_le _, rfl, ?_⟩
        · intro a ha
          cases ha
        · exact .inr ⟨hphase, hloaded hphase, _, hholds.eq_of_quiet, hlast⟩
      · have hsettle : w.step load .settle = some { w with phase := .loading } :=
          if_pos ⟨hphase, hread⟩
        refine ⟨[.settle, .load false], ({ w with phase := .loading } : World σ).render (load w.store),
          ?_, Nat.le_add_left _ _, ?_, current_of_load hload⟩
        · intro a ha
          rcases List.mem_pair.mp ha with rfl | rfl
          · exact .inr (.inl rfl)
          · exact .inr (.inr rfl)
        · rw [run_cons, hsettle, Option.bind_some, run_singleton]
          rfl
    · have hlt : w.next < w.sent.length := Nat.lt_of_le_of_ne h.cursor hread
      obtain ⟨w₁, hhear, hnext, hsent, hstore, hpending₁, hloaded₁, hphase₁⟩ := exists_hear hphase hlt
      have hloaded₁ : w₁.phase = .waiting → w₁.loaded = true := by
        intro hwaiting
        rcases hphase₁ with ⟨-, hold⟩ | hcoalescing
        · rw [hloaded₁]
          exact hloaded hold
        · rw [hcoalescing] at hwaiting
          cases hwaiting
      obtain ⟨l, w', hown, hlen, hrun, hcurrent⟩ := ih (w₁.sent.length - w₁.next)
        (by rw [hsent]; omega) (h.hear hhear) (hphase₁.imp_left And.left) hloaded₁
        (hpending₁.trans hpending) (hstore ▸ hload) rfl
      refine ⟨.recv :: l, w', ?_, ?_, ?_, hcurrent⟩
      · intro a ha
        rcases List.mem_cons.mp ha with rfl | ha
        · exact .inl rfl
        · exact hown a ha
      · rw [hsent] at hlen
        rw [List.length_cons]
        omega
      · rw [run_cons, show w.step load .recv = some w₁ from hhear]
        exact hrun

end World

/-! A view of machine 3, whose state changes once. -/

namespace Sample

def load (state : Nat) : Load :=
  .ok ⟨[state.toUInt8], .person 7, [Interest.these .machine [3]]⟩

def renamed : Change := ((Change.visibleTo (.person 7)).ofEntity .machine).withIds [3]

def rename : List (Act Nat) := [.load false, .write 1 [renamed], .publish 0]

theorem renamed_announced : Meets (World.step load) (World.Announces load) { store := 0 }
    (rename ++ [.recv, .settle, .load false]) := by
  refine ⟨trivial, fun w₁ h₁ => ?_⟩
  cases h₁
  refine ⟨fun _ => ⟨renamed, List.mem_singleton_self _, _, rfl, by decide⟩, fun w₂ h₂ => ?_⟩
  cases h₂
  refine ⟨trivial, fun w₃ h₃ => ?_⟩
  cases h₃
  refine ⟨trivial, fun w₄ h₄ => ?_⟩
  cases h₄
  refine ⟨trivial, fun w₅ h₅ => ?_⟩
  cases h₅
  exact ⟨trivial, fun w₆ h₆ => trivial⟩

end Sample

end TunnelWeaver.Views
