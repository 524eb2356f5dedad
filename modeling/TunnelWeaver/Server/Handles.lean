import TunnelWeaver.Server.Acceptance

/-! The registry of pending pairings (`account/pairing.rs`) between the channels that register in it
and the browsers that take from it, in any order. A channel is known by its handle, which is random
and so assumed new. -/

namespace TunnelWeaver.Server.Pairing

open Automaton
open Mux (KeyId)

namespace Pairings
variable {p : Pairings} {handle other : String} {view : PendingView} {key : KeyId}

/-- Each pending pairing is found by its key, and only it. -/
def Inverse (p : Pairings) : Prop :=
  ∀ key handle, p.handleByKey.lookup key = some handle ↔
    ∃ view, p.byHandle.lookup handle = some view ∧ view.keyId = key

theorem lookup_byHandle_register : (p.register handle view).byHandle.lookup other =
    if other = handle then some view
    else if p.handleByKey.lookup view.keyId = some other then none
    else p.byHandle.lookup other := by
  rw [register, Map.lookup_insert_ite]
  split
  · rfl
  · cases p.handleByKey.lookup view.keyId with
    | none => rfl
    | some previous =>
      rw [Map.lookup_erase_ite]
      simp only [Option.some.injEq, eq_comm]

theorem lookup_handleByKey_register : (p.register handle view).handleByKey.lookup key =
    if key = view.keyId then some handle else p.handleByKey.lookup key :=
  Map.lookup_insert_ite ..

theorem Inverse.register (h : p.Inverse) (hfresh : p.byHandle.lookup handle = none) :
    (p.register handle view).Inverse := by
  intro key other
  rw [lookup_handleByKey_register, lookup_byHandle_register]
  by_cases hother : other = handle
  · subst hother
    simp only [if_true, Option.some.injEq, exists_eq_left']
    constructor
    · intro hkey
      split at hkey
      case isTrue he => exact he.symm
      case isFalse =>
        obtain ⟨v, hv, -⟩ := (h key other).mp hkey
        rw [hfresh] at hv
        cases hv
    · intro hkey
      rw [if_pos hkey.symm]
  · rw [if_neg hother]
    constructor
    · intro hkey
      split at hkey
      case isTrue => exact absurd (Option.some.inj hkey).symm hother
      case isFalse hne =>
        obtain ⟨v, hv, rfl⟩ := (h key other).mp hkey
        refine ⟨v, ?_, rfl⟩
        rw [if_neg, hv]
        intro hprevious
        obtain ⟨v', hv', he⟩ := (h view.keyId other).mp hprevious
        rw [hv] at hv'
        cases hv'
        exact hne he
    · rintro ⟨v, hv, rfl⟩
      split at hv
      case isTrue => cases hv
      case isFalse hkept =>
        have hkey := (h v.keyId other).mpr ⟨v, hv, rfl⟩
        rw [if_neg, hkey]
        rintro he
        rw [he] at hkey
        exact hkept hkey

theorem remove_of_none (h : p.byHandle.lookup handle = none) : (p.remove handle).1 = p := by
  rw [remove, h]

theorem lookup_handleByKey_remove (h : p.Inverse) : (p.remove handle).1.handleByKey.lookup key =
    if p.handleByKey.lookup key = some handle then none else p.handleByKey.lookup key := by
  cases hview : p.byHandle.lookup handle with
  | none =>
    rw [remove_of_none hview, if_neg]
    intro hkey
    obtain ⟨v, hv, -⟩ := (h key handle).mp hkey
    rw [hview] at hv
    cases hv
  | some view =>
    have hown := (h view.keyId handle).mpr ⟨view, hview, rfl⟩
    rw [remove, hview]
    dsimp only
    rw [if_pos hown, Map.lookup_erase_ite]
    by_cases he : key = view.keyId
    · rw [if_pos he, he, if_pos hown]
    · rw [if_neg he, if_neg]
      intro hkey
      obtain ⟨v, hv, rfl⟩ := (h key handle).mp hkey
      rw [hview] at hv
      cases hv
      exact he rfl

theorem Inverse.remove (h : p.Inverse) (handle : String) : (p.remove handle).1.Inverse := by
  intro key other
  rw [lookup_handleByKey_remove h, World.lookup_remove]
  by_cases hother : other = handle
  · subst hother
    rw [if_pos rfl]
    refine iff_of_false ?_ ?_
    · intro hkey
      split at hkey
      · cases hkey
      · exact absurd hkey ‹_›
    · rintro ⟨v, hv, -⟩
      cases hv
  · rw [if_neg hother, ← h key other]
    split
    case isTrue hkey =>
      rw [hkey]
      exact iff_of_false (Option.some_ne_none _).symm fun he => hother (Option.some.inj he).symm
    case isFalse => rfl

/-- What is removed is removed under its own key: the other pairings stay as they are. -/
theorem remove_frame (h : p.Inverse) (hne : other ≠ handle) :
    (p.remove handle).1.byHandle.lookup other = p.byHandle.lookup other ∧
    ∀ key, p.handleByKey.lookup key = some other →
      (p.remove handle).1.handleByKey.lookup key = some other := by
  refine ⟨?_, fun key hkey => ?_⟩
  · rw [World.lookup_remove, if_neg hne]
  · rw [lookup_handleByKey_remove h, if_neg, hkey]
    rw [hkey]
    exact fun he => hne (Option.some.inj he)

end Pairings

/-! ## Channels and browsers -/

namespace Handles

/-- Where `run_channel` is, from the registration on. -/
inductive Stand
  /-- The handle is on its way to the client. -/
  | sending
  | waiting
  /-- It has stopped waiting, and is to unregister. -/
  | leaving (result : Option ServerMessage)
  | ended
  deriving DecidableEq

structure Channel where
  stand : Stand := .sending
  /-- What was sent to its receiver. -/
  inbox : List ServerMessage := []
  deriving DecidableEq

/-- What has become of a handle. -/
inductive Event
  | registered (handle : String)
  | superseded (handle : String)
  | taken (handle : String)
  | unregistered (handle : String)
  deriving DecidableEq

def Event.handle : Event → String
  | registered handle | superseded handle | taken handle | unregistered handle => handle

/-- The event is the end of a handle. -/
def Event.Ends (e : Event) (handle : String) : Prop :=
  e = .superseded handle ∨ e = .taken handle ∨ e = .unregistered handle

theorem Event.Ends.handle_eq {e : Event} {handle : String} (h : e.Ends handle) :
    e.handle = handle := by
  rcases h with rfl | rfl | rfl <;> rfl

structure World where
  pairings : Pairings := {}
  channels : Map String Channel := ∅
  /-- The handles whose `Taken`, with the sender in it, is in the hands of a browser. -/
  held : List String := []
  /-- In the order of the events. -/
  log : List Event := []

inductive Act
  | register (handle : String) (key : KeyId) (target : Target)
  /-- The handle is sent to the client, or cannot be. -/
  | sent (handle : String) (ok : Bool)
  | view (handle : String)
  | take (handle : String)
  /-- `Taken::finish`, by the browser that took the handle. -/
  | finish (handle : String) (outcome : ServerMessage)
  /-- A `Taken` is dropped unused. -/
  | drop (handle : String)
  /-- The receiver of a waiting channel yields a message, or the loss of its sender. -/
  | hear (handle : String)
  /-- The client is gone. -/
  | hangUp (handle : String)
  | unregister (handle : String)
  /-- The task of a channel is dropped where it is. -/
  | abort (handle : String)
  deriving DecidableEq

namespace World

/-- A channel goes on to `stand`. -/
def goTo (w : World) (handle : String) (ch : Channel) (stand : Stand) : World :=
  { w with channels := w.channels.insert handle { ch with stand } }

/-- Somebody holds the sender of a channel. -/
def senderLives (w : World) (handle : String) : Bool :=
  (w.pairings.byHandle.lookup handle).isSome || handle ∈ w.held

def step (w : World) : Act → Option World
  | .register handle key target =>
    match w.channels.lookup handle with
    | some _ => none
    | none => some { w with
        pairings := w.pairings.register handle ⟨key, target⟩
        channels := w.channels.insert handle {}
        log := w.log ++ ((w.pairings.handleByKey.lookup key).map .superseded).toList ++
          [.registered handle] }
  | .sent handle ok =>
    match w.channels.lookup handle with
    | none => none
    | some ch =>
      if ch.stand = .sending then some (w.goTo handle ch (if ok then .waiting else .leaving none))
      else none
  | .view _ => some w
  | .take handle =>
    match w.pairings.remove handle with
    | (_, none) => some w
    | (pairings, some _) => some { w with
        pairings
        held := handle :: w.held
        log := w.log ++ [.taken handle] }
  | .finish handle outcome =>
    if handle ∈ w.held then
      let w := { w with held := w.held.erase handle }
      match w.channels.lookup handle with
      | none => some w
      | some ch =>
        -- a receiver that is gone is not told
        if ch.stand = .ended then some w
        else some { w with
          channels := w.channels.insert handle { ch with inbox := ch.inbox ++ [outcome] } }
    else none
  | .drop handle => if handle ∈ w.held then some { w with held := w.held.erase handle } else none
  | .hear handle =>
    match w.channels.lookup handle with
    | none => none
    | some ch =>
      if ch.stand = .waiting && (!ch.inbox.isEmpty || !w.senderLives handle) then
        some (w.goTo handle ch (.leaving ch.inbox.head?))
      else none
  | .hangUp handle =>
    match w.channels.lookup handle with
    | none => none
    | some ch => if ch.stand = .waiting then some (w.goTo handle ch (.leaving none)) else none
  | .unregister handle =>
    match w.channels.lookup handle with
    | none => none
    | some ch => match ch.stand with
      | .leaving _ => some { w.goTo handle ch .ended with
          pairings := (w.pairings.remove handle).1
          log := w.log ++ [.unregistered handle] }
      | _ => none
  | .abort handle => (w.channels.lookup handle).map fun ch => w.goTo handle ch .ended

def run (w : World) (acts : List Act) : Option World := Automaton.run step w acts

/-- No handle is taken once it has been taken, superseded or unregistered. -/
def SingleUse (log : List Event) : Prop :=
  log.Pairwise fun e e' => ∀ handle, e' = .taken handle → ¬e.Ends handle

/-- What holds of the registry at any time. -/
structure Sound (w : World) : Prop where
  inverse : w.pairings.Inverse
  /-- The sender of a pending pairing is with the registry, and unused. -/
  pending : ∀ handle, (w.pairings.byHandle.lookup handle).isSome → handle ∉ w.held ∧
    (∀ e ∈ w.log, ¬e.Ends handle) ∧ ∃ ch, w.channels.lookup handle = some ch ∧ ch.inbox = []
  held : ∀ handle ∈ w.held, ∃ ch, w.channels.lookup handle = some ch ∧ ch.inbox = []
  nodup : w.held.Nodup
  logged : ∀ e ∈ w.log, (w.channels.lookup e.handle).isSome
  single : SingleUse w.log
  inbox : ∀ handle ch, w.channels.lookup handle = some ch → ch.inbox.length ≤ 1

variable {w w' : World} {handle other : String} {ch : Channel} {log l : List Event}

theorem Sound.init : Sound {} where
  inverse _ _ := by
    refine iff_of_false (Option.some_ne_none _).symm ?_
    rintro ⟨_, h, -⟩
    cases h
  pending _ h := by cases h
  held _ h := by cases h
  nodup := .nil
  logged _ h := by cases h
  single := .nil
  inbox _ _ h := by cases h

/-- What is not a take may follow anything. -/
theorem SingleUse.append (h : SingleUse log) (hl : ∀ e ∈ l, ∀ handle, e ≠ .taken handle) :
    SingleUse (log ++ l) := by
  refine List.pairwise_append.mpr ⟨h, ?_, fun e _ e' he' handle he => absurd he (hl e' he' handle)⟩
  exact List.pairwise_of_forall_mem_list fun e _ e' he' handle he => absurd he (hl e' he' handle)

theorem SingleUse.append_taken (h : SingleUse log) (hnot : ∀ e ∈ log, ¬e.Ends handle) :
    SingleUse (log ++ [.taken handle]) := by
  refine List.pairwise_append.mpr ⟨h, List.pairwise_singleton .., fun e he e' he' other htaken => ?_⟩
  rw [List.mem_singleton.mp he'] at htaken
  cases htaken
  exact hnot e he

theorem lookup_goTo {stand : Stand} : (w.goTo handle ch stand).channels.lookup other =
    if other = handle then some { ch with stand } else w.channels.lookup other :=
  Map.lookup_insert_ite ..

/-- A channel that goes on keeps its inbox. -/
theorem lookup_goTo_inbox (stand : Stand) (hch : w.channels.lookup handle = some ch)
    {ch' : Channel} (h : w.channels.lookup other = some ch') :
    ∃ ch'', (w.goTo handle ch stand).channels.lookup other = some ch'' ∧
      ch''.inbox = ch'.inbox := by
  rw [lookup_goTo]
  by_cases he : other = handle
  · subst he
    rw [hch] at h
    cases h
    exact ⟨_, if_pos rfl, rfl⟩
  · exact ⟨ch', by rw [if_neg he, h], rfl⟩

namespace Sound

/-- The log names nobody who has no channel. -/
theorem not_ends (h : w.Sound) (hnone : w.channels.lookup handle = none) :
    ∀ e ∈ w.log, ¬e.Ends handle := by
  intro e he hends
  have hsome := h.logged e he
  rw [hends.handle_eq, hnone] at hsome
  cases hsome

theorem goTo (h : w.Sound) (hch : w.channels.lookup handle = some ch) (stand : Stand) :
    (w.goTo handle ch stand).Sound where
  inverse := h.inverse
  pending other hsome := by
    obtain ⟨hheld, hlog, ch', hch', hempty⟩ := h.pending other hsome
    obtain ⟨ch'', hch'', hsame⟩ := lookup_goTo_inbox stand hch hch'
    exact ⟨hheld, hlog, ch'', hch'', hsame.trans hempty⟩
  held other hmem := by
    obtain ⟨ch', hch', hempty⟩ := h.held other hmem
    obtain ⟨ch'', hch'', hsame⟩ := lookup_goTo_inbox stand hch hch'
    exact ⟨ch'', hch'', hsame.trans hempty⟩
  nodup := h.nodup
  logged e he := by
    obtain ⟨ch', hch'⟩ := Option.isSome_iff_exists.mp (h.logged e he)
    obtain ⟨ch'', hch'', -⟩ := lookup_goTo_inbox stand hch hch'
    rw [hch'']
    rfl
  single := h.single
  inbox other ch' hch' := by
    rw [lookup_goTo] at hch'
    split at hch'
    · cases hch'
      exact h.inbox handle ch hch
    · exact h.inbox other ch' hch'

theorem register (h : w.Sound) (hnone : w.channels.lookup handle = none) (key : KeyId)
    (target : Target) (hstep : w.step (.register handle key target) = some w') : w'.Sound := by
  have hfresh : w.pairings.byHandle.lookup handle = none := by
    cases hview : w.pairings.byHandle.lookup handle with
    | none => rfl
    | some view =>
      obtain ⟨-, -, ch, hch, -⟩ := h.pending handle (by rw [hview]; rfl)
      rw [hnone] at hch
      cases hch
  have hprevious : ∀ previous, w.pairings.handleByKey.lookup key = some previous →
      (w.pairings.byHandle.lookup previous).isSome := by
    intro previous hkey
    obtain ⟨view, hview, -⟩ := (h.inverse key previous).mp hkey
    rw [hview]
    rfl
  have hkept {other : String} {ch : Channel} (hch : w.channels.lookup other = some ch) :
      (w.channels.insert handle {}).lookup other = some ch := by
    rw [Map.lookup_insert_ite, if_neg, hch]
    rintro rfl
    rw [hnone] at hch
    cases hch
  have hadded {e : Event} (he : e ∈ ((w.pairings.handleByKey.lookup key).map Event.superseded).toList ++
      [.registered handle]) :
      (∃ previous, w.pairings.handleByKey.lookup key = some previous ∧ e = .superseded previous) ∨
        e = .registered handle := by
    rcases List.mem_append.mp he with he | he
    · obtain ⟨previous, hkey, rfl⟩ := Option.map_eq_some_iff.mp (Option.mem_toList.mp he)
      exact .inl ⟨previous, hkey, rfl⟩
    · exact .inr (List.mem_singleton.mp he)
  simp only [World.step, hnone, Option.some.injEq, List.append_assoc] at hstep
  subst hstep
  refine ⟨h.inverse.register hfresh, ?_, ?_, h.nodup, ?_, h.single.append ?_, ?_⟩
  · intro other hsome
    dsimp only at hsome ⊢
    rw [Pairings.lookup_byHandle_register] at hsome
    by_cases hother : other = handle
    · subst hother
      refine ⟨fun hmem => ?_, fun e he hends => ?_, {}, by rw [Map.lookup_insert_ite, if_pos rfl], rfl⟩
      · obtain ⟨ch, hch, -⟩ := h.held other hmem
        rw [hnone] at hch
        cases hch
      rcases List.mem_append.mp he with he | he
      · exact h.not_ends hnone e he hends
      rcases hadded he with ⟨previous, hkey, rfl⟩ | rfl
      · obtain rfl : previous = other := hends.handle_eq
        have hpending := hprevious previous hkey
        rw [hfresh] at hpending
        cases hpending
      · rcases hends with he | he | he <;> cases he
    · rw [if_neg hother] at hsome
      split at hsome
      case isTrue => cases hsome
      case isFalse hkey =>
      obtain ⟨hheld, hlog, ch, hch, hempty⟩ := h.pending other hsome
      refine ⟨hheld, fun e he hends => ?_, ch, hkept hch, hempty⟩
      rcases List.mem_append.mp he with he | he
      · exact hlog e he hends
      rcases hadded he with ⟨previous, hkey', rfl⟩ | rfl
      · obtain rfl : previous = other := hends.handle_eq
        exact hkey hkey'
      · rcases hends with he | he | he <;> cases he
  · intro other hmem
    obtain ⟨ch, hch, hempty⟩ := h.held other hmem
    exact ⟨ch, hkept hch, hempty⟩
  · intro e he
    rcases List.mem_append.mp he with he | he
    · obtain ⟨ch, hch⟩ := Option.isSome_iff_exists.mp (h.logged e he)
      rw [hkept hch]
      rfl
    rcases hadded he with ⟨previous, hkey, rfl⟩ | rfl
    · obtain ⟨-, -, ch, hch, -⟩ := h.pending previous (hprevious previous hkey)
      rw [Event.handle, hkept hch]
      rfl
    · rw [Event.handle, Map.lookup_insert_ite, if_pos rfl]
      rfl
  · intro e he other
    rcases hadded he with ⟨previous, -, rfl⟩ | rfl
    · exact Event.noConfusion
    · exact Event.noConfusion
  · intro other ch hch
    dsimp only at hch
    rw [Map.lookup_insert_ite] at hch
    split at hch
    · cases hch
      exact Nat.zero_le _
    · exact h.inbox other ch hch

theorem take (h : w.Sound) (hstep : w.step (.take handle) = some w') : w'.Sound := by
  cases hview : w.pairings.byHandle.lookup handle with
  | none =>
    have hremove : w.pairings.remove handle = (w.pairings, none) := by
      rw [Pairings.remove, hview]
    rw [World.step, hremove] at hstep
    cases hstep
    exact h
  | some view =>
    obtain ⟨hheld, hlog, hchannel⟩ := h.pending handle (by rw [hview]; rfl)
    have hsnd : (w.pairings.remove handle).2 = some view :=
      (Pairing.World.remove_snd ..).trans hview
    have hremove : w.pairings.remove handle = ((w.pairings.remove handle).1, some view) :=
      Prod.ext rfl hsnd
    rw [World.step, hremove] at hstep
    cases hstep
    refine ⟨h.inverse.remove handle, ?_, ?_, List.nodup_cons.mpr ⟨hheld, h.nodup⟩, ?_,
      h.single.append_taken hlog, h.inbox⟩
    · intro other hsome
      dsimp only at hsome ⊢
      rw [Pairing.World.lookup_remove] at hsome
      split at hsome
      case isTrue => cases hsome
      case isFalse hne =>
      obtain ⟨hheld', hlog', hchannel'⟩ := h.pending other hsome
      refine ⟨fun hmem => ?_, fun e he hends => ?_, hchannel'⟩
      · rcases List.mem_cons.mp hmem with he | hmem
        · exact hne he
        · exact hheld' hmem
      rcases List.mem_append.mp he with he | he
      · exact hlog' e he hends
      · rw [List.mem_singleton.mp he] at hends
        exact hne hends.handle_eq.symm
    · intro other hmem
      rcases List.mem_cons.mp hmem with rfl | hmem
      · exact hchannel
      · exact h.held other hmem
    · intro e he
      rcases List.mem_append.mp he with he | he
      · exact h.logged e he
      · obtain ⟨ch, hch, -⟩ := hchannel
        rw [List.mem_singleton.mp he, Event.handle]
        exact Option.isSome_iff_exists.mpr ⟨ch, hch⟩

/-- A browser lets go of a sender. -/
theorem release (h : w.Sound) (handle : String) :
    Sound { w with held := w.held.erase handle } where
  inverse := h.inverse
  pending other hsome := by
    obtain ⟨hheld, hrest⟩ := h.pending other hsome
    exact ⟨fun hmem => hheld (List.mem_of_mem_erase hmem), hrest⟩
  held other hmem := h.held other (List.mem_of_mem_erase hmem)
  nodup := h.nodup.erase handle
  logged := h.logged
  single := h.single
  inbox := h.inbox

theorem finish (h : w.Sound) {outcome : ServerMessage}
    (hstep : w.step (.finish handle outcome) = some w') : w'.Sound := by
  rw [World.step] at hstep
  split at hstep
  case isFalse => cases hstep
  case isTrue hheld =>
  obtain ⟨ch, hch, hempty⟩ := h.held handle hheld
  simp only [hch] at hstep
  have hreleased := h.release handle
  split at hstep
  case isTrue =>
    cases hstep
    exact hreleased
  case isFalse =>
  cases hstep
  have hother {other : String} (hne : other ≠ handle) :
      (w.channels.insert handle { ch with inbox := ch.inbox ++ [outcome] }).lookup other =
        w.channels.lookup other := by
    rw [Map.lookup_insert_ite, if_neg hne]
  refine ⟨h.inverse, ?_, ?_, hreleased.nodup, ?_, h.single, ?_⟩
  · intro other hsome
    obtain ⟨hheld', hlog, ch', hch', hempty'⟩ := hreleased.pending other hsome
    have hne : other ≠ handle := by
      rintro rfl
      exact (h.pending other hsome).1 hheld
    exact ⟨hheld', hlog, ch', (hother hne).trans hch', hempty'⟩
  · intro other hmem
    have hne : other ≠ handle := by
      rintro rfl
      exact h.nodup.not_mem_erase hmem
    obtain ⟨ch', hch', hempty'⟩ := hreleased.held other hmem
    exact ⟨ch', (hother hne).trans hch', hempty'⟩
  · intro e he
    dsimp only
    rw [Map.lookup_insert_ite]
    split
    · rfl
    · exact h.logged e he
  · intro other ch' hch'
    dsimp only at hch'
    rw [Map.lookup_insert_ite] at hch'
    split at hch'
    · cases hch'
      rw [hempty]
      exact Nat.le_refl _
    · exact h.inbox other ch' hch'

theorem unregister (h : w.Sound) (hstep : w.step (.unregister handle) = some w') : w'.Sound := by
  rw [World.step] at hstep
  split at hstep
  case h_1 => cases hstep
  case h_2 ch hch =>
  split at hstep
  case h_2 => cases hstep
  case h_1 result _ =>
  cases hstep
  have hmoved := h.goTo hch .ended
  refine ⟨h.inverse.remove handle, ?_, hmoved.held, hmoved.nodup, ?_, h.single.append ?_,
    hmoved.inbox⟩
  · intro other hsome
    dsimp only at hsome ⊢
    rw [Pairing.World.lookup_remove] at hsome
    split at hsome
    case isTrue => cases hsome
    case isFalse hne =>
    obtain ⟨hheld, hlog, hchannel⟩ := hmoved.pending other hsome
    refine ⟨hheld, fun e he hends => ?_, hchannel⟩
    rcases List.mem_append.mp he with he | he
    · exact hlog e he hends
    · rw [List.mem_singleton.mp he] at hends
      exact hne hends.handle_eq.symm
  · intro e he
    rcases List.mem_append.mp he with he | he
    · exact hmoved.logged e he
    · rw [List.mem_singleton.mp he, Event.handle, lookup_goTo, if_pos rfl]
      rfl
  · intro e he other
    rw [List.mem_singleton.mp he]
    exact Event.noConfusion

/-- One step keeps the registry sound, whoever takes it. -/
theorem step (h : w.Sound) {a : Act} (hstep : w.step a = some w') : w'.Sound := by
  cases a with
  | register handle key target =>
    cases hch : w.channels.lookup handle with
    | none => exact h.register hch key target hstep
    | some ch =>
      rw [World.step, hch] at hstep
      cases hstep
  | take handle => exact h.take hstep
  | finish handle outcome => exact h.finish hstep
  | unregister handle => exact h.unregister hstep
  | view handle =>
    cases hstep
    exact h
  | drop handle =>
    rw [World.step] at hstep
    split at hstep
    · cases hstep
      exact h.release handle
    · cases hstep
  | sent handle ok | hear handle | hangUp handle =>
    rw [World.step] at hstep
    split at hstep
    · cases hstep
    · rename_i ch hch
      split at hstep
      · cases hstep
        exact h.goTo hch _
      · cases hstep
  | abort handle =>
    obtain ⟨ch, hch, rfl⟩ := Option.map_eq_some_iff.mp hstep
    exact h.goTo hch .ended

theorem run (h : w.Sound) {acts : List Act} (hrun : w.run acts = some w') : w'.Sound :=
  run_invariant (p := fun _ => True) (fun hI _ hs => hI.step hs) (fun _ _ => trivial) h hrun

/-- A channel that leaves takes with it its own pairing, if that is still pending, and no other. -/
theorem unregister_frame (h : w.Sound) (hstep : w.step (.unregister handle) = some w') :
    (∀ other, other ≠ handle →
      w'.pairings.byHandle.lookup other = w.pairings.byHandle.lookup other ∧
      ∀ key, w.pairings.handleByKey.lookup key = some other →
        w'.pairings.handleByKey.lookup key = some other) ∧
    (.superseded handle ∈ w.log → w'.pairings = w.pairings) := by
  have hpairings : w'.pairings = (w.pairings.remove handle).1 := by
    rw [World.step] at hstep
    split at hstep
    · cases hstep
    · split at hstep
      · cases hstep
        rfl
      · cases hstep
  rw [hpairings]
  refine ⟨fun other hne => Pairings.remove_frame h.inverse hne, fun hlog => ?_⟩
  refine Pairings.remove_of_none ?_
  cases hview : w.pairings.byHandle.lookup handle with
  | none => rfl
  | some view =>
    exact absurd (.inl rfl) ((h.pending handle (by rw [hview]; rfl)).2.1 _ hlog)

end Sound

/-- However channels and browsers interleave, the registry is consistent and a handle is used once:
the two maps mirror each other, nothing is taken after its handle was taken, superseded or
unregistered, a channel never removes the pairing of another, and nobody hears two outcomes. -/
theorem pairing_registry_single_use (acts : List Act) (hrun : run {} acts = some w) :
    w.pairings.Inverse ∧
    (∀ handle handle' view view', w.pairings.byHandle.lookup handle = some view →
      w.pairings.byHandle.lookup handle' = some view' → view.keyId = view'.keyId →
      handle = handle') ∧
    SingleUse w.log ∧
    (∀ handle w', w.step (.unregister handle) = some w' →
      (∀ other, other ≠ handle →
        w'.pairings.byHandle.lookup other = w.pairings.byHandle.lookup other ∧
        ∀ key, w.pairings.handleByKey.lookup key = some other →
          w'.pairings.handleByKey.lookup key = some other) ∧
      (.superseded handle ∈ w.log → w'.pairings = w.pairings)) ∧
    ∀ handle ch, w.channels.lookup handle = some ch → ch.inbox.length ≤ 1 := by
  have h := Sound.init.run hrun
  refine ⟨h.inverse, ?_, h.single, fun handle w' hstep => h.unregister_frame hstep, h.inbox⟩
  intro handle handle' view view' hview hview' hkey
  have hfound := (h.inverse view.keyId handle).mpr ⟨view, hview, rfl⟩
  have hfound' := (h.inverse view.keyId handle').mpr ⟨view', hview', hkey.symm⟩
  rw [hfound] at hfound'
  exact Option.some.inj hfound'

namespace Sample

/-- A client pairs its key twice; the second handle is approved, the first is tried too late. -/
def twice : List Act :=
  [.register "a" (Plane.Sample.keyId 1) (.new "laptop"), .sent "a" true,
    .register "b" (Plane.Sample.keyId 1) (.new "laptop"), .sent "b" true, .take "b", .take "a",
    .finish "b" (.approved 1 "ann" "laptop"), .hear "a", .unregister "a", .hear "b"]

end Sample

theorem pairing_registry_twice : ∃ w, run {} Sample.twice = some w ∧
    w.log = [.registered "a", .superseded "a", .registered "b", .taken "b", .unregistered "a"] ∧
    w.pairings.Inverse ∧ SingleUse w.log := by
  obtain ⟨w, hrun, hlog⟩ := (Option.any_eq_true (fun w : World =>
    w.log = [.registered "a", .superseded "a", .registered "b", .taken "b", .unregistered "a"])
      (run {} Sample.twice)).mp (by decide +kernel)
  have h := pairing_registry_single_use Sample.twice hrun
  exact ⟨w, hrun, of_decide_eq_true hlog, h.1, h.2.2.1⟩

end World

end Handles

end TunnelWeaver.Server.Pairing
