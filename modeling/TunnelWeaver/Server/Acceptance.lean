import TunnelWeaver.Server.Pairing

/-! What the answer to a `pair_accept` says about the tables: a refused one has changed nothing, and
after an accepted one a single machine holds the key. -/

namespace TunnelWeaver.Server

open Automaton
open Mux (KeyId)
open Proto (toAsciiLowercase)

namespace Pairing

namespace World

variable (text : TextFns)

/-- Exactly one machine holds the key: this one. -/
def Holds (d : Directory) (key : KeyId) (machineId : Nat) (name : String) : Prop :=
  ∃ m, d.machines.get? machineId = some m ∧ m.keyId = key ∧ m.name = name ∧
    ∀ i m', d.machines.get? i = some m' → m'.keyId = key → i = machineId

/-- The accept `id` has left the tables as they were. -/
def Quiet (w : World) (id : Nat) : Prop := ∀ e ∈ w.changes, e.call = id → e.after = e.before

/-- A write of the accept `id` left the key with this machine alone. -/
def Wrote (w : World) (id : Nat) (key : KeyId) (machineId : Nat) (name : String) : Prop :=
  ∃ e ∈ w.changes, e.call = id ∧ Holds e.after key machineId name

/-- A refused accept changed nothing, and after an accepted one the key is held by the machine that
the client, unless it stopped waiting, was told of, once. -/
structure Answers (w : World) : Prop where
  refused : ∀ id c message, w.calls.lookup id = some c → c.stage = .answered false message →
    w.Quiet id
  accepted : ∀ id c message, w.calls.lookup id = some c → c.stage = .answered true message →
    ∃ ch machineId person name, w.channels.lookup c.req.handle = some ch ∧
      w.Wrote id ch.keyId machineId name ∧
      (ch.received = [.approved machineId person name] ∨ ch.open_ = false ∧ ch.received = [])

/-- The machine of a person that an accept has created can be created too. -/
def Follows (w : World) : Act → Prop
  | .read id fails => ∀ c ∈ w.calls.lookup id, c.stage.readFollows fails = true
  | .write id fails _ => ∀ c ∈ w.calls.lookup id, c.stage.writeFollows w.directory fails = true
  | _ => True

instance (w : World) (a : Act) : Decidable (w.Follows a) := by
  cases a <;> unfold Follows <;> infer_instance

/-- No pairing is pending. -/
structure Initial (w : World) : Prop where
  pairings : ∀ handle, w.pairings.byHandle.lookup handle = none
  calls : ∀ id, w.calls.lookup id = none
  changes : w.changes = []

/-! ## The invariant -/

variable {text} {w w' : World} {a : Act}

/-- What holds of an accept in `approve`. -/
def ApplyingOk (w : World) (id : Nat) (key : KeyId) : Applying → Prop
  | .owning .. | .rekeying .. | .creating .. => w.Quiet id
  | .naming _ created _ _ => created = false → w.Quiet id
  | .inserting _ created name => (created = false → w.Quiet id) ∧
      isValidPersonOrMachine (toAsciiLowercase name) = true
  | .closing false _ _ => w.Quiet id
  | .closing true _ outcome => ∃ machineId person name,
      outcome = .approved machineId person name ∧ w.Wrote id key machineId name

def StageOk (w : World) (id : Nat) (c : Accept) : Prop :=
  match c.stage with
  | .viewed _ | .checking .. | .validated _ | .answered false _ => w.Quiet id
  | .taken key next => (∃ ch, w.channels.lookup c.req.handle = some ch ∧ ch.keyId = key ∧
      ch.received = []) ∧ w.ApplyingOk id key next
  | .answered true _ => ∃ ch machineId person name,
      w.channels.lookup c.req.handle = some ch ∧ w.Wrote id ch.keyId machineId name ∧
      (ch.received = [.approved machineId person name] ∨ ch.open_ = false ∧ ch.received = [])

structure Tracked (w : World) : Prop where
  pending : ∀ handle view, w.pairings.byHandle.lookup handle = some view →
    ∃ ch, w.channels.lookup handle = some ch ∧ ch.keyId = view.keyId ∧ ch.received = []
  /-- A handle is used once. -/
  spent : ∀ id c, w.calls.lookup id = some c → c.stage.consumed = true →
    w.pairings.byHandle.lookup c.req.handle = none
  alone : ∀ id c id' c', w.calls.lookup id = some c → w.calls.lookup id' = some c' →
    c.stage.consumed = true → c'.stage.consumed = true → c.req.handle = c'.req.handle → id = id'
  stage : ∀ id c, w.calls.lookup id = some c → w.StageOk id c
  known : ∀ e ∈ w.changes, (w.calls.lookup e.call).isSome = true

theorem Initial.tracked (h : w.Initial) : w.Tracked where
  pending := by
    intro handle view hview
    rw [h.pairings handle] at hview
    cases hview
  spent := fun _ _ _ _ => h.pairings _
  alone := by
    intro id c id' c' hid
    rw [h.calls id] at hid
    cases hid
  stage := by
    intro id c hid
    rw [h.calls id] at hid
    cases hid
  known := by
    intro e he
    rw [h.changes] at he
    cases he

theorem Tracked.answers (h : w.Tracked) : w.Answers where
  refused := by
    intro id c message hid hstage
    have hok := h.stage id c hid
    rw [StageOk, hstage] at hok
    exact hok
  accepted := by
    intro id c message hid hstage
    have hok := h.stage id c hid
    rw [StageOk, hstage] at hok
    exact hok

/-- Nothing was sent down the channel of a handle. -/
def ChannelKept (w w' : World) (handle : String) : Prop :=
  ∀ ch, w.channels.lookup handle = some ch → ∃ ch', w'.channels.lookup handle = some ch' ∧
    ch'.keyId = ch.keyId ∧ ch'.received = ch.received ∧ (ch.open_ = false → ch'.open_ = false)

theorem ChannelKept.of_eq {handle : String}
    (h : w'.channels.lookup handle = w.channels.lookup handle) : ChannelKept w w' handle :=
  fun ch hch => ⟨ch, h.trans hch, rfl, rfl, id⟩

theorem Wrote.mono {id : Nat} {key : KeyId} {machineId : Nat} {name : String}
    (h : w.Wrote id key machineId name) (hsub : ∀ e ∈ w.changes, e ∈ w'.changes) :
    w'.Wrote id key machineId name := by
  obtain ⟨e, he, hwrote⟩ := h
  exact ⟨e, hsub e he, hwrote⟩

theorem ApplyingOk.mono {id : Nat} {key : KeyId} {next : Applying}
    (h : w.ApplyingOk id key next) (hquiet : w.Quiet id → w'.Quiet id)
    (hsub : ∀ e ∈ w.changes, e ∈ w'.changes) : w'.ApplyingOk id key next := by
  cases next with
  | owning | rekeying | creating => exact hquiet h
  | naming => exact fun hc => hquiet (h hc)
  | inserting => exact ⟨fun hc => hquiet (h.1 hc), h.2⟩
  | closing ok =>
    cases ok with
    | false => exact hquiet h
    | true =>
      obtain ⟨machineId, person, name, houtcome, hwrote⟩ := h
      exact ⟨machineId, person, name, houtcome, hwrote.mono hsub⟩

theorem StageOk.mono {id : Nat} {c : Accept} (h : w.StageOk id c)
    (hquiet : w.Quiet id → w'.Quiet id) (hsub : ∀ e ∈ w.changes, e ∈ w'.changes)
    (hch : c.stage.consumed = true → ChannelKept w w' c.req.handle) : w'.StageOk id c := by
  unfold StageOk at h ⊢
  cases hstage : c.stage with
  | viewed | checking | validated =>
    rw [hstage] at h
    exact hquiet h
  | taken key next =>
    rw [hstage] at h hch
    obtain ⟨⟨ch, hlookup, hkey, hreceived⟩, hnext⟩ :
      (∃ ch, w.channels.lookup c.req.handle = some ch ∧ ch.keyId = key ∧ ch.received = []) ∧
        w.ApplyingOk id key next := h
    obtain ⟨ch', hlookup', hkey', hreceived', -⟩ := hch rfl ch hlookup
    exact ⟨⟨ch', hlookup', hkey'.trans hkey, hreceived'.trans hreceived⟩, hnext.mono hquiet hsub⟩
  | answered ok message =>
    rw [hstage] at h hch
    cases ok with
    | false => exact hquiet h
    | true =>
      obtain ⟨ch, machineId, person, name, hlookup, hwrote, htold⟩ := h
      have hwrote : w.Wrote id ch.keyId machineId name := hwrote
      obtain ⟨ch', hlookup', hkey', hreceived', hopen⟩ := hch rfl ch hlookup
      refine ⟨ch', machineId, person, name, hlookup', hkey' ▸ hwrote.mono hsub, ?_⟩
      rw [hreceived']
      exact htold.imp_right fun hclosed => ⟨hopen hclosed.1, hclosed.2⟩

/-- A step of no accept. -/
theorem Tracked.of_frame (h : w.Tracked) (hcalls : w'.calls = w.calls)
    (hchanges : w'.changes = w.changes)
    (hpending : ∀ handle view, w'.pairings.byHandle.lookup handle = some view →
      w.pairings.byHandle.lookup handle = some view ∧ ChannelKept w w' handle)
    (hkept : ∀ id c, w.calls.lookup id = some c → c.stage.consumed = true →
      ChannelKept w w' c.req.handle) : w'.Tracked where
  pending := by
    intro handle view hview
    obtain ⟨hview, hch⟩ := hpending handle view hview
    obtain ⟨ch, hlookup, hkey, hreceived⟩ := h.pending handle view hview
    obtain ⟨ch', hlookup', hkey', hreceived', -⟩ := hch ch hlookup
    exact ⟨ch', hlookup', hkey'.trans hkey, hreceived'.trans hreceived⟩
  spent := by
    intro id c hid hc
    rw [hcalls] at hid
    refine Option.eq_none_iff_forall_ne_some.mpr fun view hview => ?_
    exact absurd (hpending _ view hview).1 (by rw [h.spent id c hid hc]; exact Option.some_ne_none _ |>.symm)
  alone := by
    rw [hcalls]
    exact h.alone
  stage := by
    intro id c hid
    rw [hcalls] at hid
    refine (h.stage id c hid).mono ?_ ?_ (hkept id c hid)
    · rw [Quiet, Quiet, hchanges]
      exact fun hq => hq
    · rw [hchanges]
      exact fun e he => he
  known := by
    rw [hcalls, hchanges]
    exact h.known

/-- A step of the accept `id`. -/
theorem Tracked.of_step (h : w.Tracked) (id : Nat)
    (hcalls : ∀ id', id' ≠ id → w'.calls.lookup id' = w.calls.lookup id')
    (hnew : (w'.calls.lookup id).isSome = true)
    (hchanges : ∀ e ∈ w'.changes, e ∈ w.changes ∨ e.call = id)
    (hsub : ∀ e ∈ w.changes, e ∈ w'.changes)
    (hpending : ∀ handle view, w'.pairings.byHandle.lookup handle = some view →
      w.pairings.byHandle.lookup handle = some view ∧ ChannelKept w w' handle)
    (hkept : ∀ id' c, id' ≠ id → w.calls.lookup id' = some c → c.stage.consumed = true →
      ChannelKept w w' c.req.handle)
    (hself : ∀ c, w'.calls.lookup id = some c → w'.StageOk id c ∧ (c.stage.consumed = true →
      w'.pairings.byHandle.lookup c.req.handle = none ∧ ∀ id' c', id' ≠ id →
        w.calls.lookup id' = some c' → c'.stage.consumed = true → c'.req.handle ≠ c.req.handle)) :
    w'.Tracked where
  pending := by
    intro handle view hview
    obtain ⟨hview, hch⟩ := hpending handle view hview
    obtain ⟨ch, hlookup, hkey, hreceived⟩ := h.pending handle view hview
    obtain ⟨ch', hlookup', hkey', hreceived', -⟩ := hch ch hlookup
    exact ⟨ch', hlookup', hkey'.trans hkey, hreceived'.trans hreceived⟩
  spent := by
    intro i c hi hc
    by_cases hid : i = id
    · subst hid
      exact ((hself c hi).2 hc).1
    · rw [hcalls i hid] at hi
      refine Option.eq_none_iff_forall_ne_some.mpr fun view hview => ?_
      have hold := (hpending _ view hview).1
      rw [h.spent i c hi hc] at hold
      cases hold
  alone := by
    intro i c i' c' hi hi' hc hc' hhandle
    by_cases hid : i = id
    · by_cases hid' : i' = id
      · rw [hid, hid']
      · subst hid
        rw [hcalls i' hid'] at hi'
        exact absurd hhandle.symm (((hself c hi).2 hc).2 i' c' hid' hi' hc')
    · rw [hcalls i hid] at hi
      by_cases hid' : i' = id
      · subst hid'
        exact absurd hhandle (((hself c' hi').2 hc').2 i c hid hi hc)
      · rw [hcalls i' hid'] at hi'
        exact h.alone i c i' c' hi hi' hc hc' hhandle
  stage := by
    intro i c hi
    by_cases hid : i = id
    · subst hid
      exact (hself c hi).1
    · rw [hcalls i hid] at hi
      refine (h.stage i c hi).mono ?_ hsub (hkept i c hid hi)
      intro hq e he hcall
      rcases hchanges e he with he | he
      · exact hq e he hcall
      · exact absurd (hcall.symm.trans he) hid
  known := by
    intro e he
    by_cases hid : e.call = id
    · rw [hid]
      exact hnew
    · rw [hcalls _ hid]
      exact h.known e ((hchanges e he).resolve_right hid)

theorem Tracked.advance (h : w.Tracked) {id : Nat} {c : Accept} {d : Directory} {stage : Stage}
    {p : Pairings}
    (hp : ∀ handle view, p.byHandle.lookup handle = some view →
      w.pairings.byHandle.lookup handle = some view)
    (hself : ({ w with pairings := p }.advance id c d stage).StageOk id { c with stage })
    (hconsumed : stage.consumed = true → p.byHandle.lookup c.req.handle = none ∧
      ∀ id' c', id' ≠ id → w.calls.lookup id' = some c' → c'.stage.consumed = true →
        c'.req.handle ≠ c.req.handle) :
    ({ w with pairings := p }.advance id c d stage).Tracked := by
  have hlookup (id' : Nat) : ({ w with pairings := p }.advance id c d stage).calls.lookup id' =
      if id' = id then some { c with stage } else w.calls.lookup id' := Map.lookup_insert_ite ..
  refine h.of_step id ?_ ?_ ?_ ?_ ?_ ?_ ?_
  · intro id' hid'
    rw [hlookup, if_neg hid']
  · rw [hlookup, if_pos rfl]
    rfl
  · intro e he
    rcases List.mem_cons.mp he with rfl | he
    · exact .inr rfl
    · exact .inl he
  · exact fun e he => List.mem_cons_of_mem _ he
  · exact fun handle view hview => ⟨hp handle view hview, .of_eq rfl⟩
  · exact fun _ _ _ _ _ => .of_eq rfl
  · intro c' hc'
    rw [hlookup, if_pos rfl] at hc'
    cases hc'
    exact ⟨hself, hconsumed⟩

theorem Quiet.advance {id : Nat} {c : Accept} {stage : Stage} {p : Pairings} (h : w.Quiet id) :
    ({ w with pairings := p }.advance id c w.directory stage).Quiet id := by
  intro e he hcall
  rcases List.mem_cons.mp he with rfl | he
  · rfl
  · exact h e he hcall

/-- What a consumed accept keeps while it is in `approve`. -/
theorem Tracked.others (h : w.Tracked) {id : Nat} {c : Accept} (hid : w.calls.lookup id = some c)
    (hc : c.stage.consumed = true) : w.pairings.byHandle.lookup c.req.handle = none ∧
      ∀ id' c', id' ≠ id → w.calls.lookup id' = some c' → c'.stage.consumed = true →
        c'.req.handle ≠ c.req.handle :=
  ⟨h.spent id c hid hc, fun id' c' hne hid' hc' he => hne (h.alone id' c' id c hid' hid hc' hc he)⟩

/-! ## Steps -/

theorem lookup_remove (p : Pairings) (handle handle' : String) :
    (p.remove handle).1.byHandle.lookup handle' =
      if handle' = handle then none else p.byHandle.lookup handle' := by
  unfold Pairings.remove
  split
  · rename_i hnone
    split
    · rename_i he
      rw [he, hnone]
    · rfl
  · exact Map.lookup_erase_ite ..

theorem remove_snd (p : Pairings) (handle : String) :
    (p.remove handle).2 = p.byHandle.lookup handle := by
  unfold Pairings.remove
  split
  · rename_i hnone
    exact hnone.symm
  · rename_i view hview
    exact hview.symm

theorem lookup_register {p : Pairings} {handle handle' : String} {view view' : PendingView}
    (h : (p.register handle view).byHandle.lookup handle' = some view') :
    handle' = handle ∧ view' = view ∨ handle' ≠ handle ∧ p.byHandle.lookup handle' = some view' := by
  unfold Pairings.register at h
  rw [Map.lookup_insert_ite] at h
  split at h
  · rename_i he
    exact .inl ⟨he, (Option.some.inj h).symm⟩
  · rename_i he
    refine .inr ⟨he, ?_⟩
    split at h
    · rw [Map.lookup_erase_ite] at h
      split at h
      · cases h
      · exact h
    · exact h

theorem send_channels (w : World) (handle : String) (message : ServerMessage) :
    ∀ handle', handle' ≠ handle →
      (w.send handle message).channels.lookup handle' = w.channels.lookup handle' := by
  intro handle' hne
  unfold send
  split
  · split
    · exact (Map.lookup_insert_ite ..).trans (if_neg hne)
    · rfl
  · rfl

theorem send_rest (w : World) (handle : String) (message : ServerMessage) :
    (w.send handle message).calls = w.calls ∧ (w.send handle message).changes = w.changes ∧
      (w.send handle message).pairings = w.pairings := by
  unfold send
  split
  · split <;> exact ⟨rfl, rfl, rfl⟩
  · exact ⟨rfl, rfl, rfl⟩

/-- What a client is told. -/
theorem send_channel {handle : String} {ch : Waiting} (message : ServerMessage)
    (h : w.channels.lookup handle = some ch) :
    ∃ ch', (w.send handle message).channels.lookup handle = some ch' ∧ ch'.keyId = ch.keyId ∧
      (ch'.received = ch.received ++ [message] ∨
        ch'.open_ = false ∧ ch'.received = ch.received) := by
  unfold send
  rw [h]
  dsimp only
  split
  · exact ⟨_, (Map.lookup_insert_ite ..).trans (if_pos rfl), rfl, .inl rfl⟩
  · rename_i hopen
    exact ⟨ch, h, rfl, .inr ⟨Bool.eq_false_iff.mpr hopen, rfl⟩⟩

theorem holds_replaceMachineKey {d d' : Directory} {machineId : Nat} {key : KeyId} {now : Int}
    (h : d.replaceMachineKey machineId key now = .ok d') :
    Holds d' key machineId (((d.machines.get? machineId).map (·.name)).getD "") := by
  unfold Directory.replaceMachineKey at h
  cases hget : d.machines.get? machineId with
  | none =>
    rw [hget] at h
    cases h
  | some current =>
    rw [hget] at h
    dsimp only at h
    split at h
    · cases h
    · rename_i hfree
      rw [Option.not_isSome_iff_eq_none, Table.find?_eq_none] at hfree
      cases h
      have hmachines (i : Nat) : (d.machines.set machineId { current with keyId := key }).get? i =
          if i = machineId then some { current with keyId := key } else d.machines.get? i := by
        rw [Table.get?_set]
        split
        · rename_i hi
          rw [hi, hget]
          rfl
        · rfl
      refine ⟨{ current with keyId := key }, ?_, rfl, rfl, ?_⟩
      · exact (hmachines machineId).trans (if_pos rfl)
      · intro i m hi hkey
        by_contra hne
        have hi' : d.machines.get? i = some m := by
          rw [← hi]
          exact ((hmachines i).trans (if_neg hne)).symm
        have hother := hfree hi'
        rw [hkey] at hother
        simp [hne] at hother

theorem holds_createMachine {d d' : Directory} {person : Nat} {name : String} {key : KeyId}
    {now : Int} (h : d.createMachine person name key now = .ok d') :
    Holds d' key d.machines.next (toAsciiLowercase name) := by
  unfold Directory.createMachine at h
  dsimp only at h
  split at h
  · cases h
  · split at h
    · cases h
    · rename_i hfree
      rw [Bool.or_eq_true, not_or, Option.not_isSome_iff_eq_none, Table.find?_eq_none] at hfree
      cases h
      have hmachines (i : Nat) : (d.machines.insert
          { personId := person, name := toAsciiLowercase name, keyId := key }).get? i =
          if i = d.machines.next then
            some { personId := person, name := toAsciiLowercase name, keyId := key }
          else d.machines.get? i := Table.get?_insert
      refine ⟨⟨person, toAsciiLowercase name, key⟩, ?_, rfl, rfl, ?_⟩
      · exact (hmachines _).trans (if_pos rfl)
      · intro i m hi hkey
        by_contra hne
        have hi' : d.machines.get? i = some m := by
          rw [← hi]
          exact ((hmachines i).trans (if_neg hne)).symm
        have hother := hfree.2 hi'
        simp [hkey] at hother

theorem createMachine_ok {d : Directory} {person : Nat} {name : String} {key : KeyId} (now : Int)
    (hvalid : isValidPersonOrMachine (toAsciiLowercase name) = true)
    (hperson : (d.persons.get? person).isSome = true)
    (hfree : d.machines.find? (fun _ m => m.keyId = key ||
      (m.personId = person && m.name = toAsciiLowercase name)) = none) :
    ∃ d', d.createMachine person name key now = .ok d' := by
  unfold Directory.createMachine
  dsimp only
  rw [hvalid, hfree, Option.isNone_eq_false_iff.mpr hperson]
  exact ⟨_, rfl⟩

theorem isValid_probe {text : TextFns} {d : Directory} {person first : Nat} {raw name : String}
    (h : probe d person (slugifyMachine text raw) first = some name) :
    isValidPersonOrMachine (toAsciiLowercase name) = true := by
  obtain ⟨i, -, rfl⟩ := List.mem_map.mp (List.mem_of_find?_eq_some h)
  exact (isBase_slugifyMachine text raw).isValid_candidate _

theorem ApplyingOk.read {id : Nat} {key : KeyId} {next next' : Applying} {d : Directory}
    {fails : Bool} (h : w.ApplyingOk id key next)
    (hfollows : ∀ person requested first, next = .naming person true requested first →
      fails = false)
    (hread : next.read text d fails = some next') : w.ApplyingOk id key next' := by
  cases next with
  | rekeying | creating | inserting | closing => cases hread
  | owning person machineId =>
    have hq : w.Quiet id := h
    simp only [Applying.read, Option.some.injEq] at hread
    split at hread
    · subst hread
      exact hq
    · split at hread <;> subst hread <;> exact hq
  | naming person created requested first =>
    have hq : created = false → w.Quiet id := h
    simp only [Applying.read, Option.some.injEq] at hread
    split at hread
    · rename_i hfails
      subst hread
      cases created with
      | false => exact hq rfl
      | true => exact absurd (hfollows _ _ _ rfl) (by rw [hfails]; decide)
    · split at hread
      · rename_i name hprobe
        subst hread
        exact ⟨hq, isValid_probe hprobe⟩
      · subst hread
        exact hq

theorem ApplyingOk.write {id : Nat} {c : Accept} {key : KeyId} {next next' : Applying}
    {d' : Directory} {fails : Bool} {now : Int} (h : w.ApplyingOk id key next)
    (hfollows : ∀ person name, next = .inserting person true name → fails = false ∧
      (w.directory.persons.get? person.1).isSome = true ∧
      w.directory.machines.find? (fun _ m => m.keyId = key ||
        (m.personId = person.1 && m.name = toAsciiLowercase name)) = none)
    (hwrite : next.write w.directory c.account key fails now = some (d', next')) :
    (w.advance id c d' (.taken key next')).ApplyingOk id key next' := by
  have hquiet (hq : w.Quiet id) (stage : Stage) :
      (w.advance id c w.directory stage).Quiet id := hq.advance
  cases next with
  | owning | naming | closing => cases hwrite
  | rekeying person machineId =>
    simp only [Applying.write] at hwrite
    split at hwrite
    · cases hwrite
      exact hquiet h _
    · split at hwrite
      · cases hwrite
        exact hquiet h _
      · rename_i d₁ hreplace
        cases hwrite
        exact ⟨_, _, _, rfl, _, List.mem_cons_self, rfl, holds_replaceMachineKey hreplace⟩
  | creating slug requested =>
    simp only [Applying.write] at hwrite
    split at hwrite
    · cases hwrite
      exact hquiet h _
    · split at hwrite
      · cases hwrite
        exact hquiet h _
      · cases hwrite
        exact fun hc => absurd hc (by decide)
  | inserting person created name =>
    obtain ⟨hq, hvalid⟩ := h
    simp only [Applying.write] at hwrite
    cases created with
    | true =>
      obtain ⟨rfl, hperson, hfree⟩ := hfollows person name rfl
      obtain ⟨d₁, hcreate⟩ := createMachine_ok now hvalid hperson hfree
      rw [hcreate] at hwrite
      cases hwrite
      exact ⟨_, _, _, rfl, _, List.mem_cons_self, rfl, holds_createMachine hcreate⟩
    | false =>
      split at hwrite
      · cases hwrite
        exact hquiet (hq rfl) _
      · split at hwrite
        · cases hwrite
          exact hquiet (hq rfl) _
        · rename_i d₁ hcreate
          cases hwrite
          exact ⟨_, _, _, rfl, _, List.mem_cons_self, rfl, holds_createMachine hcreate⟩

theorem apply_ok {id : Nat} {key : KeyId} (approval : Approval) (h : w.Quiet id) :
    w.ApplyingOk id key approval.apply := by
  cases approval with
  | rekey person machineId => cases person <;> exact h
  | new owner requested =>
    cases owner with
    | existing => exact fun _ => h
    | new => exact h

/-- A step before the handle is taken. -/
theorem Tracked.advance_quiet (h : w.Tracked) {id : Nat} {c : Accept} {stage : Stage}
    (hq : w.Quiet id) (hstage : stage.consumed = false ∧ ∀ key next, stage ≠ .taken key next) :
    (w.advance id c w.directory stage).Tracked := by
  refine h.advance (p := w.pairings) (fun _ _ hview => hview) ?_ ?_
  · have hq' : (w.advance id c w.directory stage).Quiet id := hq.advance
    unfold StageOk
    dsimp only
    cases stage with
    | viewed | checking | validated => exact hq'
    | taken key next => exact absurd rfl (hstage.2 key next)
    | answered ok message =>
      cases ok with
      | false => exact hq'
      | true => cases hstage.1
  · intro hc
    rw [hstage.1] at hc
    cases hc

theorem validate_stage (text : TextFns) (req : AcceptRequest) (target : Target)
    (person : Option (Nat × PersonRow)) :
    (validate text req target person).consumed = false ∧
      ∀ key next, validate text req target person ≠ .taken key next := by
  unfold validate
  split
  · split <;> exact ⟨rfl, fun _ _ he => by cases he⟩
  · dsimp only
    split
    · split <;> exact ⟨rfl, fun _ _ he => by cases he⟩
    · split
      · exact ⟨rfl, fun _ _ he => by cases he⟩
      · split <;> exact ⟨rfl, fun _ _ he => by cases he⟩

theorem checkSlug_stage (d : Directory) (slug requested : String) :
    (Pairing.checkSlug d slug requested).consumed = false ∧
      ∀ key next, Pairing.checkSlug d slug requested ≠ .taken key next := by
  unfold Pairing.checkSlug
  split <;> exact ⟨rfl, fun _ _ he => by cases he⟩

theorem answered_stage (message : String) : (Stage.answered false message).consumed = false ∧
    ∀ key next, Stage.answered false message ≠ .taken key next :=
  ⟨rfl, fun _ _ he => by cases he⟩

/-- An accept that has not taken its handle. -/
theorem Tracked.quiet (h : w.Tracked) {id : Nat} {c : Accept} (hid : w.calls.lookup id = some c)
    (hc : c.stage.consumed = false) : w.Quiet id := by
  have hok := h.stage id c hid
  unfold StageOk at hok
  cases hstage : c.stage with
  | viewed | checking | validated =>
    rw [hstage] at hok
    exact hok
  | taken =>
    rw [hstage] at hc
    cases hc
  | answered ok message =>
    rw [hstage] at hc hok
    cases ok with
    | false => exact hok
    | true => cases hc

theorem Tracked.register (h : w.Tracked) {handle : String} {key : KeyId} {target : Target}
    (hnone : w.channels.lookup handle = none) :
    Tracked { w with
      pairings := w.pairings.register handle ⟨key, target⟩
      channels := w.channels.insert handle { keyId := key } } := by
  have hlookup (handle' : String) : (w.channels.insert handle { keyId := key }).lookup handle' =
      if handle' = handle then some { keyId := key } else w.channels.lookup handle' :=
    Map.lookup_insert_ite ..
  have hne {id : Nat} {c : Accept} (hid : w.calls.lookup id = some c)
      (hc : c.stage.consumed = true) : c.req.handle ≠ handle := by
    intro he
    have hok := h.stage id c hid
    unfold StageOk at hok
    cases hstage : c.stage with
    | viewed | checking | validated =>
      rw [hstage] at hc
      cases hc
    | taken =>
      rw [hstage] at hok
      obtain ⟨⟨ch, hch, -⟩, -⟩ := hok
      rw [he, hnone] at hch
      cases hch
    | answered ok message =>
      rw [hstage] at hc hok
      cases ok with
      | false => cases hc
      | true =>
        obtain ⟨ch, _, _, _, hch, -⟩ := hok
        rw [he, hnone] at hch
        cases hch
  refine ⟨?_, ?_, h.alone, ?_, h.known⟩
  · intro handle' view hview
    change (w.pairings.register handle ⟨key, target⟩).byHandle.lookup handle' = some view at hview
    change ∃ ch, (w.channels.insert handle { keyId := key }).lookup handle' = some ch ∧ _
    rcases lookup_register hview with ⟨rfl, rfl⟩ | ⟨hother, hview⟩
    · exact ⟨_, (hlookup handle').trans (if_pos rfl), rfl, rfl⟩
    · rw [hlookup, if_neg hother]
      exact h.pending handle' view hview
  · intro id c hid hc
    refine Option.eq_none_iff_forall_ne_some.mpr fun view hview => ?_
    rcases lookup_register hview with ⟨he, -⟩ | ⟨-, hview⟩
    · exact hne hid hc he
    · rw [h.spent id c hid hc] at hview
      cases hview
  · intro id c hid
    refine (h.stage id c hid).mono (fun hq => hq) (fun e he => he) fun hc => .of_eq ?_
    exact (hlookup _).trans (if_neg (hne hid hc))

theorem Tracked.reject (h : w.Tracked) {handle : String} {view : PendingView}
    (hview : w.pairings.byHandle.lookup handle = some view) (message : ServerMessage) :
    ({ w with pairings := (w.pairings.remove handle).1 }.send handle message).Tracked := by
  set w₁ : World := { w with pairings := (w.pairings.remove handle).1 }
  obtain ⟨hcalls, hchanges, hpairings⟩ := w₁.send_rest handle message
  refine h.of_frame hcalls hchanges ?_ ?_
  · intro handle' view' hview'
    rw [hpairings] at hview'
    change (w.pairings.remove handle).1.byHandle.lookup handle' = some view' at hview'
    rw [lookup_remove] at hview'
    split at hview'
    · cases hview'
    · rename_i hne
      exact ⟨hview', .of_eq (w₁.send_channels handle message handle' hne)⟩
  · intro id c hid hc
    refine .of_eq (w₁.send_channels handle message _ ?_)
    intro he
    have hspent := h.spent id c hid hc
    rw [he, hview] at hspent
    cases hspent

theorem Tracked.unregister (h : w.Tracked) {handle : String} {ch : Waiting}
    (hch : w.channels.lookup handle = some ch) :
    Tracked { w with
      pairings := (w.pairings.remove handle).1
      channels := w.channels.insert handle { ch with open_ := false } } := by
  have hkept (handle' : String) : ChannelKept w { w with
      pairings := (w.pairings.remove handle).1
      channels := w.channels.insert handle { ch with open_ := false } } handle' := by
    intro ch' hch'
    by_cases he : handle' = handle
    · subst he
      cases hch.symm.trans hch'
      exact ⟨_, (Map.lookup_insert_ite ..).trans (if_pos rfl), rfl, rfl, fun _ => rfl⟩
    · exact ⟨ch', (Map.lookup_insert_ite ..).trans ((if_neg he).trans hch'), rfl, rfl, id⟩
  refine h.of_frame rfl rfl ?_ fun _ _ _ _ => hkept _
  intro handle' view hview
  change (w.pairings.remove handle).1.byHandle.lookup handle' = some view at hview
  rw [lookup_remove] at hview
  split at hview
  · cases hview
  · exact ⟨hview, hkept _⟩

theorem Tracked.finish (h : w.Tracked) {id : Nat} {c : Accept} {key : KeyId} {ok : Bool}
    {message : String} {outcome : ServerMessage} (hid : w.calls.lookup id = some c)
    (hstage : c.stage = .taken key (.closing ok message outcome)) :
    ((w.advance id c w.directory (.answered ok message)).send c.req.handle outcome).Tracked := by
  set w₁ := w.advance id c w.directory (.answered ok message)
  obtain ⟨hcalls, hchanges, hpairings⟩ := w₁.send_rest c.req.handle outcome
  have hconsumed : c.stage.consumed = true := by
    rw [hstage]
    rfl
  obtain ⟨hspent, hothers⟩ := h.others hid hconsumed
  have hlookup (id' : Nat) : w₁.calls.lookup id' =
      if id' = id then some { c with stage := .answered ok message } else w.calls.lookup id' :=
    Map.lookup_insert_ite ..
  have hok := h.stage id c hid
  rw [StageOk, hstage] at hok
  obtain ⟨⟨ch, hch, hkey, hreceived⟩, hnext⟩ := hok
  have hquiet : w.Quiet id → (w₁.send c.req.handle outcome).Quiet id := by
    intro hq
    rw [Quiet, hchanges]
    exact hq.advance (p := w.pairings)
  refine h.of_step id ?_ ?_ ?_ ?_ ?_ ?_ ?_
  · intro id' hid'
    rw [hcalls, hlookup, if_neg hid']
  · rw [hcalls, hlookup, if_pos rfl]
    rfl
  · intro e he
    rw [hchanges] at he
    rcases List.mem_cons.mp he with rfl | he
    · exact .inr rfl
    · exact .inl he
  · intro e he
    rw [hchanges]
    exact List.mem_cons_of_mem _ he
  · intro handle view hview
    rw [hpairings] at hview
    refine ⟨hview, .of_eq (w₁.send_channels _ outcome handle ?_)⟩
    intro he
    rw [he] at hview
    cases hspent.symm.trans hview
  · intro id' c' hne hid' hc'
    exact .of_eq (w₁.send_channels _ outcome _ (hothers id' c' hne hid' hc'))
  · intro c' hc'
    rw [hcalls, hlookup, if_pos rfl] at hc'
    cases hc'
    refine ⟨?_, fun _ => ⟨by rw [hpairings]; exact hspent, hothers⟩⟩
    unfold StageOk
    dsimp only
    cases ok with
    | false => exact hquiet hnext
    | true =>
      obtain ⟨machineId, person, name, rfl, hwrote⟩ := hnext
      obtain ⟨ch', hch', hkey', htold⟩ := send_channel (w := w₁)
        (.approved machineId person name) hch
      refine ⟨ch', machineId, person, name, hch', ?_, ?_⟩
      · rw [hkey', hkey]
        refine hwrote.mono fun e he => ?_
        rw [hchanges]
        exact List.mem_cons_of_mem _ he
      · rw [hreceived] at htold
        exact htold

theorem Tracked.take (h : w.Tracked) {id : Nat} {c : Accept} {approval : Approval}
    {view : PendingView} (hid : w.calls.lookup id = some c) (hstage : c.stage = .validated approval)
    (hview : w.pairings.byHandle.lookup c.req.handle = some view) :
    ({ w with pairings := (w.pairings.remove c.req.handle).1 }.advance id c w.directory
      (.taken view.keyId approval.apply)).Tracked := by
  have hc : c.stage.consumed = false := by
    rw [hstage]
    rfl
  have hq := h.quiet hid hc
  refine h.advance ?_ ?_ ?_
  · intro handle view' hview'
    rw [lookup_remove] at hview'
    split at hview'
    · cases hview'
    · exact hview'
  · obtain ⟨ch, hch, hkey, hreceived⟩ := h.pending _ view hview
    refine ⟨⟨ch, hch, hkey, hreceived⟩, apply_ok approval hq.advance⟩
  · intro _
    refine ⟨by rw [lookup_remove, if_pos rfl], fun id' c' _ hid' hc' he => ?_⟩
    have hspent := h.spent id' c' hid' hc'
    rw [he, hview] at hspent
    cases hspent

theorem Tracked.apply (h : w.Tracked) {id : Nat} {c : Accept} {d : Directory} {key : KeyId}
    {next next' : Applying} (hid : w.calls.lookup id = some c) (hstage : c.stage = .taken key next)
    (hnext : (w.advance id c d (.taken key next')).ApplyingOk id key next') :
    (w.advance id c d (.taken key next')).Tracked := by
  have hc : c.stage.consumed = true := by
    rw [hstage]
    rfl
  have hok := h.stage id c hid
  rw [StageOk, hstage] at hok
  exact h.advance (p := w.pairings) (fun _ _ hview => hview) ⟨hok.1, hnext⟩
    fun _ => h.others hid hc

theorem Tracked.step (h : w.Tracked) (hfollows : w.Follows a) (hstep : w.step text a = some w') :
    w'.Tracked := by
  cases a with
  | register handle key target =>
    simp only [step] at hstep
    split at hstep
    · cases hstep
    · rename_i hnone
      cases hstep
      exact h.register hnone
  | unregister handle =>
    simp only [step] at hstep
    split at hstep
    · cases hstep
    · rename_i ch hch
      cases hstep
      exact h.unregister hch
  | reject handle =>
    simp only [step] at hstep
    have hview := remove_snd w.pairings handle
    split at hstep
    · cases hstep
      exact h
    · rename_i pairings view hremove
      rw [hremove] at hview
      cases hstep
      have hpairings : (w.pairings.remove handle).1 = pairings := by rw [hremove]
      rw [← hpairings]
      exact h.reject hview.symm _
  | accept id account req =>
    simp only [step] at hstep
    split at hstep
    · cases hstep
    · rename_i hid
      cases hstep
      refine h.advance_quiet ?_ ?_
      · intro e he hcall
        have hknown := h.known e he
        rw [hcall, hid] at hknown
        cases hknown
      · split
        · exact answered_stage _
        · exact ⟨rfl, fun _ _ he => by cases he⟩
  | readPerson id fails =>
    simp only [step] at hstep
    split at hstep
    · cases hstep
    · rename_i c hid
      split at hstep
      · rename_i target hstage
        cases hstep
        refine h.advance_quiet (h.quiet hid (by rw [hstage]; rfl)) ?_
        split
        · exact answered_stage _
        · exact validate_stage ..
      · cases hstep
  | checkSlug id fails =>
    simp only [step] at hstep
    split at hstep
    · cases hstep
    · rename_i c hid
      split at hstep
      · rename_i slug requested hstage
        cases hstep
        refine h.advance_quiet (h.quiet hid (by rw [hstage]; rfl)) ?_
        split
        · exact answered_stage _
        · exact checkSlug_stage ..
      · cases hstep
  | take id =>
    simp only [step] at hstep
    split at hstep
    · cases hstep
    · rename_i c hid
      split at hstep
      · rename_i approval hstage
        have hview := remove_snd w.pairings c.req.handle
        split at hstep
        · cases hstep
          exact h.advance_quiet (h.quiet hid (by rw [hstage]; rfl)) (answered_stage _)
        · rename_i pairings view hremove
          rw [hremove] at hview
          cases hstep
          have hpairings : (w.pairings.remove c.req.handle).1 = pairings := by rw [hremove]
          rw [← hpairings]
          exact h.take hid hstage hview.symm
      · cases hstep
  | read id fails =>
    simp only [step] at hstep
    split at hstep
    · cases hstep
    · rename_i c hid
      split at hstep
      · rename_i key next hstage
        obtain ⟨next', hread, rfl⟩ := Option.map_eq_some_iff.mp hstep
        have hok := h.stage id c hid
        rw [StageOk, hstage] at hok
        have hnext : w.ApplyingOk id key next := hok.2
        have hnext' := hnext.read (fun person requested first hnaming => by
          have hf := hfollows c hid
          rw [hstage, hnaming] at hf
          exact (Bool.not_eq_true' fails).mp hf) hread
        exact h.apply hid hstage (hnext'.mono (fun hq => hq.advance (p := w.pairings))
          fun e he => List.mem_cons_of_mem _ he)
      · cases hstep
  | write id fails now =>
    simp only [step] at hstep
    split at hstep
    · cases hstep
    · rename_i c hid
      split at hstep
      · rename_i key next hstage
        obtain ⟨e, hwrite, rfl⟩ := Option.map_eq_some_iff.mp hstep
        have hok := h.stage id c hid
        rw [StageOk, hstage] at hok
        have hnext : w.ApplyingOk id key next := hok.2
        exact h.apply hid hstage (hnext.write (fun person name hinserting => by
          have hf := hfollows c hid
          rw [hstage, hinserting] at hf
          simpa only [Stage.writeFollows, Bool.and_eq_true, Bool.not_eq_true',
            Option.isNone_iff_eq_none, and_assoc] using hf) hwrite)
      · cases hstep
  | finish id =>
    simp only [step] at hstep
    split at hstep
    · cases hstep
    · rename_i c hid
      split at hstep
      · rename_i key ok message outcome hstage
        cases hstep
        exact h.finish hid hstage
      · cases hstep
  | revokeMachine key now =>
    cases hstep
    exact h.of_frame rfl rfl (fun _ _ hview => ⟨hview, .of_eq rfl⟩) fun _ _ _ _ => .of_eq rfl
  | renameMachine machineId name =>
    simp only [step] at hstep
    split at hstep
    · cases hstep
      exact h
    · cases hstep
      exact h.of_frame rfl rfl (fun _ _ hview => ⟨hview, .of_eq rfl⟩) fun _ _ _ _ => .of_eq rfl
  | deleteAccount account =>
    cases hstep
    exact h.of_frame rfl rfl (fun _ _ hview => ⟨hview, .of_eq rfl⟩) fun _ _ _ _ => .of_eq rfl

/-- When the machine of a new person can always be created, refused accepts change nothing. -/
theorem pair_accept_answers {init : World} {acts : List Act} (hinit : init.Initial)
    (hfollows : Meets (World.step text) Follows init acts)
    (hrun : init.run text acts = some w) : w.Answers :=
  (run_invariant_of_meets (I := Tracked) (fun h hf hs => h.step hf hs) hfollows hinit.tracked
    hrun).answers

namespace Sample

def asText : TextFns := ⟨id, id⟩

/-- `ann` accepts a pairing; her account has no person yet. -/
def accept : Act := .accept 0 1 ⟨"h", "ann", ""⟩

def accepted : List Act :=
  [.register "h" (Plane.Sample.keyId 1) (.new "laptop"), accept, .readPerson 0 false,
    .checkSlug 0 false, .take 0, .write 0 false 10, .read 0 false, .write 0 false 10, .finish 0]

/-- The same key is paired by the account 2 once the person of `ann` is created. -/
def raced : List Act :=
  accepted.take 6 ++ [.register "i" (Plane.Sample.keyId 1) (.new "laptop"),
    .accept 1 2 ⟨"i", "bob", ""⟩, .readPerson 1 false, .checkSlug 1 false, .take 1,
    .write 1 false 10, .read 1 false, .write 1 false 10, .finish 1] ++ accepted.drop 6

theorem initial : Initial {} where
  pairings := fun _ => rfl
  calls := fun _ => rfl
  changes := rfl

end Sample

theorem pair_accept_answers_ann : ∃ w, run Sample.asText {} Sample.accepted = some w ∧
    (w.channels.lookup "h").map (·.received) = some [.approved 1 "ann" "laptop"] ∧ w.Answers := by
  have hfollows : Meets (World.step Sample.asText) Follows {} Sample.accepted := by decide +kernel
  obtain ⟨w, hrun, hw⟩ := (Option.any_eq_true (fun w : World =>
    (w.channels.lookup "h").map (·.received) = some [.approved 1 "ann" "laptop"])
      (run Sample.asText {} Sample.accepted)).mp (by decide +kernel)
  exact ⟨w, hrun, of_decide_eq_true hw, pair_accept_answers Sample.initial hfollows hrun⟩

/-- The accept of `ann` is refused, and her person stays. -/
theorem pair_accept_leaves_person : ¬∀ (text : TextFns) (w w' : World) (acts : List Act),
    w.Initial → w.run text acts = some w' → w'.Answers := by
  intro h
  obtain ⟨w, hrun, hw⟩ := (Option.any_eq_true (fun w : World => w.changes.any fun e =>
    e.call = 0 && e.before.persons.next ≠ e.after.persons.next &&
      (w.calls.lookup 0).any fun c => c.stage = .answered false couldNotPair)
      (run Sample.asText {} Sample.raced)).mp (by decide +kernel)
  obtain ⟨e, he, hall⟩ := List.any_eq_true.mp hw
  simp only [Bool.and_eq_true, decide_eq_true_eq] at hall
  obtain ⟨⟨hcall, hnext⟩, hanswer⟩ := hall
  obtain ⟨c, hc, hstage⟩ := (Option.any_eq_true ..).mp hanswer
  have hsame := (h _ _ w _ Sample.initial hrun).refused 0 c _ hc (of_decide_eq_true hstage) e he
    hcall
  rw [hsame] at hnext
  exact hnext rfl

end World

end Pairing

end TunnelWeaver.Server
