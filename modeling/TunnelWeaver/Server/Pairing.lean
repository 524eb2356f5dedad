import TunnelWeaver.Lib.Map
import TunnelWeaver.Server.Hostnames

/-! Pairing a machine (`account/pairing.rs`, `pair_accept` of `account/router.rs`): the pending
pairings, the names proposed for a new machine, and the acceptance of a pairing, whose reads and
writes are separate steps. Between them other pairings are opened and accepted, and machines are
renamed and revoked. -/

namespace TunnelWeaver.Server

open Automaton
open Mux (KeyId)
open Proto (toAsciiLowercase)

/-! ## Names -/

/-- `str::trim` and `str::to_lowercase`. -/
structure TextFns where
  trim : String → String
  toLowercase : String → String

def isNameChar (c : Char) : Bool := c.isLower || c.isDigit

/-- The accented letters, and the ASCII letter each carries in a slug. -/
def foldTable : List (List Char × Char) :=
  [(['à', 'á', 'â', 'ã', 'ä', 'å', 'ā', 'ă', 'ą'], 'a'), (['ç', 'ć', 'č'], 'c'),
    (['è', 'é', 'ê', 'ë', 'ē', 'ĕ', 'ė', 'ę', 'ě'], 'e'), (['ì', 'í', 'î', 'ï', 'ī', 'į'], 'i'),
    (['ñ', 'ń', 'ň'], 'n'), (['ò', 'ó', 'ô', 'õ', 'ö', 'ø', 'ō', 'ő'], 'o'),
    (['ù', 'ú', 'û', 'ü', 'ū', 'ů', 'ű', 'ų'], 'u'), (['ý', 'ÿ'], 'y'), (['ß'], 's'), (['æ'], 'a'),
    (['œ'], 'o')]

def foldAscii (c : Char) : Option Char :=
  if isNameChar c then some c else (foldTable.find? fun row => c ∈ row.1).map (·.2)

def slugify (text : TextFns) (raw fallback : String) : String :=
  match ((text.toLowercase raw).toList.filterMap foldAscii).take personMachineMax with
  | [] => fallback
  | out => .ofList out

def slugifyMachine (text : TextFns) (rawHostname : String) : String :=
  slugify text rawHostname "machine"

/-- The names to try for `base`: itself, then with the suffixes 2, 3, … (a `u32`). -/
def candidate (base : String) (n : Nat) : String :=
  if n = 0 then base
  else
    let suffix := toString ((n + 1) % 2 ^ 32)
    .ofList (base.toList.take (personMachineMax - suffix.length)) ++ suffix

def nameProbeBatch : Nat := 16

/-- One probe of `first_free_name`: the first free one of a batch of candidates. -/
def probe (d : Directory) (person : Nat) (base : String) (first : Nat) : Option String :=
  ((List.range nameProbeBatch).map fun i => candidate base (first + i)).find? fun name =>
    (d.machines.find? fun _ m => m.personId = person && m.name = name).isNone

theorem utf8Len_of_isNameChar {l : List Char} (h : ∀ c ∈ l, isNameChar c) :
    String.utf8Len l = l.length := by
  induction l with
  | nil => rfl
  | cons c l ih =>
    obtain ⟨hc, hl⟩ := List.forall_mem_cons.mp h
    have hsize : c.utf8Size = 1 := by
      rw [Char.utf8Size_eq_one_iff, UInt32.le_iff_toNat_le]
      simp only [isNameChar, Char.isLower, Char.isDigit, Bool.or_eq_true, Bool.and_eq_true,
        decide_eq_true_eq, ge_iff_le, UInt32.le_iff_toNat_le] at hc
      rcases hc with hc | hc
      · exact Nat.le_trans hc.2 (by decide)
      · exact Nat.le_trans hc.2 (by decide)
    rw [String.utf8Len_cons, ih hl, hsize, List.length_cons]

theorem isValid_ofList {l : List Char} (hne : l ≠ []) (hlen : l.length ≤ personMachineMax)
    (h : ∀ c ∈ l, isNameChar c) : isValidPersonOrMachine (.ofList l) = true := by
  simp only [isValidPersonOrMachine, Bool.and_eq_true, decide_eq_true_eq, List.all_eq_true]
  refine ⟨⟨?_, ?_⟩, ?_⟩
  · intro he
    exact hne (by simpa using congrArg String.toList he)
  · rw [String.utf8ByteSize_ofList, utf8Len_of_isNameChar h]
    exact hlen
  · simpa [isNameChar] using h

theorem toAsciiLowercase_of_isNameChar {name : String} (h : ∀ c ∈ name.toList, isNameChar c) :
    toAsciiLowercase name = name := by
  apply String.toList_inj.mp
  simp only [toAsciiLowercase, String.toList_map]
  rw [List.map_congr_left (g := id), List.map_id]
  intro c hc
  refine Char.toLower_eq_of_not_isUpper fun hup => ?_
  rcases (Bool.or_eq_true ..).mp (h c hc) with hlow | hdigit
  · exact Char.not_isUpper_of_isLower hlow hup
  · simp only [Char.isUpper, Char.isDigit, Bool.and_eq_true, decide_eq_true_eq,
      ge_iff_le, UInt32.le_iff_toNat_le] at hup hdigit
    exact absurd (Nat.le_trans hup.1 hdigit.2) (by decide)

theorem isNameChar_foldAscii {c c' : Char} (h : foldAscii c = some c') : isNameChar c' = true := by
  unfold foldAscii at h
  split at h
  · rename_i hc
    cases h
    exact hc
  · obtain ⟨row, hrow, rfl⟩ := Option.map_eq_some_iff.mp h
    have htable : ∀ row ∈ foldTable, isNameChar row.2 = true := by decide
    exact htable row (List.mem_of_find?_eq_some hrow)

theorem isNameChar_toString (n : Nat) : ∀ c ∈ (toString n).toList, isNameChar c := by
  intro c hc
  rw [Nat.toString_eq_repr, Nat.toList_repr] at hc
  rw [isNameChar, Nat.isDigit_of_mem_toDigits (by decide) (by decide) hc, Bool.or_true]

/-- A base to derive names from. -/
structure IsBase (base : String) : Prop where
  ne : base ≠ ""
  length : base.toList.length ≤ personMachineMax
  chars : ∀ c ∈ base.toList, isNameChar c

theorem isBase_machine : IsBase "machine" := by
  have hlist : "machine".toList = ['m', 'a', 'c', 'h', 'i', 'n', 'e'] := String.toList_ofList
  refine ⟨by decide, ?_, ?_⟩
  · rw [hlist]
    decide
  · rw [hlist]
    simp [isNameChar, Char.isLower]

theorem isBase_slugify (text : TextFns) (raw : String) {fallback : String} (h : IsBase fallback) :
    IsBase (slugify text raw fallback) := by
  unfold slugify
  generalize hout : ((text.toLowercase raw).toList.filterMap foldAscii).take personMachineMax = out
  cases out with
  | nil => exact h
  | cons c out =>
    refine ⟨?_, ?_, ?_⟩
    · intro he
      simpa using congrArg String.toList he
    · have hlen := congrArg List.length hout
      rw [List.length_take] at hlen
      rw [String.toList_ofList, ← hlen]
      exact Nat.min_le_left ..
    · intro c' hc'
      rw [String.toList_ofList, ← hout] at hc'
      obtain ⟨c₀, -, hc₀⟩ := List.mem_filterMap.mp (List.mem_of_mem_take hc')
      exact isNameChar_foldAscii hc₀

theorem isBase_slugifyMachine (text : TextFns) (raw : String) : IsBase (slugifyMachine text raw) :=
  isBase_slugify text raw isBase_machine

/-- A base is a name that a person or a machine may have. -/
theorem IsBase.isValid {base : String} (h : IsBase base) : isValidPersonOrMachine base = true := by
  rw [← String.ofList_toList (s := base)]
  exact isValid_ofList (fun he => h.ne (String.toList_inj.mp he)) h.length h.chars

/-- Every candidate is a base again. -/
theorem IsBase.isBase_candidate {base : String} (h : IsBase base) (n : Nat) :
    IsBase (candidate base n) := by
  unfold candidate
  split
  · exact h
  · refine ⟨fun he => by simpa using congrArg String.toList he, ?_, fun c hc => ?_⟩
    · have hlen : (toString ((n + 1) % 2 ^ 32)).length ≤ 10 := by
        rw [Nat.toString_eq_repr, Nat.length_repr_le_iff (by decide)]
        exact Nat.lt_of_lt_of_le (Nat.mod_lt _ (by decide)) (by decide)
      simp only [String.toList_append, String.toList_ofList, List.length_append, List.length_take,
        String.length_toList, personMachineMax]
      omega
    · rw [String.toList_append, String.toList_ofList] at hc
      rcases List.mem_append.mp hc with hc | hc
      · exact h.chars c (List.mem_of_mem_take hc)
      · exact isNameChar_toString _ c hc

/-- Every candidate is a name that a machine may have. -/
theorem IsBase.isValid_candidate {base : String} (h : IsBase base) (n : Nat) :
    isValidPersonOrMachine (toAsciiLowercase (candidate base n)) = true := by
  rw [toAsciiLowercase_of_isNameChar (h.isBase_candidate n).chars]
  exact (h.isBase_candidate n).isValid

namespace Pairing

/-! ## Pending pairings -/

inductive Target
  | existing (machineId : Nat)
  | new (hostname : String)
  deriving DecidableEq

inductive FailureCode
  | unavailable
  | rejected
  | notYourMachine
  deriving DecidableEq

/-- The outcomes a waiting client is told. -/
inductive ServerMessage
  | approved (machineId : Nat) (person machine : String)
  | failed (code : FailureCode) (message : String)
  deriving DecidableEq

structure PendingView where
  keyId : KeyId
  target : Target
  deriving DecidableEq

structure Pairings where
  byHandle : Map String PendingView := ∅
  /-- At most one pending pairing per key. -/
  handleByKey : Map KeyId String := ∅

namespace Pairings

/-- `Pairings::register`: an earlier pairing of the key is superseded. -/
def register (p : Pairings) (handle : String) (view : PendingView) : Pairings where
  byHandle := (match p.handleByKey.lookup view.keyId with
    | some previous => p.byHandle.erase previous
    | none => p.byHandle).insert handle view
  handleByKey := p.handleByKey.insert view.keyId handle

/-- `Inner::remove`, behind `take` and `unregister`. -/
def remove (p : Pairings) (handle : String) : Pairings × Option PendingView :=
  match p.byHandle.lookup handle with
  | none => (p, none)
  | some view =>
    ({ byHandle := p.byHandle.erase handle
       handleByKey := if p.handleByKey.lookup view.keyId = some handle
         then p.handleByKey.erase view.keyId else p.handleByKey }, some view)

end Pairings

/-- The channel of a waiting client. -/
structure Waiting where
  keyId : KeyId
  /-- It has not been closed. -/
  open_ : Bool := true
  received : List ServerMessage := []
  deriving DecidableEq

/-! ## Accepting a pairing -/

structure AcceptRequest where
  handle : String
  personSlug : String
  machineName : String
  deriving DecidableEq

inductive Owner
  /-- The person row, by its id. -/
  | existing (id : Nat) (name : String)
  | new (slug : String)
  deriving DecidableEq

/-- What an accepted pairing does. -/
inductive Approval
  | rekey (person : Option (Nat × String)) (machineId : Nat)
  | new (owner : Owner) (requested : String)
  deriving DecidableEq

/-- How far `approve` is. -/
inductive Applying
  /-- To re-check that the person owns the machine. -/
  | owning (person : Nat × String) (machineId : Nat)
  | rekeying (person : Nat × String) (machineId : Nat)
  | creating (slug requested : String)
  /-- `created` is whether the person is new; the candidates before `first` are taken. -/
  | naming (person : Nat × String) (created : Bool) (requested : String) (first : Nat)
  | inserting (person : Nat × String) (created : Bool) (name : String)
  | closing (ok : Bool) (message : String) (outcome : ServerMessage)
  deriving DecidableEq

inductive Stage
  | viewed (target : Target)
  | checking (slug requested : String)
  | validated (approval : Approval)
  /-- The handle is consumed. -/
  | taken (key : KeyId) (next : Applying)
  | answered (ok : Bool) (message : String)
  deriving DecidableEq

/-- The accept has taken its handle and is not refused. -/
def Stage.consumed : Stage → Bool
  | .taken .. => true
  | .answered ok _ => ok
  | _ => false

/-- A read does not fail once the person is created. -/
def Stage.readFollows (fails : Bool) : Stage → Bool
  | .taken _ (.naming _ true _ _) => !fails
  | _ => true

/-- Once the person is created its machine is not refused: the person is there, and neither the key
nor the name is held. -/
def Stage.writeFollows (d : Directory) (fails : Bool) : Stage → Bool
  | .taken key (.inserting person true name) =>
    !fails && (d.persons.get? person.1).isSome && (d.machines.find? fun _ m =>
      m.keyId = key || (m.personId = person.1 && m.name = toAsciiLowercase name)).isNone
  | _ => true

def noLongerWaiting : String := "This pairing request is no longer waiting."

def notYourMachine : String := "That machine does not belong to this account."

def couldNotPair : String := "Could not pair this machine. Try again."

def Applying.unavailable : Applying :=
  .closing false couldNotPair (.failed .unavailable couldNotPair)

def Applying.notYours : Applying :=
  .closing false notYourMachine (.failed .notYourMachine notYourMachine)

/-- The request against the pending pairing, once the person of the account is read. -/
def validate (text : TextFns) (req : AcceptRequest) (target : Target)
    (person : Option (Nat × PersonRow)) : Stage :=
  match target with
  | .existing machineId =>
    if req.personSlug ≠ "" || req.machineName ≠ "" then
      .answered false "A machine that moves onto a new key keeps its names."
    else .validated (.rekey (person.map fun p => (p.1, p.2.name)) machineId)
  | .new hostname =>
    let requested := if req.machineName = "" then hostname else req.machineName
    match person with
    | some (id, existing) =>
      if req.personSlug ≠ "" then
        .answered false ("This account's person name is already '" ++ existing.name ++
          "' and cannot be changed here.")
      else .validated (.new (.existing id existing.name) requested)
    | none =>
      let slug := toAsciiLowercase (text.trim req.personSlug)
      if req.personSlug = "" then .answered false "Choose a person name."
      else if !isValidPersonOrMachine slug then
        .answered false "A person name is 1 to 15 lowercase letters or digits."
      else .checking slug requested

/-- `validate_person_slug`: nobody has the name. -/
def checkSlug (d : Directory) (slug requested : String) : Stage :=
  match d.persons.find? fun _ p => p.name = slug with
  | some _ => .answered false ("The person name '" ++ slug ++ "' is taken. Choose another.")
  | none => .validated (.new (.new slug) requested)

/-- `approve`, up to its first store call. -/
def Approval.apply : Approval → Applying
  | .rekey none _ => .notYours
  | .rekey (some person) machineId => .owning person machineId
  | .new (.existing id name) requested => .naming (id, name) false requested 0
  | .new (.new slug) requested => .creating slug requested

/-- A read of `approve`. -/
def Applying.read (text : TextFns) (d : Directory) (fails : Bool) : Applying → Option Applying
  | .owning person machineId =>
    some (if fails then unavailable
      else match d.ownedMachine person.1 machineId with
        | none => notYours
        | some _ => .rekeying person machineId)
  | .naming person created requested first =>
    some (if fails then unavailable
      else match probe d person.1 (slugifyMachine text requested) first with
        | some name => .inserting person created name
        | none => .naming person created requested (first + nameProbeBatch))
  | _ => none

def approved (person : Nat × String) (machineId : Nat) (machine : String) : Applying :=
  .closing true "" (.approved machineId person.2 machine)

/-- A write of `approve`. -/
def Applying.write (d : Directory) (account : Nat) (key : KeyId) (fails : Bool) (now : Int) :
    Applying → Option (Directory × Applying)
  | .rekeying person machineId =>
    if fails then some (d, unavailable)
    else match d.replaceMachineKey machineId key now with
      | .error _ => some (d, unavailable)
      | .ok d' => some (d', approved person machineId
          (((d.machines.get? machineId).map (·.name)).getD ""))
  | .creating slug requested =>
    if fails then some (d, unavailable)
    else match d.createPerson account slug with
      | .error _ => some (d, unavailable)
      | .ok d' => some (d', .naming (d.persons.next, toAsciiLowercase slug) true requested 0)
  | .inserting person _ name =>
    if fails then some (d, unavailable)
    else match d.createMachine person.1 name key now with
      | .error _ => some (d, unavailable)
      | .ok d' => some (d', approved person d.machines.next (toAsciiLowercase name))
  | _ => none

/-! ## Interleaved pairings -/

structure Accept where
  account : Nat
  req : AcceptRequest
  stage : Stage
  deriving DecidableEq

/-- The tables before and after a step of an accept. -/
structure Change where
  call : Nat
  before : Directory
  after : Directory

structure World where
  directory : Directory := {}
  pairings : Pairings := {}
  channels : Map String Waiting := ∅
  calls : Map Nat Accept := ∅
  /-- The steps the accepts took. -/
  changes : List Change := []

inductive Act
  /-- A client opens a pairing; the handle is random. -/
  | register (handle : String) (key : KeyId) (target : Target)
  /-- The channel of a client closes. -/
  | unregister (handle : String)
  | reject (handle : String)
  /-- The accept of a signed-in account looks the handle up. -/
  | accept (id : Nat) (account : Nat) (req : AcceptRequest)
  | readPerson (id : Nat) (fails : Bool)
  | checkSlug (id : Nat) (fails : Bool)
  | take (id : Nat)
  | read (id : Nat) (fails : Bool)
  | write (id : Nat) (fails : Bool) (now : Int)
  | finish (id : Nat)
  | revokeMachine (key : KeyId) (now : Int)
  | renameMachine (machineId : Nat) (name : String)
  | deleteAccount (account : Nat)
  deriving DecidableEq

namespace World

/-- A step of the accept `id`. -/
def advance (w : World) (id : Nat) (c : Accept) (d : Directory) (stage : Stage) : World :=
  { w with
    directory := d
    calls := w.calls.insert id { c with stage }
    changes := ⟨id, w.directory, d⟩ :: w.changes }

/-- `Taken::finish`: a client that stopped waiting is not told. -/
def send (w : World) (handle : String) (message : ServerMessage) : World :=
  match w.channels.lookup handle with
  | some ch =>
    if ch.open_ then
      { w with channels := w.channels.insert handle { ch with received := ch.received ++ [message] } }
    else w
  | none => w

def rejected : String := "The pairing request was rejected in the browser."

def removeMachines (d : Directory) (account : Nat) : Directory :=
  let gone := fun person => (d.persons.get? person).any fun p => p.accountId = account
  let d' := d.deleteServices fun machine => (d.machines.get? machine).any fun m => gone m.personId
  { d' with
    persons := d.persons.delete fun _ p => p.accountId = account
    machines := d.machines.delete fun _ m => gone m.personId }

variable (text : TextFns)

def step (w : World) : Act → Option World
  | .register handle key target =>
    match w.channels.lookup handle with
    | some _ => none
    | none => some { w with
        pairings := w.pairings.register handle ⟨key, target⟩
        channels := w.channels.insert handle { keyId := key } }
  | .unregister handle =>
    match w.channels.lookup handle with
    | none => none
    | some ch => some { w with
        pairings := (w.pairings.remove handle).1
        channels := w.channels.insert handle { ch with open_ := false } }
  | .reject handle =>
    match w.pairings.remove handle with
    | (_, none) => some w
    | (pairings, some _) =>
      some ({ w with pairings }.send handle (.failed .rejected rejected))
  | .accept id account req =>
    match w.calls.lookup id with
    | some _ => none
    | none =>
      let stage := match w.pairings.byHandle.lookup req.handle with
        | none => .answered false noLongerWaiting
        | some view => .viewed view.target
      some (w.advance id ⟨account, req, stage⟩ w.directory stage)
  | .readPerson id fails =>
    match w.calls.lookup id with
    | none => none
    | some c => match c.stage with
      | .viewed target => some (w.advance id c w.directory
          (if fails then .answered false couldNotPair
            else validate text c.req target (w.directory.personByAccount c.account)))
      | _ => none
  | .checkSlug id fails =>
    match w.calls.lookup id with
    | none => none
    | some c => match c.stage with
      | .checking slug requested => some (w.advance id c w.directory
          (if fails then .answered false couldNotPair
            else Pairing.checkSlug w.directory slug requested))
      | _ => none
  | .take id =>
    match w.calls.lookup id with
    | none => none
    | some c => match c.stage with
      | .validated approval => match w.pairings.remove c.req.handle with
        | (_, none) => some (w.advance id c w.directory (.answered false noLongerWaiting))
        | (pairings, some view) =>
          some ({ w with pairings }.advance id c w.directory (.taken view.keyId approval.apply))
      | _ => none
  | .read id fails =>
    match w.calls.lookup id with
    | none => none
    | some c => match c.stage with
      | .taken key next =>
        (next.read text w.directory fails).map fun next =>
          w.advance id c w.directory (.taken key next)
      | _ => none
  | .write id fails now =>
    match w.calls.lookup id with
    | none => none
    | some c => match c.stage with
      | .taken key next =>
        (next.write w.directory c.account key fails now).map fun e =>
          w.advance id c e.1 (.taken key e.2)
      | _ => none
  | .finish id =>
    match w.calls.lookup id with
    | none => none
    | some c => match c.stage with
      | .taken _ (.closing ok message outcome) =>
        some ((w.advance id c w.directory (.answered ok message)).send c.req.handle outcome)
      | _ => none
  | .revokeMachine key now => some { w with directory := w.directory.revokeMachine key now }
  | .renameMachine machineId name =>
    match w.directory.renameMachine machineId name with
    | .error _ => some w
    | .ok (directory, _) => some { w with directory }
  | .deleteAccount account =>
    some { w with directory := removeMachines w.directory account }

def run (w : World) (acts : List Act) : Option World := Automaton.run (step text) w acts

end World

end Pairing

end TunnelWeaver.Server
