import TunnelWeaver.Lib.Table
import TunnelWeaver.Mux.Wire
import TunnelWeaver.Proto.Policy

/-! The relays a client is paired with (`weave/src/host.rs`, `weave/src/store/mod.rs`): one row a
relay, found by the canonical spelling of its admin host. The table is written by one process at a
time; the database errors are answers of the caller. -/

namespace TunnelWeaver.Client

open Mux (KeyId)
open Proto.Policy (trim)

/-! ## Admin hosts -/

/-- Why an admin host was refused. -/
structure HostError where
  input : String
  reason : String
  deriving DecidableEq

structure AdminHost where
  host : String
  port : Nat
  deriving DecidableEq

/-- `str::strip_prefix`. -/
def stripPrefix (p l : List Char) : Option (List Char) :=
  if p.isPrefixOf l then some (l.drop p.length) else none

/-- `str::strip_suffix` at one character. -/
def stripSuffix (c : Char) (l : List Char) : Option (List Char) :=
  if l.getLast? = some c then some l.dropLast else none

/-- `str::rsplit_once`. -/
def rsplitOnce (c : Char) (l : List Char) : Option (List Char × List Char) :=
  match l.reverse.dropWhile (· ≠ c) with
  | [] => none
  | _ :: before => some (before.reverse, (l.reverse.takeWhile (· ≠ c)).reverse)

/-- `u16::from_str`. -/
def parseU16 (l : List Char) : Option Nat :=
  let digits := (stripPrefix ['+'] l).getD l
  let n := digits.foldl (fun n c => 10 * n + (c.toNat - '0'.toNat)) 0
  if digits ≠ [] ∧ digits.all Char.isDigit ∧ n < 2 ^ 16 then some n else none

namespace AdminHost

/-- The host and the port, once the scheme and the slash are stripped. -/
def parseBare (raw : String) (bare : List Char) : Except HostError AdminHost :=
  let finish (host : List Char) (port : Nat) : Except HostError AdminHost :=
    match ((stripSuffix '.' host).getD host).map Char.toLower with
    | [] => .error ⟨raw, "it has no host name"⟩
    | host => .ok ⟨.ofList host, port⟩
  match rsplitOnce ':' bare with
  | none => finish bare 443
  | some (host, port) => match parseU16 port with
    | none => .error ⟨raw, "the port is not a number"⟩
    | some port => finish host port

def parse (raw : String) : Except HostError AdminHost :=
  let trimmed := trim raw.toList
  let bare := (stripPrefix "https://".toList trimmed).getD trimmed
  let bare := (stripSuffix '/' bare).getD bare
  if bare.tails.any ("://".toList.isPrefixOf ·) then
    .error ⟨raw, "only https:// relays are supported"⟩
  else if '/' ∈ bare then .error ⟨raw, "give just the host, e.g. relay.example.com"⟩
  else parseBare raw bare

/-- `fmt::Display`. -/
def toString (a : AdminHost) : String :=
  if a.port = 443 then a.host else a.host ++ ":" ++ a.port.repr

end AdminHost

/-- The canonical spelling of a relay admin host. -/
def normalizeAdminHost (raw : String) : Except HostError String :=
  (AdminHost.parse raw).map AdminHost.toString

/-! ## Paired relays -/

structure Relay where
  adminHost : String
  machineId : Int
  keyId : KeyId
  isDefault : Bool

abbrev Relays := Table Relay

namespace Relays

variable (t : Relays)

def findHost (adminHost : String) : Option (Nat × Relay) :=
  t.find? fun _ r => r.adminHost = adminHost

def findDefault : Option (Nat × Relay) := t.find? fun _ r => r.isDefault

/-- `Store::relay`. -/
def relay (adminHost : String) : Except HostError (Option (Nat × Relay)) :=
  (normalizeAdminHost adminHost).map t.findHost

/-- The oldest relay becomes the default. -/
def promote : Relays × Option Relay :=
  match t.rows.head? with
  | none => (t, none)
  | some (id, next) =>
    (t.set id { next with isDefault := true }, some { next with isDefault := true })

/-- `Store::forget`, which returns the relay that became the default. -/
def forget (adminHost : String) : Except HostError (Relays × Option Relay) :=
  (normalizeAdminHost adminHost).map fun adminHost =>
    match t.findHost adminHost with
    | none => (t, none)
    | some (id, removed) =>
      let rest := t.delete fun i _ => i = id
      if removed.isDefault then Relays.promote rest else (rest, none)

/-- `admin_host` is unique, and stored in its canonical spelling. -/
structure HostsCanonical : Prop where
  unique : ∀ i j r r', t.get? i = some r → t.get? j = some r' → r.adminHost = r'.adminHost → i = j
  canonical : ∀ i r, t.get? i = some r → normalizeAdminHost r.adminHost = .ok r.adminHost

variable {t} {id : Nat} {r : Relay}

theorem findHost_eq (hhosts : HostsCanonical t) (h : t.get? id = some r) :
    findHost t r.adminHost = some (id, r) := by
  cases hfind : findHost t r.adminHost with
  | none =>
    have hnot := Table.find?_eq_none.mp hfind h
    simp at hnot
  | some e =>
    obtain ⟨hget, hhost⟩ := Table.find?_some hfind
    obtain ⟨i, r'⟩ := e
    obtain rfl := hhosts.unique i id r' r hget h (of_decide_eq_true hhost)
    exact congrArg (fun r => some (i, r)) (Option.some.inj (hget.symm.trans h))

theorem get?_of_relay {adminHost : String} (h : relay t adminHost = .ok (some (id, r))) :
    t.get? id = some r := by
  unfold relay at h
  cases hhost : normalizeAdminHost adminHost with
  | error e =>
    rw [hhost] at h
    cases h
  | ok host =>
    rw [hhost] at h
    exact (Table.find?_some (Except.ok.inj h)).1

theorem get?_promote (t : Relays) (i : Nat) :
    ((promote t).1.get? i).isSome = (t.get? i).isSome := by
  unfold promote
  split
  · rfl
  · rw [Table.get?_set]
    split
    · rw [Option.isSome_map]
    · rfl

/-- Forgetting a paired relay deletes its row, and no other. -/
theorem forget_eq (hhosts : HostsCanonical t) (h : t.get? id = some r) :
    ∃ t' next, forget t r.adminHost = .ok (t', next) ∧
      ∀ i, (t'.get? i).isSome = (decide (i ≠ id) && (t.get? i).isSome) := by
  have hdelete (i : Nat) : ((t.delete fun i _ => i = id).get? i).isSome =
      (decide (i ≠ id) && (t.get? i).isSome) := by
    rw [Table.get?_delete]
    cases t.get? i <;> by_cases hi : i = id <;> simp [Option.filter, hi]
  have hforget : forget t r.adminHost = .ok (if r.isDefault then
      promote (t.delete fun i _ => i = id) else (t.delete fun i _ => i = id, none)) := by
    simp only [forget, hhosts.canonical id r h, Except.map, findHost_eq hhosts h]
  cases hdefault : r.isDefault with
  | true =>
    rw [hdefault, if_pos rfl] at hforget
    refine ⟨(promote (t.delete fun i _ => i = id)).1, _, hforget, fun i => ?_⟩
    rw [get?_promote, hdelete]
  | false =>
    rw [hdefault, if_neg Bool.false_ne_true] at hforget
    exact ⟨_, _, hforget, hdelete⟩

end Relays

end TunnelWeaver.Client
