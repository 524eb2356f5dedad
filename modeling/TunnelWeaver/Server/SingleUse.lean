import TunnelWeaver.Abuse.Altcha
import TunnelWeaver.Lib.Automaton

/-! The markers of spent proofs (`store/altcha.rs`), which the sweep deletes. A call verifies its proof
first; between that, the count of the live markers and the insertion of its own, other calls and the
sweep may come in. -/

namespace TunnelWeaver.Server

open Abuse (ChallengeParameters ConsumeRequest ProofCrypto ProofError Verified)
open I64 (saturatingMul)

inductive ProofStoreError where
  | unavailable
  | capacity
  deriving DecidableEq

inductive AltchaError where
  | proof (e : ProofError)
  | store (e : ProofStoreError)
  deriving DecidableEq

/-- A row of `altcha_proof`. -/
structure ProofRow where
  publicKey : String
  nonce : String
  expiresAtMs : Int
  deriving DecidableEq

inductive ConsumePhase where
  /-- The proof is good, and its marker is still to be inserted. -/
  | verified (v : Verified)
  | counted (v : Verified)
  | ended (r : Except AltchaError Verified)

structure ConsumeCall where
  request : ConsumeRequest
  phase : ConsumePhase

namespace ConsumeCall

def pending (c : ConsumeCall) : Bool :=
  match c.phase with
  | .ended _ => false
  | _ => true

def succeeded (c : ConsumeCall) : Bool :=
  match c.phase with
  | .ended (.ok _) => true
  | _ => false

/-- The row is the one that the call inserts. -/
def Owns (c : ConsumeCall) (row : ProofRow) : Prop :=
  row.publicKey = c.request.client ∧ row.nonce = c.request.parameters.nonce ∧
    row.expiresAtMs = c.request.expiresAtMs

end ConsumeCall

structure ProofWorld where
  clock : Int
  rows : List ProofRow
  calls : List ConsumeCall := []

inductive ProofAction where
  /-- A call reads the clock, resolves its client and verifies its proof. -/
  | begin (request : ConsumeRequest) (client : Except ProofStoreError (Option Abuse.AltchaClient))
  | count (i : Nat) (fails : Bool)
  | insert (i : Nat) (fails : Bool)
  /-- `AltchaSweepTask::run`. -/
  | sweep (tick now : Int)

namespace ProofWorld
variable [ProofCrypto]

/-- What a call has come to after its verification. -/
def opening (request : ConsumeRequest) (client : Except ProofStoreError (Option Abuse.AltchaClient)) :
    ConsumePhase :=
  match client with
  | .error e => .ended (.error (.store e))
  | .ok client =>
    match request.verify client with
    | .error e => .ended (.error (.proof e))
    | .ok v => .verified v

def liveProofCount (w : ProofWorld) (nowMs : Int) : Nat :=
  (w.rows.filter fun row => nowMs ≤ row.expiresAtMs).length

def setPhase (w : ProofWorld) (i : Nat) (c : ConsumeCall) (phase : ConsumePhase) : ProofWorld :=
  { w with calls := w.calls.set i { c with phase } }

def spent (w : ProofWorld) (r : ConsumeRequest) : Bool :=
  w.rows.any fun row => row.publicKey = r.client ∧ row.nonce = r.parameters.nonce

/-- The rows that a sweep keeps. -/
def sweepProofs (w : ProofWorld) (cutoff : Int) : List ProofRow :=
  w.rows.filter fun row => cutoff ≤ row.expiresAtMs

/-- `cap` bounds the live markers; 0 is no bound. -/
def step (cap : Nat) (w : ProofWorld) : ProofAction → Option ProofWorld
  | .begin request client =>
    if request.nowMs < w.clock then none
    else some { w with
      clock := request.nowMs
      calls := w.calls ++ [⟨request, opening request client⟩] }
  | .count i fails => do
    let c ← w.calls[i]?
    match c.phase with
    | .verified v =>
      if fails then some (w.setPhase i c (.ended (.error (.store .unavailable))))
      else if 0 < cap ∧ cap ≤ w.liveProofCount c.request.nowMs then
        some (w.setPhase i c (.ended (.error (.store .capacity))))
      else some (w.setPhase i c (.counted v))
    | _ => none
  | .insert i fails => do
    let c ← w.calls[i]?
    match c.phase with
    | .counted v =>
      if fails then some (w.setPhase i c (.ended (.error (.store .unavailable))))
      else if w.spent c.request then some (w.setPhase i c (.ended (.error (.proof .spent))))
      else
        some { w.setPhase i c (.ended (.ok v)) with
          rows := w.rows ++ [⟨c.request.client, c.request.parameters.nonce, c.request.expiresAtMs⟩] }
    | _ => none
  | .sweep tick now =>
    if now < w.clock ∨ now < tick * 1000 then none
    else some { w with clock := now, rows := w.sweepProofs (saturatingMul tick 1000) }

/-- At most one call of a challenge has succeeded. -/
def SingleUse (w : ProofWorld) : Prop :=
  ∀ (i j : Nat) (x y : ConsumeCall), w.calls[i]? = some x → w.calls[j]? = some y →
    x.succeeded = true → y.succeeded = true → x.request.parameters = y.request.parameters → i = j

/-- A sweep deletes the marker of a call only if its challenge has an expiry and no other call of it
has still to insert its own. -/
def Careful (w : ProofWorld) : ProofAction → Prop
  | .sweep tick _ => ∀ x ∈ w.calls, x.succeeded = true →
    x.request.expiresAtMs < saturatingMul tick 1000 →
    x.request.parameters.expiry ≠ none ∧
      ∀ y ∈ w.calls, y.pending = true → y.request.parameters ≠ x.request.parameters
  | _ => True

/-! ## What holds between the steps -/

/-- The challenge of a call cannot be used any more: its marker is there, or it is expired and nobody is
left to insert one. -/
def Used (w : ProofWorld) (x : ConsumeCall) : Prop :=
  (∃ row ∈ w.rows, x.Owns row) ∨
    (∃ expiresAt, x.request.parameters.expiry = some expiresAt ∧ expiresAt * 1000 + 1000 ≤ w.clock) ∧
    ∀ y ∈ w.calls, y.pending = true → y.request.parameters ≠ x.request.parameters

structure Spending (w : ProofWorld) : Prop where
  since : 0 ≤ w.clock
  single : w.SingleUse
  used : ∀ x ∈ w.calls, x.succeeded = true → w.Used x

variable {w w' : ProofWorld} {c x : ConsumeCall} {i cap : Nat} {phase : ConsumePhase}

/-- What a step leaves of the calls that had succeeded: nothing new. -/
def Succeeds (w w' : ProofWorld) : Prop :=
  ∀ (i : Nat) (x : ConsumeCall), w'.calls[i]? = some x → x.succeeded = true →
    w.calls[i]? = some x

omit [ProofCrypto] in
theorem SingleUse.mono (h : w.SingleUse) (hsucceeds : Succeeds w w') : w'.SingleUse :=
  fun i j x y hi hj hx hy => h i j x y (hsucceeds i x hi hx) (hsucceeds j y hj hy) hx hy

omit [ProofCrypto] in
/-- A used challenge stays used while rows stay and whoever starts to insert has verified a proof that
is not expired. -/
theorem Used.mono (h : w.Used x) (hsince : 0 ≤ w'.clock) (hclock : w.clock ≤ w'.clock)
    (hrows : ∀ row ∈ w.rows, row ∈ w'.rows)
    (hpending : ∀ y ∈ w'.calls, y.pending = true →
      (∃ y' ∈ w.calls, y'.pending = true ∧ y'.request = y.request) ∨
        y.request.parameters.expired w'.clock = false) : w'.Used x := by
  rcases h with ⟨row, hrow, howns⟩ | ⟨⟨expiresAt, hexpiry, hle⟩, hnone⟩
  · exact .inl ⟨row, hrows row hrow, howns⟩
  · have hle' := hle.trans hclock
    refine .inr ⟨⟨expiresAt, hexpiry, hle'⟩, fun y hy hp heq => ?_⟩
    rcases hpending y hy hp with ⟨y', hy', hp', hreq⟩ | hfresh
    · exact hnone y' hy' hp' (by rw [hreq, heq])
    · rw [heq, ChallengeParameters.expired_of_le hexpiry hsince hle'] at hfresh
      cases hfresh

omit [ProofCrypto] in
theorem Spending.mono (h : w.Spending) (hsucceeds : Succeeds w w') (hclock : w.clock ≤ w'.clock)
    (hrows : ∀ row ∈ w.rows, row ∈ w'.rows)
    (hpending : ∀ y ∈ w'.calls, y.pending = true →
      (∃ y' ∈ w.calls, y'.pending = true ∧ y'.request = y.request) ∨
        y.request.parameters.expired w'.clock = false) : w'.Spending where
  since := h.since.trans hclock
  single := h.single.mono hsucceeds
  used x hx hsucceeded := by
    obtain ⟨i, hi⟩ := List.mem_iff_getElem?.mp hx
    have hx' := List.mem_of_getElem? (hsucceeds i x hi hsucceeded)
    exact (h.used x hx' hsucceeded).mono (h.since.trans hclock) hclock hrows hpending

/-! ## One step -/

omit [ProofCrypto] in
theorem mem_setPhase {y : ConsumeCall} (hy : y ∈ (w.setPhase i c phase).calls) :
    y = { c with phase } ∨ y ∈ w.calls := by
  obtain hy | hy := List.mem_or_eq_of_mem_set hy
  · exact .inr hy
  · exact .inl hy

omit [ProofCrypto] in
/-- A pending call that gets further, without success. -/
theorem Spending.setPhase (h : w.Spending) (hc : w.calls[i]? = some c) (hpending : c.pending = true)
    (hphase : (ConsumeCall.mk c.request phase).succeeded = false) :
    (w.setPhase i c phase).Spending := by
  refine h.mono (fun j x hj hx => ?_) le_rfl (fun row hrow => hrow) fun y hy hp => ?_
  · rw [ProofWorld.setPhase, List.getElem?_set] at hj
    split at hj
    · split at hj
      · cases hj
        rw [hphase] at hx
        cases hx
      · cases hj
    · exact hj
  · rcases mem_setPhase hy with rfl | hy
    · exact .inl ⟨c, List.mem_of_getElem? hc, hpending, rfl⟩
    · exact .inl ⟨y, hy, hp, rfl⟩

theorem opening_cases (request : ConsumeRequest)
    (client : Except ProofStoreError (Option Abuse.AltchaClient)) :
    (∃ e, opening request client = .ended (.error e)) ∨
      ∃ v, opening request client = .verified v ∧
        request.parameters.expired request.nowMs = false := by
  cases client with
  | error e => exact .inl ⟨_, rfl⟩
  | ok client =>
    rw [opening]
    split
    · exact .inl ⟨_, rfl⟩
    · next v hv => exact .inr ⟨v, rfl, ConsumeRequest.not_expired_of_verify hv⟩

theorem Spending.begin (h : w.Spending) {request : ConsumeRequest}
    {client : Except ProofStoreError (Option Abuse.AltchaClient)} (hclock : w.clock ≤ request.nowMs) :
    Spending { w with
      clock := request.nowMs
      calls := w.calls ++ [⟨request, opening request client⟩] } := by
  refine h.mono (fun j x hj hx => ?_) hclock (fun row hrow => hrow) fun y hy hp => ?_
  · rcases lt_or_ge j w.calls.length with hlt | hge
    · rwa [List.getElem?_append_left hlt] at hj
    · rw [List.getElem?_append_right hge] at hj
      obtain rfl := List.mem_singleton.mp (List.mem_of_getElem? hj)
      rcases opening_cases request client with ⟨e, he⟩ | ⟨v, hv, -⟩
      · rw [ConsumeCall.succeeded, he] at hx
        cases hx
      · rw [ConsumeCall.succeeded, hv] at hx
        cases hx
  · rcases List.mem_append.mp hy with hy | hy
    · exact .inl ⟨y, hy, hp, rfl⟩
    · obtain rfl := List.mem_singleton.mp hy
      rcases opening_cases request client with ⟨e, he⟩ | ⟨v, -, hfresh⟩
      · rw [ConsumeCall.pending, he] at hp
        cases hp
      · exact .inr hfresh

omit [ProofCrypto] in
/-- The challenge that a pending call is about to mark has not been used. -/
theorem Spending.unused (h : w.Spending) (hc : c ∈ w.calls) (hpending : c.pending = true)
    (hspent : w.spent c.request = false) (hx : x ∈ w.calls) (hsucceeded : x.succeeded = true) :
    x.request.parameters ≠ c.request.parameters := by
  intro heq
  rcases h.used x hx hsucceeded with ⟨row, hrow, hkey, hnonce, -⟩ | ⟨-, hnone⟩
  · have hclient : x.request.client = c.request.client := by
      have hnamed := x.request.named
      rw [show x.request.payload.challenge.parameters = c.request.payload.challenge.parameters from heq,
        c.request.named] at hnamed
      exact (Option.some.inj hnamed).symm
    have hall := List.any_eq_false.mp hspent row hrow
    rw [hkey, hnonce, hclient, heq] at hall
    simp at hall
  · exact hnone c hc hpending heq.symm

omit [ProofCrypto] in
theorem Spending.insert (h : w.Spending) (hc : w.calls[i]? = some c) {v : Verified}
    (hphase : c.phase = .counted v) (hspent : w.spent c.request = false) :
    Spending { w.setPhase i c (.ended (.ok v)) with
      rows := w.rows ++ [⟨c.request.client, c.request.parameters.nonce, c.request.expiresAtMs⟩] } := by
  have hpending : c.pending = true := by rw [ConsumeCall.pending, hphase]
  have hmem := List.mem_of_getElem? hc
  have hunused {x : ConsumeCall} (hx : x ∈ w.calls) (hs : x.succeeded = true) :=
    h.unused hmem hpending hspent hx hs
  have hcall {j : Nat} {x : ConsumeCall}
      (hj : (w.setPhase i c (.ended (.ok v))).calls[j]? = some x) :
      j = i ∧ x = ⟨c.request, .ended (.ok v)⟩ ∨ j ≠ i ∧ w.calls[j]? = some x := by
    rw [ProofWorld.setPhase, List.getElem?_set] at hj
    split at hj
    · next hij =>
      split at hj
      · cases hj
        exact .inl ⟨hij.symm, rfl⟩
      · cases hj
    · next hij => exact .inr ⟨Ne.symm hij, hj⟩
  constructor
  · exact h.since
  · intro j k x y hj hk hx hy heq
    rcases hcall hj with ⟨hji, hxc⟩ | ⟨-, hxj⟩ <;> rcases hcall hk with ⟨hki, hyc⟩ | ⟨-, hyk⟩
    · rw [hji, hki]
    · subst hxc
      exact absurd heq.symm (hunused (List.mem_of_getElem? hyk) hy)
    · subst hyc
      exact absurd heq (hunused (List.mem_of_getElem? hxj) hx)
    · exact h.single j k x y hxj hyk hx hy heq
  · intro x hx hsucceeded
    rcases mem_setPhase hx with rfl | hx
    · exact .inl ⟨_, List.mem_append_right _ List.mem_cons_self, rfl, rfl, rfl⟩
    · refine (h.used x hx hsucceeded).mono h.since le_rfl
        (fun row hrow => List.mem_append_left _ hrow) fun y hy hp => ?_
      rcases mem_setPhase hy with rfl | hy
      · exact .inl ⟨c, hmem, hpending, rfl⟩
      · exact .inl ⟨y, hy, hp, rfl⟩

omit [ProofCrypto] in
theorem Spending.sweep (h : w.Spending) {tick now : Int} (hcareful : w.Careful (.sweep tick now))
    (hclock : w.clock ≤ now) (htick : tick * 1000 ≤ now) :
    Spending { w with clock := now, rows := w.sweepProofs (saturatingMul tick 1000) } where
  since := h.since.trans hclock
  single := h.single
  used x hx hsucceeded := by
    rcases h.used x hx hsucceeded with ⟨row, hrow, howns⟩ | ⟨⟨expiresAt, hexpiry, hle⟩, hnone⟩
    · rcases lt_or_ge row.expiresAtMs (saturatingMul tick 1000) with hlt | hge
      · have hswept := howns.2.2 ▸ hlt
        obtain ⟨hexpires, hnone⟩ := hcareful x hx hsucceeded hswept
        obtain ⟨expiresAt, hexpiry⟩ := Option.ne_none_iff_exists'.mp hexpires
        refine .inr ⟨⟨expiresAt, hexpiry, ?_⟩, hnone⟩
        rw [ConsumeRequest.expiresAtMs, hexpiry, Option.map_some, Option.getD_some] at hswept
        have hearlier : expiresAt < tick := by
          by_contra hge
          exact absurd (I64.saturate_mono (by omega : tick * 1000 ≤ expiresAt * 1000))
            (not_le.mpr hswept)
        change expiresAt * 1000 + 1000 ≤ now
        omega
      · exact .inl ⟨row, List.mem_filter.mpr ⟨hrow, decide_eq_true hge⟩, howns⟩
    · exact .inr ⟨⟨expiresAt, hexpiry, hle.trans hclock⟩, hnone⟩

theorem Spending.step {a : ProofAction} (h : w.Spending) (hcareful : w.Careful a)
    (hstep : w.step cap a = some w') : w'.Spending := by
  cases a with
  | begin request client =>
    rw [ProofWorld.step] at hstep
    split at hstep
    · cases hstep
    · next hclock =>
      cases hstep
      exact h.begin (not_lt.mp hclock)
  | count i fails =>
    obtain ⟨c, hc, hstep⟩ := Option.bind_eq_some_iff.mp hstep
    split at hstep
    · next v hphase =>
      have hpending : c.pending = true := by rw [ConsumeCall.pending, hphase]
      split at hstep
      · cases hstep
        exact h.setPhase hc hpending rfl
      · split at hstep <;> cases hstep <;> exact h.setPhase hc hpending rfl
    · cases hstep
  | insert i fails =>
    obtain ⟨c, hc, hstep⟩ := Option.bind_eq_some_iff.mp hstep
    split at hstep
    · next v hphase =>
      have hpending : c.pending = true := by rw [ConsumeCall.pending, hphase]
      split at hstep
      · cases hstep
        exact h.setPhase hc hpending rfl
      · split at hstep
        · cases hstep
          exact h.setPhase hc hpending rfl
        · next hspent =>
          cases hstep
          exact h.insert hc hphase (by simpa using hspent)
    · cases hstep
  | sweep tick now =>
    rw [ProofWorld.step] at hstep
    split at hstep
    · cases hstep
    · next hclock =>
      cases hstep
      obtain ⟨hclock, htick⟩ := not_or.mp hclock
      exact h.sweep hcareful (not_lt.mp hclock) (not_lt.mp htick)

/-- A proof is spent at most once, if no sweep deletes the marker of a challenge that somebody can still
spend. -/
theorem single_use {clock : Int} (hclock : 0 ≤ clock) {rows : List ProofRow}
    {actions : List ProofAction} (hcareful : Automaton.Meets (step cap) Careful ⟨clock, rows, []⟩ actions)
    (hrun : Automaton.run (step cap) ⟨clock, rows, []⟩ actions = some w) : w.SingleUse := by
  have hinit : Spending ⟨clock, rows, []⟩ := by
    refine ⟨hclock, fun i _ _ _ hi => ?_, fun x hx => absurd hx List.not_mem_nil⟩
    cases hi
  exact (Automaton.run_invariant_of_meets (fun h hc hs => h.step hc hs) hcareful hinit hrun).single

end ProofWorld

namespace SingleUse.Sample

open Abuse (Challenge Payload SignedData)

def parameters : ChallengeParameters where
  algorithm := "PBKDF2/SHA-256"
  cost := 10
  data := some ⟨some "ak_internal", some "signup", some "signup"⟩
  expiresAt := some 86399
  keyLength := 32
  keyPrefix := "00"
  nonce := "000102030405060708090a0b0c0d0e0f"
  salt := "101112131415161718191a1b1c1d1e1f"

/-- The hashes of this challenge. -/
scoped instance crypto : ProofCrypto where
  hmacSha256 secret p :=
    if secret = "secret" ∧ p = parameters then
      "179403741ebacc77c404f9eb176ee585bbc243578bff9b90281c6ce83f80f3db"
    else ""
  deriveKey p counter :=
    if p = parameters ∧ counter = 1056 then
      some "0043f7115985b64bcd5b0473604cfdeef7e27f1f9f7dd7ea489bc94256bea60b"
    else none

def request (nowMs : Int) : ConsumeRequest where
  client := "ak_internal"
  payload := {
    challenge := ⟨parameters,
      some "179403741ebacc77c404f9eb176ee585bbc243578bff9b90281c6ce83f80f3db"⟩
    solution := ⟨1056, "0043f7115985b64bcd5b0473604cfdeef7e27f1f9f7dd7ea489bc94256bea60b"⟩ }
  purpose := "signup"
  flow := "signup"
  nowMs := nowMs
  named := rfl

def begin (nowMs : Int) : ProofAction :=
  .begin (request nowMs) (.ok (some ⟨"secret", "PBKDF2/SHA-256"⟩))

def run (actions : List ProofAction) : Option ProofWorld :=
  Automaton.run (ProofWorld.step 100000) ⟨0, [], []⟩ actions

def replayed : List ProofAction :=
  [begin 86399500, begin 86399900, .count 0 false, .insert 0 false, .count 1 false, .insert 1 false]

/-- Both calls verify in the last second of the challenge, and the second inserts its marker after the
sweep of midnight. -/
def midnight : List ProofAction :=
  [begin 86399500, begin 86399900, .count 0 false, .insert 0 false, .count 1 false,
    .sweep 86400 86400000, .insert 1 false]

end SingleUse.Sample

open SingleUse.Sample in
theorem single_use_replayed : ∃ w, run replayed = some w ∧ w.SingleUse := by
  obtain ⟨w, hw⟩ := Option.isSome_iff_exists.mp
    (show (run replayed).isSome = true by decide +kernel)
  refine ⟨w, hw, ProofWorld.single_use (le_refl 0) (Automaton.meets_of_forall (fun a ha s => ?_) _) hw⟩
  simp only [replayed, List.mem_cons, List.not_mem_nil, or_false] at ha
  rcases ha with rfl | rfl | rfl | rfl | rfl | rfl <;> trivial

open SingleUse.Sample in
/-- Two calls of one challenge succeed. -/
theorem spent_twice_across_sweep : ((run midnight).map fun w =>
    w.calls.map fun c => (c.succeeded, c.request.parameters)) =
      some [(true, parameters), (true, parameters)] := by
  decide +kernel

end TunnelWeaver.Server
