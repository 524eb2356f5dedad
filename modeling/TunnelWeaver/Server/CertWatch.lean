import TunnelWeaver.Server.CertManager
import TunnelWeaver.Server.HostnameScheme

/-! The task that reports the state of a certificate to the client (`watch_cert`). It waits for news of
the hostname of its service, while the news are of certificates, by their names. -/

namespace TunnelWeaver.Server

open Proto (CertStatus ControlHead toAsciiLowercase)
open Proto.Policy (isWhitespace)

/-- `push_cert_state`. -/
def CertState.reported : CertState → CertStatus
  | .pending => .pending
  | .ordering => .ordering
  | .issued _ => .issued
  | .renewing _ => .renewing
  | .failed .. => .failed

/-- Transitions that a receiver can be behind. -/
def stateChangeCapacity : Nat := 128

/-- How far the task has come: it subscribes, then looks at the state, then follows the broadcast. -/
inductive WatchPhase where
  | starting
  | subscribed
  | following
  deriving DecidableEq

/-- The states, by certificate names, the transitions that are `writing` (in the map, not broadcast yet)
and those that were broadcast, and the task: where it is in the broadcast, the state it saw `last`, the
state it `looked` up last, its commands that were not run yet and its replies on the control stream. -/
structure CertWatch where
  states : String → Option CertState
  writing : List (String × CertState) := []
  sent : List (String × CertState) := []
  phase : WatchPhase := .starting
  next : Nat := 0
  last : CertState := .pending
  looked : CertState := .pending
  commands : List CertStatus := []
  replies : List CertStatus := []

inductive WatchAction where
  /-- `set_state` for a managed certificate, as far as the map. -/
  | write (cert : ManagedCert) (state : CertState)
  /-- The `i`th transition that is being written is broadcast. -/
  | broadcast (i : Nat)
  | subscribe
  | look
  | recv
  /-- The oldest command runs; the connection takes its reply or not. -/
  | run (taken : Bool)

namespace CertWatch

/-- `CertManager::status`. -/
def status (d : Domains) (w : CertWatch) (host : String) : CertState :=
  (w.states ((d.certFor host).elim (toAsciiLowercase host) (·.name))).getD .pending

def push (w : CertWatch) : CertWatch := { w with commands := w.commands ++ [w.last.reported] }

/-- A state that differs from the last one seen is reported. -/
def saw (w : CertWatch) (state : CertState) : CertWatch :=
  if state = w.last then w else { w with last := state }.push

def step (d : Domains) (host : String) (w : CertWatch) : WatchAction → Option CertWatch
  | .write cert state =>
    if cert ∈ d.managed then
      some { w with
        states := Function.update w.states (toAsciiLowercase cert.name) (some state)
        writing := w.writing ++ [(toAsciiLowercase cert.name, state)] }
    else none
  | .broadcast i => w.writing[i]?.map fun change =>
    { w with writing := w.writing.eraseIdx i, sent := w.sent ++ [change] }
  | .subscribe =>
    if w.phase = .starting then some { w with phase := .subscribed, next := w.sent.length } else none
  | .look =>
    if w.phase = .subscribed then
      some { w with
        phase := .following, last := w.status d host, looked := w.status d host }.push
    else none
  | .recv =>
    if w.phase = .following then
      if w.next + stateChangeCapacity < w.sent.length then
        some ({ w with
          next := w.sent.length - stateChangeCapacity
          looked := w.status d host }.saw (w.status d host))
      else w.sent[w.next]?.map fun change =>
        let w := { w with next := w.next + 1 }
        if change.1 = host then w.saw change.2 else w
    else none
  | .run taken =>
    match w.commands with
    | [] => none
    | status :: commands => some { w with
        commands, replies := if taken then w.replies ++ [status] else w.replies }

def run (d : Domains) (host : String) (w : CertWatch) (actions : List WatchAction) :
    Option CertWatch := Automaton.run (step d host) w actions

/-- A manager, and a task that has not begun. -/
def new (states : String → Option CertState) : CertWatch := { states }

/-- No transition is on its way, the task has processed all of them and its commands have run. -/
structure Quiet (w : CertWatch) : Prop where
  writing : w.writing = []
  phase : w.phase = .following
  next : w.next = w.sent.length
  commands : w.commands = []

/-- The connection takes each reply. -/
def Taken (_ : CertWatch) : WatchAction → Prop
  | .run taken => taken = true
  | _ => True

instance (w : CertWatch) (a : WatchAction) : Decidable (w.Taken a) := by
  unfold Taken
  split <;> infer_instance

variable {d : Domains} {host : String} {w w' : CertWatch} {a : WatchAction}

/-- The news are of managed certificates, and the last reply, sent or on its way, is what the task saw
when it last looked. -/
structure Follows (d : Domains) (w : CertWatch) : Prop where
  named : ∀ change ∈ w.writing ++ w.sent, ∃ cert ∈ d.managed, change.1 = toAsciiLowercase cert.name
  before : w.phase ≠ .following → w.commands = [] ∧ w.replies = []
  following : w.phase = .following →
    w.last = w.looked ∧ (w.replies ++ w.commands).getLast? = some w.looked.reported

theorem follows_new {states : String → Option CertState} : Follows d (new states) :=
  ⟨(fun _ h => by cases h), (fun _ => ⟨rfl, rfl⟩), fun h => by cases h⟩

/-- After a look at the state, the last reply is that state. -/
theorem following_saw (hlast : (w.replies ++ w.commands).getLast? = some w.last.reported)
    (state : CertState) : (w.saw state).last = state ∧
      ((w.saw state).replies ++ (w.saw state).commands).getLast? = some state.reported := by
  unfold saw
  split
  · rename_i hsame
    subst hsame
    exact ⟨rfl, hlast⟩
  · refine ⟨rfl, ?_⟩
    rw [push, ← List.append_assoc, List.getLast?_concat]

theorem Follows.saw (h : Follows d w) (hphase : w.phase = .following) :
    Follows d ({ w with looked := w.status d host }.saw (w.status d host)) := by
  obtain ⟨hlast, hreply⟩ := h.following hphase
  have hframe {v : CertWatch} {state : CertState} : (v.saw state).writing = v.writing ∧
      (v.saw state).sent = v.sent ∧ (v.saw state).phase = v.phase ∧
      (v.saw state).looked = v.looked := by
    unfold CertWatch.saw
    split <;> exact ⟨rfl, rfl, rfl, rfl⟩
  constructor
  · rw [hframe.1, hframe.2.1]
    exact h.named
  · intro hother
    rw [hframe.2.2.1] at hother
    exact absurd hphase hother
  · intro _
    rw [hframe.2.2.2]
    exact following_saw (by rw [hlast]; exact hreply) _

theorem Follows.step (h : Follows d w)
    (hhost : ∀ cert ∈ d.managed, toAsciiLowercase cert.name ≠ host) (htaken : w.Taken a)
    (hstep : step d host w a = some w') : Follows d w' := by
  cases a with
  | write cert state =>
    simp only [CertWatch.step] at hstep
    split at hstep
    · rename_i hmem
      cases hstep
      refine ⟨fun change hc => ?_, h.before, h.following⟩
      simp only [List.mem_append, List.mem_singleton, or_assoc] at hc
      rcases hc with hc | rfl | hc
      · exact h.named change (List.mem_append_left _ hc)
      · exact ⟨cert, hmem, rfl⟩
      · exact h.named change (List.mem_append_right _ hc)
    · cases hstep
  | broadcast i =>
    obtain ⟨change', hi, rfl⟩ := Option.map_eq_some_iff.mp hstep
    refine ⟨fun change hc => ?_, h.before, h.following⟩
    simp only [List.mem_append, List.mem_singleton] at hc
    rcases hc with hc | hc | rfl
    · exact h.named change (List.mem_append_left _ (List.mem_of_mem_eraseIdx hc))
    · exact h.named change (List.mem_append_right _ hc)
    · exact h.named change (List.mem_append_left _ (List.mem_of_getElem? hi))
  | subscribe =>
    simp only [CertWatch.step] at hstep
    split at hstep
    · rename_i hphase
      cases hstep
      refine ⟨h.named, fun _ => h.before (by rw [hphase]; decide), ?_⟩
      rintro ⟨⟩
    · cases hstep
  | look =>
    simp only [CertWatch.step] at hstep
    split at hstep
    · rename_i hphase
      cases hstep
      refine ⟨h.named, fun hother => absurd rfl hother, fun _ => ⟨rfl, ?_⟩⟩
      rw [push, ← List.append_assoc, List.getLast?_concat]
    · cases hstep
  | recv =>
    simp only [CertWatch.step] at hstep
    split at hstep
    · rename_i hphase
      split at hstep
      · cases hstep
        generalize w.sent.length - stateChangeCapacity = n
        have hnext : Follows d { w with next := n } := ⟨h.named, h.before, h.following⟩
        exact hnext.saw hphase
      · obtain ⟨change, hnext, rfl⟩ := Option.map_eq_some_iff.mp hstep
        obtain ⟨cert, hmem, hname⟩ :=
          h.named change (List.mem_append_right _ (List.mem_of_getElem? hnext))
        rw [hname, if_neg (hhost cert hmem)]
        exact ⟨h.named, h.before, h.following⟩
    · cases hstep
  | run taken =>
    simp only [CertWatch.step] at hstep
    split at hstep
    · cases hstep
    · rename_i status commands hcommands
      cases hstep
      have htaken : taken = true := htaken
      refine ⟨h.named, fun hother => ?_, fun hphase => ?_⟩
      · rw [(h.before hother).1] at hcommands
        cases hcommands
      · obtain ⟨hlast, hreply⟩ := h.following hphase
        refine ⟨hlast, ?_⟩
        rw [if_pos htaken, List.append_assoc, List.singleton_append, ← hcommands]
        exact hreply

/-- A service's hostname is not the name of a certificate. -/
theorem name_ne_flatHostname {person machine service : String}
    (N : LabelNames person machine service) (hsplit : d.splitIssue = none)
    (ht : IsDomain d.tunnelDomain) (ha : IsDomain d.adminDomain) :
    ∀ cert ∈ d.managed,
      toAsciiLowercase cert.name ≠ flatHostname person machine service d.tunnelDomain := by
  have S := Domains.split_of_splitIssue hsplit
  have hhost := N.normalizeDomain_flatHostname ht S.root
  intro cert hcert heq
  have hname (domain : String) (hdomain : IsDomain domain) (hc : cert.name = normalizeDomain domain) :
      normalizeDomain domain =
        hostLabel person machine service ++ "." ++ normalizeDomain d.tunnelDomain := by
    rw [← hhost, ← heq, hc, normalizeDomain_toAsciiLowercase (isDomain_normalizeDomain hdomain),
      normalizeDomain_idem hdomain]
  rcases List.mem_cons.mp hcert with rfl | hcert
  · have hbeneath := S.beneath
    rw [hname d.adminDomain ha rfl, String.append_assoc, stripSuffix_append] at hbeneath
    cases hbeneath
  · rw [List.mem_singleton.mp hcert] at hname
    have hlen := congrArg (·.toList.length) (hname d.tunnelDomain ht rfl)
    have hdot : ".".toList.length = 1 := rfl
    simp only [String.toList_append, List.length_append] at hlen
    omega

/-- Once the task has processed all transitions and its commands have run, with each reply taken by the
connection, the last reply says how the certificate is if and only if that is how it was when the task
last looked: at its start, or when it had missed transitions. -/
theorem reported_iff {person machine service : String} {version : UInt16}
    (hp : isValidPersonOrMachine person = true) (hm : isValidPersonOrMachine machine = true)
    (hs : (ControlHead.register version service).validate = .ok ())
    (hsplit : d.splitIssue = none) (ht : IsDomain d.tunnelDomain) (ha : IsDomain d.adminDomain)
    (hhost : host = flatHostname person machine service d.tunnelDomain)
    {states : String → Option CertState} {actions : List WatchAction}
    (htaken : Automaton.Meets (step d host) Taken (new states) actions)
    (hrun : run d host (new states) actions = some w) (hquiet : w.Quiet) :
    w.replies.getLast? = some (w.status d host).reported ↔
      w.looked.reported = (w.status d host).reported := by
  have hname := name_ne_flatHostname (labelNames_of_valid hp hm hs) hsplit ht ha
  rw [← hhost] at hname
  have h : Follows d w := Automaton.run_invariant_of_meets
    (fun h htaken hstep => Follows.step h hname htaken hstep) htaken follows_new hrun
  have hreply := (h.following hquiet.phase).2
  rw [hquiet.commands, List.append_nil] at hreply
  rw [hreply, Option.some.injEq]

end CertWatch

namespace CertWatch.Sample

def domains : Domains := ⟨"t.io", "a.io"⟩

/-- The service is registered while the certificate is pending. -/
def watching : List WatchAction := [.subscribe, .look, .run true]

/-- The certificate is issued. -/
def issuing : List WatchAction :=
  watching ++ [.write domains.tunnelCert (.issued 90), .broadcast 0, .recv]

theorem reported_watching : ∃ w, run domains "a-b-c.t.io" (new fun _ => none) watching = some w ∧
    w.Quiet ∧ w.replies.getLast? = some (w.status domains "a-b-c.t.io").reported := by
  have hwatching : (run domains "a-b-c.t.io" (new fun _ => none) watching).any (fun w => decide
      (w.writing = [] ∧ w.phase = .following ∧ w.next = w.sent.length ∧ w.commands = [] ∧
        w.looked.reported = (w.status domains "a-b-c.t.io").reported)) = true := by
    decide +kernel
  obtain ⟨w, hrun, hw⟩ := (Option.any_eq_true _ _).mp hwatching
  obtain ⟨hwriting, hphase, hnext, hcommands, hlooked⟩ := of_decide_eq_true hw
  have hquiet : w.Quiet := ⟨hwriting, hphase, hnext, hcommands⟩
  have ht : ("t.io".toList.all fun c => isWhitespace c == false) = true := by decide +kernel
  have ha : ("a.io".toList.all fun c => isWhitespace c == false) = true := by decide +kernel
  have hhost : "a-b-c.t.io" = flatHostname "a" "b" "c" domains.tunnelDomain := by decide +kernel
  exact ⟨w, hrun, hquiet, (reported_iff
    (show isValidPersonOrMachine "a" = true by decide +kernel)
    (show isValidPersonOrMachine "b" = true by decide +kernel)
    (show (ControlHead.register 1 "c").validate = .ok () by decide +kernel)
    (by decide +kernel) (fun c hc => eq_of_beq (List.all_eq_true.mp ht c hc))
    (fun c hc => eq_of_beq (List.all_eq_true.mp ha c hc)) hhost (by decide +kernel) hrun
    hquiet).mpr hlooked⟩

/-- The client is never told. -/
theorem unreported_issuing : ∃ w, run domains "a-b-c.t.io" (new fun _ => none) issuing = some w ∧
    w.Quiet ∧ w.replies = [.pending] ∧ w.status domains "a-b-c.t.io" = .issued 90 := by
  have hissuing : (run domains "a-b-c.t.io" (new fun _ => none) issuing).any (fun w => decide
      (w.writing = [] ∧ w.phase = .following ∧ w.next = w.sent.length ∧ w.commands = [] ∧
        w.replies = [.pending] ∧ w.status domains "a-b-c.t.io" = .issued 90)) = true := by
    decide +kernel
  obtain ⟨w, hrun, hw⟩ := (Option.any_eq_true _ _).mp hissuing
  obtain ⟨hwriting, hphase, hnext, hcommands, hreplies, hst⟩ := of_decide_eq_true hw
  exact ⟨w, hrun, ⟨hwriting, hphase, hnext, hcommands⟩, hreplies, hst⟩

end CertWatch.Sample

end TunnelWeaver.Server
