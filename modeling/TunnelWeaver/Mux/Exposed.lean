import TunnelWeaver.Mux.Guarantees

/-! A connection whose peer sends any bytes it likes. `Node.face` is one thing that happens to it;
`Connection.Sound` holds in every state it can reach, and each step is a sequence of steps of its
core with the records kept along the way. -/

namespace TunnelWeaver.Mux

/-- What happens to a connection: a call of its application, a deadline, a frame put on the wire,
or some bytes from the peer. -/
inductive Input where
  | call (k : Call)
  | handleTimeout (now : Instant) (stillValid : Nat → KeyId → Bool) (fuel : Nat)
  | pollTransmit
  | recv (now : Instant) (bytes : Bytes)

namespace Node
variable [ThirdParty]

/-- One input; `wire` collects everything the connection ever sent. -/
def face (n : Node) : Input → Option Node
  | .call k => some (n.call k)
  | .handleTimeout now stillValid fuel =>
    (n.conn.handleTimeout now stillValid fuel).map fun conn => { n with conn }
  | .pollTransmit =>
    let r := n.conn.pollTransmit
    some { n with conn := r.1, wire := n.wire ++ r.2.toList }
  | .recv now bytes => some { n with conn := (n.conn.recv now bytes).1 }

/-- The node of a new connection after some inputs. -/
def exposed (cfg : Config) (now : Instant) (inputs : List Input) : Option Node :=
  Automaton.run face (.new (.new cfg now)) inputs

end Node

namespace Sample

def helloFrame : Frame :=
  ⟨0, .hello, ThirdParty.hello.encode ⟨maxVersion, .ed25519 key, nonceC, .ed25519 sig⟩⟩

/-- A server lets a client in, which opens a stream. -/
def admitted : List Input :=
  [.pollTransmit, .recv 0 helloFrame.encode, .pollTransmit,
    .recv 0 (Frame.mk 1 .open (ThirdParty.cls.encode .interactive)).encode]

/-- The server has a message to send on it, and opens a stream of its own. -/
def busy : List Input :=
  admitted ++ [.call (.send 1 [1, 2, 3] .never), .call (.open .bulk), .call (.send 2 [4] .never)]

end Sample

/-! ## Steps of the core -/

namespace Party
variable [ThirdParty] {P : Params} {x x' x'' : Party}

/-- One step, whatever the peer has sent. -/
def Alone (P : Params) (x x' : Party) : Prop := ∃ y y', Step P x y x' y'

/-- Some steps. -/
def Moves (P : Params) : Party → Party → Prop := Relation.ReflTransGen (Alone P)

theorem Alone.moves (H : Alone P x x') : Moves P x x' := .single H

theorem moves_silent {e : Endpoint} (H : Endpoint.Silent P x.e e) : Moves P x { x with e } := by
  induction H with
  | refl => exact .refl
  | tail _ h ih => exact ih.tail ⟨x, x, .tau h⟩

/-- A consumed frame came from some peer. -/
theorem Alone.consume {f : Frame} {e : Endpoint} (H : x.e.Step P (.consume f) e) :
    Alone P x { x with e } := ⟨{ x with wire := [f] }, { x with wire := [] }, .consume H rfl⟩

theorem Alone.endpoint (H : Alone P x x') : ∃ l, x.e.Step P l x'.e := by
  obtain ⟨y, y', H⟩ := H
  cases H with
  | tau h => exact ⟨_, h⟩
  | emit h => exact ⟨_, h⟩
  | consume h _ => exact ⟨_, h⟩
  | accept h => exact ⟨_, h⟩
  | take h => exact ⟨_, h⟩
  | polled h => exact ⟨_, h⟩

theorem Moves.good (hP : P.InRange) (G : x.e.Good P) (H : Moves P x x') : x'.e.Good P := by
  induction H with
  | refl => exact G
  | tail _ h ih =>
    obtain ⟨l, h⟩ := h.endpoint
    exact ih.step hP h

/-- What every step of a good endpoint preserves, moves preserve. -/
theorem Moves.invariant {I : Party → Prop} (hP : P.InRange)
    (hstep : ∀ {x x'}, x.e.Good P → Alone P x x' → I x → I x') (G : x.e.Good P)
    (H : Moves P x x') (hI : I x) : I x' := by
  induction H with
  | refl => exact hI
  | tail h h' ih => exact hstep (Moves.good hP G h) h' ih

end Party

/-! ## Sound connections -/

namespace Connection
variable [ThirdParty] {P P' : Params} {c : Connection}

/-- Some parameters the protocol allows are, or may come to be, in force. -/
def Sound (c : Connection) : Prop := ∃ P : Params, P.InRange ∧ c.Wf P ∧ c.core.Good P

omit [ThirdParty] in
/-- A client that has not read a WELCOME has settled on no parameters. -/
theorem Wf.renegotiate (W : c.Wf P) (hs : c.hs ≠ .done) (hc : c.core.server = false) :
    c.Wf P' where
  params h := absurd h hs
  announced v p r h := by simp [core, h, Role.isServer] at hc
  keyId := W.keyId
  timers := W.timers
  active := W.active

theorem Good.renegotiate {e : Endpoint} (G : e.Good P) (hs : e.hs ≠ .done) : e.Good P' :=
  { G with
    streams := fun i s h hi => by
      have hidle := G.idle fun hr => hs hr.done
      rw [hidle.1 i] at hi
      cases hi }

omit [ThirdParty] in
/-- The parameters of a WELCOME that passes the checks. -/
theorem inRange_of_checkWelcome {w : Welcome} (h : checkWelcome w = .ok ()) : w.params.InRange := by
  unfold checkWelcome at h
  split at h
  · cases h
  split at h
  · cases h
  rename_i hw
  split at h
  · cases h
  rename_i hf
  split at h
  · cases h
  rename_i hm
  exact ⟨(not_not.mp hw).1, (not_not.mp hw).2, hf, hm⟩

/-- Parameters that fit the connection and the next frame it reads. -/
theorem Sound.announces (S : Sound c) (f : Frame) :
    ∃ P : Params, P.InRange ∧ c.Wf P ∧ c.core.Good P ∧ Announces P c f := by
  obtain ⟨P, hP, W, G⟩ := S
  by_cases h : c.core.server = false ∧ c.hs = .helloSent ∧ f.frameType = .welcome ∧
      ∃ w, ThirdParty.welcome.decode f.payload = some w ∧ checkWelcome w = .ok ()
  · obtain ⟨hc, hs, ht, w, hw, hok⟩ := h
    have hne : c.hs ≠ .done := by
      rw [hs]
      rintro ⟨⟩
    refine ⟨w.params, inRange_of_checkWelcome hok, W.renegotiate hne hc, Good.renegotiate G hne, ?_⟩
    intro _ _ _ w' hw' _
    rw [hw, Option.some.injEq] at hw'
    rw [hw']
  · exact ⟨P, hP, W, G, fun hc hs ht w hw hok => absurd ⟨hc, hs, ht, w, hw, hok⟩ h⟩

theorem sound_new (cfg : Config) (now : Instant) : Sound (.new cfg now) := by
  cases hrole : cfg.role with
  | client signer =>
    have hnew : Connection.new cfg now =
        .fresh cfg.normalize now .awaitChallenge 0 1 none none [] := by
      simp [Connection.new, Config.normalize, hrole, Role.normalize]
    rw [hnew]
    refine ⟨Params.default.normalize, Params.normalize_inRange _, ?_, ?_⟩
    · refine ⟨(by rintro ⟨⟩), fun v p r h => ?_, (by rintro ⟨⟩), (by rintro ⟨⟩), fun i hi => ?_⟩
      · simp [fresh, Config.normalize, hrole, Role.normalize] at h
      · exact absurd hi (SchedTree.not_active_new _ _ i)
    · have hcore : (fresh cfg.normalize now .awaitChallenge 0 1 none none []).core =
          ⟨false, .awaitChallenge, false, 1, 0, [], [], fun _ => none, []⟩ := by
        simp [core, fresh, Config.normalize, hrole, Role.normalize, Role.isServer, SchedTree.new]
      rw [hcore]
      exact ⟨.inr (.inl rfl), fun _ => ⟨fun _ => rfl, rfl⟩, by simp, by simp, by simp, by decide,
        rfl, by decide, by decide⟩
  | server verifier params reverify =>
    have hnew : Connection.new cfg now =
        .fresh cfg.normalize now .challengeSent params.normalize.maxFrame.toNat 2 (some cfg.rng)
          reverify [⟨0, .challenge, ThirdParty.challenge.encode ⟨cfg.rng⟩⟩] := by
      simp [Connection.new, Config.normalize, hrole, Role.normalize]
    rw [hnew]
    refine ⟨params.normalize, Params.normalize_inRange _, ?_, ?_⟩
    · refine ⟨(by rintro ⟨⟩), fun v p r h => ?_, (by rintro ⟨⟩), (by rintro ⟨⟩), fun i hi => ?_⟩
      · simp only [fresh, Config.normalize, hrole, Role.normalize, Role.server.injEq] at h
        exact h.2.1.symm
      · exact absurd hi (SchedTree.not_active_new _ _ i)
    · have hcore : (fresh cfg.normalize now .challengeSent params.normalize.maxFrame.toNat 2
          (some cfg.rng) reverify [⟨0, .challenge, ThirdParty.challenge.encode ⟨cfg.rng⟩⟩]).core =
          ⟨true, .challengeSent, false, 2, 0,
            [⟨0, .challenge, ThirdParty.challenge.encode ⟨cfg.rng⟩⟩], [], fun _ => none, []⟩ := by
        simp [core, fresh, Config.normalize, hrole, Role.normalize, Role.isServer, SchedTree.new]
      rw [hcore]
      refine ⟨.inr rfl, fun _ => ⟨fun _ => rfl, rfl⟩, fun f hf => ?_, by simp, by simp,
        Nat.zero_lt_two, by simp, (by decide : 2 ≤ u32Max), Nat.zero_le _⟩
      obtain rfl := List.mem_singleton.mp hf
      exact ⟨rfl, rfl⟩

end Connection

/-! ## Runs -/

/-- A parsed stream id is a `u32`. -/
theorem Frame.streamId_lt {bytes : Bytes} {f : Frame} (h : parse bytes = .ok f) :
    f.streamId < 2 ^ 32 := by
  unfold parse at h
  split at h
  · rename_i b0 b1 b2 b3 t payload
    split at h
    · cases h
      have := b0.toNat_lt
      have := b1.toNat_lt
      have := b2.toNat_lt
      have := b3.toNat_lt
      change (idOfBytes b0 b1 b2 b3 : Nat) < 2 ^ 32
      unfold idOfBytes
      omega
    · cases h
  · cases h

namespace Node

open Connection (Sound)
open Endpoint (Silent Act)
open Party (Moves Alone)

variable [ThirdParty] {P : Params} {n n' : Node} {fs : List Frame} {x : Input}

/-- A step of a node is some moves of what its peer sees. -/
structure Advances (P : Params) (n : Node) (fs : List Frame) (n' : Node) (fs' : List Frame) :
    Prop where
  inRange : P.InRange
  before : n.conn.Wf P
  good : n.conn.core.Good P
  wf : n'.conn.Wf P
  wire : n'.wire = fs'.map Frame.encode
  moves : Moves P (n.party fs) (n'.party fs')

theorem Advances.sound {fs' : List Frame} (A : Advances P n fs n' fs') : n'.conn.Sound :=
  ⟨P, A.inRange, A.wf, A.moves.good A.inRange A.good⟩

/-- Only the connection changes, without anyone noticing. -/
theorem Advances.silent (hP : P.InRange) (W : n.conn.Wf P) (G : n.conn.core.Good P)
    (hw : n.wire = fs.map Frame.encode) {conn : Connection} (W' : conn.Wf P)
    (H : Silent P n.conn.core conn.core) : Advances P n fs { n with conn } fs :=
  ⟨hP, W, G, W', hw, Party.moves_silent (x := n.party fs) H⟩

theorem Advances.same (hP : P.InRange) (W : n.conn.Wf P) (G : n.conn.core.Good P)
    (hw : n.wire = fs.map Frame.encode) {conn : Connection} (W' : conn.Wf P)
    (H : conn.core = n.conn.core) : Advances P n fs { n with conn } fs :=
  .silent hP W G hw W' (H ▸ .refl)

/-- One visible step, then silent ones. -/
theorem Advances.visible {m : Node} {l : Endpoint.Label} {fs' : List Frame} (hP : P.InRange)
    (W : n.conn.Wf P) (G : n.conn.core.Good P) (hw : m.wire = fs'.map Frame.encode)
    (W' : m.conn.Wf P) (H : Act P n.conn.core l m.conn.core)
    (hstep : ∀ {e}, n.conn.core.Step P l e → Alone P (n.party fs) { m.party fs' with e }) :
    Advances P n fs m fs' := by
  obtain ⟨e, h, hs⟩ := H
  exact ⟨hP, W, G, W', hw, .head (hstep h) (Party.moves_silent (x := { m.party fs' with e }) hs)⟩

theorem send_advances (hP : P.InRange) (W : n.conn.Wf P) (G : n.conn.core.Good P)
    (hw : n.wire = fs.map Frame.encode) (id : StreamId) (msg : Bytes) (compress : Compress) :
    Advances P n fs (n.call (.send id msg compress)) fs := by
  obtain ⟨W₁, h⟩ := Connection.send_refines hP W G id msg compress
  dsimp only [Node.call]
  split
  · rename_i hok
    rw [hok] at h
    exact .visible (m := { n with conn := (n.conn.send id msg compress).1 }.accept id msg) hP W G
      hw W₁ h fun {e} h => ⟨n.party fs, n.party fs, .accept h⟩
  · rename_i e hok
    rw [hok] at h
    exact .same hP W G hw W₁ h

theorem recvMsg_advances (hP : P.InRange) (W : n.conn.Wf P) (G : n.conn.core.Good P)
    (hw : n.wire = fs.map Frame.encode) (id : StreamId) :
    Advances P n fs (n.call (.recvMsg id)) fs := by
  obtain ⟨W₁, h⟩ := Connection.recvMsg_refines W G id
  dsimp only [Node.call]
  split
  · rename_i msg hok
    rw [hok] at h
    exact .visible (m := { n with conn := (n.conn.recvMsg id).1 }.take id msg) hP W G hw W₁
      h fun {e} h => ⟨n.party fs, n.party fs, .take h⟩
  · rename_i e hok
    rw [hok] at h
    exact .same hP W G hw W₁ h

theorem pollEvent_advances (hP : P.InRange) (W : n.conn.Wf P) (G : n.conn.core.Good P)
    (hw : n.wire = fs.map Frame.encode) : Advances P n fs (n.call .pollEvent) fs := by
  obtain ⟨W₁, h⟩ := Connection.pollEvent_refines W
  split at h
  · rename_i i hev
    refine .visible hP W G hw W₁ h fun {e} h => ⟨n.party fs, n.party fs, ?_⟩
    have hpolled : (n.call .pollEvent).polled.filterMap Event.finishedId =
        n.polled.filterMap Event.finishedId ++ [i] := by
      simp [Node.call, hev, Event.finishedId]
    have hstep := Party.Step.polled (y := n.party fs) (x := n.party fs) h
    simp only [Node.party] at hstep ⊢
    rw [hpolled]
    exact hstep
  · rename_i hne
    have hid : n.conn.pollEvent.2.bind Event.finishedId = none := by
      cases hev : n.conn.pollEvent.2 with
      | none => rfl
      | some ev => cases ev <;> first | rfl | exact absurd hev (hne _)
    have hparty : Node.party (n.call .pollEvent) fs = n.party fs := by
      simp only [Node.party, Node.call, h, List.filterMap_append, Party.mk.injEq, true_and]
      cases hev : n.conn.pollEvent.2 with
      | none => simp
      | some ev =>
        rw [hev] at hid
        simpa using hid
    exact ⟨hP, W, G, W₁, hw, hparty ▸ .refl⟩

theorem call_advances (hP : P.InRange) (W : n.conn.Wf P) (G : n.conn.core.Good P)
    (hw : n.wire = fs.map Frame.encode) (k : Call) : Advances P n fs (n.call k) fs := by
  cases k with
  | «open» cls =>
    obtain ⟨h, W₁⟩ := Connection.open_refines W G cls
    exact .silent hP W G hw W₁ h
  | send id msg compress => exact send_advances hP W G hw id msg compress
  | recvMsg id => exact recvMsg_advances hP W G hw id
  | finish id =>
    obtain ⟨h, W₁⟩ := Connection.finish_refines W id
    exact .silent hP W G hw W₁ h
  | reset id code =>
    obtain ⟨h, W₁⟩ := Connection.reset_refines W id code
    exact .silent hP W G hw W₁ h
  | setClass id cls =>
    obtain ⟨h, W₁⟩ := Connection.setClass_refines W G id cls
    exact .same hP W G hw W₁ h
  | close reason =>
    obtain ⟨h, W₁⟩ := Connection.close_refines W reason
    exact .silent hP W G hw W₁ h
  | pollEvent => exact pollEvent_advances hP W G hw
  | setBytesSink => exact .same hP W G hw (W.of rfl rfl rfl rfl (fun h => h) W.active) rfl

theorem recv_advances (S : n.conn.Sound) (hw : n.wire = fs.map Frame.encode) (now : Instant)
    (bytes : Bytes) :
    ∃ P, Advances P n fs { n with conn := (n.conn.recv now bytes).1 } fs := by
  cases hf : Frame.parse bytes with
  | error e =>
    obtain ⟨P, hP, W, G⟩ := S
    obtain ⟨W₁, h⟩ := Connection.recv_garbled W now hf
    exact ⟨P, .silent hP W G hw W₁ h⟩
  | ok f =>
    obtain ⟨P, hP, W, G, hann⟩ := S.announces f
    obtain ⟨W₁, h⟩ := Connection.recv_refines W G now hf (Frame.streamId_lt hf) fun _ => hann
    refine ⟨P, ?_⟩
    split at h
    · exact .visible hP W G hw W₁ h fun {e} h => .consume h
    · exact .silent hP W G hw W₁ h

/-- Every input moves a sound connection to a sound one, by steps of its core. -/
theorem face_advances (S : n.conn.Sound) (hw : n.wire = fs.map Frame.encode)
    (H : n.face x = some n') : ∃ P fs', Advances P n fs n' fs' := by
  cases x with
  | call k =>
    cases H
    obtain ⟨P, hP, W, G⟩ := S
    exact ⟨P, fs, call_advances hP W G hw k⟩
  | handleTimeout now stillValid fuel =>
    obtain ⟨conn, hconn, rfl⟩ := Option.map_eq_some_iff.mp H
    obtain ⟨P, hP, W, G⟩ := S
    obtain ⟨h, W₁⟩ := Connection.handleTimeout_refines W hconn
    exact ⟨P, fs, .silent hP W G hw W₁ h⟩
  | pollTransmit =>
    cases H
    obtain ⟨P, hP, W, G⟩ := S
    generalize hr : n.conn.pollTransmit = r
    obtain ⟨conn, out⟩ := r
    obtain ⟨W₁, h⟩ := Connection.pollTransmit_refines W G hr
    cases out with
    | none => exact ⟨P, fs, by simpa using Advances.same hP W G hw W₁ h⟩
    | some bytes =>
      obtain ⟨f, rfl, hact⟩ := h
      refine ⟨P, fs ++ [f], .visible hP W G (by simp [hw]) W₁ hact fun {e} h => ?_⟩
      exact ⟨n.party fs, n.party fs, .emit h⟩
  | recv now bytes =>
    cases H
    obtain ⟨P, A⟩ := recv_advances S hw now bytes
    exact ⟨P, fs, A⟩

/-- What every input preserves holds in every state reached. -/
theorem exposed_induction {I : Node → Prop} {cfg : Config} {now : Instant} {inputs : List Input}
    (hinit : I (.new (.new cfg now)))
    (hstep : ∀ {n n' x}, n.conn.Sound → n.face x = some n' → I n → I n')
    (H : exposed cfg now inputs = some n) : n.conn.Sound ∧ I n := by
  have h := Automaton.run_invariant (p := fun _ => True)
    (I := fun n => (n.conn.Sound ∧ ∃ fs : List Frame, n.wire = fs.map Frame.encode) ∧ I n)
    (fun {n x n'} hn _ H => ?_) (fun _ _ => trivial)
    ⟨⟨Connection.sound_new cfg now, [], rfl⟩, hinit⟩ H
  · exact ⟨h.1.1, h.2⟩
  · obtain ⟨⟨S, fs, hw⟩, hI⟩ := hn
    obtain ⟨P, fs', A⟩ := face_advances S hw H
    exact ⟨⟨A.sound, fs', A.wire⟩, hstep S H hI⟩

theorem exposed_sound {cfg : Config} {now : Instant} {inputs : List Input}
    (H : exposed cfg now inputs = some n) : n.conn.Sound :=
  (exposed_induction (I := fun _ => True) trivial (fun _ _ _ => trivial) H).1

/-- What every step of a core preserves along with its records holds in every state reached. `P` are
the parameters in force, which do not matter before the handshake is done. -/
theorem exposed_invariant {I : Params → Party → Prop} {cfg : Config} {now : Instant}
    {inputs : List Input} (hinit : ∀ P, I P ((Node.new (.new cfg now)).party []))
    (hstep : ∀ {P : Params} {x x'}, P.InRange → x.e.Good P → Alone P x x' → I P x → I P x')
    (hearly : ∀ {P P' x}, x.e.hs ≠ .done → I P x → I P' x)
    (H : exposed cfg now inputs = some n) :
    ∃ P fs, n.conn.Wf P ∧ n.wire = fs.map Frame.encode ∧ I P (n.party fs) := by
  refine (exposed_induction
    (I := fun n => ∃ P fs, n.conn.Wf P ∧ n.wire = fs.map Frame.encode ∧ I P (n.party fs))
    ?_ (fun {n n' x} S H hn => ?_) H).2
  · obtain ⟨P, _, W, _⟩ := Connection.sound_new cfg now
    exact ⟨P, [], W, rfl, hinit P⟩
  · obtain ⟨P₀, fs, W₀, hw, hI⟩ := hn
    obtain ⟨P, fs', A⟩ := face_advances S hw H
    refine ⟨P, fs', A.wf, A.wire, A.moves.invariant A.inRange (hstep A.inRange) A.good ?_⟩
    by_cases hs : n.conn.hs = .done
    · have heq : some P₀ = some P := (W₀.params hs).symm.trans (A.before.params hs)
      exact Option.some.inj heq ▸ hI
    · exact hearly hs hI

end Node

end TunnelWeaver.Mux
