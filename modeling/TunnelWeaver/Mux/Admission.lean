import TunnelWeaver.Mux.Told

/-! Who a server lets in. The identity it reports comes from a HELLO whose signature covers the
nonce this very connection drew; the signed transcript determines all its components, and before
that HELLO no frame of a stream is processed. -/

namespace TunnelWeaver.Mux

/-! ## The transcript -/

theorem utf8Bytes_injective : Function.Injective utf8Bytes := by
  intro s s' h
  refine String.toByteArray_inj.mp (ByteArray.ext (Array.toList_inj.mp ?_))
  simpa [utf8Bytes] using h

/-- The bytes a channel binding adds. -/
def bindingBytes : Option (ByteArr 32) → Bytes
  | some cb => cb.1
  | none => []

theorem transcript_eq (nonceS nonceC : ByteArr 32) (name : String) (cb : Option (ByteArr 32)) :
    transcript nonceS nonceC name cb =
      transcriptPrefixBytes ++ (nonceS.1 ++ (nonceC.1 ++ (utf8Bytes name ++ bindingBytes cb))) := by
  cases cb <;> simp [transcript, bindingBytes]

theorem bindingBytes_length (cb : Option (ByteArr 32)) :
    (bindingBytes cb).length = if cb.isSome then 32 else 0 := by
  cases cb with
  | none => rfl
  | some cb => exact cb.2

/-- Among transcripts that agree on whether there is a channel binding, none is ambiguous. -/
theorem transcript_inj {nonceS nonceC nonceS' nonceC' : ByteArr 32} {name name' : String}
    {cb cb' : Option (ByteArr 32)} (hcb : cb.isSome = cb'.isSome)
    (h : transcript nonceS nonceC name cb = transcript nonceS' nonceC' name' cb') :
    nonceS = nonceS' ∧ nonceC = nonceC' ∧ name = name' ∧ cb = cb' := by
  rw [transcript_eq, transcript_eq, List.append_cancel_left_eq] at h
  obtain ⟨hs, h⟩ := List.append_inj h (by rw [nonceS.2, nonceS'.2])
  obtain ⟨hc, h⟩ := List.append_inj h (by rw [nonceC.2, nonceC'.2])
  obtain ⟨hn, hb⟩ := List.append_inj' h (by rw [bindingBytes_length, bindingBytes_length, hcb])
  refine ⟨Subtype.ext hs, Subtype.ext hc, utf8Bytes_injective hn, ?_⟩
  cases cb with
  | none =>
    cases cb' with
    | none => rfl
    | some _ => cases hcb
  | some cb =>
    cases cb' with
    | none => cases hcb
    | some cb' => exact congrArg some (Subtype.ext hb)

/-! ## The identity -/

/-- The key with the bytes a key id names. -/
def KeyId.publicKey : KeyId → PublicKey
  | .ed25519 key => .ed25519 key
  | .p256 key => .p256 key

section
variable [ThirdParty]

theorem verify_publicKey {k : KeyId} {pk : PublicKey} {msg : Bytes} {sig : Signature}
    (h : verify k pk msg sig = true) : pk = k.publicKey := by
  unfold verify at h
  split at h
  · split at h
    · cases h
    · rename_i hne
      exact congrArg PublicKey.ed25519 (not_not.mp hne).symm
  · split at h
    · cases h
    · rename_i hne
      exact congrArg PublicKey.p256 (not_not.mp hne).symm
  · cases h

/-- `hello` proves that its sender holds the key `k` names, to the server with this configuration:
the verifier knows the key, and the signature covers the nonce the connection drew. -/
structure Hello.Proves (cfg : Config) (verifier : Verifier) (hello : Hello) (k : KeyId) : Prop where
  keyId : hello.keyId = k
  known : verifier.publicKey k = some k.publicKey
  signed : verify k k.publicKey
    (transcript cfg.rng hello.nonceC cfg.serverName cfg.channelBinding) hello.sig = true

end

namespace Journal

variable {A : KeyId → Prop} {j j' : Journal}

theorem Calm.config (H : Calm A j j') : j'.cfg = j.cfg ∧ j'.nonceS = j.nonceS := by
  cases H <;> exact ⟨rfl, rfl⟩

/-- Neither the configuration nor the nonce ever changes. -/
theorem Evolves.config (H : Evolves A j j') : j'.cfg = j.cfg ∧ j'.nonceS = j.nonceS := by
  rcases H with H | H
  · induction H with
    | refl => exact ⟨rfl, rfl⟩
    | tail _ h ih => exact ⟨h.config.1.trans ih.1, h.config.2.trans ih.2⟩
  · cases H
    exact ⟨rfl, rfl⟩

end Journal

namespace Watch

variable [ThirdParty] {w : Watch} {cfg : Config} {now : Instant} {inputs : List Input}
  {verifier : Verifier} {params : Params} {reverify : Option Duration}

theorem exposed_config (hrole : cfg.role = .server verifier params reverify)
    (H : exposed cfg now inputs = some w) :
    w.node.conn.cfg = cfg.normalize ∧ w.node.conn.nonceS = some cfg.rng := by
  induction inputs using List.reverseRecOn generalizing w with
  | nil =>
    cases H
    simp [Watch.new, Node.new, Connection.new, Config.normalize, Role.normalize, hrole,
      Connection.fresh]
  | append_singleton inputs x ih =>
    obtain ⟨w₁, h₁, H⟩ := Automaton.run_append_eq_some.mp H
    rw [Automaton.run_singleton] at H
    have hn := exposed_node h₁
    obtain ⟨hcfg, hnonce⟩ :=
      (face_evolves (Node.exposed_sound hn) (Node.exposed_synced hn) H).config
    exact ⟨hcfg.trans (ih h₁).1, hnonce.trans (ih h₁).2⟩

/-- The identity a server reports was proved by a HELLO it received. -/
theorem exposed_identity (hrole : cfg.role = .server verifier params reverify)
    (H : exposed cfg now inputs = some w) {k : KeyId} {v : UInt16}
    (hk : .authenticated k v ∈ w.told) :
    ∃ t bytes f hello, .recv t bytes ∈ inputs ∧ Frame.parse bytes = .ok f ∧
      f.frameType = .hello ∧ ThirdParty.hello.decode f.payload = some hello ∧
      hello.Proves cfg verifier k := by
  induction inputs using List.reverseRecOn generalizing w with
  | nil =>
    cases H
    have hev : (Connection.new cfg now).events = [] := by
      simp [Connection.new, Config.normalize, hrole, Role.normalize, Connection.fresh]
    simp [told, Watch.new, Node.new, hev] at hk
  | append_singleton inputs x ih =>
    obtain ⟨w₁, h₁, H⟩ := Automaton.run_append_eq_some.mp H
    rw [Automaton.run_singleton] at H
    have hn := exposed_node h₁
    obtain ⟨es, T⟩ := (face_evolves (Node.exposed_sound hn) (Node.exposed_synced hn) H).tells
    have htold : w.told = w₁.told ++ es := T.told
    rw [htold] at hk
    rcases List.mem_append.mp hk with hk | hk
    · obtain ⟨t, bytes, f, hello, hin, h⟩ := ih h₁ hk
      exact ⟨t, bytes, f, hello, List.mem_append_left _ hin, h⟩
    · have hadm := T.identity k v hk
      cases x with
      | call k => cases hadm
      | handleTimeout now stillValid fuel => cases hadm
      | pollTransmit => cases hadm
      | recv t bytes =>
        obtain ⟨f, hf, hadm⟩ := hadm
        obtain ⟨hcfg, hnonce⟩ := exposed_config hrole h₁
        have hserver : w₁.node.conn.cfg.role = .server verifier params.normalize reverify := by
          simp [hcfg, Config.normalize, hrole, Role.normalize]
        obtain ⟨verifier', _, _, hello, pk, hr, ht, hd, hid, hpk, hv⟩ :=
          hadm (by simp [hserver, Role.isServer])
        rw [hserver, Role.server.injEq] at hr
        obtain ⟨rfl, -, -⟩ := hr
        obtain rfl := verify_publicKey hv
        refine ⟨t, bytes, f, hello, by simp, hf, ht, hd, hid, hpk, ?_⟩
        rw [hnonce, hcfg] at hv
        exact hv

/-- Every run of a node can be watched. -/
theorem exposed_watch {n : Node} (H : Node.exposed cfg now inputs = some n) :
    ∃ w, exposed cfg now inputs = some w ∧ w.node = n := by
  refine Automaton.run_simulation (R := fun n (w : Watch) => w.node = n) (p := fun _ => True)
    (f := face) (fun {n w x n'} hw _ H => ?_) (fun _ _ => trivial) rfl H
  subst hw
  unfold face
  rw [H]
  exact ⟨_, rfl, rfl⟩

/-- A connection that has reported no identity has not finished its handshake. -/
theorem exposed_waiting (H : exposed cfg now inputs = some w)
    (hk : ∀ e ∈ w.told, e.isAuthenticated = false) : w.node.conn.hs ≠ .done := by
  intro hs
  obtain ⟨k, v, rest, h⟩ := (exposed_contract H).first hs
  have h : w.told = .authenticated k v :: rest := h
  cases hk (.authenticated k v) (by simp [h])

end Watch

/-! ## Before the handshake -/

section
variable [ThirdParty]

/-- Before the handshake a frame of a stream is a protocol error, and nothing else comes of it. -/
theorem Connection.recv_early {c : Connection} (hs : c.hs ≠ .done) (hc : c.closed = none)
    {bytes : Bytes} {f : Frame} (hf : Frame.parse bytes = .ok f)
    (h : f.streamId ≠ 0 ∨ f.frameType.isStream = true ∨ f.frameType = .windowUpdate) (t : Instant) :
    ∃ timers e, c.recv t bytes = { c with timers }.fail e := by
  have hrecv : c.recv t bytes = (c.observe t).recvFrame (c.observe t).timers.lastNow f := by
    unfold recv
    dsimp only
    rw [if_neg (by simp [observe, hc]), hf]
  rw [hrecv]
  unfold recvFrame
  dsimp only
  generalize hc₁ : ({ c.observe t with
    timers := (c.observe t).timers.onRecv (c.observe t).timers.lastNow } : Connection) = c₁
  have hs₁ : c₁.hs ≠ .done := by
    subst hc₁
    exact hs
  have hd : ∃ e, c₁.dispatch (c.observe t).timers.lastNow f = (c₁, .error e) := by
    unfold dispatch
    split
    · rename_i hid
      have ht := h.resolve_left (not_not.mpr hid)
      cases hft : f.frameType with
      | «open» | data | fin | rst | windowUpdate => exact ⟨_, rfl⟩
      | _ =>
        rw [hft] at ht
        rcases ht with ht | ht <;> cases ht
    · exact ⟨_, by rw [afterAuth, if_neg hs₁]⟩
  obtain ⟨e, hd⟩ := hd
  rw [hd]
  subst hc₁
  exact ⟨_, e, rfl⟩

/-- A server reports `Authenticated` only for a key whose holder signed this connection's own
transcript in a HELLO that was received; the transcript determines its components, so with
signatures that verify for one message only, one made for another nonce, name or binding is never
accepted; and until then no frame of a stream is processed. -/
theorem authentication_sound {cfg : Config} {now : Instant} {inputs : List Input} {n : Node}
    {verifier : Verifier} {params : Params} {reverify : Option Duration}
    (hrole : cfg.role = .server verifier params reverify)
    (H : Node.exposed cfg now inputs = some n) :
    (∀ k v, .authenticated k v ∈ n.polled ++ n.conn.events →
      ∃ t bytes f hello, .recv t bytes ∈ inputs ∧ Frame.parse bytes = .ok f ∧
        f.frameType = .hello ∧ ThirdParty.hello.decode f.payload = some hello ∧
        hello.Proves cfg verifier k ∧
        ∀ madeFor : PublicKey → Signature → Bytes,
          (∀ k pk msg sig, verify k pk msg sig = true → madeFor pk sig = msg) →
          ∀ nonceS nonceC name cb, cb.isSome = cfg.channelBinding.isSome →
            madeFor k.publicKey hello.sig = transcript nonceS nonceC name cb →
            nonceS = cfg.rng ∧ nonceC = hello.nonceC ∧ name = cfg.serverName ∧
              cb = cfg.channelBinding) ∧
    (∀ nonceS nonceC name cb nonceS' nonceC' name' cb', Option.isSome cb = Option.isSome cb' →
      transcript nonceS nonceC name cb = transcript nonceS' nonceC' name' cb' →
      nonceS = nonceS' ∧ nonceC = nonceC' ∧ name = name' ∧ cb = cb') ∧
    ((∀ e ∈ n.polled ++ n.conn.events, e.isAuthenticated = false) →
      (∀ id, n.conn.streams.lookup id = none) ∧
      ∀ t bytes f, n.conn.closed = none → Frame.parse bytes = .ok f →
        (f.streamId ≠ 0 ∨ f.frameType.isStream = true ∨ f.frameType = .windowUpdate) →
        ∃ timers e, n.conn.recv t bytes = Connection.fail { n.conn with timers } e) := by
  obtain ⟨w, hw, rfl⟩ := Watch.exposed_watch H
  refine ⟨fun k v hk => ?_, fun _ _ _ _ _ _ _ _ hcb h => transcript_inj hcb h, fun hk => ?_⟩
  · obtain ⟨t, bytes, f, hello, hin, hf, ht, hd, hp⟩ := Watch.exposed_identity hrole hw hk
    refine ⟨t, bytes, f, hello, hin, hf, ht, hd, hp, fun madeFor hsig nonceS nonceC name cb hcb h => ?_⟩
    rw [hsig _ _ _ _ hp.signed] at h
    obtain ⟨hs, hc, hn, hb⟩ := transcript_inj hcb.symm h
    exact ⟨hs.symm, hc.symm, hn.symm, hb.symm⟩
  · have hs := Watch.exposed_waiting hw hk
    refine ⟨fun id => ?_, fun t bytes f hc hf h => Connection.recv_early hs hc hf h t⟩
    obtain ⟨P, _, _, G⟩ := Node.exposed_sound H
    have hidle := (G.idle fun hr => hs hr.done).1 id
    cases hl : w.node.conn.streams.lookup id with
    | none => rfl
    | some s =>
      rw [Connection.core_streams hl] at hidle
      cases hidle

end

open scoped Sample in
/-- The client of the samples is let in: its signature is for this server's nonce and name. -/
theorem authentication_sound_admitted :
    ∃ (n : Node) (hello : Hello), Node.exposed Sample.setup.server 0 Sample.admitted = some n ∧
      hello.Proves Sample.setup.server Sample.setup.verifier (.ed25519 Sample.key) ∧
      ∀ nonceS nonceC name, transcript Sample.nonceS Sample.nonceC Sample.serverName none =
        transcript nonceS nonceC name none → nonceS = Sample.setup.server.rng := by
  have h : (Node.exposed Sample.setup.server 0 Sample.admitted).any (fun n =>
    (n.polled ++ n.conn.events).contains (.authenticated (.ed25519 Sample.key) 1)) = true := by
    decide +kernel
  obtain ⟨n, hn, h⟩ := (Option.any_eq_true _ _).mp h
  obtain ⟨hid, _⟩ := authentication_sound Sample.setup.server_role hn
  obtain ⟨t, bytes, f, hello, _, _, _, _, hp, hmade⟩ :=
    hid (.ed25519 Sample.key) 1 (List.contains_iff_mem.mp h)
  refine ⟨n, hello, hn, hp, fun nonceS nonceC name heq => ?_⟩
  -- the sample verifier accepts one signature, of one message
  refine (hmade (fun _ _ => transcript Sample.nonceS Sample.nonceC Sample.serverName none)
    (fun k pk msg sig hv => ?_) nonceS nonceC name none rfl heq).1
  unfold verify at hv
  split at hv
  · split at hv
    · cases hv
    · exact (of_decide_eq_true hv).2.1.symm
  · split at hv
    · cases hv
    · cases hv
  · cases hv

end TunnelWeaver.Mux
