import TunnelWeaver.Mux.Tracking
import TunnelWeaver.Proto.Postcard
import TunnelWeaver.Server.Serving

/-! One stream of a relay: its connection, the exchange on it, the item on its way to the visitor and
the notes about it. `Lane.Move` is one thing the handler does as the stream sees it; every step of the
relay is a sequence of moves, unless it resets the stream or the network acts. -/

namespace TunnelWeaver.Server

open Mux (Bytes Call Compress Event StreamError StreamId ThirdParty Watch)
open Proto (BodyFrame CertStatus ControlReply HttpResponseHead Postcard RefusalCode)

/-- What there is of an exchange but for its request body. -/
def Exchange.down (ex : Exchange) : Exchange :=
  { ex with pendingBody := [], bodyResume := none, bodyDone := false }

/-- What an exchange leaves behind when its end of the body channel goes. -/
def Exchange.closing (ex : Exchange) (i : StreamId) : List Note :=
  if ex.bodyTx then [.bodyClosed i] else []

/-- Notes that only tell how far a request is. -/
def Note.isProgress : Note → Bool
  | .read .. | .sent .. | .unsent .. | .bodyEnd _ | .registered .. => true
  | _ => false

structure Lane where
  mux : Watch
  exchange : Option Exchange
  forward : Option BodyItem
  /-- The upgraded socket of the visitor is being read. -/
  piping : Bool
  log : List Note

def Relay.lane (r : Relay) (i : StreamId) : Lane where
  mux := r.mux
  exchange := r.inflight.lookup i
  forward := r.forwards.lookup i
  piping := r.pipes.contains i
  log := r.log.filter (·.streamId = some i)

/-- The handler reads what waits on stream `i`, if an exchange is on it. -/
def RelayAction.Reads [ThirdParty] (i : StreamId) (l : Lane) : RelayAction → Prop
  | .event .. => l.mux.node.conn.pollEvent.2 = some (.readable i)
  | .forwarded j => j = i
  | _ => False

namespace Lane

def note (l : Lane) (n : Note) : Lane := { l with log := l.log ++ [n] }

/-- With another exchange, its socket being read or not. -/
def holding (l : Lane) (exchange : Option Exchange) (piping : Bool) : Lane :=
  { l with exchange, piping }

/-- `Relay.removeExchange`. -/
def drop (l : Lane) (i : StreamId) : Lane :=
  match l.exchange with
  | none => l
  | some ex => { l with exchange := none, log := l.log ++ ex.closing i }

/-- `Relay.finishExchange`. -/
def finishExchange (l : Lane) (i : StreamId) : Lane :=
  match l.exchange with
  | none => l
  | some ex =>
    if ex.piped && !ex.visitorEof then
      { l with exchange := some { ex with bodyTx := false }, log := l.log ++ ex.closing i }
    else { l with exchange := none, log := l.log ++ ex.closing i }

/-- `Relay.clientFinished`. -/
def clientFinished (l : Lane) (i : StreamId) : Lane :=
  match l.exchange with
  | none => l
  | some ex =>
    let l := { l with exchange := some { ex with clientDone := true } }
    if !ex.forwarding && ex.pendingDown.isEmpty then l.finishExchange i else l

/-- `Relay.pumpDown`. -/
def pump (l : Lane) (i : StreamId) : Lane :=
  match l.exchange with
  | none => l
  | some ex =>
    if ex.forwarding then l
    else match ex.pendingDown with
      | item :: rest =>
        if ex.bodyTx then
          { l with
            forward := some item
            exchange := some { ex with
              pendingDown := rest
              forwarding := true
              downPaused := if rest.length ≤ downLowWater then false else ex.downPaused } }
        else { l with exchange := some { ex with pendingDown := rest } }
      | [] => if ex.clientDone then l.finishExchange i else l

/-- The connection has no part in pumping. -/
theorem pump_mux (l : Lane) (i : StreamId) (w : Watch) :
    ({ l with mux := w } : Lane).pump i = { l.pump i with mux := w } := by
  obtain ⟨mux, exchange, forward, piping, log⟩ := l
  cases exchange with
  | none => rfl
  | some ex =>
    simp only [pump, finishExchange]
    split
    · rfl
    · cases ex.pendingDown with
      | cons item rest => dsimp only; split <;> rfl
      | nil =>
        dsimp only
        split
        · split <;> rfl
        · rfl

theorem mux_pump (l : Lane) (i : StreamId) : (l.pump i).mux = l.mux := by
  have h := congrArg Lane.mux (pump_mux l i l.mux)
  exact h

section
variable [ThirdParty]

def finish (l : Lane) (i : StreamId) : Lane :=
  { l with mux := l.mux.call (.finish i) }.note (.finish i (l.mux.node.conn.finish i).2.isOk)

def reset (l : Lane) (i : StreamId) : Lane :=
  { l with mux := l.mux.call (.reset i Proto.ResetCode.cancelled.asU32) }.note (.reset i)

end

/-- An event about the stream reached the handler, which may give up a lease. -/
def Polled [ThirdParty] (l : Lane) (i : StreamId) (l' : Lane) : Prop :=
  l' = { l with mux := l.mux.call .pollEvent } ∨
    l' = { l with mux := l.mux.call .pollEvent }.finish i

theorem drop_piping [ThirdParty] (l : Lane) (i : StreamId) (piping : Bool) :
    ({ l with piping }.drop i).reset i = { (l.drop i).reset i with piping } := by
  unfold drop
  dsimp only
  split <;> rfl

/-- An exchange whose visitor waits for the response head. -/
structure Fresh (ex : Exchange) : Prop where
  responseTx : ex.responseTx.isSome = true
  bodyTx : ex.bodyTx = false
  pendingDown : ex.pendingDown = []
  forwarding : ex.forwarding = false
  clientDone : ex.clientDone = false
  piped : ex.piped = false

/-- The exchange after a final head, `upgraded` by it or not. -/
def headed (ex : Exchange) (upgraded : Bool) : Exchange :=
  if upgraded then { ex with responseTx := none, bodyTx := true, piped := true, onUpgrade := false }
  else { ex with responseTx := none, bodyTx := true }

/-- The exchange with one more item for the visitor. -/
def queued (ex : Exchange) (item : BodyItem) : Exchange :=
  let pendingDown := ex.pendingDown ++ [item]
  { ex with
    pendingDown
    downPaused := if downHighWater ≤ pendingDown.length then true else ex.downPaused }

variable [ThirdParty] [Postcard] [HttpTypes]

/-- One thing the handler does, for stream `i`; in some steps it also reads what waits there. -/
inductive Move (i : StreamId) (reads : Prop) : Lane → Lane → Prop where
  /-- Something about another stream. -/
  | call {l k} : k.streamId ≠ some i → k ≠ .pollEvent → Move i reads l { l with mux := l.mux.call k }
  | poll {l ev} : l.mux.node.conn.pollEvent.2 = some ev → ev ≠ .finished i →
    (∀ code, ev ≠ .reset i code) → Move i reads l { l with mux := l.mux.call .pollEvent }
  | send {l msg compress} : Move i reads l { l with mux := l.mux.call (.send i msg compress) }
  | setClass {l cls} : Move i reads l { l with mux := l.mux.call (.setClass i cls) }
  | finish {l} : Move i reads l (l.finish i)
  | note {l n} : n.streamId = some i → n.isProgress = true → Move i reads l (l.note n)
  /-- A control stream is read, or refused. -/
  | control {l} : l.exchange = none → Move i reads l { l with mux := l.mux.call (.recvMsg i) }
  | refuse {l} : l.exchange = none → Move i reads l (l.reset i)
  | opened {l cls msg compress ex} : (l.mux.node.conn.open cls).2 = .ok i → Fresh ex →
    Move i reads l ({ l with
      mux := (l.mux.call (.open cls)).call (.send i msg compress)
      exchange := some ex }.note (.opened i))
  | upload {l ex ex'} : l.exchange = some ex → ex'.down = ex.down →
    Move i reads l { l with exchange := some ex' }
  /-- The visitor's upgraded socket is at its end, or nobody reads it any more. -/
  | eof {l piping} : Move i reads l ({ l with
      piping
      exchange := l.exchange.map fun ex : Exchange => { ex with visitorEof := true } }.pump i)
  | unpiped {l piping} : l.exchange = none → Move i reads l { l with piping }
  | empty {l e} : (l.mux.node.conn.recvMsg i).2 = .error e →
    Move i reads l { l with mux := l.mux.call (.recvMsg i) }
  | interim {l ex tx msg head} : reads → l.exchange = some ex → ex.responseTx = some tx →
    (l.mux.node.conn.recvMsg i).2 = .ok msg → Postcard.responseHead.decode msg = .ok head →
    Relay.isInterim ex.onUpgrade head = true →
    Move i reads l ({ l with mux := l.mux.call (.recvMsg i) }.pump i)
  | badHead {l ex tx msg text} : reads → l.exchange = some ex → ex.responseTx = some tx →
    (l.mux.node.conn.recvMsg i).2 = .ok msg → Postcard.responseHead.decode msg = .error text →
    Move i reads l (({ l with
      mux := l.mux.call (.recvMsg i)
      exchange := some { ex with responseTx := none } }.reset i).pump i)
  | head {l ex tx msg head} : reads → l.exchange = some ex → ex.responseTx = some tx →
    (l.mux.node.conn.recvMsg i).2 = .ok msg → Postcard.responseHead.decode msg = .ok head →
    Relay.isInterim ex.onUpgrade head = false →
    Move i reads l ({ l with
      mux := l.mux.call (.recvMsg i)
      piping := l.piping || (head.status == 101 && ex.onUpgrade)
      exchange := some (headed ex (head.status == 101 && ex.onUpgrade)) }.pump i)
  | body {l ex msg} : reads → l.exchange = some ex → ex.responseTx = none → ex.bodyTx = true →
    (l.mux.node.conn.recvMsg i).2 = .ok msg →
    Move i reads l ({ l with
      mux := l.mux.call (.recvMsg i)
      exchange := some (queued ex (Relay.bodyItem msg)) }.pump i)
  | ignored {l ex msg} : reads → l.exchange = some ex → ex.responseTx = none → ex.bodyTx = false →
    (l.mux.node.conn.recvMsg i).2 = .ok msg →
    Move i reads l ({ l with mux := l.mux.call (.recvMsg i) }.pump i)
  | pump {l} : Move i reads l (l.pump i)
  | forwarded {l item} : l.forward = some item → Move i reads l ({ l with
      forward := none
      exchange := l.exchange.map fun ex : Exchange => { ex with forwarding := false } }.note
        (.delivered i item) |>.pump i)
  | finished {l l'} : l.mux.node.conn.pollEvent.2 = some (.finished i) → l.Polled i l' →
    Move i reads l (l'.clientFinished i)

abbrev Path (i : StreamId) (reads : Prop) : Lane → Lane → Prop :=
  Relation.ReflTransGen (Move i reads)

/-- A step of the relay, for stream `i`. -/
inductive Step (i : StreamId) : RelayAction → Lane → Lane → Prop where
  | moves {a l l'} : Path i (a.Reads i l) l l' → Step i a l l'
  | network {a l x w} : (∀ k, x = .call k → ∃ reason, k = .close reason) →
    l.mux.face x = some w → Step i a l { l with mux := w }
  | reset {closeTx now code l l'} : l.mux.node.conn.pollEvent.2 = some (.reset i code) →
    l.Polled i l' → Step i (.event closeTx now) l (l'.drop i)
  | bodyFailed {l} : Step i (.bodyFailed i) l ((l.drop i).reset i)
  | pipeFailed {l piping} : Step i (.pipeFailed i) l { (l.drop i).reset i with piping }

end Lane

namespace Relay

open Lane (Move Path)

variable {i id : StreamId} {r r' : Relay} {reads : Prop}

/-! ## The lane of a changed relay -/

theorem exchange_lane : (r.lane i).exchange = r.inflight.lookup i := rfl

theorem lane_note_self {n : Note} (hn : n.streamId = some i) :
    (r.note n).lane i = (r.lane i).note n := by
  simp only [lane, Relay.note, Lane.note, List.filter_append]
  simp [hn]

theorem lane_note_other {n : Note} (hn : n.streamId ≠ some i) : (r.note n).lane i = r.lane i := by
  simp only [lane, Relay.note, List.filter_append]
  simp [hn]

theorem lane_setExchange (ex : Exchange) :
    (r.setExchange i ex).lane i = { r.lane i with exchange := some ex } := by
  simp only [lane, setExchange, AList.lookup_insert]

theorem lane_note_closing (ex : Exchange) :
    (if ex.bodyTx then r.note (.bodyClosed i) else r).lane i =
      { r.lane i with log := (r.lane i).log ++ ex.closing i } := by
  unfold Exchange.closing
  split
  · exact lane_note_self rfl
  · rw [List.append_nil]

theorem lane_removeExchange : (r.removeExchange i).lane i = (r.lane i).drop i := by
  unfold Lane.drop removeExchange
  rw [exchange_lane]
  cases r.inflight.lookup i with
  | none => rfl
  | some ex =>
    dsimp only
    rw [lane_note_closing]
    simp only [lane, AList.lookup_erase]

theorem lane_finishExchange : (r.finishExchange i).lane i = (r.lane i).finishExchange i := by
  unfold Lane.finishExchange finishExchange
  rw [exchange_lane]
  cases hex : r.inflight.lookup i with
  | none => rfl
  | some ex =>
    dsimp only
    split
    · rw [lane_note_closing, lane_setExchange]
    · have hlane : (r.lane i).exchange = some ex := hex
      rw [lane_removeExchange, Lane.drop, hlane]

theorem lane_clientFinished : (r.clientFinished i).lane i = (r.lane i).clientFinished i := by
  unfold Lane.clientFinished clientFinished
  rw [exchange_lane]
  cases r.inflight.lookup i with
  | none => rfl
  | some ex =>
    dsimp only
    split
    · rw [lane_finishExchange, lane_setExchange]
    · rw [lane_setExchange]

theorem lane_streamReset (code : UInt32) : (r.streamReset i code).lane i = (r.lane i).drop i := by
  unfold streamReset
  split
  · rename_i hex
    rw [Lane.drop, exchange_lane, hex]
  · dsimp only
    split
    · exact lane_removeExchange
    · rw [lane_note_other (n := .response ..) (by rintro ⟨⟩)]
      exact lane_removeExchange

theorem lane_pumpDown : (r.pumpDown i).lane i = (r.lane i).pump i := by
  unfold Lane.pump pumpDown
  rw [exchange_lane]
  cases r.inflight.lookup i with
  | none => rfl
  | some ex =>
    dsimp only
    split
    · rfl
    · cases ex.pendingDown with
      | nil =>
        dsimp only
        split
        · exact lane_finishExchange
        · rfl
      | cons item rest =>
        dsimp only
        split
        · rw [lane_setExchange]
          simp only [lane, AList.lookup_insert]
        · rw [lane_setExchange]

theorem lane_wakeReader (ex : Exchange) : (r.wakeReader ex).1.lane i = r.lane i := by
  unfold wakeReader
  split
  · split
    · exact lane_note_other (by rintro ⟨⟩)
    · rfl
  · rfl

theorem down_wakeReader (ex : Exchange) : (r.wakeReader ex).2.down = ex.down := by
  unfold wakeReader
  split
  · split <;> rfl
  · rfl

theorem lane_startPipe : (r.startPipe i).lane i = { r.lane i with piping := true } := by
  simp [startPipe, lane]

section
variable [ThirdParty]

theorem lane_finish : (r.finish i).lane i = (r.lane i).finish i := lane_note_self rfl

theorem lane_reset : (r.reset i).lane i = (r.lane i).reset i := lane_note_self rfl

theorem lane_setClass (cls : Mux.Class) : (r.setClass i cls).lane i =
    { r.lane i with mux := r.mux.call (.setClass i cls) } := rfl

theorem lane_send (msg : Bytes) (compress : Compress) :
    (r.send i msg compress).1.lane i =
      { r.lane i with mux := r.mux.call (.send i msg compress) } := rfl

theorem lane_classify (req : Proto.HttpHead) (head : HttpResponseHead) :
    (r.classify i req head).lane i = { r.lane i with mux := (r.classify i req head).mux } := by
  unfold classify
  split <;> rfl

/-- Giving up a lease at most finishes the stream. -/
theorem lane_releaseLease (now : Int) : (r.releaseLease i now).lane i = r.lane i ∨
    (r.releaseLease i now).lane i = (r.lane i).finish i := by
  unfold releaseLease
  split
  · dsimp only
    split <;> exact .inr (lane_finish (r := _))
  · exact .inl rfl
  · exact .inl rfl
  · exact .inl rfl

theorem polled_releaseLease (now : Int) : (r.lane i).Polled i
    ((({ r with mux := r.mux.call .pollEvent }.forgetStream i).releaseLease i now).lane i) := by
  rcases lane_releaseLease (i := i) (r := { r with mux := r.mux.call .pollEvent }.forgetStream i)
    now with h | h
  · exact .inl h
  · exact .inr h

theorem serves_readers {readers : List StreamId} (h : ∀ i, i ≠ id → (i ∈ readers ↔ i ∈ r.readers)) :
    Serves id r { r with readers } :=
  .quiet rfl (fun i hi => { Aside.refl with readers := h i hi }) rfl rfl

theorem serves_pipes {pipes : List StreamId} (h : ∀ i, i ≠ id → (i ∈ pipes ↔ i ∈ r.pipes)) :
    Serves id r { r with pipes } :=
  .quiet rfl (fun i hi => { Aside.refl with pipes := h i hi }) rfl rfl

theorem serves_stopReader : Serves id r (r.stopReader id) :=
  serves_readers fun _ hi => List.mem_erase_of_ne hi

theorem serves_stopPipe : Serves id r (r.stopPipe id) :=
  serves_pipes fun _ hi => List.mem_erase_of_ne hi

/-- A stream sees nothing of the others but the calls on the connection. -/
theorem Serves.lane (S : Serves id r r') (hi : i ≠ id) : ∃ ks : List Call,
    (∀ k ∈ ks, k.streamId = some id) ∧
      r'.lane i = { r.lane i with mux := ks.foldl Watch.call r.mux } := by
  obtain ⟨ks, hks, hmux⟩ := S.calls
  obtain ⟨hinflight, -, -, -, hforwards, -, hpipes, notes, hlog, hnotes⟩ := S.aside i hi
  refine ⟨ks, hks, ?_⟩
  have hnone : notes.filter (·.streamId = some i) = [] := by
    rw [List.filter_eq_nil_iff]
    intro n hn
    simpa using hnotes n hn
  have hcontains : r'.pipes.contains i = r.pipes.contains i := by
    rw [Bool.eq_iff_iff, List.contains_iff_mem, List.contains_iff_mem]
    exact hpipes
  simp only [Relay.lane, hmux, hinflight, hforwards, hcontains, hlog, List.filter_append, hnone,
    List.append_nil]

variable [Postcard]

theorem down_drainRequestBody (ex : Exchange) : (r.drainRequestBody i ex).2.down = ex.down := by
  unfold drainRequestBody
  split
  · rfl
  · exact down_wakeReader _

theorem lane_setDrained (ex : Exchange) :
    ((r.drainRequestBody i ex).1.setExchange i (r.drainRequestBody i ex).2).lane i =
      ((r.drainRequestBody i ex).1.lane i).holding (some (r.drainRequestBody i ex).2)
        (r.lane i).piping := by
  rw [lane_setExchange, Lane.holding]
  simp only [lane, (tables_drainRequestBody ex).pipes]

theorem inflight_reply (reply : ControlReply) : (r.reply i reply).inflight = r.inflight := by
  unfold Relay.reply
  cases Postcard.controlReply.encode reply <;> dsimp only <;> split <;> rfl

theorem inflight_onFirstMessage (msg : Bytes) :
    (r.onFirstMessage i msg).inflight = r.inflight := by
  unfold onFirstMessage
  split
  · split
    · split
      · exact inflight_reply _
      · split <;> rfl
    · rfl
  · rfl

variable [HttpTypes]

theorem path_calls {l : Lane} {ks : List Call}
    (hks : ∀ k ∈ ks, k.streamId ≠ some i ∧ k ≠ .pollEvent) :
    Path i reads l { l with mux := ks.foldl Watch.call l.mux } := by
  induction ks generalizing l with
  | nil => exact .refl
  | cons k ks ih =>
    obtain ⟨hk, hks⟩ := List.forall_mem_cons.mp hks
    exact .head (.call hk.1 hk.2) (ih hks)

theorem Serves.path (S : Serves id r r') (hi : i ≠ id) : Path i reads (r.lane i) (r'.lane i) := by
  obtain ⟨ks, hks, hlane⟩ := S.lane hi
  rw [hlane]
  refine path_calls fun k hk => ?_
  rw [hks k hk]
  refine ⟨fun heq => hi (Option.some.inj heq).symm, ?_⟩
  rintro rfl
  cases hks _ hk

omit [Postcard] [HttpTypes] in
/-! ## Request bodies -/

/-- Sending leaves what the handler holds of the exchange alone. -/
theorem path_sendQueued (e : Option Exchange) (b : Bool) (compress : Compress)
    (queue : List BodyFrame) : Path i reads ((r.lane i).holding e b)
      (((sendQueued i compress queue r).1.lane i).holding e b) := by
  induction queue generalizing r with
  | nil => exact .refl
  | cons frame rest ih =>
    unfold sendQueued
    split
    · rw [lane_note_self rfl]
      exact .single (.note rfl rfl)
    · rename_i bytes _
      have hsend : Path i reads ((r.lane i).holding e b)
          (((r.send i bytes compress).1.lane i).holding e b) := .single .send
      split
      · rename_i r₁ heq
        rw [heq] at hsend
        have hnote : Path i reads ((r₁.lane i).holding e b)
            (((r₁.note (.sent i frame)).lane i).holding e b) := by
          rw [lane_note_self rfl]
          exact .single (.note rfl rfl)
        exact (hsend.trans hnote).trans ih
      · rename_i r₁ heq
        rw [heq] at hsend
        exact hsend
      · rename_i r₁ e₁ _ heq
        rw [heq] at hsend
        rw [lane_note_self rfl]
        exact hsend.tail (.note rfl rfl)

theorem path_drainRequestBody (e : Option Exchange) (b : Bool) (ex : Exchange) :
    Path i reads ((r.lane i).holding e b) (((r.drainRequestBody i ex).1.lane i).holding e b) := by
  have hsend : Path i reads ((r.lane i).holding e b)
      (((sendQueued i ex.bodyCompress ex.pendingBody r).1.lane i).holding e b) :=
    path_sendQueued e b ..
  unfold drainRequestBody
  split
  · rename_i r₁ heq
    rw [heq] at hsend
    exact hsend
  · rename_i r₁ queue heq
    rw [heq] at hsend
    have hwake := lane_wakeReader (i := i) (r := r₁) { ex with pendingBody := queue }
    dsimp only
    split
    · rw [lane_finish, hwake]
      exact hsend.tail .finish
    · rw [hwake]
      exact hsend

/-- The request body of an exchange is drained after it changed. -/
theorem path_setDrained {ex : Exchange} (ex' : Exchange) (h : r.inflight.lookup i = some ex)
    (hdown : ex'.down = ex.down) : Path i reads (r.lane i)
      ((r.drainRequestBody i ex').1.setExchange i (r.drainRequestBody i ex').2 |>.lane i) := by
  have hdrain := @path_drainRequestBody i r reads _ _ _ (some ex) (r.lane i).piping ex'
  rw [← h, ← exchange_lane] at hdrain
  rw [lane_setDrained]
  exact hdrain.tail (.upload h ((down_drainRequestBody ex').trans hdown))

theorem path_drainBody {f : Exchange → Exchange} (hf : ∀ ex, (f ex).down = ex.down) :
    Path i reads (r.lane i) ((r.drainBody i f).lane i) := by
  unfold drainBody
  split
  · exact .refl
  · rename_i ex hex
    exact path_setDrained _ hex (hf ex)

theorem path_pushFrame (frame : BodyFrame) (room : Oneshot) :
    Path i reads (r.lane i) ((r.pushFrame i frame room).lane i) := by
  have hread : Path i reads (r.lane i) ((r.note (.read i frame)).lane i) := by
    rw [lane_note_self rfl]
    exact .single (.note rfl rfl)
  unfold pushFrame
  dsimp only
  split
  · exact hread
  · rename_i ex hex
    refine hread.trans ?_
    have hset := @path_setDrained i _ reads _ _ _ ex
      { ex with pendingBody := ex.pendingBody ++ [frame] } hex rfl
    rw [lane_setExchange] at hset
    split
    · rw [lane_setExchange, lane_note_other (n := .room room) (by rintro ⟨⟩)]
      exact hset
    · rw [lane_setExchange]
      exact hset.tail (.upload rfl rfl)

/-- The visitor's socket ended: its exchange is drained, and over if the client is done. -/
theorem path_pipeEof : Path i reads (r.lane i)
    (((r.stopPipe i).note (.bodyEnd i)).drainBody i (fun ex =>
      { ex with visitorEof := true, bodyDone := true }) |>.pumpDown i |>.lane i) := by
  have hend : Path i reads (r.lane i) ((r.lane i).note (.bodyEnd i)) := .single (.note rfl rfl)
  have hlane : ((r.stopPipe i).note (.bodyEnd i)).lane i =
      ((r.lane i).note (.bodyEnd i)).holding (r.lane i).exchange ((r.stopPipe i).lane i).piping := by
    rw [lane_note_self rfl]
    rfl
  refine hend.trans ?_
  rw [lane_pumpDown]
  unfold drainBody
  split
  · rename_i hex
    rw [hlane]
    have hmove := @Move.eof _ _ _ i reads ((r.lane i).note (.bodyEnd i)) ((r.stopPipe i).lane i).piping
    have hex : ((r.lane i).note (.bodyEnd i)).exchange = none := hex
    rw [hex] at hmove
    have hnone : (r.lane i).exchange = none := hex
    rw [hnone]
    exact .single hmove
  · rename_i ex hex
    dsimp only
    rw [lane_setDrained]
    have hdrain := @path_drainRequestBody i ((r.stopPipe i).note (.bodyEnd i)) reads _ _ _ (some ex)
      (r.lane i).piping { ex with visitorEof := true, bodyDone := true }
    have hdown := down_drainRequestBody (r := (r.stopPipe i).note (.bodyEnd i)) (i := i)
      { ex with visitorEof := true, bodyDone := true }
    generalize drainRequestBody _ _ _ = x at hdrain hdown
    have hex : (r.lane i).exchange = some ex := hex
    rw [hlane, ← hex] at hdrain
    have hupload : Move i reads ((x.1.lane i).holding (r.lane i).exchange (r.lane i).piping)
        ((x.1.lane i).holding (some { x.2 with visitorEof := ex.visitorEof }) (r.lane i).piping) := by
      refine .upload hex ?_
      have hsame := congrArg (fun e : Exchange => { e with visitorEof := ex.visitorEof }) hdown
      exact hsame
    have heof : ({ x.2 with visitorEof := true } : Exchange) = x.2 := by
      have hv : x.2.down.visitorEof = true := congrArg Exchange.visitorEof hdown
      have hv : x.2.visitorEof = true := hv
      rw [← hv]
    have hmove := @Move.eof _ _ _ i reads
      ((x.1.lane i).holding (some { x.2 with visitorEof := ex.visitorEof }) (r.lane i).piping)
      (((r.stopPipe i).note (.bodyEnd i)).lane i).piping
    have hmap : (((x.1.lane i).holding (some { x.2 with visitorEof := ex.visitorEof })
        (r.lane i).piping).exchange.map fun ex : Exchange => { ex with visitorEof := true }) =
        some x.2 := congrArg some heof
    rw [hmap] at hmove
    exact (hdrain.tail hupload).tail hmove

/-! ## Control streams -/

theorem path_reply (reply : ControlReply) : Path i reads (r.lane i) ((r.reply i reply).lane i) := by
  have hfinish {r : Relay} : Path i reads (r.lane i) ((r.finish i).lane i) := by
    rw [lane_finish]
    exact .single .finish
  unfold Relay.reply
  cases Postcard.controlReply.encode reply with
  | ok bytes =>
    have hsend : Path i reads (r.lane i) ((r.send i bytes Proto.Policy.controlCompress).1.lane i) :=
      .single .send
    dsimp only
    split
    · exact hsend.trans hfinish
    · exact hsend
  | error =>
    dsimp only
    split
    · exact hfinish
    · exact .refl

theorem path_onFirstMessage (h : r.inflight.lookup i = none) (msg : Bytes) :
    Path i reads (r.lane i) ((r.onFirstMessage i msg).lane i) := by
  have hreset : Path i reads (r.lane i) ((r.reset i).lane i) := by
    rw [lane_reset]
    exact .single (.refuse h)
  unfold onFirstMessage
  split
  · split
    · split
      · exact path_reply _
      · split <;> exact .refl
    · exact hreset
  · exact hreset

theorem path_readControl (fuel : Nat) (h : r.inflight.lookup i = none) :
    Path i reads (r.lane i) ((readControl i fuel r).lane i) := by
  induction fuel generalizing r with
  | zero => exact .refl
  | succ fuel ih =>
    have hrecv : Path i reads (r.lane i) ((r.recvMsg i).1.lane i) := .single (.control h)
    have hinflight : (r.recvMsg i).1.inflight.lookup i = none := h
    unfold readControl
    split
    · rename_i r₁ msg heq
      rw [heq] at hrecv hinflight
      refine hrecv.trans ?_
      split
      · exact ih hinflight
      · refine (path_onFirstMessage hinflight msg).trans (ih ?_)
        rw [inflight_onFirstMessage]
        exact hinflight
    · rename_i r₁ e heq
      rw [heq] at hrecv
      exact hrecv

theorem path_onRegistered (call : Registry.RegisterCall) (result : Except RefusalCode String)
    (now : Int) : Path i reads (r.lane i) ((r.onRegistered i call result now).lane i) := by
  unfold onRegistered
  split
  · rename_i hostname
    split
    · exact .refl
    · have hnote : Path i reads (r.lane i) (({ r with
          leases := r.leases.insert i (.registered hostname)
          watches := (i, hostname) :: r.watches }.note
            (.registered i call.service hostname)).lane i) := by
        rw [lane_note_self rfl]
        exact .single (.note rfl rfl)
      exact hnote.trans (path_reply _)
  · exact path_reply (r := { r with leases := r.leases.erase i }) _

theorem path_pushCertState (status : CertStatus) :
    Path i reads (r.lane i) ((r.pushCertState i status).lane i) := by
  unfold pushCertState
  split
  · split
    · exact .single .send
    · exact .refl
  · exact .refl

/-! ## Responses -/

theorem path_classify {l : Lane} (hl : l.mux = r.mux) (req : Proto.HttpHead)
    (head : HttpResponseHead) : Path i reads l { l with mux := (r.classify i req head).mux } := by
  unfold classify
  split
  · rename_i cls _
    have hmove := @Move.setClass _ _ _ i reads l cls
    rw [hl] at hmove
    exact .single hmove
  · rw [← hl]

theorem path_onHead (hr : reads) {ex : Exchange} {tx : Oneshot} {msg : Bytes}
    (h : r.inflight.lookup i = some ex) (htx : ex.responseTx = some tx)
    (hmsg : (r.mux.node.conn.recvMsg i).2 = .ok msg) :
    Path i reads (r.lane i) ((((r.recvMsg i).1.onHead i ex tx msg).1.setExchange i
      ((r.recvMsg i).1.onHead i ex tx msg).2).pumpDown i |>.lane i) := by
  rw [lane_pumpDown, lane_setExchange]
  unfold onHead
  split
  · rename_i text hdecode
    dsimp only
    rw [lane_reset, lane_note_other (n := .response ..) (by rintro ⟨⟩)]
    exact .single (.badHead hr h htx hmsg hdecode)
  · rename_i head hdecode
    split
    · rename_i hinterim
      have hmove := Move.interim (l := r.lane i) hr h htx hmsg hdecode hinterim
      have hsame : { (r.recvMsg i).1.lane i with exchange := some ex } =
          { r.lane i with mux := r.mux.call (.recvMsg i) } := by
        rw [← h]
        rfl
      dsimp only
      rw [hsame]
      exact .single hmove
    · rename_i hfinal
      have hmove := Move.head (l := r.lane i) hr h htx hmsg hdecode (Bool.eq_false_iff.mpr hfinal)
      have hpath := (Relation.ReflTransGen.single hmove).trans
        (path_classify (r := (r.recvMsg i).1) (Lane.mux_pump _ i) ex.req head)
      rw [← Lane.pump_mux] at hpath
      dsimp only
      split
      · rename_i hupgrade
        rw [hupgrade, Lane.headed, if_pos rfl, Bool.or_true] at hpath
        have hpipe := hpath.tail (@Move.setClass _ _ _ i reads _ .realtime)
        rw [← Lane.pump_mux, Lane.mux_pump] at hpipe
        dsimp only
        rw [lane_startPipe, lane_setClass, lane_note_other (n := .response ..) (by rintro ⟨⟩),
          lane_classify]
        exact hpipe
      · rename_i hupgrade
        rw [Bool.eq_false_iff.mpr hupgrade, Lane.headed, if_neg (by rintro ⟨⟩), Bool.or_false] at hpath
        dsimp only
        rw [lane_note_other (n := .response ..) (by rintro ⟨⟩), lane_classify]
        exact hpath

theorem path_onVisitorMessage (hr : reads) {ex : Exchange} {msg : Bytes}
    (h : r.inflight.lookup i = some ex)
    (hmsg : (r.mux.node.conn.recvMsg i).2 = .ok msg) :
    Path i reads (r.lane i) ((((r.recvMsg i).1.onVisitorMessage i ex msg).1.setExchange i
      ((r.recvMsg i).1.onVisitorMessage i ex msg).2).pumpDown i |>.lane i) := by
  unfold onVisitorMessage
  split
  · rename_i tx htx
    exact path_onHead hr h htx hmsg
  · rename_i htx
    rw [lane_pumpDown, lane_setExchange]
    split
    · rename_i hbody
      exact .single (.body hr h htx hbody hmsg)
    · rename_i hbody
      have hmove := Move.ignored (l := r.lane i) hr h htx (Bool.eq_false_iff.mpr hbody) hmsg
      have hsame : { (r.recvMsg i).1.lane i with exchange := some ex } =
          { r.lane i with mux := r.mux.call (.recvMsg i) } := by
        rw [← h]
        rfl
      rw [hsame]
      exact .single hmove

theorem path_readExchange (hr : reads) (fuel : Nat) :
    Path i reads (r.lane i) ((readExchange i fuel r).lane i) := by
  induction fuel generalizing r with
  | zero => exact .refl
  | succ fuel ih =>
    unfold readExchange
    split
    · exact .refl
    · rename_i ex hex
      split
      · exact .refl
      · split
        · rename_i r₁ msg heq
          have hmsg : (r.mux.node.conn.recvMsg i).2 = .ok msg := congrArg Prod.snd heq
          have hrecv : (r.recvMsg i).1 = r₁ := congrArg Prod.fst heq
          have hpath := path_onVisitorMessage hr hex hmsg
          rw [hrecv] at hpath
          exact hpath.trans ih
        · rename_i r₁ e heq
          have hmsg : (r.mux.node.conn.recvMsg i).2 = .error e := congrArg Prod.snd heq
          have hrecv : (r.recvMsg i).1 = r₁ := congrArg Prod.fst heq
          rw [← hrecv]
          exact .single (.empty hmsg)

theorem path_drainInbox (hr : reads) : Path i reads (r.lane i) ((r.drainInbox i).lane i) := by
  have hpump : Path i reads (r.lane i) ((r.pumpDown i).lane i) := by
    rw [lane_pumpDown]
    exact .single .pump
  exact hpump.trans (path_readExchange hr _)

theorem path_forwarded (hr : reads) {item : BodyItem} (h : r.forwards.lookup i = some item)
    (hlane : r'.lane i = { r.lane i with
      forward := none
      exchange := (r.lane i).exchange.map fun ex : Exchange => { ex with forwarding := false } }.note
        (.delivered i item)) : Path i reads (r.lane i) ((r'.drainInbox i).lane i) := by
  have hmove : Move i reads (r.lane i) _ := .forwarded h
  rw [← hlane, ← lane_pumpDown] at hmove
  exact .head hmove (path_readExchange hr _)

/-! ## Events -/

theorem path_finished (h : r.mux.node.conn.pollEvent.2 = some (.finished i)) (closeTx : Oneshot)
    (now : Int) : Path i reads (r.lane i)
      (({ r with mux := r.mux.call .pollEvent }.onEvent closeTx now (.finished i)).lane i) := by
  have hmove := @Move.finished _ _ _ i reads _ _ h (polled_releaseLease now)
  rw [← lane_clientFinished] at hmove
  exact .single hmove

/-- The events that do not end the stream. -/
theorem path_onEvent {ev : Event} (h : r.mux.node.conn.pollEvent.2 = some ev)
    (hreads : ev = .readable i → reads) (hreset : ∀ code, ev ≠ .reset i code)
    (closeTx : Oneshot) (now : Int) : Path i reads (r.lane i)
      (({ r with mux := r.mux.call .pollEvent }.onEvent closeTx now ev).lane i) := by
  by_cases hfin : ev = .finished i
  · subst hfin
    exact path_finished h closeTx now
  have hpoll : Path i reads (r.lane i) ({ r with mux := r.mux.call .pollEvent }.lane i) :=
    .single (.poll h hfin hreset)
  refine hpoll.trans ?_
  generalize { r with mux := r.mux.call .pollEvent } = r₁
  cases hid : ev.streamId with
  | none =>
    cases ev with
    | authenticated keyId version => exact .refl
    | rejected => exact .refl
    | closed reason =>
      simp only [onEvent]
      split <;> exact .refl
    | streamOpened | readable | writable | finished | reset => cases hid
  | some j =>
    by_cases hj : i = j
    · subst hj
      cases ev with
      | authenticated | rejected | closed => cases hid
      | streamOpened => exact .refl
      | readable j =>
        cases hid
        simp only [onEvent]
        split
        · exact path_drainInbox (hreads rfl)
        · rename_i hex
          exact path_readControl _ (Option.not_isSome_iff_eq_none.mp hex)
      | writable j credit =>
        cases hid
        exact path_drainBody fun _ => rfl
      | finished j =>
        cases hid
        exact absurd rfl hfin
      | reset j code =>
        cases hid
        exact absurd rfl (hreset code)
    · exact (serves_onEvent hid closeTx now).path hj

/-! ## Steps -/

/-- There is no exchange on a stream that may still be opened. -/
def OpensFresh (r : Relay) : Prop :=
  ∀ cls id, (r.mux.node.conn.open cls).2 = .ok id → r.inflight.lookup id = none

theorem path_openVisitorStream (hfresh : r.OpensFresh) (req : ProxyRequest) (now : Int) :
    Path i reads (r.lane i) ((r.openVisitorStream req now).lane i) := by
  unfold openVisitorStream
  split
  · rw [lane_note_other (n := .response ..) (by rintro ⟨⟩)]
  · rename_i bytes _
    dsimp only
    generalize Proto.Policy.requestClass req.head = cls
    have hopen : Path i reads (r.lane i) { r.lane i with mux := r.mux.call (.open cls) } :=
      .single (.call (by rintro ⟨⟩) (by rintro ⟨⟩))
    split
    · rw [lane_note_other (n := .response ..) (by rintro ⟨⟩)]
      exact hopen
    · rename_i id hid
      generalize hr₀ : ({ r with
        mux := r.mux.call (.open cls)
        registry := { r.registry with
          metering := (r.registry.metering.registerStream id req.serviceId).recordRequest
            req.serviceId now } } : Relay) = r₀
      have hlane : r₀.lane i = { r.lane i with mux := r.mux.call (.open cls) } := by
        subst hr₀
        rfl
      rw [← hlane] at hopen
      have hserves : Serves id r₀ (r₀.send id bytes Proto.Policy.headCompress).1 := serves_send ..
      split
      · rename_i r₁ e heq
        rw [heq] at hserves
        rw [lane_note_other (n := .response ..) (by rintro ⟨⟩)]
        by_cases hi : i = id
        · subst hi
          have hsend := lane_send (i := i) (r := r₀) bytes Proto.Policy.headCompress
          rw [heq] at hsend
          have hnone : r₁.inflight.lookup i = none := by
            have h := congrArg Lane.exchange (hsend.trans (congrArg (fun l : Lane =>
              { l with mux := r₀.mux.call (.send i bytes Proto.Policy.headCompress) }) hlane))
            exact h.trans (hfresh cls i hid)
          have hsent : Path i reads (r₀.lane i) (r₁.lane i) := by
            rw [hsend]
            exact .single .send
          rw [lane_reset]
          exact (hopen.trans hsent).tail (.refuse hnone)
        · exact hopen.trans ((hserves.trans serves_reset).path hi)
      · rename_i r₁ heq
        rw [heq] at hserves
        by_cases hi : i = id
        · subst hi
          have hsend := lane_send (i := i) (r := r₀) bytes Proto.Policy.headCompress
          rw [heq, hlane] at hsend
          have hr₁ : ({ r₁ with readers := i :: r₁.readers } : Relay).lane i = r₁.lane i := rfl
          subst hr₀
          rw [lane_setExchange, lane_note_self rfl, hr₁, hsend]
          have hmove := @Move.opened _ _ _ i reads (r.lane i) cls bytes Proto.Policy.headCompress {
            req := req.head
            responseTx := some req.responseTx
            bodyCompress := Proto.Policy.requestBodyCompress req.head
            onUpgrade := req.onUpgrade
            visitorConnect := req.visitorConnect } hid ⟨rfl, rfl, rfl, rfl, rfl, rfl⟩
          exact .single hmove
        · have hreaders : Serves id r₁ { r₁ with readers := id :: r₁.readers } :=
            serves_readers fun j hj => by simp [hj]
          refine hopen.trans ((((hserves.trans hreaders).trans ?_).trans (serves_setExchange _)).path
            hi)
          exact serves_note (.inl rfl)

/-- A step on a stream is a path for each stream. -/
theorem path_of_serves (S : Serves id r r') (h : i = id → Path i reads (r.lane i) (r'.lane i)) :
    Path i reads (r.lane i) (r'.lane i) := by
  by_cases hi : i = id
  · exact h hi
  · exact S.path hi

theorem path_event {ev : Event} (h : r.mux.node.conn.pollEvent.2 = some ev) (closeTx : Oneshot)
    (now : Int) : Lane.Step i (.event closeTx now) (r.lane i)
      (({ r with mux := r.mux.call .pollEvent }.onEvent closeTx now ev).lane i) := by
  by_cases hreset : ∃ code, ev = .reset i code
  · obtain ⟨code, rfl⟩ := hreset
    have hstep := @Lane.Step.reset _ _ _ i closeTx now _ _ _ h (polled_releaseLease now)
    rw [← lane_streamReset] at hstep
    exact hstep
  · exact .moves (path_onEvent h (fun he => h.trans (congrArg some he))
      (fun code he => hreset ⟨code, he⟩) closeTx now)

/-- What a step of the relay is for a stream. -/
theorem step_lane (hfresh : r.OpensFresh) {a : RelayAction} (h : r.step a = some r') :
    Lane.Step i a (r.lane i) (r'.lane i) := by
  cases a with
  | recv now bytes =>
    simp only [step] at h
    obtain ⟨w, hw, rfl⟩ := Option.map_eq_some_iff.mp h
    exact .network (x := .recv now bytes) (by rintro _ ⟨⟩) hw
  | timeout now stillValid fuel =>
    obtain ⟨w, hw, rfl⟩ := Option.map_eq_some_iff.mp h
    exact .network (x := .handleTimeout now stillValid fuel) (by rintro _ ⟨⟩) hw
  | transmit =>
    simp only [step] at h
    obtain ⟨w, hw, rfl⟩ := Option.map_eq_some_iff.mp h
    exact .network (x := .pollTransmit) (by rintro _ ⟨⟩) hw
  | close reason =>
    cases h
    exact .network (x := .call (.close reason)) (by rintro _ ⟨⟩; exact ⟨_, rfl⟩) (Watch.face_call ..)
  | event closeTx now =>
    obtain ⟨ev, hev, rfl⟩ := Option.map_eq_some_iff.mp h
    exact path_event hev closeTx now
  | visitor req now =>
    cases h
    exact .moves (path_openVisitorStream hfresh req now)
  | resume j reply now =>
    have hlane : r'.lane i = r.lane i := by
      simp only [step, resume] at h
      split at h
      · obtain ⟨p, -, rfl⟩ := Option.map_eq_some_iff.mp h
        rfl
      · cases h
    rw [hlane]
    exact .moves .refl
  | registered j now =>
    simp only [step] at h
    split at h
    · rename_i call result hreg
      cases h
      have hserves : Serves j r { r with registrations := r.registrations.erase j } := by
        refine .quiet rfl (fun i hi => ?_) rfl rfl
        exact { Aside.refl with
          registrations := (Map.lookup_erase_ite ..).trans (if_neg hi) }
      refine .moves (path_of_serves (hserves.trans (serves_onRegistered call result now)) ?_)
      rintro rfl
      exact path_onRegistered (r := { r with registrations := r.registrations.erase i }) call result
        now
    · cases h
  | revoke j deleted now =>
    have hlane : r'.lane i = r.lane i := by
      simp only [step, revoke] at h
      split at h
      · split at h
        · split at h <;> cases h <;> rfl
        · cases h
          rfl
      · cases h
    rw [hlane]
    exact .moves .refl
  | revoked j =>
    have hserves : Serves j r { r with revocations := r.revocations.erase j } := by
      refine .quiet rfl (fun i hi => ?_) rfl rfl
      exact { Aside.refl with
        revocations := (Map.lookup_erase_ite ..).trans (if_neg hi) }
    simp only [step] at h
    split at h
    · cases h
      refine .moves (path_of_serves (hserves.trans (serves_reply _)) ?_)
      rintro rfl
      exact path_reply (r := { r with revocations := r.revocations.erase i }) _
    · cases h
      refine .moves (path_of_serves (hserves.trans (serves_reply _)) ?_)
      rintro rfl
      exact path_reply (r := { r with revocations := r.revocations.erase i }) _
    · cases h
  | certState j status =>
    simp only [step] at h
    split at h
    · cases h
      refine .moves (path_of_serves (serves_pushCertState status) ?_)
      rintro rfl
      exact path_pushCertState status
    · cases h
  | bodyFrame j frame room =>
    simp only [step] at h
    split at h
    · split at h
      · cases h
        exact .moves .refl
      · split at h
        · cases h
          refine .moves (path_of_serves (serves_pushFrame frame room) ?_)
          rintro rfl
          exact path_pushFrame frame room
        · cases h
          refine .moves (path_of_serves (serves_stopReader.trans (serves_pushFrame frame room)) ?_)
          rintro rfl
          exact path_pushFrame (r := r.stopReader i) frame room
    · cases h
  | bodyFailed j =>
    simp only [step] at h
    split at h
    · cases h
      by_cases hi : i = j
      · subst hi
        rw [lane_reset, lane_removeExchange]
        exact .bodyFailed
      · exact .moves (((serves_stopReader.trans serves_removeExchange).trans serves_reset).path hi)
    · cases h
  | bodyEnd j =>
    simp only [step] at h
    split at h
    · cases h
      have hserves : Serves j r ((r.stopReader j).note (.bodyEnd j)) :=
        serves_stopReader.trans (serves_note (.inl rfl))
      refine .moves (path_of_serves (hserves.trans (serves_drainBody _)) ?_)
      rintro rfl
      have hend : Path i False (r.lane i) (((r.stopReader i).note (.bodyEnd i)).lane i) := by
        rw [lane_note_self rfl]
        exact .single (.note rfl rfl)
      exact hend.trans (path_drainBody fun _ => rfl)
    · cases h
  | pipeFrame j data room =>
    simp only [step] at h
    split at h
    · split at h
      · cases h
        refine .moves (path_of_serves (serves_pushFrame _ room) ?_)
        rintro rfl
        exact path_pushFrame _ room
      · rename_i hex
        cases h
        refine .moves (path_of_serves (serves_stopPipe.trans (serves_pushFrame _ room)) ?_)
        rintro rfl
        have hstop : Path i False (r.lane i) ((r.stopPipe i).lane i) :=
          .single (.unpiped (Option.not_isSome_iff_eq_none.mp hex))
        exact hstop.trans (path_pushFrame _ room)
    · cases h
  | pipeFailed j =>
    simp only [step] at h
    split at h
    · cases h
      by_cases hi : i = j
      · subst hi
        rw [lane_reset, lane_removeExchange]
        have hstop : (r.stopPipe i).lane i =
            { r.lane i with piping := ((r.stopPipe i).lane i).piping } := rfl
        rw [hstop, Lane.drop_piping]
        exact .pipeFailed
      · exact .moves (((serves_stopPipe.trans serves_removeExchange).trans serves_reset).path hi)
    · cases h
  | pipeEof j =>
    simp only [step] at h
    split at h
    · cases h
      have hserves : Serves j r ((r.stopPipe j).note (.bodyEnd j)) :=
        serves_stopPipe.trans (serves_note (.inl rfl))
      refine .moves (path_of_serves ((hserves.trans (serves_drainBody _)).trans serves_pumpDown) ?_)
      rintro rfl
      exact path_pipeEof
    · cases h
  | forwarded j =>
    simp only [step] at h
    split at h
    · cases h
    · rename_i item hitem
      cases h
      have herase : Serves j r { r with forwards := r.forwards.erase j } := by
        refine .quiet rfl (fun i hi => ?_) rfl rfl
        exact { Aside.refl with
          forwards := (Map.lookup_erase_ite ..).trans (if_neg hi) }
      have hserves : Serves j r ({ r with forwards := r.forwards.erase j }.note (.delivered j item)) :=
        herase.trans (serves_note (.inl rfl))
      have hlane : ({ r with forwards := r.forwards.erase j }.note (.delivered j item)).lane j =
          { r.lane j with forward := none }.note (.delivered j item) := by
        rw [lane_note_self rfl]
        simp only [lane, AList.lookup_erase]
      split
      · rename_i ex hex
        refine .moves (path_of_serves ((hserves.trans (serves_setExchange _)).trans serves_drainInbox)
          ?_)
        rintro rfl
        have hex : (r.lane i).exchange = some ex := hex
        refine path_forwarded rfl hitem ?_
        rw [lane_setExchange, hlane, hex]
        rfl
      · rename_i hex
        refine .moves (path_of_serves (hserves.trans serves_drainInbox) ?_)
        rintro rfl
        have hex : (r.lane i).exchange = none := hex
        refine path_forwarded rfl hitem ?_
        rw [hlane, hex, Option.map_none, ← hex]
  | elsewhere registry =>
    cases h
    exact .moves .refl

end

end Relay

/-! ## What lasts -/

namespace Lane

variable {i : StreamId} {l l' : Lane} {reads : Prop}

theorem mux_finishExchange (l : Lane) (i : StreamId) : (l.finishExchange i).mux = l.mux := by
  unfold finishExchange
  split
  · rfl
  · split <;> rfl

theorem mux_clientFinished (l : Lane) (i : StreamId) : (l.clientFinished i).mux = l.mux := by
  unfold clientFinished
  split
  · rfl
  · dsimp only
    split
    · exact mux_finishExchange ..
    · rfl

theorem mux_drop (l : Lane) (i : StreamId) : (l.drop i).mux = l.mux := by
  unfold drop
  split <;> rfl

variable [ThirdParty]

theorem mux_reset_drop (l : Lane) (i : StreamId) : ((l.drop i).reset i).mux =
    l.mux.call (.reset i Proto.ResetCode.cancelled.asU32) :=
  congrArg (Watch.call · _) (mux_drop l i)

section
variable {P : Watch → Prop}

/-- What every input of the connection keeps, polling keeps. -/
theorem Polled.keeps (hP : ∀ {w x w'}, P w → w.face x = some w' → P w') (H : l.Polled i l')
    (h : P l.mux) : P l'.mux := by
  have hpoll := hP h (Watch.face_call l.mux .pollEvent)
  rcases H with rfl | rfl
  · exact hpoll
  · exact hP hpoll (Watch.face_call _ (.finish i))

variable [Postcard] [HttpTypes]

theorem Move.keeps (hP : ∀ {w x w'}, P w → w.face x = some w' → P w') (M : Move i reads l l')
    (h : P l.mux) : P l'.mux := by
  have hcall {w : Watch} (h : P w) (k : Call) : P (w.call k) := hP h (Watch.face_call w k)
  cases M with
  | call | poll | send | setClass | finish | control | refuse | empty => exact hcall h _
  | note | upload | unpiped => exact h
  | opened => exact hcall (hcall h _) _
  | eof | pump | forwarded =>
    rw [mux_pump]
    exact h
  | interim | head | body | ignored =>
    rw [mux_pump]
    exact hcall h _
  | badHead =>
    rw [mux_pump]
    exact hcall (hcall h _) _
  | finished _ H =>
    rw [mux_clientFinished]
    exact H.keeps hP h

theorem Path.keeps (hP : ∀ {w x w'}, P w → w.face x = some w' → P w') (H : Path i reads l l')
    (h : P l.mux) : P l'.mux := by
  induction H with
  | refl => exact h
  | tail _ M ih => exact M.keeps hP ih

theorem Step.keeps (hP : ∀ {w x w'}, P w → w.face x = some w' → P w') {a : RelayAction}
    (S : Step i a l l') (h : P l.mux) : P l'.mux := by
  cases S with
  | moves H => exact Path.keeps hP H h
  | network _ hw => exact hP h hw
  | reset _ H =>
    rw [mux_drop]
    exact H.keeps hP h
  | bodyFailed | pipeFailed => exact (mux_reset_drop l i).symm ▸ hP h (Watch.face_call _ _)

end

theorem Polled.later (R : l.mux.Reachable) (P : l.Polled i l') : Watch.Later l.mux l'.mux :=
  P.keeps (fun L H => L.trans (Watch.face_later L.reachable H)) (.refl R)

theorem Polled.told (R : l.mux.Reachable) (P : l.Polled i l') {ev : Event}
    (h : l.mux.node.conn.pollEvent.2 = some ev) : ev ∈ l'.mux.node.polled := by
  have hpoll : ev ∈ (l.mux.call .pollEvent).node.polled := by
    simp [Watch.call, Mux.Node.call, h]
  rcases P with rfl | rfl
  · exact hpoll
  · exact (Watch.call_later (Watch.call_later R .pollEvent).reachable (.finish i)).polled.subset hpoll

variable [Postcard] [HttpTypes]

theorem Move.later (R : l.mux.Reachable) (M : Move i reads l l') : Watch.Later l.mux l'.mux :=
  M.keeps (fun L H => L.trans (Watch.face_later L.reachable H)) (.refl R)

theorem Path.later (R : l.mux.Reachable) (H : Path i reads l l') : Watch.Later l.mux l'.mux :=
  Path.keeps (fun L H => L.trans (Watch.face_later L.reachable H)) H (.refl R)

theorem Step.later {a : RelayAction} (R : l.mux.Reachable) (S : Step i a l l') :
    Watch.Later l.mux l'.mux :=
  S.keeps (fun L H => L.trans (Watch.face_later L.reachable H)) (.refl R)

/-- An exchange is on a stream that was opened. -/
def Grounded (l : Lane) (i : StreamId) : Prop := l.exchange.isSome = true → l.mux.Known i

omit [ThirdParty] [Postcard] [HttpTypes] in
theorem isSome_finishExchange (h : (l.finishExchange i).exchange.isSome = true) :
    l.exchange.isSome = true := by
  unfold finishExchange at h
  split at h
  · exact h
  · rename_i hex
    rw [hex]
    rfl

omit [ThirdParty] [Postcard] [HttpTypes] in
theorem isSome_clientFinished (h : (l.clientFinished i).exchange.isSome = true) :
    l.exchange.isSome = true := by
  unfold clientFinished at h
  split at h
  · exact h
  · rename_i hex
    rw [hex]
    rfl

omit [ThirdParty] [Postcard] [HttpTypes] in
theorem isSome_pump (h : (l.pump i).exchange.isSome = true) : l.exchange.isSome = true := by
  unfold pump at h
  split at h
  · exact h
  · rename_i hex
    rw [hex]
    rfl

omit [ThirdParty] [Postcard] [HttpTypes] in
theorem exchange_drop (l : Lane) (i : StreamId) : (l.drop i).exchange = none := by
  unfold drop
  split
  · assumption
  · rfl

omit [Postcard] [HttpTypes] in
theorem Polled.exchange (P : l.Polled i l') : l'.exchange = l.exchange := by
  rcases P with rfl | rfl <;> rfl

theorem Move.grounded (R : l.mux.Reachable) (M : Move i reads l l') (G : l.Grounded i) :
    l'.Grounded i := by
  have L := M.later R
  intro h
  cases M with
  | call | poll | send | setClass | finish | note | control | refuse | unpiped | empty =>
    exact L.known i (G h)
  | opened hid =>
    refine (Watch.call_later (Watch.call_later R _).reachable _).known i ?_
    exact Watch.known_of_open R hid
  | upload hex =>
    refine L.known i (G ?_)
    rw [hex]
    rfl
  | eof | forwarded =>
    have h := isSome_pump h
    exact L.known i (G (Option.isSome_map.symm.trans h))
  | pump => exact L.known i (G (isSome_pump h))
  | interim _ hex | badHead _ hex | head _ hex | body _ hex | ignored _ hex =>
    refine L.known i (G ?_)
    rw [hex]
    rfl
  | finished _ P =>
    have h := isSome_clientFinished h
    rw [P.exchange] at h
    exact L.known i (G h)

theorem Path.grounded (R : l.mux.Reachable) (H : Path i reads l l') (G : l.Grounded i) :
    l'.Grounded i := by
  induction H with
  | refl => exact G
  | tail H M ih => exact M.grounded (Path.later R H).reachable ih

theorem Step.grounded {a : RelayAction} (R : l.mux.Reachable) (S : Step i a l l')
    (G : l.Grounded i) : l'.Grounded i := by
  cases S with
  | moves H => exact Path.grounded R H G
  | network _ hw => exact fun h => (Watch.face_later R hw).known i (G h)
  | reset _ P =>
    intro h
    rw [exchange_drop] at h
    cases h
  | bodyFailed | pipeFailed =>
    intro h
    have h : (l.drop i).exchange.isSome = true := h
    rw [exchange_drop] at h
    cases h

end Lane

namespace Relay

variable {r r' : Relay} [ThirdParty] [Postcard] [HttpTypes]

/-- What holds in every run of a relay. -/
structure Founded (r : Relay) : Prop where
  reachable : r.mux.Reachable
  grounded : ∀ i, (r.lane i).Grounded i

omit [Postcard] [HttpTypes] in
theorem founded_new (cfg : Mux.Config) (now : Mux.Instant) (registry : Registry) :
    (Relay.new (.new cfg now) registry).Founded where
  reachable := (Watch.reachable_new cfg now).face (x := .call .setBytesSink) rfl
  grounded := fun i h => by
    have h : ((∅ : Map StreamId Exchange).lookup i).isSome = true := h
    simp at h

omit [Postcard] [HttpTypes] in
theorem Founded.opensFresh (F : r.Founded) : r.OpensFresh := by
  intro cls id hid
  by_contra h
  exact F.reachable.not_known_of_open hid (F.grounded id (Option.isSome_iff_ne_none.mpr h))

theorem Founded.step (F : r.Founded) {a : RelayAction} (h : r.step a = some r') : r'.Founded where
  reachable := ((step_lane (i := 0) F.opensFresh h).later F.reachable).reachable
  grounded := fun i => (step_lane F.opensFresh h).grounded F.reachable (F.grounded i)

/-- What every step that meets a guard keeps for a stream holds after guarded runs. -/
theorem run_lane {i : StreamId} {I : Lane → Prop} {guard : Relay → RelayAction → Prop}
    (hstep : ∀ {r a l}, r.Founded → guard r a → I (r.lane i) → Lane.Step i a (r.lane i) l → I l)
    {actions : List RelayAction} (F : r.Founded) (hguard : Automaton.Meets step guard r actions)
    (hI : I (r.lane i)) (h : r.run actions = some r') : r'.Founded ∧ I (r'.lane i) :=
  Automaton.run_invariant_of_meets (I := fun r : Relay => r.Founded ∧ I (r.lane i))
    (fun hI hg hs => ⟨hI.1.step hs, hstep hI.1 hg hI.2 (step_lane hI.1.opensFresh hs)⟩) hguard
    ⟨F, hI⟩ h

end Relay

/-! ## Sample runs -/

namespace Relay.Sample

open Mux.Sample

scoped instance postcard : Postcard := Proto.Formats.postcard

scoped instance httpTypes : HttpTypes where
  headerName n := some n.toLower
  headerValue _ := true

def registry : Registry := { tunnelDomain := "tunnel.example" }

def relay : Relay := .new (.new setup.server 0) registry

/-- A visitor of a service, who may ask for an upgrade. -/
def visitor (onUpgrade : Bool) : RelayAction :=
  .visitor {
    serviceId := 1
    head := ⟨"GET", "https", "ann-laptop-web.tunnel.example", "/", []⟩
    responseTx := 1
    onUpgrade
    visitorConnect := false } 0

/-- A message of the client on the visitor's stream, which the handler reads. -/
def message (payload : Bytes) : List RelayAction :=
  [.recv 0 (Mux.Frame.mk 2 .data (0 :: payload)).encode, .event 0 0]

def authenticated : List RelayAction := [.transmit, .recv 0 helloFrame.encode, .event 0 0]

/-- A visitor gets a response head and one chunk of its body. -/
def answered : List RelayAction :=
  visitor false :: message (Proto.Formats.responseHead.put ⟨200, []⟩) ++
    message (Proto.Formats.bodyFrame.put (.chunk [7]))

end Relay.Sample

end TunnelWeaver.Server
