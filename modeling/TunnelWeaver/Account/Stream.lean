import TunnelWeaver.Account.Provenance
import TunnelWeaver.Account.Trail
import TunnelWeaver.Account.Watch

/-! The session stream as it runs (`run` of `account/auth/watch.rs`), beside everything that writes
the trail of its session: requests of the account API, sign-outs, credential changes and the
refresh of provider grants. A write and its announcement on the hub are separate steps. -/

namespace TunnelWeaver.Account

open Automaton

namespace Stream

/-- What the loop returns to when a reload fails. -/
structure Held where
  watched : Watched
  wake : Int
  /-- The receiver has lagged behind: the loop plans again instead of waiting on. -/
  lagged : Bool

/-- Where the loop stands. -/
inductive Phase
  /-- About to read the session row, first or again. -/
  | reading (old : Option Held)
  /-- The row is read, the trail is not. -/
  | readingProofs (id : RowId) (row : BrowserSession) (name : String) (old : Option Held)
  | planning (watched : Option Watched)
  | waiting (watched : Watched) (wake : Int)
  | ended

structure World where
  site : Site
  now : Int
  /-- The digest of the session cookie. -/
  tokenHash : String
  accountId : RowId
  sessionId : RowId
  openedAt : Int
  /-- Changes announced that concern the session, and how many of them the loop has taken. -/
  published : Nat
  heard : Nat
  /-- Proofs recorded and not announced yet. -/
  recorded : Nat
  /-- Sign-outs that have written their row and not yet invalidated the session. -/
  leaving : Nat
  /-- Invalidations not announced yet. -/
  retired : Nat
  phase : Phase
  /-- The last `state` frame sent. -/
  last : Option Frame

inductive Act
  | tick (secs : Nat)
  /-- A request of the session records an event; `at_` is the instant the request came in. -/
  | record (kind : EventKind) (at_ : Int)
  | announceRecord
  | logoutRow (at_ : Int) (fails : Bool)
  | logoutInvalidate (fails : Bool)
  /-- A password reset or change ends every session of the account. -/
  | rotate (at_ : Int)
  | announceRetired
  /-- The refresh of provider grants ends the trail. -/
  | revoke (at_ : Int)
  | hear
  | lag
  | readRow (fails : Bool)
  | readProofs (trailFails fails : Bool)
  | plan
  | wake

variable (rt : Runtime)

/-- The row and the account behind the cookie: `Sessions::live`. -/
def live (site : Site) (tokenHash : String) (now : Int) :
    Option (RowId × BrowserSession × AccountRow) := do
  let (id, row) ← site.store.sessionLive tokenHash now
  let account ← site.store.accountById row.accountId
  return (id, row, account)

/-- What `load` makes of the row and the trail; a trail that cannot be read has no proofs. -/
def watch (site : Site) (now : Int) (id : RowId) (row : BrowserSession) (name : String)
    (trailFails : Bool) : Watched :=
  let session : SessionContext := ⟨id, row.accountId⟩
  let situation := Site.situation rt site.store (some session) now
  { session
    endsAt := row.expiresAt
    proofs := if trailFails then fun _ => none else situation.proofs
    sessionTtlSecs := situation.sessionTtlSecs
    confirmWindowSecs := situation.confirmWindowSecs
    hasPasskeys := 0 < site.passkeys.count fun _ p => p.accountId = row.accountId
    hasTotp := !(site.totpConfirmed row.accountId).isEmpty
    hasPassword := (site.store.passwordCurrentFor row.accountId).isSome
    me :=
      { id := row.accountId
        name
        email := ((site.store.emailIdentityForAccount row.accountId).map (·.2.email)).getD ""
        provider := row.provider } }

namespace World

/-- The level the gate enforces for the session. -/
def gateLevel (w : World) : AuthLevel :=
  match live w.site w.tokenHash w.now with
  | none => .none
  | some (id, row, _) =>
    (Site.situation rt w.site.store (some ⟨id, row.accountId⟩) w.now).levelOf

/-- Append a row to the session's trail. -/
def append (w : World) (kind : EventKind) (at_ : Int) : World :=
  { w with
    site.store := (w.site.store.authEventInsert
      ⟨some w.accountId, some w.sessionId, kind, at_⟩).1 }

/-- One iteration of the outer loop: compute the frame, send it and wait. -/
def send (w : World) (watched : Option Watched) : World :=
  let (frame, wake) := state watched w.now
  { w with
    last := some frame
    phase := match watched, wake with
      | some current, some wake => .waiting current wake
      | _, _ => .ended }

/-- A load has failed. -/
def giveUp (w : World) : Option Held → World
  | none => { w with phase := .ended }
  | some old =>
    { w with
      phase := if old.lagged then .planning (some old.watched)
        else .waiting old.watched old.wake }

def step (w : World) : Act → Option World
  | .tick secs => some { w with now := w.now + secs }
  | .record kind at_ =>
    -- the password row is written by the sign-in, before the session's cookie is set
    if kind ≠ .password && !kind.endsTrail && w.openedAt ≤ at_ && at_ ≤ w.now then
      let w := w.append kind at_
      some { w with recorded := if kind.proof.isSome then w.recorded + 1 else w.recorded }
    else none
  | .announceRecord =>
    if w.recorded = 0 then none
    else some { w with recorded := w.recorded - 1, published := w.published + 1 }
  | .logoutRow at_ fails =>
    let w := if fails then w else w.append .logout at_
    some { w with leaving := w.leaving + 1 }
  | .logoutInvalidate fails =>
    if w.leaving = 0 then none
    else some
      { w with
        site.store :=
          if fails then w.site.store else w.site.store.sessionInvalidate w.tokenHash w.now
        leaving := w.leaving - 1
        retired := w.retired + 1 }
  | .rotate at_ => some
      { w with
        site.store := w.site.store.invalidateSessionsForAccount w.accountId at_
        retired := w.retired + 1 }
  | .announceRetired =>
    if w.retired = 0 then none
    else some { w with retired := w.retired - 1, published := w.published + 1 }
  | .revoke at_ => some (w.append .identityProviderGrantInvalid at_)
  | .hear => match w.phase with
    | .waiting watched wake =>
      if w.heard < w.published then
        some { w with heard := w.heard + 1, phase := .reading (some ⟨watched, wake, false⟩) }
      else none
    | _ => none
  | .lag => match w.phase with
    | .waiting watched wake =>
      if w.heard < w.published then
        some { w with heard := w.published, phase := .reading (some ⟨watched, wake, true⟩) }
      else none
    | _ => none
  | .readRow fails => match w.phase with
    | .reading old =>
      if fails then some (w.giveUp old)
      else match live w.site w.tokenHash w.now with
        | none => some { w with phase := .planning none }
        | some (id, row, account) =>
          some { w with phase := .readingProofs id row account.name old }
    | _ => none
  | .readProofs trailFails fails => match w.phase with
    | .readingProofs id row name old =>
      if fails then some (w.giveUp old)
      else some
        { w with phase := .planning (some (watch rt w.site w.now id row name trailFails)) }
    | _ => none
  | .plan => match w.phase with
    | .planning watched => some (w.send watched)
    | _ => none
  | .wake => match w.phase with
    | .waiting watched wake =>
      if wake ≤ w.now then some { w with phase := .planning (some watched) } else none
    | _ => none

/-- The loop has taken every change announced and woken for every due timer, or has ended. -/
def CaughtUp (w : World) : Prop :=
  match w.phase with
  | .waiting _ wake => w.heard = w.published ∧ w.now < wake
  | .ended => True
  | _ => False

instance (w : World) : Decidable w.CaughtUp := by
  unfold CaughtUp
  split <;> infer_instance

/-- The last frame is not above what the gate enforces. -/
def NotOverstated (w : World) : Prop :=
  ∀ frame, w.last = some frame → frame.level ≤ w.gateLevel rt

/-- The stream is about to read its session, whose rows of the sign-in are written. -/
structure Initial (w : World) : Prop where
  phase : w.phase = .reading none
  heard : w.heard = w.published
  last : w.last = none
  opened : w.openedAt ≤ w.now
  /-- The digest of the cookie names the session. -/
  sole : ∀ id row, w.site.store.sessions.get? id = some row → row.tokenHash = w.tokenHash →
    id = w.sessionId ∧ row.accountId = w.accountId
  passwords : ∀ at_, w.site.store.latestOf w.sessionId .password = some at_ → at_ ≤ w.openedAt

/-- No refresh ends the trail, and no reload fails. -/
def Sound (w : World) : Act → Prop
  | .revoke _ => False
  | .readRow fails => fails → w.phase = .reading none
  | .readProofs _ fails => fails → ∃ id row name, w.phase = .readingProofs id row name none
  | _ => True

/-! ## The invariant -/

/-- A change of the trail the loop has yet to hear of. -/
def Pending (w : World) : Prop := w.heard < w.published ∨ 0 < w.leaving ∨ 0 < w.retired

/-- The row is the one behind the cookie, and has not been retired. -/
structure RowCurrent (w : World) (id : RowId) (row : BrowserSession) : Prop where
  get : w.site.store.sessions.get? id = some row
  hash : row.tokenHash = w.tokenHash
  notRetired : row.invalidatedAt = none
  account : (w.site.store.accountById row.accountId).isSome

/-- The proofs of a session, from its trail. -/
def proofsOf (w : World) (id : RowId) : ProofKind → Option Int :=
  loadProofs (w.site.store.authEventLatestByKind id)

/-- What the stream holds is no more than what the store has. -/
structure Current (w : World) (watched : Watched) : Prop where
  row : ∃ row, w.RowCurrent watched.session.sessionId row ∧
    watched.session.accountId = row.accountId ∧ watched.endsAt = row.expiresAt
  proofs : Rises watched.proofs (w.proofsOf watched.session.sessionId)
  ttl : watched.sessionTtlSecs = rt.sessionTtlSecs
  window : watched.confirmWindowSecs = rt.confirmWindowSecs

theorem RowCurrent.of_same {w w' : World} {id : RowId} {row : BrowserSession}
    (h : w.RowCurrent id row) (hsite : w'.site = w.site) (hhash : w'.tokenHash = w.tokenHash) :
    w'.RowCurrent id row :=
  ⟨hsite ▸ h.get, hhash ▸ h.hash, h.notRetired, hsite ▸ h.account⟩

theorem Current.of_same {w w' : World} {watched : Watched} (h : w.Current rt watched)
    (hsite : w'.site = w.site) (hhash : w'.tokenHash = w.tokenHash) : w'.Current rt watched := by
  obtain ⟨row, hrow, hsame⟩ := h.row
  refine ⟨⟨row, hrow.of_same hsite hhash, hsame⟩, ?_, h.ttl, h.window⟩
  rw [proofsOf, hsite]
  exact h.proofs

/-- Until the timer the frame is not above the level of the proofs held. -/
def Covers (w : World) (watched : Watched) (wake : Int) : Prop :=
  ∃ frame, w.last = some frame ∧ ∀ t, w.now ≤ t → t < wake →
    t < watched.endsAt ∧ frame.level ≤ (watched.situation t).levelOf

/-- What holds of the loop, by where it stands. -/
def PhaseGood (w : World) : Phase → Prop
  | .reading old => old = none → w.last = none
  | .readingProofs id row _ old => (w.Pending ∨ w.RowCurrent id row) ∧ (old = none → w.last = none)
  | .planning none => True
  | .planning (some watched) => w.Pending ∨ w.Current rt watched
  | .waiting watched wake => w.Pending ∨ w.Current rt watched ∧ w.Covers watched wake
  | .ended => ∀ frame, w.last = some frame → frame.level = .none

structure Good (w : World) : Prop where
  opened : w.openedAt ≤ w.now
  sole : ∀ id row, w.site.store.sessions.get? id = some row → row.tokenHash = w.tokenHash →
    id = w.sessionId ∧ row.accountId = w.accountId
  passwords : ∀ at_, w.site.store.latestOf w.sessionId .password = some at_ → at_ ≤ w.openedAt
  heard : w.heard ≤ w.published
  phase : w.PhaseGood rt w.phase

theorem Initial.good {w : World} (h : w.Initial) : w.Good rt where
  opened := h.opened
  sole := h.sole
  passwords := h.passwords
  heard := Nat.le_of_eq h.heard
  phase := by
    rw [h.phase]
    exact fun _ => h.last

/-! ## What the others do -/

/-- A step of the others: the loop stays where it is, what it held of the store stands, or it has
yet to hear of the change. -/
structure Carries (w w' : World) : Prop where
  phase : w'.phase = w.phase
  last : w'.last = w.last
  now : w.now ≤ w'.now
  opened : w'.openedAt = w.openedAt
  names : w'.sessionId = w.sessionId ∧ w'.accountId = w.accountId ∧ w'.tokenHash = w.tokenHash
  sessions : ∀ id row', w'.site.store.sessions.get? id = some row' → ∃ row,
    w.site.store.sessions.get? id = some row ∧ row'.tokenHash = row.tokenHash ∧
      row'.accountId = row.accountId
  passwords : w'.site.store.latestOf w.sessionId .password =
    w.site.store.latestOf w.sessionId .password
  heard : w.heard ≤ w.published → w'.heard ≤ w'.published
  pending : w.Pending → w'.Pending
  kept : w'.Pending ∨ ((∀ id row, w.RowCurrent id row → w'.RowCurrent id row) ∧
    ∀ id, Rises (w.proofsOf id) (w'.proofsOf id))

theorem Carries.good {w w' : World} (h : w.Carries w') (hg : w.Good rt) : w'.Good rt := by
  obtain ⟨hid, hacc, hhash⟩ := h.names
  refine ⟨?_, ?_, ?_, h.heard hg.heard, ?_⟩
  · rw [h.opened]
    exact Int.le_trans hg.opened h.now
  · intro id row' hrow' htoken
    obtain ⟨row, hrow, hsame, hsame'⟩ := h.sessions id row' hrow'
    rw [hid, hacc, hsame']
    exact hg.sole id row hrow (hsame ▸ hhash ▸ htoken)
  · rw [hid, h.opened, h.passwords]
    exact hg.passwords
  have hcurrent {watched : Watched} (hc : w.Pending ∨ w.Current rt watched) :
      w'.Pending ∨ w'.Current rt watched := by
    rcases hc with hc | hc
    · exact .inl (h.pending hc)
    refine h.kept.imp_right fun ⟨hrow, hrises⟩ => ?_
    obtain ⟨row, hr, hsame⟩ := hc.row
    exact ⟨⟨row, hrow _ _ hr, hsame⟩, hc.proofs.trans (hrises _), hc.ttl, hc.window⟩
  have hphase := hg.phase
  rw [h.phase]
  cases hp : w.phase with
  | reading old =>
    rw [hp] at hphase
    intro hold
    rw [h.last]
    exact hphase hold
  | readingProofs id row name old =>
    rw [hp] at hphase
    refine ⟨?_, fun hold => h.last ▸ hphase.2 hold⟩
    rcases hphase.1 with hc | hc
    · exact .inl (h.pending hc)
    · exact h.kept.imp_right fun hk => hk.1 _ _ hc
  | planning watched =>
    rw [hp] at hphase
    cases watched with
    | none => trivial
    | some watched => exact hcurrent hphase
  | waiting watched wake =>
    rw [hp] at hphase
    rcases hphase with hc | ⟨hc, frame, hlast, hcovers⟩
    · exact .inl (h.pending hc)
    refine (hcurrent (.inr hc)).imp_right fun hc' => ⟨hc', frame, h.last.trans hlast, ?_⟩
    intro t ht
    exact hcovers t (Int.le_trans h.now ht)
  | ended =>
    rw [hp] at hphase
    intro frame hframe
    exact hphase frame (h.last ▸ hframe)

/-- A step that leaves the sessions alone, and the trail or the hub with no less to tell. -/
theorem Carries.of_trail {w w' : World} (hphase : w'.phase = w.phase) (hlast : w'.last = w.last)
    (hnow : w.now ≤ w'.now) (hopened : w'.openedAt = w.openedAt)
    (hnames : w'.sessionId = w.sessionId ∧ w'.accountId = w.accountId ∧ w'.tokenHash = w.tokenHash)
    (hsessions : w'.site.store.sessions = w.site.store.sessions)
    (haccounts : w'.site.store.accounts = w.site.store.accounts)
    (hpasswords : w'.site.store.latestOf w.sessionId .password =
      w.site.store.latestOf w.sessionId .password)
    (hheard : w.heard ≤ w.published → w'.heard ≤ w'.published) (hpending : w.Pending → w'.Pending)
    (hkept : w'.Pending ∨ ∀ id, Rises (w.proofsOf id) (w'.proofsOf id)) : w.Carries w' where
  phase := hphase
  last := hlast
  now := hnow
  opened := hopened
  names := hnames
  sessions := fun id row hrow => ⟨row, hsessions ▸ hrow, rfl, rfl⟩
  passwords := hpasswords
  heard := hheard
  pending := hpending
  kept := hkept.imp_right fun hrises =>
    ⟨fun id row hrow => ⟨hsessions ▸ hrow.get, hnames.2.2 ▸ hrow.hash, hrow.notRetired, by
      rw [Store.accountById, haccounts]
      exact hrow.account⟩, hrises⟩

theorem append_cases (w : World) (kind : EventKind) (at_ : Int) : w.append kind at_ = w ∨
    w.append kind at_ = { w with
      site.store.events :=
        w.site.store.events.insert ⟨some w.accountId, some w.sessionId, kind, at_⟩ } := by
  unfold append Store.authEventInsert
  split
  · exact .inl rfl
  · exact .inr rfl

theorem append_passwords {w : World} {kind : EventKind} {at_ : Int} (h : kind ≠ .password) :
    (w.append kind at_).site.store.latestOf w.sessionId .password =
      w.site.store.latestOf w.sessionId .password := by
  rcases w.append_cases kind at_ with he | he
  · rw [he]
  · rw [he, Store.latestOf_insert, if_neg fun hk => h hk.2]

theorem append_sessions (w : World) (kind : EventKind) (at_ : Int) :
    (w.append kind at_).site.store.sessions = w.site.store.sessions ∧
      (w.append kind at_).site.store.accounts = w.site.store.accounts := by
  rcases w.append_cases kind at_ with he | he <;> rw [he] <;> exact ⟨rfl, rfl⟩

/-- A proof recorded, or the record of a failure, takes nothing away. -/
theorem append_rises {w : World} {kind : EventKind} {at_ : Int} (hg : w.Good rt)
    (hkind : kind ≠ .password) (hends : kind.endsTrail = false) (hat : w.openedAt ≤ at_)
    (id : RowId) : Rises (w.proofsOf id) ((w.append kind at_).proofsOf id) := by
  rcases w.append_cases kind at_ with he | he
  · rw [he]
    exact .refl _
  rw [he]
  refine Store.rises_insert hends hkind fun _ hid a ha => ?_
  obtain rfl : w.sessionId = id := Option.some.inj hid
  exact Int.le_trans (hg.passwords a ha) hat

/-- The sessions once some of them are invalidated. -/
theorem of_invalidated {sessions : Table BrowserSession} {p : Nat → BrowserSession → Bool}
    {at_ : Int} {id : RowId} {row' : BrowserSession}
    (h : (sessions.update p (.invalidate at_)).get? id = some row') : ∃ row,
      sessions.get? id = some row ∧ row'.tokenHash = row.tokenHash ∧
        row'.accountId = row.accountId := by
  obtain ⟨row, hrow, rfl⟩ := Option.map_eq_some_iff.mp (Table.get?_update ▸ h)
  refine ⟨row, hrow, ?_⟩
  split <;> exact ⟨rfl, rfl⟩

/-- Ending sessions, announced or not yet. -/
theorem Carries.of_invalidated {w w' : World} (p : Nat → BrowserSession → Bool) (at_ : Int)
    (hphase : w'.phase = w.phase) (hlast : w'.last = w.last) (hnow : w'.now = w.now)
    (hopened : w'.openedAt = w.openedAt)
    (hnames : w'.sessionId = w.sessionId ∧ w'.accountId = w.accountId ∧ w'.tokenHash = w.tokenHash)
    (hsessions : w'.site.store.sessions = w.site.store.sessions.update p (.invalidate at_))
    (hevents : w'.site.store.events = w.site.store.events)
    (hheard : w'.heard = w.heard ∧ w'.published = w.published) (hretired : 0 < w'.retired) :
    w.Carries w' where
  phase := hphase
  last := hlast
  now := Int.le_of_eq hnow.symm
  opened := hopened
  names := hnames
  sessions := fun id row hrow => World.of_invalidated (hsessions ▸ hrow)
  passwords := by rw [Store.latestOf, Store.latestOf, hevents]
  heard := by
    rw [hheard.1, hheard.2]
    exact id
  pending := fun _ => .inr (.inr hretired)
  kept := .inl (.inr (.inr hretired))

theorem Good.record {w : World} {kind : EventKind} {at_ : Int} {recorded : Nat} (hg : w.Good rt)
    (hkind : kind ≠ .password) (hends : kind.endsTrail = false) (hat : w.openedAt ≤ at_) :
    World.Good rt { w.append kind at_ with recorded } := by
  obtain ⟨hsessions, haccounts⟩ := w.append_sessions kind at_
  refine Carries.good rt ?_ hg
  exact .of_trail rfl rfl (Int.le_refl _) rfl ⟨rfl, rfl, rfl⟩ hsessions haccounts
    (append_passwords hkind) id id (.inr (append_rises rt hg hkind hends hat))

theorem Good.logoutRow {w : World} (at_ : Int) (fails : Bool) (hg : w.Good rt) :
    World.Good rt { (if fails then w else w.append .logout at_) with leaving := w.leaving + 1 } := by
  refine Carries.good rt ?_ hg
  have hleaving : 0 < w.leaving + 1 := Nat.succ_pos _
  cases fails with
  | true =>
    change w.Carries { w with leaving := w.leaving + 1 }
    exact .of_trail rfl rfl (Int.le_refl _) rfl ⟨rfl, rfl, rfl⟩ rfl rfl rfl id
      (fun _ => .inr (.inl hleaving)) (.inl (.inr (.inl hleaving)))
  | false =>
    obtain ⟨hsessions, haccounts⟩ := w.append_sessions .logout at_
    change w.Carries { w.append .logout at_ with leaving := w.leaving + 1 }
    exact .of_trail rfl rfl (Int.le_refl _) rfl ⟨rfl, rfl, rfl⟩ hsessions haccounts
      (append_passwords (by decide)) id (fun _ => .inr (.inl hleaving))
      (.inl (.inr (.inl hleaving)))

/-- An announcement leaves the loop something to hear. -/
theorem Good.announced {w : World} {recorded retired : Nat} (hg : w.Good rt) :
    World.Good rt { w with recorded, retired, published := w.published + 1 } := by
  refine Carries.good rt ?_ hg
  have hheard : w.heard < w.published + 1 := Nat.lt_succ_of_le hg.heard
  exact .of_trail rfl rfl (Int.le_refl _) rfl ⟨rfl, rfl, rfl⟩ rfl rfl rfl
    (fun _ => Nat.le_of_lt hheard) (fun _ => .inl hheard) (.inl (.inl hheard))

theorem Good.logoutInvalidate {w : World} {fails : Bool} {leaving : Nat} (hg : w.Good rt) :
    World.Good rt
      { w with
        site.store :=
          if fails then w.site.store else w.site.store.sessionInvalidate w.tokenHash w.now
        leaving
        retired := w.retired + 1 } := by
  refine Carries.good rt ?_ hg
  have hretired : 0 < w.retired + 1 := Nat.succ_pos _
  cases fails with
  | true =>
    change w.Carries { w with leaving, retired := w.retired + 1 }
    exact .of_trail rfl rfl (Int.le_refl _) rfl ⟨rfl, rfl, rfl⟩ rfl rfl rfl id
      (fun _ => .inr (.inr hretired)) (.inl (.inr (.inr hretired)))
  | false =>
    change w.Carries { w with
      site.store := w.site.store.sessionInvalidate w.tokenHash w.now
      leaving
      retired := w.retired + 1 }
    exact .of_invalidated (fun _ b => b.tokenHash = w.tokenHash && b.invalidatedAt.isNone) w.now
      rfl rfl rfl rfl ⟨rfl, rfl, rfl⟩ rfl rfl ⟨rfl, rfl⟩ hretired

theorem Good.rotate {w : World} {at_ : Int} (hg : w.Good rt) :
    World.Good rt
      { w with
        site.store := w.site.store.invalidateSessionsForAccount w.accountId at_
        retired := w.retired + 1 } := by
  refine Carries.good rt ?_ hg
  exact .of_invalidated (fun _ b => b.accountId = w.accountId && b.invalidatedAt.isNone) at_
    rfl rfl rfl rfl ⟨rfl, rfl, rfl⟩ rfl rfl ⟨rfl, rfl⟩ (Nat.succ_pos _)

/-! ## What the loop does -/

/-- A step of the loop: everything but where it stands is as it was. -/
theorem Good.moved {w : World} {phase : Phase} {heard : Nat} {last : Option Frame}
    (hg : w.Good rt) (hheard : heard ≤ w.published)
    (hphase : World.PhaseGood rt { w with heard, phase, last } phase) :
    World.Good rt { w with heard, phase, last } :=
  ⟨hg.opened, hg.sole, hg.passwords, hheard, hphase⟩

theorem live_some {site : Site} {tokenHash : String} {now : Int} {id : RowId}
    {row : BrowserSession} {account : AccountRow}
    (h : live site tokenHash now = some (id, row, account)) :
    site.store.sessions.get? id = some row ∧ row.tokenHash = tokenHash ∧
      row.invalidatedAt = none ∧ now < row.expiresAt ∧
      site.store.accountById row.accountId = some account := by
  simp only [live, Option.bind_eq_bind, Option.bind_eq_some_iff, Option.pure_def,
    Option.some.injEq, Prod.mk.injEq] at h
  obtain ⟨⟨id, row⟩, hsession, account, haccount, rfl, rfl, rfl⟩ := h
  obtain ⟨hget, hlive⟩ := Table.find?_some hsession
  simp only [BrowserSession.live, Bool.and_eq_true, decide_eq_true_eq,
    Option.isNone_iff_eq_none] at hlive
  exact ⟨hget, hlive.1, hlive.2.1, hlive.2.2, haccount⟩

/-- The gate finds the session the stream holds. -/
theorem live_of_current {w : World} {watched : Watched} (hg : w.Good rt)
    (hc : w.Current rt watched) (hnow : w.now < watched.endsAt) : ∃ row account,
      live w.site w.tokenHash w.now = some (watched.session.sessionId, row, account) ∧
        watched.session.accountId = row.accountId := by
  obtain ⟨row, hrow, hacc, hends⟩ := hc.row
  obtain ⟨account, haccount⟩ := Option.isSome_iff_exists.mp hrow.account
  have hlive : row.live w.now := by
    rw [BrowserSession.live, hrow.notRetired, Option.isNone_none, Bool.true_and, ← hends]
    exact decide_eq_true hnow
  have hsession : w.site.store.sessionLive w.tokenHash w.now =
      some (watched.session.sessionId, row) := by
    cases hfind : w.site.store.sessionLive w.tokenHash w.now with
    | none =>
      have hno := Table.find?_eq_none.mp hfind hrow.get
      rw [hrow.hash, hlive, decide_eq_true rfl] at hno
      cases hno
    | some found =>
      obtain ⟨hget, hfound⟩ := Table.find?_some hfind
      obtain ⟨hid, -⟩ := hg.sole _ _ hget (of_decide_eq_true (Bool.and_eq_true .. ▸ hfound).1)
      obtain ⟨hid', -⟩ := hg.sole _ _ hrow.get hrow.hash
      have hsame : found.1 = watched.session.sessionId := hid.trans hid'.symm
      rw [hsame, hrow.get, Option.some.injEq] at hget
      rw [hget, ← hsame]
  refine ⟨row, account, ?_, hacc⟩
  simp only [live, hsession, Option.bind_eq_bind, Option.bind_some, haccount]
  rfl

/-- While its timer has not come, what the loop holds is not above the gate. -/
theorem level_le_gateLevel {w : World} {watched : Watched} (hg : w.Good rt)
    (hc : w.Current rt watched) (hnow : w.now < watched.endsAt) :
    (watched.situation w.now).levelOf ≤ w.gateLevel rt := by
  obtain ⟨row, account, hlive, hacc⟩ := live_of_current rt hg hc hnow
  rw [gateLevel, hlive]
  refine Situation.levelOf_mono (congrArg some hacc) (fun kind hused => ?_) (fun kind hvalid => ?_)
  · obtain ⟨a, ha⟩ := Option.isSome_iff_exists.mp hused
    obtain ⟨b, hb, -⟩ := hc.proofs kind a ha
    exact Option.isSome_iff_exists.mpr ⟨b, hb⟩
  · obtain ⟨a, ha, hlt⟩ := Situation.hasValid_iff.mp hvalid
    obtain ⟨b, hb, hab⟩ := hc.proofs kind a ha
    refine Situation.hasValid_iff.mpr ⟨b, hb, Int.lt_of_lt_of_le hlt (Int.add_le_add hab ?_)⟩
    rw [Situation.maxAge, Situation.maxAge]
    change kind.maxAgeSecs watched.sessionTtlSecs watched.confirmWindowSecs ≤ _
    rw [hc.ttl, hc.window]
    exact Int.le_refl _

/-- Sending a frame: the loop waits with what the frame covers, or ends on `none`. -/
theorem Good.send {w : World} {watched : Option Watched} (hg : w.Good rt)
    (hphase : w.PhaseGood rt (.planning watched)) : World.Good rt (w.send watched) := by
  have hended {now : Int} {frame' : Frame} (h : some (frame (anonymous now) none) = some frame') :
      frame'.level = .none := by
    cases h
    exact Situation.levelOf_of_no_account rfl
  cases watched with
  | none => exact hg.moved rt hg.heard fun frame' => hended
  | some watched =>
    by_cases hnow : w.now < watched.endsAt
    case neg =>
      have hstate : state (some watched) w.now = (frame (anonymous w.now) none, none) := by
        simp only [state, Option.filter_some, hnow, decide_false, Bool.false_eq_true, if_false]
      rw [World.send, hstate]
      exact hg.moved rt hg.heard fun frame' => hended
    case pos =>
      obtain ⟨wake, hwake⟩ : ∃ wake, (state (some watched) w.now).2 = some wake := by
        simp only [state, Option.filter_some, hnow, decide_true, if_true]
        exact ⟨_, rfl⟩
      have hsend : w.send (some watched) =
          { w with
            last := some (state (some watched) w.now).1
            phase := .waiting watched wake } := by
        simp only [World.send, hwake]
      rw [hsend]
      refine hg.moved rt hg.heard (hphase.imp id fun hc => ⟨hc.of_same rt rfl rfl, ?_⟩)
      exact ⟨_, rfl, fun t => Watched.state_covers hnow hwake⟩

/-- A load that fails is the first, and ends the stream before any frame. -/
theorem Good.giveUp {w : World} (hg : w.Good rt) (hlast : w.last = none) :
    World.Good rt (w.giveUp none) := by
  refine hg.moved rt hg.heard fun frame hframe => ?_
  rw [hlast] at hframe
  cases hframe

theorem Good.step {w w' : World} {a : Act} (hg : w.Good rt) (hs : w.Sound a)
    (h : w.step rt a = some w') : w'.Good rt := by
  have hphase := hg.phase
  cases a with
  | tick secs =>
    cases h
    refine Carries.good rt ?_ hg
    refine .of_trail rfl rfl ?_ rfl ⟨rfl, rfl, rfl⟩ rfl rfl rfl id id (.inr fun _ => .refl _)
    exact Int.le_add_of_nonneg_right (Int.natCast_nonneg secs)
  | record kind at_ =>
    simp only [World.step] at h
    split at h
    case isFalse => cases h
    rename_i hcond
    simp only [Bool.and_eq_true, decide_eq_true_eq, Bool.not_eq_true'] at hcond
    cases h
    exact hg.record rt hcond.1.1.1 hcond.1.1.2 hcond.1.2
  | announceRecord =>
    simp only [World.step] at h
    split at h
    · cases h
    · cases h
      exact hg.announced rt
  | logoutRow at_ fails =>
    cases h
    cases fails
    · exact hg.logoutRow rt at_ false
    · exact hg.logoutRow rt at_ true
  | logoutInvalidate fails =>
    simp only [World.step] at h
    split at h
    · cases h
    · cases h
      exact hg.logoutInvalidate rt
  | rotate at_ =>
    cases h
    exact hg.rotate rt
  | announceRetired =>
    simp only [World.step] at h
    split at h
    · cases h
    · cases h
      exact hg.announced rt
  | revoke at_ => exact absurd hs id
  | hear =>
    simp only [World.step] at h
    split at h
    case h_2 => cases h
    split at h
    case isFalse => cases h
    case isTrue hheard =>
      cases h
      exact hg.moved rt hheard fun hold => by cases hold
  | lag =>
    simp only [World.step] at h
    split at h
    case h_2 => cases h
    split at h
    case isFalse => cases h
    case isTrue hheard =>
      cases h
      exact hg.moved rt (Nat.le_refl _) fun hold => by cases hold
  | readRow fails =>
    simp only [World.step] at h
    split at h
    case h_2 => cases h
    rename_i old hp
    rw [hp] at hphase
    cases fails with
    | true =>
      obtain rfl : old = none := by
        have hnone := hs rfl
        rw [hp] at hnone
        exact Phase.reading.inj hnone
      cases h
      exact hg.giveUp rt (hphase rfl)
    | false =>
      rw [if_neg (by decide)] at h
      split at h
      · cases h
        exact hg.moved rt hg.heard trivial
      · rename_i id row account hlive
        cases h
        obtain ⟨hget, hhash, hnotRetired, -, haccount⟩ := live_some hlive
        refine hg.moved rt hg.heard ⟨.inr ⟨hget, hhash, hnotRetired, ?_⟩, hphase⟩
        exact Option.isSome_iff_exists.mpr ⟨_, haccount⟩
  | readProofs trailFails fails =>
    simp only [World.step] at h
    split at h
    case h_2 => cases h
    rename_i id row name old hp
    rw [hp] at hphase
    cases fails with
    | true =>
      obtain rfl : old = none := by
        obtain ⟨_, _, _, hnone⟩ := hs rfl
        rw [hp] at hnone
        exact (Phase.readingProofs.inj hnone).2.2.2
      cases h
      exact hg.giveUp rt (hphase.2 rfl)
    | false =>
      cases h
      refine hg.moved rt hg.heard (hphase.1.imp_right fun hrow => ?_)
      refine ⟨⟨row, hrow.of_same rfl rfl, rfl, rfl⟩, ?_, rfl, rfl⟩
      cases trailFails with
      | true => exact .of_none
      | false => exact .refl _
  | plan =>
    simp only [World.step] at h
    split at h
    case h_2 => cases h
    rename_i watched hp
    cases h
    exact hg.send rt (hp ▸ hphase)
  | wake =>
    simp only [World.step] at h
    split at h
    case h_2 => cases h
    rename_i watched wake hp
    rw [hp] at hphase
    split at h
    · cases h
      exact hg.moved rt hg.heard (hphase.imp_right fun hc => hc.1.of_same rt rfl rfl)
    · cases h

/-- Once the loop has caught up, and no sign-out or credential change is about to be announced, the
console is not told more than the gate enforces. -/
theorem never_overstates {w w' : World} {acts : List Act} (hinit : w.Initial)
    (hm : Meets (step rt) Sound w acts) (h : run (step rt) w acts = some w')
    (hcaught : w'.CaughtUp) (hquiet : w'.leaving = 0 ∧ w'.retired = 0) :
    w'.NotOverstated rt := by
  have hg : w'.Good rt :=
    run_invariant_of_meets (fun hg hs hstep => hg.step rt hs hstep) hm (hinit.good rt) h
  have hphase := hg.phase
  rw [CaughtUp] at hcaught
  cases hp : w'.phase with
  | waiting watched wake =>
    rw [hp] at hphase hcaught
    obtain ⟨hheard, hnow⟩ := hcaught
    have hnot : ¬w'.Pending := by
      rintro (hlt | hlt | hlt)
      · exact absurd hheard (Nat.ne_of_lt hlt)
      · exact absurd hquiet.1 (Nat.ne_of_gt hlt)
      · exact absurd hquiet.2 (Nat.ne_of_gt hlt)
    obtain ⟨hcurrent, frame, hlast, hcovers⟩ := hphase.resolve_left hnot
    obtain ⟨hlive, hlevel⟩ := hcovers _ (Int.le_refl _) hnow
    intro frame' hframe
    rw [hlast, Option.some.injEq] at hframe
    subst hframe
    exact AuthLevel.le_trans hlevel (level_le_gateLevel rt hg hcurrent hlive)
  | ended =>
    rw [hp] at hphase
    intro frame hframe
    rw [hphase frame hframe]
    exact AuthLevel.none_le _
  | reading | readingProofs | planning =>
    rw [hp] at hcaught
    exact absurd hcaught id

namespace Sample

def store : Store where
  accounts := (∅ : Table AccountRow).insert ⟨"Ann"⟩
  sessions := (∅ : Table BrowserSession).insert
    { accountId := 1, tokenHash := "t0", provider := "", createdAt := 1000, expiresAt := 87400
      invalidatedAt := none }
  events := ((∅ : Table AuthEvent).insert ⟨some 1, some 1, .password, 1000⟩).insert
    ⟨some 1, some 1, .emailOtp, 1010⟩

/-- A stream opened on a strong session. -/
def opened : World where
  site := { store }
  now := 1100
  tokenHash := "t0"
  accountId := 1
  sessionId := 1
  openedAt := 1000
  published := 0
  heard := 0
  recorded := 0
  leaving := 0
  retired := 0
  phase := .reading none
  last := none

theorem opened_initial : opened.Initial where
  phase := rfl
  heard := rfl
  last := rfl
  opened := by decide
  sole := by
    intro id row hrow _
    have hid : opened.site.store.sessions.get? id = some row := hrow
    simp only [opened, store, Table.get?_insert] at hid
    split at hid
    case isTrue hone =>
      cases hid
      exact ⟨hone, rfl⟩
    case isFalse => cases hid
  passwords := by
    intro at_ hat
    have hlatest : opened.site.store.latestOf opened.sessionId .password = some 1000 := by
      decide +kernel
    rw [hlatest] at hat
    cases hat
    decide

/-- The session is loaded and its frame sent. -/
def load : List Act := [.readRow false, .readProofs false false, .plan]

end Sample

/-- A sign-out, heard. -/
theorem never_overstates_signed_out : ∃ w,
    run (step (Site.Sample.relay true)) Sample.opened (Sample.load ++
      [.logoutRow 1100 false, .logoutInvalidate false, .announceRetired, .hear, .readRow false,
        .plan]) = some w ∧ w.NotOverstated (Site.Sample.relay true) := by
  obtain ⟨w, hw, h⟩ := (Option.any_eq_true (fun w : World =>
    decide w.CaughtUp && decide (w.leaving = 0) && decide (w.retired = 0)) (run
      (step (Site.Sample.relay true)) Sample.opened (Sample.load ++ [.logoutRow 1100 false,
        .logoutInvalidate false, .announceRetired, .hear, .readRow false, .plan]))).mp
    (by decide +kernel)
  simp only [Bool.and_eq_true, decide_eq_true_eq] at h
  exact ⟨w, hw, never_overstates _ Sample.opened_initial
    (meets_of_forall (by simp [Sample.load, Sound]) _) hw h.1.1 ⟨h.1.2, h.2⟩⟩

/-- A dead grant ends the trail, and the console is left holding `certain`. -/
theorem revoked_session_overstated : ¬∀ (rt : Runtime) (w w' : World) (acts : List Act),
    w.Initial → run (step rt) w acts = some w' → w'.CaughtUp → w'.NotOverstated rt := by
  intro h
  obtain ⟨w, hw, hend⟩ := (Option.any_eq_true (fun w : World => decide w.CaughtUp &&
    w.last.any fun frame => decide (w.gateLevel (Site.Sample.relay true) < frame.level)) (run
      (step (Site.Sample.relay true)) Sample.opened (Sample.load ++ [.revoke 1100]))).mp
    (by decide +kernel)
  rw [Bool.and_eq_true, decide_eq_true_eq] at hend
  obtain ⟨frame, hframe, hlevel⟩ := Option.any_eq_true _ _ |>.mp hend.2
  have hle := h (Site.Sample.relay true) Sample.opened w _ Sample.opened_initial hw hend.1 frame
    hframe
  exact AuthLevel.not_lt.mpr hle (of_decide_eq_true hlevel)

end World

end Stream

end TunnelWeaver.Account
