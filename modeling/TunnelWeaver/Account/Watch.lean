import TunnelWeaver.Account.Climb
import TunnelWeaver.Account.Requests

/-! The frames of the session stream (`account/auth/watch.rs`), against the level a request of the
console is judged by. A frame is computed from the proofs of the session, as of the level the
console holds: the session's own, or the one a fall within the lead will leave. -/

namespace TunnelWeaver.Account

/-! ## How the level moves -/

namespace Situation
variable {s s' : Situation} {kind : ProofKind} {t u : Int}

/-- The same proofs at another instant. -/
abbrev atTime (s : Situation) (t : Int) : Situation := { s with now := t }

theorem levelOf_of_no_account (h : s.accountId.isNone) : s.levelOf = .none := by
  simp only [levelOf, authenticatorPath, passwordEmailOtpPath, codePath, passkeyPath,
    identityProviderPath, h, Bool.true_or, if_true]
  rfl

/-- More proofs, or proofs that are alive longer, never make the level lower. -/
theorem levelOf_mono (hacc : s.accountId = s'.accountId)
    (hused : ∀ kind, s.wasUsed kind → s'.wasUsed kind)
    (hvalid : ∀ kind, s.hasValid kind → s'.hasValid kind) : s.levelOf ≤ s'.levelOf := by
  by_cases h : s.accountId.isSome
  case neg =>
    rw [levelOf_of_no_account (by simpa using h)]
    exact AuthLevel.none_le _
  have h' : s'.accountId.isSome := hacc ▸ h
  cases hlevel : s.levelOf with
  | none => exact AuthLevel.none_le _
  | basic =>
    have hs : .basic ≤ s.levelOf := hlevel ▸ AuthLevel.le_refl _
    rw [basic_le_levelOf h] at hs
    rw [basic_le_levelOf h']
    exact hs.imp (hused _) (.imp (hused _) (.imp (hused _) (.imp (hvalid _) (hused _))))
  | strong =>
    have hs : .strong ≤ s.levelOf := hlevel ▸ AuthLevel.le_refl _
    rw [strong_le_levelOf h] at hs
    rw [strong_le_levelOf h']
    exact hs.imp (hvalid _) (.imp (hvalid _) (.imp (hvalid _)
      (.imp (hused _) (.imp (hvalid _) (hvalid _)))))
  | certain =>
    have hs : .certain ≤ s.levelOf := hlevel ▸ AuthLevel.le_refl _
    rw [certain_le_levelOf h] at hs
    rw [certain_le_levelOf h']
    exact hs.imp (.imp (hvalid _) (hvalid _)) (.imp (.imp (hvalid _) (hvalid _))
      (.imp (.imp (hvalid _) (.imp (hvalid _) (hvalid _))) (.imp (hused _) (hvalid _))))

theorem hasValid_iff : s.hasValid kind ↔
    ∃ at_, s.proofs kind = some at_ ∧ s.now < at_ + s.maxAge kind := by
  unfold hasValid
  cases s.proofs kind with
  | none => simp
  | some at_ =>
    simp only [decide_eq_true_eq, Option.some.injEq, exists_eq_left']
    omega

theorem levelOf_antitone (h : t ≤ u) : (s.atTime u).levelOf ≤ (s.atTime t).levelOf := by
  refine levelOf_mono rfl (fun _ h => h) fun kind hv => ?_
  obtain ⟨at_, hat, hlt⟩ := hasValid_iff.mp hv
  exact hasValid_iff.mpr ⟨at_, hat, Int.lt_of_le_of_lt h hlt⟩

/-- The instant a proof expires. -/
def expiry (s : Situation) (kind : ProofKind) : Option Int :=
  (s.proofs kind).map (· + s.maxAge kind)

/-- Between two instants no proof expires in, the level stays. -/
theorem levelOf_eq_of_no_expiry (h : t ≤ u)
    (hnone : ∀ kind instant, s.expiry kind = some instant → t < instant → u < instant) :
    (s.atTime u).levelOf = (s.atTime t).levelOf := by
  refine AuthLevel.le_antisymm (levelOf_antitone h) ?_
  refine levelOf_mono rfl (fun _ h => h) fun kind hv => ?_
  obtain ⟨at_, hat, hlt⟩ := hasValid_iff.mp hv
  refine hasValid_iff.mpr ⟨at_, hat, hnone kind _ ?_ hlt⟩
  change s.proofs kind = some at_ at hat
  rw [expiry, hat]
  rfl

theorem mem_kinds : kind ∈ kinds := by cases kind <;> decide

theorem mem_expiries {sessionEndsAt instant : Int} : instant ∈ s.expiries sessionEndsAt ↔
    (∃ kind, s.expiry kind = some instant) ∧ s.now < instant ∧ instant < sessionEndsAt := by
  simp [expiries, expiry, List.mem_mergeSort, List.mem_filter, List.mem_filterMap, mem_kinds]

theorem expiries_sorted {sessionEndsAt : Int} :
    (s.expiries sessionEndsAt).Pairwise (· ≤ ·) := by
  refine (List.pairwise_mergeSort ?_ ?_ _).imp fun h => of_decide_eq_true h
  · intro a b c hab hbc
    exact decide_eq_true (Int.le_trans (of_decide_eq_true hab) (of_decide_eq_true hbc))
  · intro a b
    simpa using Int.le_total a b

/-- A level that is lower later has fallen at an expiry. -/
theorem exists_expiry_of_lt (h : t ≤ u) (hlt : (s.atTime u).levelOf < (s.atTime t).levelOf) :
    ∃ instant kind, s.expiry kind = some instant ∧ t < instant ∧ instant ≤ u ∧
      (s.atTime instant).levelOf = (s.atTime u).levelOf := by
  obtain ⟨n, hn⟩ : ∃ n, n = (u - t).toNat := ⟨_, rfl⟩
  -- the earliest expiry may not be the one that counts: go on from it until the level is reached
  induction n using Nat.strong_induction_on generalizing t with
  | _ n ih =>
    obtain ⟨kind, instant, hexp, hti, hiu⟩ :
        ∃ kind instant, s.expiry kind = some instant ∧ t < instant ∧ instant ≤ u := by
      by_contra hno
      simp only [not_exists, not_and, Int.not_le] at hno
      rw [levelOf_eq_of_no_expiry h hno] at hlt
      exact AuthLevel.lt_irrefl hlt
    by_cases heq : (s.atTime instant).levelOf = (s.atTime u).levelOf
    · exact ⟨instant, kind, hexp, hti, hiu, heq⟩
    have hlt' := AuthLevel.lt_of_le_of_ne (levelOf_antitone (s := s) hiu) (Ne.symm heq)
    obtain ⟨i, k, hk, hi, hiu', hlevel⟩ := ih _ (by omega) hiu hlt' rfl
    exact ⟨i, k, hk, Int.lt_trans hti hi, hiu', hlevel⟩

theorem nextDrop_eq_none {sessionEndsAt : Int} :
    s.nextDrop sessionEndsAt = none ↔ s.levelOf = .none := by
  rw [nextDrop]
  split
  · simp_all
  · simp_all

/-- What `next_drop` reports: the level stays until then, and there it is lower, or the session
ends. -/
theorem nextDrop_spec {sessionEndsAt at_ : Int} {level : AuthLevel}
    (h : s.nextDrop sessionEndsAt = some (at_, level)) :
    ((s.now < at_ ∧ at_ < sessionEndsAt ∧ level = (s.atTime at_).levelOf ∧ level < s.levelOf) ∨
      (at_ = sessionEndsAt ∧ level = .none)) ∧
    ∀ t, s.now ≤ t → t < at_ → t < sessionEndsAt → (s.atTime t).levelOf = s.levelOf := by
  have hsome : s.levelOf ≠ .none := by
    intro hnone
    rw [nextDrop_eq_none.mpr hnone] at h
    cases h
  simp only [nextDrop, if_neg hsome] at h
  generalize hfalls : (s.expiries sessionEndsAt).filterMap _ = falls at h
  have hmem (i : Int) (l : AuthLevel) : (i, l) ∈ falls ↔
      i ∈ s.expiries sessionEndsAt ∧ l = (s.atTime i).levelOf ∧ l < s.levelOf := by
    rw [← hfalls, List.mem_filterMap]
    constructor
    · rintro ⟨i', hi', hif⟩
      split at hif
      · cases hif
        exact ⟨hi', rfl, ‹_›⟩
      · cases hif
    · rintro ⟨hi, rfl, hlt⟩
      exact ⟨i, hi, if_pos hlt⟩
  have hsorted : falls.Pairwise fun a b => a.1 ≤ b.1 := by
    rw [← hfalls, List.pairwise_filterMap]
    refine expiries_sorted.imp fun hle a ha b hb => ?_
    split at ha
    · split at hb
      · cases ha
        cases hb
        exact hle
      · cases hb
    · cases ha
  have hstay : ∀ t, s.now ≤ t → t < sessionEndsAt → (∀ e ∈ falls, t < e.1) →
      (s.atTime t).levelOf = s.levelOf := by
    intro t ht hend hbefore
    by_contra hne
    have hlt := AuthLevel.lt_of_le_of_ne (levelOf_antitone (s := s) ht) hne
    obtain ⟨i, kind, hexp, hi, hit, hlevel⟩ := exists_expiry_of_lt ht hlt
    have hi' : i ∈ s.expiries sessionEndsAt := mem_expiries.mpr ⟨⟨kind, hexp⟩, hi, by omega⟩
    have := hbefore _ ((hmem i _).mpr ⟨hi', rfl, hlevel ▸ hlt⟩)
    omega
  cases falls with
  | nil =>
    cases h
    exact ⟨.inr ⟨rfl, rfl⟩, fun t ht _ hend => hstay t ht hend fun e he => by cases he⟩
  | cons first rest =>
    cases h
    obtain ⟨hexp, hlevel, hlt⟩ := (hmem _ _).mp List.mem_cons_self
    obtain ⟨-, hnow, hend⟩ := mem_expiries.mp hexp
    refine ⟨.inl ⟨hnow, hend, hlevel, hlt⟩, fun t ht hbefore hend' => hstay t ht hend' ?_⟩
    intro e he
    rcases List.mem_cons.mp he with rfl | he
    · exact hbefore
    · exact Int.lt_of_lt_of_le hbefore (List.rel_of_pairwise_cons hsorted he)

end Situation

/-! ## Frames -/

/-- The identity in a frame. -/
structure Me where
  id : RowId
  name : String
  email : String
  /-- The provider that opened the session, empty when a password or a passkey did. -/
  provider : String
  deriving DecidableEq

/-- The body of a `state` event. -/
structure Frame where
  level : AuthLevel
  /-- For each level above, the ways up to it. -/
  paths : List (AuthLevel × List (List Standing.WireStep))
  me : Option Me
  deriving DecidableEq

/-- What the stream knows about the session it watches. -/
structure Watched where
  session : SessionContext
  /-- When the session row itself expires. -/
  endsAt : Int
  proofs : ProofKind → Option Int
  sessionTtlSecs : Int
  confirmWindowSecs : Int
  hasPasskeys : Bool
  hasTotp : Bool
  hasPassword : Bool
  me : Me

/-- The proofs as they stand at an instant. -/
def Watched.situation (w : Watched) (now : Int) : Standing where
  accountId := some w.session.accountId
  proofs := w.proofs
  now
  sessionTtlSecs := w.sessionTtlSecs
  confirmWindowSecs := w.confirmWindowSecs
  hasPasskeys := w.hasPasskeys
  hasTotp := w.hasTotp
  hasPassword := w.hasPassword

/-- Nobody signed in. -/
def anonymous (now : Int) : Standing where
  accountId := none
  proofs _ := none
  now
  sessionTtlSecs := 0
  confirmWindowSecs := 0
  hasPasskeys := false
  hasTotp := false
  hasPassword := false

def frame (s : Standing) (watched : Option Watched) : Frame where
  level := s.levelOf
  paths := ([.none, .basic, .strong, .certain].filter (s.levelOf < ·)).filterMap fun target =>
    let options := s.upgradePaths target
    if options.isEmpty then none else some (target, options)
  me := watched.map (·.me)

def i64Max : Int := 2 ^ 63 - 1

/-- The next proof expiry, or the end of the session. -/
def Situation.nextExpiry (s : Situation) (sessionEndsAt : Int) : Int :=
  (s.expiries sessionEndsAt).head?.getD sessionEndsAt

/-- The instant a frame is computed as of: a fall within the lead, or now. -/
def Watched.asOf (w : Watched) (now : Int) : Int :=
  let fallAt := (((w.situation now).nextDrop w.endsAt).getD (w.endsAt, .none)).1
  if fallAt - now ≤ Situation.levelLeadSecs then fallAt else now

/-- The frame the console holds at an instant, and when it next changes. -/
def state (watched : Option Watched) (now : Int) : Frame × Option Int :=
  match watched.filter fun w => now < w.endsAt with
  | none => (frame (anonymous now) none, none)
  | some current =>
    let situation := current.situation (current.asOf now)
    let next := ((situation.nextDrop current.endsAt).map (·.1 - Situation.levelLeadSecs)).getD i64Max
    let wake := max (min (situation.nextExpiry current.endsAt) next) (now + 1)
    (frame situation (some current), some wake)

namespace Watched
variable {w : Watched} {now : Int}

theorem state_level (h : now < w.endsAt) :
    (state (some w) now).1.level = (w.situation (w.asOf now)).levelOf := by
  simp only [state, Option.filter_some, h, decide_true, if_true]
  rfl

theorem situation_atTime (t : Int) :
    (w.situation now).toSituation.atTime t = (w.situation t).toSituation := rfl

theorem levelOf_antitone {t u : Int} (h : t ≤ u) :
    (w.situation u).levelOf ≤ (w.situation t).levelOf :=
  Situation.levelOf_antitone (s := (w.situation t).toSituation) h

theorem le_asOf (h : now < w.endsAt) : now ≤ w.asOf now := by
  have hfall : now ≤ (((w.situation now).nextDrop w.endsAt).getD (w.endsAt, .none)).1 := by
    cases hdrop : (w.situation now).nextDrop w.endsAt with
    | none => exact Int.le_of_lt h
    | some drop =>
      obtain ⟨⟨hnow, -⟩ | ⟨hends, -⟩, -⟩ := Situation.nextDrop_spec hdrop
      · exact Int.le_of_lt hnow
      · exact Int.le_of_lt (hends ▸ h)
  rw [asOf]
  split
  · exact hfall
  · exact Int.le_refl _

/-- No proof expires before the next expiry. -/
theorem lt_expiry_of_lt_nextExpiry {t : Int} (hnext : t < (w.situation now).nextExpiry w.endsAt)
    (hend : t < w.endsAt) {kind : ProofKind} {instant : Int}
    (hexp : (w.situation now).expiry kind = some instant) (hnow : now < instant) : t < instant := by
  by_contra hle
  have hmem : instant ∈ (w.situation now).expiries w.endsAt :=
    Situation.mem_expiries.mpr ⟨⟨kind, hexp⟩, hnow, by omega⟩
  rw [Situation.nextExpiry] at hnext
  cases hlist : (w.situation now).expiries w.endsAt with
  | nil =>
    rw [hlist] at hmem
    cases hmem
  | cons first rest =>
    rw [hlist] at hnext hmem
    have hsorted : ((w.situation now).expiries w.endsAt).Pairwise (· ≤ ·) :=
      Situation.expiries_sorted
    rw [hlist] at hsorted
    have hfirst : first ≤ instant := by
      rcases List.mem_cons.mp hmem with rfl | hrest
      · exact Int.le_refl _
      · exact List.rel_of_pairwise_cons hsorted hrest
    have hlt : t < first := hnext
    omega

/-- Before the next expiry the level stays. -/
theorem levelOf_of_lt_nextExpiry {t : Int} (ht : now ≤ t)
    (hnext : t < (w.situation now).nextExpiry w.endsAt) (hend : t < w.endsAt) :
    (w.situation t).levelOf = (w.situation now).levelOf := by
  refine Situation.levelOf_eq_of_no_expiry (s := (w.situation now).toSituation) ht ?_
  exact fun _ _ hexp hnow => lt_expiry_of_lt_nextExpiry hnext hend hexp hnow

theorem nextExpiry_le : (w.situation now).nextExpiry w.endsAt ≤ w.endsAt := by
  rw [Situation.nextExpiry]
  cases hlist : (w.situation now).expiries w.endsAt with
  | nil => exact Int.le_refl _
  | cons first rest =>
    have hmem : first ∈ (w.situation now).expiries w.endsAt := hlist ▸ List.mem_cons_self
    exact Int.le_of_lt (Situation.mem_expiries.mp hmem).2.2

/-- Until the timer of a frame comes, the session lives and its level is not below the frame's. -/
theorem state_covers (h : now < w.endsAt) {wake t : Int} (hwake : (state (some w) now).2 = some wake)
    (hnow : now ≤ t) (ht : t < wake) :
    t < w.endsAt ∧ (state (some w) now).1.level ≤ (w.situation t).levelOf := by
  rw [state_level h]
  have hle := le_asOf h
  simp only [state, Option.filter_some, h, decide_true, if_true, Option.some.injEq] at hwake
  have hbefore : t = now ∨ t < (w.situation (w.asOf now)).nextExpiry w.endsAt := by
    omega
  rcases hbefore with rfl | hbefore
  · exact ⟨h, levelOf_antitone hle⟩
  have hend := Int.lt_of_lt_of_le hbefore nextExpiry_le
  refine ⟨hend, ?_⟩
  rcases Int.le_total t (w.asOf now) with hle' | hle'
  · exact levelOf_antitone hle'
  · rw [levelOf_of_lt_nextExpiry hle' hbefore hend]
    exact AuthLevel.le_refl _

/-- Some level of the session falls before the session does, or the session does not end within
the lead, or none of its proofs would outlive it. -/
def EndsInTurn (w : Watched) (now : Int) : Prop :=
  Situation.levelLeadSecs < w.endsAt - now ∨
  (∃ instant, now < instant ∧ instant < w.endsAt ∧
    (w.situation instant).levelOf < (w.situation now).levelOf) ∨
  (w.situation w.endsAt).levelOf = .none

/-- The console holds the level its requests are judged by, except at the end of a session that
its proofs outlive. -/
theorem frame_level_eq_believed_iff (w : Watched) (now : Int) (h : now < w.endsAt) :
    (state (some w) now).1.level = (w.situation now).believedLevel w.endsAt ↔
      w.EndsInTurn now := by
  have hend := levelOf_antitone (w := w) (Int.le_of_lt h)
  rw [state_level h]
  cases hdrop : (w.situation now).nextDrop w.endsAt with
  | none =>
    have hnone := Situation.nextDrop_eq_none.mp hdrop
    rw [hnone] at hend
    have hthird : w.EndsInTurn now := .inr (.inr (AuthLevel.le_antisymm hend (AuthLevel.none_le _)))
    refine iff_of_true ?_ hthird
    rw [asOf, hdrop, Situation.believedLevel, hdrop, hnone]
    change (w.situation (if w.endsAt - now ≤ _ then w.endsAt else now)).levelOf = .none
    split
    · exact AuthLevel.le_antisymm hend (AuthLevel.none_le _)
    · exact hnone
  | some drop =>
    obtain ⟨at_, level⟩ := drop
    obtain ⟨hcases, hstay⟩ := Situation.nextDrop_spec hdrop
    have hasOf : w.asOf now = if at_ - now ≤ Situation.levelLeadSecs then at_ else now := by
      rw [asOf, hdrop]
      rfl
    have hbelieved : (w.situation now).believedLevel w.endsAt =
        if at_ - now ≤ Situation.levelLeadSecs then level else (w.situation now).levelOf := by
      rw [Situation.believedLevel, hdrop]
      rfl
    rw [hasOf, hbelieved]
    rcases hcases with ⟨hnow, hbefore, rfl, hlower⟩ | ⟨rfl, rfl⟩
    · refine iff_of_true ?_ (.inr (.inl ⟨at_, hnow, hbefore, hlower⟩))
      split <;> rfl
    · split
      case isFalse hfar => exact iff_of_true rfl (.inl (Int.not_le.mp hfar))
      case isTrue hnear =>
        refine ⟨fun hlevel => .inr (.inr hlevel), ?_⟩
        rintro (hfar | ⟨instant, hafter, hbefore, hlower⟩ | hlevel)
        · exact absurd hfar (Int.not_lt.mpr hnear)
        · have hsame := hstay instant (Int.le_of_lt hafter) hbefore hbefore
          rw [situation_atTime] at hsame
          exact absurd (hsame ▸ hlower) AuthLevel.lt_irrefl
        · exact hlevel

namespace Sample

/-- A session a password opened and an emailed code made strong two minutes later. -/
def strong : Watched where
  session := ⟨1, 1⟩
  endsAt := 44200
  proofs kind := if kind = .password then some 1000 else if kind = .emailOtp then some 1120 else none
  sessionTtlSecs := 43200
  confirmWindowSecs := 300
  hasPasskeys := false
  hasTotp := false
  hasPassword := true
  me := ⟨1, "Ada", "ada@example.org", ""⟩

end Sample

theorem frame_level_eq_believed_strong : (state (some Sample.strong) 44000).1.level =
    (Sample.strong.situation 44000).believedLevel Sample.strong.endsAt :=
  (frame_level_eq_believed_iff Sample.strong 44000 (by decide)).mpr (.inl (by decide))

/-- Three seconds before its end the console holds `strong` and is judged at `none`. -/
theorem frame_level_ne_believed : ¬∀ (w : Watched) (now : Int), now < w.endsAt →
    (state (some w) now).1.level = (w.situation now).believedLevel w.endsAt := by
  intro h
  exact absurd (h Sample.strong 44197 (by decide)) (by decide +kernel)

end Watched

end TunnelWeaver.Account
