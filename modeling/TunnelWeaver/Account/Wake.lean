import TunnelWeaver.Account.Watch

/-! Until when what is derived from the proofs of a session stays true: the next fall of its level
(`next_drop` of the manager) is exact, and the stream (`account/auth/watch.rs`) sleeps no longer
than its frame is what it would compute. -/

namespace TunnelWeaver.Account

namespace Situation
variable {s s' : Situation} {kind : ProofKind}

/-- The level held at an instant: none from the end of the session on. -/
def levelAt (s : Situation) (sessionEndsAt t : Int) : AuthLevel :=
  if t < sessionEndsAt then (s.atTime t).levelOf else .none

/-- A proof is recorded, or recorded again, now. -/
def prove (s : Situation) (kind : ProofKind) : Situation :=
  { s with proofs := fun other => if other = kind then some s.now else s.proofs other }

theorem hasValid_prove (hlast : s.Lasting) {other : ProofKind} (h : s.hasValid other) :
    (s.prove kind).hasValid other := by
  by_cases he : other = kind
  · have hnow : (s.prove kind).proofs other = some s.now := if_pos he
    refine hasValid_iff.mpr ⟨s.now, hnow, ?_⟩
    have hpos : 0 < s.maxAge other := hlast.maxAge_pos
    exact Int.lt_add_of_pos_right _ hpos
  · obtain ⟨at_, hat, hlt⟩ := hasValid_iff.mp h
    refine hasValid_iff.mpr ⟨at_, ?_, hlt⟩
    rw [← hat]
    exact if_neg he

theorem wasUsed_prove {other : ProofKind} (h : s.wasUsed other) : (s.prove kind).wasUsed other := by
  by_cases he : other = kind
  · simp [wasUsed, prove, he]
  · simpa [wasUsed, prove, he] using h

/-- A proof given now makes no level lower. -/
theorem levelOf_le_prove (hlast : s.Lasting) (kind : ProofKind) :
    s.levelOf ≤ (s.prove kind).levelOf :=
  levelOf_mono rfl (fun _ h => wasUsed_prove h) fun _ h => hasValid_prove hlast h

theorem levelAt_of_lt {sessionEndsAt t : Int} (h : t < sessionEndsAt) :
    s.levelAt sessionEndsAt t = (s.atTime t).levelOf := if_pos h

theorem levelAt_end {sessionEndsAt : Int} : s.levelAt sessionEndsAt sessionEndsAt = .none :=
  if_neg (Int.lt_irrefl _)

theorem none_lt (h : s.levelOf ≠ .none) : .none < s.levelOf :=
  AuthLevel.lt_of_le_of_ne (AuthLevel.none_le _) (Ne.symm h)

/-- The next fall is the next: until then the level is the current one, there it is the one
reported, which is lower, and a session without a fall holds no level. A level never rises by the
passing of time, nor falls by a proof. -/
theorem nextDrop_exact (s : Situation) (sessionEndsAt : Int) (hends : s.now < sessionEndsAt)
    (hlast : s.Lasting) :
    (∀ at_ level, s.nextDrop sessionEndsAt = some (at_, level) →
      s.now < at_ ∧ at_ ≤ sessionEndsAt ∧
      (∀ t, s.now ≤ t → t < at_ → (s.atTime t).levelOf = s.levelOf) ∧
      s.levelAt sessionEndsAt at_ = level ∧ level < s.levelOf) ∧
    (s.nextDrop sessionEndsAt = none → s.levelOf = .none) ∧
    (∀ t u, t ≤ u → (s.atTime u).levelOf ≤ (s.atTime t).levelOf) ∧
    ∀ kind, s.levelOf ≤ (s.prove kind).levelOf := by
  refine ⟨?_, nextDrop_eq_none.mp, fun t u => levelOf_antitone, levelOf_le_prove hlast⟩
  intro at_ level hdrop
  have hsome : s.levelOf ≠ .none := by
    intro hnone
    rw [nextDrop_eq_none.mpr hnone] at hdrop
    cases hdrop
  obtain ⟨⟨hnow, hbefore, rfl, hlower⟩ | ⟨rfl, rfl⟩, hstay⟩ := nextDrop_spec hdrop
  · exact ⟨hnow, Int.le_of_lt hbefore, fun t ht hlt => hstay t ht hlt (Int.lt_trans hlt hbefore),
      levelAt_of_lt hbefore, hlower⟩
  · exact ⟨hends, Int.le_refl _, fun t ht hlt => hstay t ht hlt hlt, levelAt_end, none_lt hsome⟩

/-- The password of the sample ages out first, 300 seconds after it was typed. -/
theorem nextDrop_exact_strong : (1200 : Int) < 1300 ∧ (1300 : Int) ≤ 44200 ∧
    (∀ t, 1200 ≤ t → t < 1300 → ((Watched.Sample.strong.situation 1200).atTime t).levelOf =
      (Watched.Sample.strong.situation 1200).levelOf) ∧
    (Watched.Sample.strong.situation 1200).levelAt 44200 1300 = .strong ∧
    .strong < (Watched.Sample.strong.situation 1200).levelOf :=
  (nextDrop_exact (Watched.Sample.strong.situation 1200).toSituation 44200 (by decide)
    (by decide)).1 1300 .strong (by decide +kernel)

end Situation

/-! ## When two situations are told alike -/

namespace Situation
variable {s : Situation} {kind : ProofKind} {step : StepKind}

theorem hasValid_take_self (h : kind ∈ step.proves) :
    (s.take step).hasValid kind = decide (0 < s.maxAge kind) := by
  have hnow : (s.take step).proofs kind = some s.now := if_pos h
  rw [hasValid, hnow]
  change decide (s.now - s.now < s.maxAge kind) = _
  rw [Int.sub_self]

theorem hasValid_take_of_not_mem (h : kind ∉ step.proves) :
    (s.take step).hasValid kind = s.hasValid kind := by
  have hkeep : (s.take step).proofs kind = s.proofs kind := if_neg h
  rw [hasValid, hkeep]
  rfl

end Situation

/-- Nothing that a level depends on differs. -/
structure Situation.Alike (s s' : Situation) : Prop where
  accountId : s.accountId = s'.accountId
  hasValid : ∀ kind, s.hasValid kind = s'.hasValid kind
  wasUsed : ∀ kind, s.wasUsed kind = s'.wasUsed kind
  sessionTtlSecs : s.sessionTtlSecs = s'.sessionTtlSecs
  confirmWindowSecs : s.confirmWindowSecs = s'.confirmWindowSecs

namespace Situation.Alike
variable {s s' : Situation}

theorem codePath (h : s.Alike s') (code : ProofKind) : s.codePath code = s'.codePath code := by
  simp only [Situation.codePath, h.accountId, h.hasValid, h.wasUsed]

theorem passkeyPath (h : s.Alike s') : s.passkeyPath = s'.passkeyPath := by
  simp only [Situation.passkeyPath, h.accountId, h.hasValid]

theorem identityProviderPath (h : s.Alike s') :
    s.identityProviderPath = s'.identityProviderPath := by
  simp only [Situation.identityProviderPath, h.accountId, h.hasValid, h.wasUsed]

theorem levelOf (h : s.Alike s') : s.levelOf = s'.levelOf := by
  rw [Situation.levelOf, Situation.levelOf, authenticatorPath, passwordEmailOtpPath, h.codePath,
    h.codePath, h.passkeyPath, h.identityProviderPath]

theorem maxAge (h : s.Alike s') (kind : ProofKind) : s.maxAge kind = s'.maxAge kind := by
  rw [Situation.maxAge, Situation.maxAge, h.sessionTtlSecs, h.confirmWindowSecs]

/-- A proof recorded at the instant of a situation is as good in either. -/
theorem take (h : s.Alike s') (step : StepKind) : (s.take step).Alike (s'.take step) where
  accountId := by simp only [Situation.take, h.accountId]
  hasValid kind := by
    by_cases hmem : kind ∈ step.proves
    · rw [hasValid_take_self hmem, hasValid_take_self hmem, h.maxAge]
    · rw [hasValid_take_of_not_mem hmem, hasValid_take_of_not_mem hmem, h.hasValid]
  wasUsed kind := by
    rw [Bool.eq_iff_iff, wasUsed_take, wasUsed_take, h.wasUsed]
  sessionTtlSecs := h.sessionTtlSecs
  confirmWindowSecs := h.confirmWindowSecs

theorem levelsAfter (h : s.Alike s') (steps : List StepKind) :
    s.levelsAfter steps = s'.levelsAfter steps := by
  induction steps generalizing s s' with
  | nil => rfl
  | cons step steps ih =>
    rw [Situation.levelsAfter, Situation.levelsAfter, (h.take step).levelOf, ih (h.take step)]

end Situation.Alike

/-- Nor anything the ways up depend on. -/
structure Standing.Alike (s s' : Standing) : Prop
    extends Situation.Alike s.toSituation s'.toSituation where
  hasPasskeys : s.hasPasskeys = s'.hasPasskeys
  hasTotp : s.hasTotp = s'.hasTotp
  hasPassword : s.hasPassword = s'.hasPassword

namespace Standing.Alike
variable {s s' : Standing}

theorem codeStepsTo (h : s.Alike s') (code : ProofKind) (step : StepKind) (target : AuthLevel) :
    s.codeStepsTo code step target = s'.codeStepsTo code step target := by
  simp only [Standing.codeStepsTo, h.codePath, h.hasPassword, h.hasValid]

theorem stepsTo_path (h : s.Alike s') {path : AuthPath} (hpath : path ∈ paths)
    (target : AuthLevel) : path.stepsTo s target = path.stepsTo s' target := by
  simp only [paths, List.mem_cons, List.not_mem_nil, or_false] at hpath
  rcases hpath with rfl | rfl | rfl | rfl
  · simp only [authenticatorStepsTo, h.accountId, h.hasTotp, h.codeStepsTo]
  · simp only [passwordEmailOtpStepsTo, h.accountId, h.codeStepsTo]
  · simp only [passkeyStepsTo, h.accountId, h.hasPasskeys, h.passkeyPath]
  · simp only [identityProviderStepsTo, secondFactors, h.identityProviderPath, h.hasTotp,
      h.hasValid]

theorem stepsTo (h : s.Alike s') (target : AuthLevel) : s.stepsTo target = s'.stepsTo target := by
  have hoptions : (paths.flatMap fun path => (path.stepsTo s target).map fun option =>
        (!path.proofs.any fun kind => s.wasUsed kind, option)) =
      paths.flatMap fun path => (path.stepsTo s' target).map fun option =>
        (!path.proofs.any fun kind => s'.wasUsed kind, option) := by
    refine List.flatMap_congr fun path hpath => ?_
    rw [h.stepsTo_path hpath target, funext h.wasUsed]
  rw [Standing.stepsTo, Standing.stepsTo, hoptions]

theorem upgradePaths (h : s.Alike s') (target : AuthLevel) :
    s.upgradePaths target = s'.upgradePaths target := by
  simp only [Standing.upgradePaths, h.stepsTo, h.levelsAfter]

theorem frame (h : s.Alike s') (watched : Option Watched) :
    frame s watched = frame s' watched := by
  simp only [Account.frame, h.levelOf, h.upgradePaths]

end Standing.Alike

/-! ## A session that holds no level -/

namespace Standing
variable {s : Standing} {target : AuthLevel}

/-- Without a level there is nothing to go on from: the one way up, if any, is a passkey. -/
theorem stepsTo_of_none (hacc : s.accountId.isSome) (hnone : s.levelOf = .none)
    (htarget : .none < target) :
    s.stepsTo target = if s.hasPasskeys then [[.assertPasskey]] else [] := by
  have hlow {level : AuthLevel} (h : .basic ≤ level → .basic ≤ s.levelOf) : level = .none :=
    AuthLevel.eq_none fun hb => AuthLevel.ne_none (h hb) hnone
  have htotp : s.codePath .totp = .none := hlow fun h => Situation.le_levelOf.mpr (.inl h)
  have hemail : s.codePath .emailOtp = .none :=
    hlow fun h => Situation.le_levelOf.mpr (.inr (.inl h))
  have hpasskey : s.passkeyPath = .none :=
    hlow fun h => Situation.le_levelOf.mpr (.inr (.inr (.inl h)))
  have hprovider : s.identityProviderPath = .none :=
    hlow fun h => Situation.le_levelOf.mpr (.inr (.inr (.inr h)))
  have hsome := Situation.isNone_accountId hacc
  simp only [stepsTo, paths, List.flatMap_cons, List.flatMap_nil, authenticatorStepsTo,
    passwordEmailOtpStepsTo, passkeyStepsTo, identityProviderStepsTo, codeStepsTo, htotp, hemail,
    hpasskey, hprovider, hsome, htarget, if_true, ite_self, Bool.false_or, Bool.false_eq_true,
    if_false, List.map_nil, List.nil_append, List.append_nil]
  cases s.hasPasskeys <;> simp [List.eraseDups_cons]

/-- Where the passkey leads depends on the lifetimes only. -/
theorem levelOf_take_of_none (hacc : s.accountId.isSome) (hnone : s.levelOf = .none) :
    (s.take .assertPasskey).levelOf = if 0 < s.sessionTtlSecs then
      if 0 < s.confirmWindowSecs then .certain else .strong else .none := by
  have hnot : ¬.basic ≤ s.levelOf := fun h => AuthLevel.ne_none h hnone
  rw [Situation.basic_le_levelOf hacc] at hnot
  simp only [not_or, Bool.not_eq_true] at hnot
  obtain ⟨hpassword, htotp, hemail, -, hprovider⟩ := hnot
  have hused {kind : ProofKind} (hkind : kind ∉ StepKind.assertPasskey.proves)
      (h : s.wasUsed kind = false) : (s.take .assertPasskey).wasUsed kind = false := by
    rw [Bool.eq_false_iff]
    intro hu
    rcases Situation.wasUsed_take.mp hu with hmem | hu
    · exact hkind hmem
    · rw [h] at hu
      cases hu
  have hvalid {kind : ProofKind} (h : s.wasUsed kind = false) : s.hasValid kind = false := by
    rw [Bool.eq_false_iff]
    intro hv
    rw [Situation.wasUsed_of_hasValid hv] at h
    cases h
  have hsome := Situation.isNone_accountId (Situation.isSome_take .assertPasskey hacc)
  have hp := hused (by decide) hpassword
  have hcode {code : ProofKind} (hkind : code ∉ StepKind.assertPasskey.proves)
      (h : s.wasUsed code = false) : (s.take .assertPasskey).codePath code = .none := by
    rw [Situation.codePath, hsome, hp, hused hkind h]
    rfl
  have hpasskey : (s.take .assertPasskey).passkeyPath = if 0 < s.sessionTtlSecs then
      if 0 < s.confirmWindowSecs then .certain else .strong else .none := by
    rw [Situation.passkeyPath, hsome, Situation.hasValid_take_self (by decide),
      Situation.hasValid_take_of_not_mem (by decide), Situation.hasValid_take_self (by decide),
      hvalid hpassword, Bool.false_or]
    change (if !decide (0 < s.sessionTtlSecs) then AuthLevel.none
      else if decide (0 < s.confirmWindowSecs) then .certain else .strong) = _
    by_cases httl : 0 < s.sessionTtlSecs
    · simp [httl]
    · simp [httl]
  have hidp : (s.take .assertPasskey).identityProviderPath = .none := by
    rw [Situation.identityProviderPath, hsome, hused (by decide) hprovider]
    rfl
  rw [Situation.levelOf, Situation.authenticatorPath, Situation.passwordEmailOtpPath,
    hcode (by decide) htotp, hcode (by decide) hemail, hpasskey, hidp]
  split
  · split <;> rfl
  · rfl

/-- The ways up of a session without a level do not depend on the instant. -/
theorem upgradePaths_of_none (hacc : s.accountId.isSome) (hnone : s.levelOf = .none)
    (htarget : .none < target) : s.upgradePaths target = if s.hasPasskeys then
      [[⟨StepKind.assertPasskey.asStr, if 0 < s.sessionTtlSecs then
        if 0 < s.confirmWindowSecs then .certain else .strong else .none⟩]] else [] := by
  rw [upgradePaths, stepsTo_of_none hacc hnone htarget]
  split
  · rw [← levelOf_take_of_none hacc hnone]
    rfl
  · rfl

end Standing

/-! ## The timer of a frame -/

namespace Watched
variable {w : Watched} {now t u x y : Int}

theorem frame_of_none (ht : (w.situation t).levelOf = .none) (hu : (w.situation u).levelOf = .none)
    (watched : Option Watched) :
    frame (w.situation t) watched = frame (w.situation u) watched := by
  have hpaths (target : AuthLevel) (htarget : .none < target) :
      (w.situation t).upgradePaths target = (w.situation u).upgradePaths target := by
    rw [Standing.upgradePaths_of_none rfl ht htarget, Standing.upgradePaths_of_none rfl hu htarget]
    rfl
  rw [frame, frame, ht, hu]
  congr 1
  refine List.filterMap_congr fun target htarget => ?_
  rw [hpaths target (of_decide_eq_true (List.mem_filter.mp htarget).2)]

/-- While no proof expires, the situation looks the same. -/
theorem alike_of_lt_nextExpiry (ht : now ≤ t) (hnext : t < (w.situation now).nextExpiry w.endsAt) :
    (w.situation now).Alike (w.situation t) where
  accountId := rfl
  hasValid kind := by
    rw [Bool.eq_iff_iff, Situation.hasValid_iff, Situation.hasValid_iff]
    refine exists_congr fun at_ => and_congr_right fun hat => ?_
    have hexp : (w.situation now).expiry kind = some (at_ + (w.situation now).maxAge kind) := by
      rw [Situation.expiry, hat]
      rfl
    have hend := Int.lt_of_lt_of_le hnext nextExpiry_le
    exact ⟨fun hlt => lt_expiry_of_lt_nextExpiry hnext hend hexp hlt, Int.lt_of_le_of_lt ht⟩
  wasUsed _ := rfl
  sessionTtlSecs := rfl
  confirmWindowSecs := rfl
  hasPasskeys := rfl
  hasTotp := rfl
  hasPassword := rfl

/-- The level next falls at `x`, or the session ends there. -/
structure FallsAt (w : Watched) (now x : Int) : Prop where
  lt : now < x
  le : x ≤ w.endsAt
  stays : ∀ t, now ≤ t → t < x → (w.situation t).levelOf = (w.situation now).levelOf
  falls : x < w.endsAt → (w.situation x).levelOf < (w.situation now).levelOf

namespace FallsAt

/-- There is one next fall. -/
theorem unique (hx : w.FallsAt now x) (hy : w.FallsAt now y) : x = y := by
  have hle {x y : Int} (hx : w.FallsAt now x) (hy : w.FallsAt now y) : x ≤ y := by
    by_contra hlt
    rw [Int.not_le] at hlt
    have hfalls := hy.falls (Int.lt_of_lt_of_le hlt hx.le)
    rw [hx.stays y (Int.le_of_lt hy.lt) hlt] at hfalls
    exact AuthLevel.lt_irrefl hfalls
  exact Int.le_antisymm (hle hx hy) (hle hy hx)

/-- Until then the next fall is the same. -/
theorem later (hx : w.FallsAt now x) (ht : now ≤ t) (htx : t < x) : w.FallsAt t x where
  lt := htx
  le := hx.le
  stays u hu hux := by rw [hx.stays u (Int.le_trans ht hu) hux, hx.stays t ht htx]
  falls h := by
    rw [hx.stays t ht htx]
    exact hx.falls h

end FallsAt

/-- When the frame at `now` is to be told of a fall. -/
def fallAt (w : Watched) (now : Int) : Int :=
  (((w.situation now).nextDrop w.endsAt).getD (w.endsAt, .none)).1

theorem asOf_eq : w.asOf now =
    if w.fallAt now - now ≤ Situation.levelLeadSecs then w.fallAt now else now := rfl

theorem fallsAt_fallAt (h : now < w.endsAt) : w.FallsAt now (w.fallAt now) := by
  rw [fallAt]
  cases hdrop : (w.situation now).nextDrop w.endsAt with
  | none =>
    have hnone := Situation.nextDrop_eq_none.mp hdrop
    refine ⟨h, Int.le_refl _, fun t ht _ => ?_, fun hlt => absurd hlt (Int.lt_irrefl _)⟩
    have hle := levelOf_antitone (w := w) ht
    rw [hnone] at hle ⊢
    exact AuthLevel.le_antisymm hle (AuthLevel.none_le _)
  | some drop =>
    obtain ⟨at_, level⟩ := drop
    obtain ⟨⟨hnow, hbefore, rfl, hlower⟩ | ⟨rfl, rfl⟩, hstay⟩ := Situation.nextDrop_spec hdrop
    · exact ⟨hnow, Int.le_of_lt hbefore,
        fun t ht hlt => hstay t ht hlt (Int.lt_trans hlt hbefore), fun _ => hlower⟩
    · exact ⟨h, Int.le_refl _, fun t ht hlt => hstay t ht hlt hlt,
        fun hlt => absurd hlt (Int.lt_irrefl _)⟩

theorem fallAt_eq (h : w.FallsAt now x) (ht : now ≤ t) (htx : t < x) : w.fallAt t = x :=
  (fallsAt_fallAt (Int.lt_of_lt_of_le htx h.le)).unique (h.later ht htx)

/-- The instant the console is to hear of the next fall. -/
def leadAt (w : Watched) (now : Int) : Int :=
  (((w.situation now).nextDrop w.endsAt).map (·.1 - Situation.levelLeadSecs)).getD i64Max

theorem leadAt_eq (h : (w.situation now).levelOf ≠ .none) :
    w.leadAt now = w.fallAt now - Situation.levelLeadSecs := by
  rw [leadAt, fallAt]
  cases hdrop : (w.situation now).nextDrop w.endsAt with
  | none => exact absurd (Situation.nextDrop_eq_none.mp hdrop) h
  | some drop => rfl

theorem state_eq (h : now < w.endsAt) :
    state (some w) now = (frame (w.situation (w.asOf now)) (some w),
      some (max (min ((w.situation (w.asOf now)).nextExpiry w.endsAt) (w.leadAt (w.asOf now)))
        (now + 1))) := by
  simp only [state, Option.filter_some, h, decide_true, if_true]
  rfl

/-- A frame as of `now` is the frame until a proof expires or a fall is near. -/
theorem frame_asOf_eq (ht : now ≤ t) (hnext : t < (w.situation now).nextExpiry w.endsAt)
    (hlead : t < w.leadAt now) (watched : Option Watched) :
    frame (w.situation (w.asOf t)) watched = frame (w.situation now) watched := by
  have hend := Int.lt_of_lt_of_le hnext nextExpiry_le
  have hlevel := levelOf_of_lt_nextExpiry ht hnext hend
  by_cases hnone : (w.situation now).levelOf = .none
  · rw [hnone] at hlevel
    have hle := levelOf_antitone (w := w) (le_asOf hend)
    rw [hlevel] at hle
    exact frame_of_none (AuthLevel.le_antisymm hle (AuthLevel.none_le _)) hnone watched
  · rw [leadAt_eq hnone] at hlead
    have hpos : (0 : Int) < Situation.levelLeadSecs := by decide
    have hfalls := fallsAt_fallAt (Int.lt_of_le_of_lt ht hend)
    have hfall := fallAt_eq hfalls ht (by omega)
    have hasOf : w.asOf t = t := by
      rw [asOf_eq, hfall, if_neg (by omega)]
    rw [hasOf]
    exact ((alike_of_lt_nextExpiry ht hnext).frame watched).symm

/-- The stream sleeps no longer than its frame is true: the timer comes after now, and what the
console is told is what it would be told at any instant before. -/
theorem state_until_wake (w : Watched) (now : Int) (h : now < w.endsAt) :
    ∃ wake, (state (some w) now).2 = some wake ∧ now < wake ∧
      ∀ t, now ≤ t → t < wake → (state (some w) t).1 = (state (some w) now).1 := by
  refine ⟨_, by rw [state_eq h], by omega, fun t ht hwake => ?_⟩
  rcases Int.le_iff_lt_or_eq.mp ht with hlt | rfl
  case inr => rfl
  -- what is left of the sleep is bounded by what was read at the instant of the frame
  have hbefore : t < (w.situation (w.asOf now)).nextExpiry w.endsAt ∧
      t < w.leadAt (w.asOf now) := by omega
  have hend := Int.lt_of_lt_of_le hbefore.1 nextExpiry_le
  rw [state_eq h, state_eq hend]
  rcases Int.lt_or_le t (w.asOf now) with hearly | hlate
  · have hfalls := fallsAt_fallAt h
    have hasOf : w.asOf now = w.fallAt now ∧ w.fallAt now - now ≤ Situation.levelLeadSecs := by
      rw [asOf_eq] at hearly ⊢
      split
      case isTrue hnear => exact ⟨rfl, hnear⟩
      case isFalse hfar =>
        rw [if_neg hfar] at hearly
        omega
    rw [hasOf.1] at hearly ⊢
    have hfall := fallAt_eq hfalls ht hearly
    have hsame : w.asOf t = w.fallAt now := by
      rw [asOf_eq, hfall, if_pos (by omega)]
    rw [hsame]
  · exact frame_asOf_eq hlate hbefore.1 hbefore.2 (some w)

theorem state_until_wake_strong : ∃ wake, (state (some Sample.strong) 44000).2 = some wake ∧
    44000 < wake ∧ ∀ t, 44000 ≤ t → t < wake →
      (state (some Sample.strong) t).1 = (state (some Sample.strong) 44000).1 :=
  state_until_wake Sample.strong 44000 (by decide)

end Watched

end TunnelWeaver.Account
