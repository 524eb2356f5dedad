import TunnelWeaver.Account.Levels

/-! How the proofs of a session follow its trail: what one more row changes. -/

namespace TunnelWeaver.Account

/-- A listing of the latest occurrences, in the order of the kinds. -/
def listing (g : EventKind → Option Int) : List (EventKind × Int) :=
  EventKind.all.filterMap fun kind => (g kind).map (kind, ·)

namespace Store
variable {s : Store} {sessionId : RowId} {kind kind' : EventKind} {event : AuthEvent}

/-- The latest occurrence of a kind on a session. -/
def latestOf (s : Store) (sessionId : RowId) (kind : EventKind) : Option Int :=
  (((s.events.rows.map (·.2)).filter fun e =>
    e.sessionId = some sessionId && e.kind = kind).map (·.occurredAt)).max?

theorem authEventLatestByKind_eq :
    s.authEventLatestByKind sessionId = listing (s.latestOf sessionId) := rfl

/-- The later of the two, if any. -/
def later : Option Int → Int → Int
  | some a, b => max a b
  | none, b => b

theorem max?_concat (l : List Int) (b : Int) : (l ++ [b]).max? = some (later l.max? b) := by
  cases l with
  | nil => rfl
  | cons a l =>
    rw [List.cons_append, List.max?_cons', List.max?_cons', List.foldl_append]
    rfl

theorem latestOf_insert : latestOf { s with events := s.events.insert event } sessionId kind =
    if event.sessionId = some sessionId ∧ event.kind = kind then
      some (later (s.latestOf sessionId kind) event.occurredAt)
    else s.latestOf sessionId kind := by
  simp only [latestOf, Table.insert, List.map_append, List.filter_append, List.map_cons,
    List.map_nil, List.filter_cons, List.filter_nil, Bool.and_eq_true, decide_eq_true_eq]
  split
  · rw [List.map_singleton, max?_concat]
  · rw [List.map_nil, List.append_nil]

/-- A row is no later than the latest of its kind. -/
theorem le_latestOf {j : RowId} (h : s.events.get? j = some event)
    (hsession : event.sessionId = some sessionId) :
    ∃ a, s.latestOf sessionId event.kind = some a ∧ event.occurredAt ≤ a := by
  have hmem : event.occurredAt ∈ ((s.events.rows.map (·.2)).filter fun e =>
      e.sessionId = some sessionId && e.kind = event.kind).map (·.occurredAt) := by
    refine List.mem_map_of_mem (List.mem_filter.mpr ⟨?_, by simp [hsession]⟩)
    exact List.mem_map_of_mem (f := fun e => e.2) (Table.get?_eq_some.mp h)
  cases hmax : s.latestOf sessionId event.kind with
  | none =>
    rw [latestOf, List.max?_eq_none_iff] at hmax
    rw [hmax] at hmem
    cases hmem
  | some a => exact ⟨a, rfl, (List.max?_eq_some_iff.mp hmax).2 _ hmem⟩

end Store

/-! ## The proofs of a trail -/

section
variable {g : EventKind → Option Int}

/-- When the trail has ended. -/
def endedAt (g : EventKind → Option Int) : Option Int :=
  (g .logout).or (g .identityProviderGrantInvalid)

/-- When a proof has last been given: a re-typed password counts before the one signed in with. -/
def givenAt (g : EventKind → Option Int) : ProofKind → Option Int
  | .password => (g .passwordConfirmed).or (g .password)
  | .emailOtp => g .emailOtp
  | .totp => g .totp
  | .passkey => g .passkey
  | .passkeyUserVerification => g .passkeyUserVerification
  | .identityProvider => g .identityProvider
  | .identityProviderMfa => g .identityProviderMfa
  | .identityProviderPresence => g .identityProviderPresence

theorem filter_listing (q : EventKind → Bool) : (listing g).filter (fun e => q e.1) =
    (EventKind.all.filter q).filterMap fun kind => (g kind).map (kind, ·) := by
  rw [listing]
  induction EventKind.all with
  | nil => rfl
  | cons kind kinds ih =>
    cases hg : g kind <;> cases hq : q kind <;> simp [hg, hq, ih]

/-- The last listed of the kinds `q` selects. -/
theorem getLast?_filter_listing (q : EventKind → Bool) :
    (((listing g).filter fun e => q e.1).getLast?).map (·.2) =
      ((EventKind.all.filter q).filterMap g).getLast? := by
  have hmap (l : List EventKind) :
      (l.filterMap fun kind => (g kind).map (kind, ·)).map (·.2) = l.filterMap g := by
    rw [List.map_filterMap]
    refine List.filterMap_congr fun kind _ => ?_
    cases g kind <;> rfl
  rw [filter_listing, ← List.getLast?_map, hmap]

theorem lastOf_single {q : EventKind → Bool} {kind : EventKind}
    (hall : EventKind.all.filter q = [kind]) :
    ((EventKind.all.filter q).filterMap g).getLast? = g kind := by
  rw [hall]
  cases hk : g kind <;> simp [hk]

/-- A trail proves what was given after its end. -/
theorem loadProofs_listing (proof : ProofKind) : loadProofs (listing g) proof =
    (givenAt g proof).filter fun at_ => (endedAt g).all (· < at_) := by
  have hended : ((EventKind.all.filter (·.endsTrail)).filterMap g).getLast? = endedAt g := by
    have hall : EventKind.all.filter (·.endsTrail) = [.identityProviderGrantInvalid, .logout] := by
      decide
    rw [hall, endedAt]
    cases hl : g .logout <;> cases hi : g .identityProviderGrantInvalid <;> simp [hl, hi]
  have hgiven : ((EventKind.all.filter fun kind =>
      !kind.endsTrail && kind.proof = some proof).filterMap g).getLast? = givenAt g proof := by
    cases proof with
    | password =>
      have hall : EventKind.all.filter (fun kind =>
          !kind.endsTrail && kind.proof = some .password) = [.password, .passwordConfirmed] := by
        decide
      rw [hall, givenAt]
      cases hp : g .password <;> cases hc : g .passwordConfirmed <;> simp [hp, hc]
    | emailOtp => exact lastOf_single (by decide)
    | totp => exact lastOf_single (by decide)
    | passkey => exact lastOf_single (by decide)
    | passkeyUserVerification => exact lastOf_single (by decide)
    | identityProvider => exact lastOf_single (by decide)
    | identityProviderMfa => exact lastOf_single (by decide)
    | identityProviderPresence => exact lastOf_single (by decide)
  rw [← hended, ← hgiven, ← getLast?_filter_listing, ← getLast?_filter_listing]
  rfl

end

/-- Every proof of `p` is one of `q`, given no earlier. -/
def Rises (p q : ProofKind → Option Int) : Prop :=
  ∀ kind a, p kind = some a → ∃ b, q kind = some b ∧ a ≤ b

namespace Rises
variable {p q r : ProofKind → Option Int}

theorem refl (p : ProofKind → Option Int) : Rises p p := fun _ _ h => ⟨_, h, Int.le_refl _⟩

theorem of_none : Rises (fun _ => none) q := by
  intro kind a h
  cases h

theorem trans (hpq : Rises p q) (hqr : Rises q r) : Rises p r := by
  intro kind a ha
  obtain ⟨b, hb, hab⟩ := hpq kind a ha
  obtain ⟨c, hc, hbc⟩ := hqr kind b hb
  exact ⟨c, hc, Int.le_trans hab hbc⟩

theorem of_listing {g g' : EventKind → Option Int} (hended : endedAt g' = endedAt g)
    (hgiven : Rises (givenAt g) (givenAt g')) :
    Rises (loadProofs (listing g)) (loadProofs (listing g')) := by
  intro kind a ha
  rw [loadProofs_listing, Option.filter_eq_some_iff] at ha
  obtain ⟨b, hb, hab⟩ := hgiven kind a ha.1
  refine ⟨b, ?_, hab⟩
  rw [loadProofs_listing, Option.filter_eq_some_iff, hended]
  refine ⟨hb, ?_⟩
  cases hend : endedAt g with
  | none => rfl
  | some e =>
    have hlt : e < a := by simpa [hend] using ha.2
    simpa using Int.lt_of_lt_of_le hlt hab

end Rises

namespace Store
variable {s : Store} {sessionId : RowId} {event : AuthEvent}

theorem le_later {o : Option Int} {a b : Int} (h : o = some a) : a ≤ later o b :=
  h ▸ Int.le_max_left a b

/-- A row of a session that has been opened takes no proof away, unless it ends the trail: the
password row is the sign-in's own, and a re-typed password comes after it. -/
theorem rises_insert (hends : event.kind.endsTrail = false) (hpassword : event.kind ≠ .password)
    (hconfirmed : event.kind = .passwordConfirmed → event.sessionId = some sessionId →
      ∀ a, s.latestOf sessionId .password = some a → a ≤ event.occurredAt) :
    Rises (loadProofs (s.authEventLatestByKind sessionId)) (loadProofs
      ({ s with events := s.events.insert event }.authEventLatestByKind sessionId)) := by
  have hkept (kind : EventKind) (hne : event.kind ≠ kind) :
      latestOf { s with events := s.events.insert event } sessionId kind =
        s.latestOf sessionId kind := by
    rw [latestOf_insert, if_neg fun h => hne h.2]
  have hrise (kind : EventKind) {a : Int} (ha : s.latestOf sessionId kind = some a) : ∃ b,
      latestOf { s with events := s.events.insert event } sessionId kind = some b ∧ a ≤ b := by
    rw [latestOf_insert]
    split
    · exact ⟨_, rfl, le_later ha⟩
    · exact ⟨a, ha, Int.le_refl _⟩
  have hne (kind : EventKind) (hkind : kind.endsTrail) : event.kind ≠ kind := by
    rintro rfl
    rw [hkind] at hends
    cases hends
  rw [authEventLatestByKind_eq, authEventLatestByKind_eq]
  refine Rises.of_listing ?_ fun kind a ha => ?_
  · rw [endedAt, endedAt, hkept .logout (hne _ rfl),
      hkept .identityProviderGrantInvalid (hne _ rfl)]
  cases kind with
  | password =>
    rw [givenAt, hkept _ hpassword]
    cases hc : s.latestOf sessionId .passwordConfirmed with
    | some c =>
      obtain ⟨b, hb, hcb⟩ := hrise .passwordConfirmed hc
      rw [givenAt, hc, Option.some_or, Option.some.injEq] at ha
      exact ⟨b, by rw [hb, Option.some_or], ha ▸ hcb⟩
    | none =>
      rw [givenAt, hc, Option.none_or] at ha
      rw [latestOf_insert, hc]
      split
      case isTrue hon => exact ⟨_, rfl, hconfirmed hon.2 hon.1 a ha⟩
      · exact ⟨a, ha, Int.le_refl _⟩
  | _ => exact hrise _ ha

end Store

end TunnelWeaver.Account
