import TunnelWeaver.Account.Requests
import TunnelWeaver.Lib.Url

/-! Where the end of a step-up leads (`account/sso/mod.rs`): the path the console asked for, checked
when the flow begins and when it ends, and resolved by a browser against the relay. -/

namespace TunnelWeaver.Account

open Url

/-- A character of a header value. -/
def isHeaderChar (c : Char) : Bool := (0x20 ≤ c.toNat && c.toNat ≠ 0x7f) || c = '\t'

/-- `HeaderValue::from_str`; a redirect without a value has no `Location`. -/
def headerValue (text : String) : Option String :=
  if text.toList.all isHeaderChar then some text else none

/-- The `Location` at the end of a step-up that was to return to `candidate`. -/
def stepUpLocation (candidate : String) : Option String :=
  headerValue (Site.sanitizeReturnPath (Site.sanitizeReturnPath candidate))

namespace Site
variable {candidate loc : String} {rest : List Char}

/-! ## The two checks -/

/-- A flow of a step-up carries the path as the check left it. -/
theorem stepUp_flow (rt : Runtime) (site : Site) (r : Request) (c : SessionContext)
    (provider returnPath state nonce verifier : String) {id : RowId} {flow : SsoFlow}
    (h : (site.stepUp rt r c provider returnPath state nonce verifier).1.store.flows.get? id =
      some flow) :
    site.store.flows.get? id = some flow ∨ flow.returnPath = sanitizeReturnPath returnPath := by
  unfold stepUp at h
  split at h
  case h_2 => exact .inl h
  case h_1 =>
  unfold start at h
  split at h
  · exact .inl h
  unfold Store.ssoFlowCreate at h
  split at h
  · exact .inl h
  case h_2 store hcreate =>
  have hrow : store.flows.get? id = some flow := by
    split at h
    · exact h
    · exact h
  split at hcreate
  · cases hcreate
  · cases hcreate
    rw [Table.get?_insert] at hrow
    split at hrow
    · cases hrow
      exact .inr rfl
    · exact .inl hrow

/-- And the callback leads there by way of the check. -/
theorem finishStepUp_location (rt : Runtime) (site : Site) (r : Request) (flow : SsoFlow)
    (assertion : Assertion) {returnPath : String} {reply : Reply}
    (hflow : flow.returnPath = sanitizeReturnPath returnPath)
    (h : (site.finishStepUp rt r flow assertion).2 = .ok reply) :
    reply.status = 302 ∧ headerValue reply.text = stepUpLocation returnPath := by
  unfold finishStepUp at h
  split at h
  case h_2 => cases h
  split at h
  · cases h
  split at h
  · cases h
  split at h
  · cases h
  split at h
  · cases h
  · cases h
    exact ⟨rfl, by rw [Reply.redirect, hflow]; rfl⟩

/-- What the check lets through. -/
structure IsLocal (rest : List Char) : Prop where
  slash : rest.head? ≠ some '/'
  backslash : '\\' ∉ rest

theorem sanitizeReturnPath_of_local (hlist : candidate.toList = '/' :: rest) (h : IsLocal rest) :
    sanitizeReturnPath candidate = candidate := by
  rw [sanitizeReturnPath, hlist]
  simp [h.slash, h.backslash]

theorem sanitizeReturnPath_cases (candidate : String) :
    sanitizeReturnPath candidate = landing ∨ ∃ rest, candidate.toList = '/' :: rest ∧ IsLocal rest ∧
      sanitizeReturnPath candidate = candidate := by
  rw [sanitizeReturnPath]
  split
  case h_2 => exact .inl rfl
  case h_1 rest hlist =>
  split
  case isTrue => exact .inl rfl
  case isFalse hnot =>
    simp only [Bool.or_eq_true, decide_eq_true_eq, not_or] at hnot
    exact .inr ⟨rest, hlist, ⟨hnot.1, hnot.2⟩, rfl⟩

/-- Checking twice is checking once. -/
theorem sanitizeReturnPath_idem (candidate : String) :
    sanitizeReturnPath (sanitizeReturnPath candidate) = sanitizeReturnPath candidate := by
  rcases sanitizeReturnPath_cases candidate with h | ⟨rest, -, -, h⟩
  · rw [h]
    decide
  · rw [h, h]

/-! ## What a browser makes of it -/

/-- A path whose second slash is behind tabs, which the check reads and a browser does not. -/
def Slips (candidate : String) : Prop :=
  ∃ tabs rest, candidate.toList = '/' :: (tabs ++ '/' :: rest) ∧ tabs ≠ [] ∧
    (∀ c ∈ tabs, c = '\t') ∧ '\\' ∉ rest

/-- What follows the slashes a path begins with. -/
def hostNamed (candidate : String) : List Char :=
  ((strip candidate.toList).drop 2).dropWhile isSlash

theorem eq_tab {c : Char} (hremoved : isTabOrNewline c) (hheader : isHeaderChar c) : c = '\t' := by
  simp only [isTabOrNewline, Bool.or_eq_true, decide_eq_true_eq] at hremoved
  rcases hremoved with (rfl | rfl) | rfl
  · rfl
  · exact absurd hheader (by decide)
  · exact absurd hheader (by decide)

theorem stepUpLocation_eq_some (h : stepUpLocation candidate = some loc) :
    loc = sanitizeReturnPath candidate ∧ ∀ c ∈ loc.toList, isHeaderChar c := by
  rw [stepUpLocation, sanitizeReturnPath_idem, headerValue] at h
  split at h
  case isTrue hall =>
    cases h
    exact ⟨rfl, List.all_eq_true.mp hall⟩
  case isFalse => cases h

theorem Slips.isLocal (h : Slips candidate) :
    ∃ rest, candidate.toList = '/' :: rest ∧ IsLocal rest := by
  obtain ⟨tabs, more, hlist, hne, htabs, hback⟩ := h
  refine ⟨_, hlist, ?_⟩
  obtain ⟨tab, tabs, rfl⟩ := List.exists_cons_of_ne_nil hne
  obtain rfl := htabs tab List.mem_cons_self
  refine ⟨by simp, fun hmem => ?_⟩
  rcases List.mem_append.mp hmem with hmem | hmem
  · exact absurd (htabs _ hmem) (by decide)
  · rcases List.mem_cons.mp hmem with he | hmem
    · exact absurd he (by decide)
    · exact hback hmem

section
variable {Host : Type} {parseHost : List Char → Option Host} {base : Origin Host}

/-- A path that slips leads to the host that it names. -/
theorem resolve_of_slips (h : Slips candidate) : resolve parseHost base candidate.toList =
    authority parseHost base.scheme (hostNamed candidate) := by
  obtain ⟨tabs, rest, hlist, -, htabs, -⟩ := h
  have hgap : ∀ c ∈ tabs, isTabOrNewline c := fun c hc => by rw [htabs c hc]; decide
  obtain ⟨more, hmore⟩ := stripTail_eq_cons_iff.mpr ⟨tabs, rest, rfl, hgap⟩
  rw [hostNamed, hlist, strip_slash, resolve_slash, hmore]
  rfl

/-- A path that does not slip stays within the origin. -/
theorem resolve_of_not_slips (hlist : candidate.toList = '/' :: rest) (hlocal : IsLocal rest)
    (hheader : ∀ c ∈ candidate.toList, isHeaderChar c) (h : ¬Slips candidate) :
    resolve parseHost base candidate.toList = .within base := by
  rw [hlist, resolve_slash]
  cases htail : stripTail rest with
  | nil => rfl
  | cons c more =>
    have hnot : isSlash c = false := by
      rw [Bool.eq_false_iff]
      intro hslash
      rcases (Bool.or_eq_true ..).mp hslash with he | he
      · obtain rfl := of_decide_eq_true he
        obtain ⟨gap, more', hrest, hgap⟩ := stripTail_eq_cons_iff.mp ⟨more, htail⟩
        have hin {c : Char} (hc : c ∈ rest) : isHeaderChar c :=
          hheader c (by rw [hlist]; exact List.mem_cons_of_mem _ hc)
        refine h ⟨gap, more', by rw [hlist, hrest], ?_, fun c hc => ?_, fun hmem => ?_⟩
        · rintro rfl
          exact hlocal.slash (by rw [hrest]; rfl)
        · exact eq_tab (hgap c hc) (hin (by rw [hrest]; exact List.mem_append_left _ hc))
        · refine hlocal.backslash ?_
          rw [hrest]
          exact List.mem_append_right _ (List.mem_cons_of_mem _ hmem)
      · obtain rfl := of_decide_eq_true he
        exact hlocal.backslash (mem_of_mem_stripTail (htail ▸ List.mem_cons_self))
    rw [relative, hnot, Bool.and_false]
    rfl

/-- The end of a step-up is on the origin of the relay exactly when the path does not slip, or the
host that it names is the relay itself. -/
theorem return_path_same_origin_iff {Host : Type} (parseHost : List Char → Option Host)
    (base : Origin Host) (candidate loc : String) (h : stepUpLocation candidate = some loc) :
    resolve parseHost base loc.toList = .within base ↔ ¬Slips candidate ∨
      authority parseHost base.scheme (hostNamed candidate) = .within base := by
  obtain ⟨rfl, hheader⟩ := stepUpLocation_eq_some h
  by_cases hslips : Slips candidate
  · obtain ⟨rest, hlist, hlocal⟩ := hslips.isLocal
    rw [sanitizeReturnPath_of_local hlist hlocal, resolve_of_slips hslips]
    exact ⟨.inr, fun h => h.resolve_left fun hnot => hnot hslips⟩
  · refine iff_of_true ?_ (.inl hslips)
    rcases sanitizeReturnPath_cases candidate with hlanding | ⟨rest, hlist, hlocal, hsame⟩
    · rw [hlanding]
      rfl
    · rw [hsame] at hheader ⊢
      exact resolve_of_not_slips hlist hlocal hheader hslips

end

namespace Sample

/-- Hosts as they are written. -/
def asWritten (host : List Char) : Option String := some (.ofList host)

def relayOrigin : Origin String := ⟨.https, "relay.example", none⟩

end Sample

theorem return_path_same_origin_settings :
    resolve Sample.asWritten Sample.relayOrigin "/app/settings".toList = .within Sample.relayOrigin ↔
      ¬Slips "/app/settings" ∨ authority Sample.asWritten .https (hostNamed "/app/settings") =
        .within Sample.relayOrigin :=
  return_path_same_origin_iff Sample.asWritten Sample.relayOrigin "/app/settings" "/app/settings" rfl

/-- A tab behind the first slash hides the second from the check. -/
theorem return_path_leaves_origin : ¬∀ (candidate loc : String),
    stepUpLocation candidate = some loc →
    resolve Sample.asWritten Sample.relayOrigin loc.toList = .within Sample.relayOrigin := by
  intro h
  exact absurd (h "/\t/evil.example" "/\t/evil.example" (by decide)) (by decide)

end Site

end TunnelWeaver.Account
