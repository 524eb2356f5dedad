import TunnelWeaver.Abuse.Altcha
import TunnelWeaver.Abuse.Pow

/-! Challenges as they are issued and verified (`altcha/pow.rs`). The signature covers every
parameter, because the canonical JSON of the parameters determines them. -/

namespace TunnelWeaver.Abuse.Pow

/-! ## Canonical JSON -/

/-- `BTreeMap::insert`. -/
def insertKey (k : Text) (v : Value) : List (Text × Value) → List (Text × Value)
  | [] => [(k, v)]
  | e :: entries =>
    if k < e.1 then (k, v) :: e :: entries
    else if k = e.1 then (k, v) :: entries
    else e :: insertKey k v entries

/-- The map of the entries. -/
def collect (entries : List (Text × Value)) : List (Text × Value) :=
  entries.foldl (fun map e => insertKey e.1 e.2 map) []

/-! Sort the keys of every object. -/
mutual

def sortKeys : Value → Value
  | .object entries => .object (collect (sortEntries entries))
  | .array items => .array (sortItems items)
  | other => other

def sortItems : List Value → List Value
  | [] => []
  | v :: items => sortKeys v :: sortItems items

def sortEntries : List (Text × Value) → List (Text × Value)
  | [] => []
  | e :: entries => (e.1, sortKeys e.2) :: sortEntries entries

end

/-- An entry for a field that is present. -/
def field {α : Type} (name : String) (f : α → Value) (a : Option α) : List (Text × Value) :=
  (a.map fun a => (text name, f a)).toList

/-- `serde_json::to_value`: absent fields are left out. -/
def ChallengeParameters.toValue (p : ChallengeParameters) : Value :=
  .object ([(text "algorithm", .string p.algorithm), (text "cost", .number (.int p.cost.toNat))] ++
    field "data" (fun d => .object d.entries) p.data ++
    field "expiresAt" (fun t => .number (.int t)) p.expiresAt ++
    [(text "keyLength", .number (.int p.keyLength)), (text "keyPrefix", .string p.keyPrefix),
      (text "nonce", .string p.nonce), (text "salt", .string p.salt)])

/-! ### Sorting what is sorted -/

theorem insertKey_of_lt {k : Text} {v : Value} {map : List (Text × Value)}
    (h : ∀ e ∈ map, e.1 < k) : insertKey k v map = map ++ [(k, v)] := by
  induction map with
  | nil => rfl
  | cons e map ih =>
    obtain ⟨he, hmap⟩ := List.forall_mem_cons.mp h
    have hne : k ≠ e.1 := fun heq => List.lt_irrefl k (heq ▸ he)
    rw [insertKey, if_neg (List.lt_asymm he), if_neg hne, ih hmap, List.cons_append]

theorem foldl_insertKey {entries : List (Text × Value)} (map : List (Text × Value))
    (h : (map ++ entries).Pairwise fun a b => a.1 < b.1) :
    entries.foldl (fun map e => insertKey e.1 e.2 map) map = map ++ entries := by
  induction entries generalizing map with
  | nil => simp
  | cons e entries ih =>
    have hlt : ∀ x ∈ map, x.1 < e.1 := fun x hx =>
      (List.pairwise_append.mp h).2.2 x hx e List.mem_cons_self
    rw [List.foldl_cons, insertKey_of_lt hlt, ih _ (by simpa using h), List.append_assoc,
      List.singleton_append]

theorem collect_of_ascending {entries : List (Text × Value)}
    (h : entries.Pairwise fun a b => a.1 < b.1) : collect entries = entries :=
  foldl_insertKey [] h

mutual

/-- A value is sorted as it stands, because its maps are. -/
theorem sortKeys_of_ascending : ∀ v : Value, v.Ascending → sortKeys v = v
  | .object entries, h => by
    rw [Value.Ascending] at h
    rw [sortKeys, sortEntries_of_ascending entries h.2, collect_of_ascending h.1]
  | .array items, h => by
    rw [Value.Ascending] at h
    rw [sortKeys, sortItems_of_ascending items h]
  | .null, _ | .bool _, _ | .number _, _ | .string _, _ => by rw [sortKeys] <;> simp

theorem sortItems_of_ascending : ∀ items : List Value, ascendingItems items → sortItems items = items
  | [], _ => by rw [sortItems]
  | v :: items, h => by
    rw [ascendingItems] at h
    rw [sortItems, sortKeys_of_ascending v h.1, sortItems_of_ascending items h.2]

theorem sortEntries_of_ascending :
    ∀ entries : List (Text × Value), ascendingEntries entries → sortEntries entries = entries
  | [], _ => by rw [sortEntries]
  | e :: entries, h => by
    rw [ascendingEntries] at h
    rw [sortEntries, sortKeys_of_ascending e.2 h.1, sortEntries_of_ascending entries h.2]

end

/-! ### The parameters -/

theorem ascending_of_keys {entries : List (Text × Value)}
    (hkeys : (entries.map Prod.fst).Pairwise (· < ·)) (h : ∀ e ∈ entries, e.2.Ascending) :
    (Value.object entries).Ascending := by
  rw [Value.Ascending]
  refine ⟨List.pairwise_map.mp hkeys, ?_⟩
  clear hkeys
  induction entries with
  | nil => rw [ascendingEntries]; trivial
  | cons e entries ih =>
    obtain ⟨he, hentries⟩ := List.forall_mem_cons.mp h
    rw [ascendingEntries]
    exact ⟨he, ih hentries⟩

theorem ascending_string (s : Text) : (Value.string s).Ascending := by
  rw [Value.Ascending] <;> simp

theorem ascending_number (n : Number) : (Value.number n).Ascending := by
  rw [Value.Ascending] <;> simp

/-- The fields stand in the order of their names. -/
theorem ascending_toValue (p : ChallengeParameters) : p.toValue.Ascending := by
  refine ascending_of_keys ?_ ?_
  · cases hdata : p.data <;> cases hexpires : p.expiresAt <;>
      simp only [field, Option.map_none, Option.map_some, Option.toList_none, Option.toList_some,
        List.append_nil, List.cons_append, List.nil_append, List.map_cons, List.map_nil] <;>
      decide +kernel
  · have hfield : ∀ {α : Type} {name : String} {f : α → Value} {a : Option α},
        (∀ a, (f a).Ascending) → ∀ e ∈ field name f a, e.2.Ascending := by
      rintro α name f a hf e he
      obtain ⟨e', he', rfl⟩ := Option.map_eq_some_iff.mp (Option.mem_toList.mp he)
      exact hf e'
    simp only [List.forall_mem_append, List.forall_mem_cons]
    refine ⟨⟨⟨⟨ascending_string _, ascending_number _, by simp⟩, hfield Metadata.ascending⟩,
      hfield fun _ => ascending_number _⟩, ascending_number _, ascending_string _,
      ascending_string _, ascending_string _, by simp⟩

theorem Metadata.ext_iff {d d' : Metadata} : d = d' ↔ d.entries = d'.entries := by
  cases d
  cases d'
  simp

/-- The canonical value determines every parameter. -/
theorem toValue_injective {p p' : ChallengeParameters} (h : p.toValue = p'.toValue) : p = p' := by
  have hdata : text "data" ≠ text "expiresAt" := by decide +kernel
  have hlength : text "data" ≠ text "keyLength" := by decide +kernel
  have hexpires : text "expiresAt" ≠ text "keyLength" := by decide +kernel
  obtain ⟨algorithm, cost, data, expiresAt, keyLength, keyPrefix, nonce, salt⟩ := p
  obtain ⟨algorithm', cost', data', expiresAt', keyLength', keyPrefix', nonce', salt'⟩ := p'
  cases data <;> cases data' <;> cases expiresAt <;> cases expiresAt' <;>
    simp [ChallengeParameters.toValue, field, hdata, hlength, hexpires, hdata.symm, hlength.symm,
      hexpires.symm, Metadata.ext_iff, ← UInt32.toNat_inj] at h ⊢ <;>
    exact h

section
variable [Primitives]

def canonicalJson (p : ChallengeParameters) : Text := Primitives.jsonToString (sortKeys p.toValue)

theorem canonicalJson_eq (p : ChallengeParameters) :
    canonicalJson p = Primitives.jsonToString p.toValue := by
  rw [canonicalJson, sortKeys_of_ascending _ (ascending_toValue p)]

/-! ## Issuing -/

structure CreateRequest where
  algorithm : Text
  cost : UInt32
  keyLength : Nat
  keyPrefix : Text
  ttlSecs : Int
  secret : Text
  data : Metadata
  nonce : Vector UInt8 16
  salt : Vector UInt8 16
  nowMs : Int

def sign (secret : Text) (p : ChallengeParameters) : Text :=
  Hex.encode (Primitives.hmacSha256 secret (canonicalJson p))

def CreateRequest.parameters (r : CreateRequest) : ChallengeParameters where
  algorithm := r.algorithm
  cost := r.cost
  data := if r.data.entries.isEmpty then none else some r.data
  expiresAt := if 0 < r.ttlSecs then some (I64.wrap (r.nowMs.tdiv 1000 + r.ttlSecs)) else none
  keyLength := r.keyLength
  keyPrefix := r.keyPrefix.map Hex.lower
  nonce := Hex.encode r.nonce.toList
  salt := Hex.encode r.salt.toList

def createChallenge (r : CreateRequest) : Challenge :=
  ⟨r.parameters, some (sign r.secret r.parameters)⟩

/-! ## Verifying -/

structure VerifyRequest where
  challenge : Challenge
  solution : Solution
  secret : Text
  nowMs : Int
  expectedPurpose : Text
  expectedFlow : Text

structure Verified where
  nonce : Text
  purpose : Text
  flow : Text
  deriving DecidableEq

def constantTimeEqHex (a b : Text) : Bool := if a.length ≠ b.length then false else a == b

def ChallengeParameters.expired (p : ChallengeParameters) (nowMs : Int) : Bool :=
  (p.expiresAt.filter fun t => t ≠ 0).any fun expiresAt => expiresAt < nowMs.tdiv 1000

/-- A string among the metadata; anything else is as good as the empty string. -/
def Metadata.str (d : Metadata) (key : String) : Text :=
  match d.entries.lookup (text key) with
  | some (.string s) => s
  | _ => []

def verifySolution (r : VerifyRequest) : Except ProofError Verified × List UInt32 :=
  let p := r.challenge.parameters
  if p.expired r.nowMs then (.error .expired, [])
  else match r.challenge.signature with
    | none => (.error .missingSignature, [])
    | some signature =>
      if !constantTimeEqHex signature (sign r.secret p) then (.error .badSignature, [])
      else if !isSupported p.algorithm then (.error .unsupportedAlgorithm, [])
      else match p.data with
        | none => (.error .wrongContext, [])
        | some data =>
          let purpose := data.str "purpose"
          let flow := data.str "flow"
          if purpose ≠ r.expectedPurpose ∨ flow ≠ r.expectedFlow then (.error .wrongContext, [])
          else match Hex.decode p.nonce, Hex.decode p.salt with
            | some nonce, some salt =>
              let password := buildPassword nonce r.solution.counter
              let derived := deriveKey p.cost p.keyLength salt password
              if !constantTimeEqHex (Hex.encode derived) r.solution.derivedKey ||
                  !keyPrefixMatches p.keyPrefix derived then
                (.error .badSolution, [p.cost])
              else (.ok ⟨p.nonce, purpose, flow⟩, [p.cost])
            | _, _ => (.error .badSolution, [])

omit [Primitives] in
theorem constantTimeEqHex_iff {a b : Text} : constantTimeEqHex a b = true ↔ a = b := by
  unfold constantTimeEqHex
  split
  · rename_i h
    exact iff_of_false (by simp) fun heq => h (congrArg List.length heq)
  · exact beq_iff_eq

omit [Primitives] in
/-- The case of the prefix does not matter. -/
theorem keyPrefixMatches_lower (keyPrefix : Text) (derived : Bytes) :
    keyPrefixMatches (keyPrefix.map Hex.lower) derived = keyPrefixMatches keyPrefix derived := by
  have hdigits : (keyPrefix.map Hex.lower).all Hex.isDigit = keyPrefix.all Hex.isDigit := by
    rw [List.all_map]
    congr 1
    funext c
    exact Hex.isDigit_lower c
  have hlower : (keyPrefix.map Hex.lower).map Hex.lower = keyPrefix.map Hex.lower := by
    rw [List.map_map]
    congr 1
    funext c
    exact Hex.lower_lower c
  rw [Bool.eq_iff_iff, keyPrefixMatches_iff, keyPrefixMatches_iff, hdigits, hlower]

omit [Primitives] in
/-- No challenge has expired up to its expiry. -/
theorem not_expired {p : ChallengeParameters} {nowMs : Int}
    (h : ∀ t, p.expiresAt = some t → t ≠ 0 → nowMs ≤ t * 1000) : p.expired nowMs = false := by
  unfold ChallengeParameters.expired
  cases hexpires : p.expiresAt with
  | none => rfl
  | some t =>
    by_cases hzero : t = 0
    · simp [hzero]
    · have hle := h t hexpires hzero
      have hdiv : nowMs.tdiv 1000 ≤ t := by
        have hsign : (1000 : Int).sign = 1 := rfl
        rw [Int.tdiv_eq_ediv, hsign]
        split <;> omega
      simp [hzero, hdiv]

/-- A challenge with the signature of another does not get as far as a key. -/
theorem forged_rejected {c : Challenge} {r : CreateRequest}
    (hhmac : ∀ a b, Primitives.hmacSha256 r.secret a = Primitives.hmacSha256 r.secret b → a = b)
    (hprint : Primitives.jsonToString c.parameters.toValue =
      Primitives.jsonToString r.parameters.toValue → c.parameters.toValue = r.parameters.toValue)
    (hsignature : c.signature = (createChallenge r).signature) (hne : c.parameters ≠ r.parameters)
    (solution : Solution) (nowMs : Int) (purpose flow : Text) :
    ∃ e, verifySolution ⟨c, solution, r.secret, nowMs, purpose, flow⟩ = (.error e, []) := by
  have hsign : constantTimeEqHex (sign r.secret r.parameters) (sign r.secret c.parameters) = false := by
    refine Bool.eq_false_iff.mpr fun h => hne ?_
    have hjson := hhmac _ _ (Hex.encode_injective (constantTimeEqHex_iff.mp h))
    rw [canonicalJson_eq, canonicalJson_eq] at hjson
    exact toValue_injective (hprint hjson.symm)
  unfold verifySolution
  dsimp only
  split
  · exact ⟨_, rfl⟩
  · rw [hsignature]
    simp only [createChallenge, hsign, Bool.not_false, if_true]
    exact ⟨_, rfl⟩

/-- A key that matches the prefix is accepted. -/
theorem issued_accepted {r : CreateRequest} {purpose flow : Text} {counter : UInt32} {derived : Bytes}
    {nowMs : Int} (hsupported : isSupported r.algorithm = true)
    (hpurpose : r.data.entries.lookup (text "purpose") = some (.string purpose))
    (hflow : r.data.entries.lookup (text "flow") = some (.string flow))
    (hkey : keyFor r.parameters counter = some derived)
    (hmatch : keyPrefixMatches r.keyPrefix derived = true)
    (hnow : ∀ t, r.parameters.expiresAt = some t → t ≠ 0 → nowMs ≤ t * 1000) :
    verifySolution ⟨createChallenge r, ⟨counter, Hex.encode derived⟩, r.secret, nowMs, purpose,
      flow⟩ = (.ok ⟨r.parameters.nonce, purpose, flow⟩, [r.cost]) := by
  have hdata : r.parameters.data = some r.data := by
    refine if_neg fun h => ?_
    rw [List.isEmpty_iff.mp h] at hpurpose
    cases hpurpose
  have hpurpose' : r.data.str "purpose" = purpose := by rw [Metadata.str, hpurpose]
  have hflow' : r.data.str "flow" = flow := by rw [Metadata.str, hflow]
  have hnonce : Hex.decode r.parameters.nonce = some r.nonce.toList := Hex.decode_encode _
  have hsalt : Hex.decode r.parameters.salt = some r.salt.toList := Hex.decode_encode _
  have hderived : deriveKey r.parameters.cost r.parameters.keyLength r.salt.toList
      (buildPassword r.nonce.toList counter) = derived := by
    simpa only [keyFor, hnonce, hsalt, Option.some.injEq] using hkey
  have hprefix : keyPrefixMatches r.parameters.keyPrefix derived = true :=
    (keyPrefixMatches_lower r.keyPrefix derived).trans hmatch
  have hsupported : isSupported r.parameters.algorithm = true := hsupported
  unfold verifySolution createChallenge
  dsimp only
  rw [not_expired hnow, hdata]
  simp only [Bool.false_eq_true, if_false, constantTimeEqHex_iff.mpr, Bool.not_true, hsupported,
    hpurpose', hflow', hnonce, hsalt, hderived, hprefix, ne_eq, not_true, or_self, Bool.or_self]
  rfl

/-- What is issued verifies and what is forged does not. -/
theorem challenges_sound (r : CreateRequest) {purpose flow : Text}
    (hsupported : isSupported r.algorithm = true)
    (hpurpose : r.data.entries.lookup (text "purpose") = some (.string purpose))
    (hflow : r.data.entries.lookup (text "flow") = some (.string flow))
    (hhmac : ∀ a b, Primitives.hmacSha256 r.secret a = Primitives.hmacSha256 r.secret b → a = b) :
    (∀ counter derived, keyFor (createChallenge r).parameters counter = some derived →
      keyPrefixMatches r.keyPrefix derived = true →
      ∀ nowMs, (∀ t, (createChallenge r).parameters.expiresAt = some t → t ≠ 0 → nowMs ≤ t * 1000) →
      verifySolution ⟨createChallenge r, ⟨counter, Hex.encode derived⟩, r.secret, nowMs, purpose,
        flow⟩ = (.ok ⟨(createChallenge r).parameters.nonce, purpose, flow⟩, [r.cost])) ∧
    ∀ c : Challenge, c.signature = (createChallenge r).signature →
      c.parameters ≠ (createChallenge r).parameters →
      (Primitives.jsonToString c.parameters.toValue =
        Primitives.jsonToString (createChallenge r).parameters.toValue →
        c.parameters.toValue = (createChallenge r).parameters.toValue) →
      ∀ solution nowMs purpose flow,
        ∃ e, verifySolution ⟨c, solution, r.secret, nowMs, purpose, flow⟩ = (.error e, []) :=
  ⟨fun _ _ hkey hmatch _ hnow => issued_accepted hsupported hpurpose hflow hkey hmatch hnow,
    fun _ hsignature hne hprint solution nowMs purpose flow =>
      forged_rejected hhmac hprint hsignature hne solution nowMs purpose flow⟩

end

namespace Sample

/-- The canonical JSON of `request`, with another cost. -/
def json (cost : String) : Text :=
  text "\x7b\"algorithm\":\"PBKDF2/SHA-256\",\"cost\":" ++ (text cost ++
    (text ",\"data\":\x7b\"flow\":\"f\",\"purpose\":\"p\"\x7d,\"expiresAt\":1300,\"keyLength\":1," ++
      (text "\"keyPrefix\":\"c8\",\"nonce\":\"00000000000000000000000000000000\"," ++
        text "\"salt\":\"00000000000000000000000000000000\"\x7d")))

def macs : Bytes × Bytes :=
  ([0x43, 0x81, 0x61, 0x4b, 0xf7, 0x80, 0x38, 0x26, 0x7a, 0x14, 0x64, 0x1e, 0x95, 0x81, 0x56, 0x1a,
      0xcf, 0xd2, 0xc5, 0x65, 0xfc, 0x4f, 0x71, 0x43, 0x42, 0x41, 0xfe, 0x04, 0x9f, 0xd5, 0xeb, 0xaf],
    [0x4e, 0xd8, 0x51, 0xfb, 0x3f, 0x08, 0x39, 0x1a, 0x88, 0x50, 0x60, 0x6f, 0x7b, 0x81, 0x08, 0xda,
      0xc8, 0x9c, 0xa1, 0xbe, 0xa6, 0xfd, 0x69, 0x8d, 0x84, 0x21, 0xa4, 0x81, 0x32, 0x68, 0xd8, 0x49])

/-- The real values for `request` and its forgery, and a MAC that no other text shares. -/
@[reducible] def signing : Primitives where
  pbkdf2HmacSha256 _ _ _ _ := [0xc8]
  hmacSha256 _ data :=
    if data = json "1" then macs.1 else if data = json "2" then macs.2
    else List.replicate 33 0 ++ data
  jsonToString v :=
    match v with
    | .object (_ :: (_, .number (.int 1)) :: _) => json "1"
    | _ => json "2"

def request : CreateRequest where
  algorithm := supportedAlgorithm
  cost := 1
  keyLength := 1
  keyPrefix := text "C8"
  ttlSecs := 300
  secret := text "secret"
  data := ⟨[(text "flow", .string (text "f")), (text "purpose", .string (text "p"))],
    ascending_of_keys (by decide +kernel) (by simp [ascending_string])⟩
  nonce := Vector.replicate 16 0
  salt := Vector.replicate 16 0
  nowMs := 1000000

/-- `request` with the cost doubled, under the signature of the original. -/
def forgery : Challenge where
  parameters := { request.parameters with cost := 2 }
  signature := (@createChallenge signing request).signature

theorem json_ne : json "1" ≠ json "2" := by
  intro h
  have htail := List.append_cancel_right (List.append_cancel_left h)
  exact absurd htail (by decide +kernel)

/-- No MAC of the two texts is that of another. -/
theorem mac_ne (data : Bytes) :
    macs.1 ≠ List.replicate 33 0 ++ data ∧ macs.2 ≠ List.replicate 33 0 ++ data := by
  have hlen : macs.1.length = 32 ∧ macs.2.length = 32 := by decide
  refine ⟨fun h => ?_, fun h => ?_⟩ <;>
  · have hlength := congrArg List.length h
    rw [List.length_append, List.length_replicate] at hlength
    omega

theorem hmac_injective (key a b : Bytes)
    (h : signing.hmacSha256 key a = signing.hmacSha256 key b) : a = b := by
  have hmacs : macs.1 ≠ macs.2 := by decide
  change (if a = json "1" then macs.1 else if a = json "2" then macs.2
    else List.replicate 33 0 ++ a) = (if b = json "1" then macs.1 else if b = json "2" then macs.2
    else List.replicate 33 0 ++ b) at h
  by_cases ha : a = json "1" <;> by_cases hb : b = json "1"
  · exact ha.trans hb.symm
  · rw [if_pos ha, if_neg hb] at h
    split at h
    · exact absurd h hmacs
    · exact absurd h (mac_ne b).1
  · rw [if_neg ha, if_pos hb] at h
    split at h
    · exact absurd h.symm hmacs
    · exact absurd h.symm (mac_ne a).1
  · rw [if_neg ha, if_neg hb] at h
    by_cases ha' : a = json "2" <;> by_cases hb' : b = json "2"
    · exact ha'.trans hb'.symm
    · rw [if_pos ha', if_neg hb'] at h
      exact absurd h (mac_ne b).2
    · rw [if_neg ha', if_pos hb'] at h
      exact absurd h.symm (mac_ne a).2
    · rw [if_neg ha', if_neg hb'] at h
      exact List.append_cancel_left h

end Sample

/-- The request above is solved, and its forgery turned away. -/
theorem challenges_sound_request :
    @verifySolution Sample.signing ⟨@createChallenge Sample.signing Sample.request,
      ⟨0, Hex.encode [0xc8]⟩, text "secret", 1300000, text "p", text "f"⟩ =
        (.ok ⟨Sample.request.parameters.nonce, text "p", text "f"⟩, [1]) ∧
    ∃ e, @verifySolution Sample.signing ⟨Sample.forgery, ⟨0, Hex.encode [0xc8]⟩, text "secret",
      1300000, text "p", text "f"⟩ = (.error e, []) := by
  have hne : (text "purpose" == text "flow") = false := by decide +kernel
  obtain ⟨hissued, hforged⟩ := @challenges_sound Sample.signing Sample.request (text "p") (text "f")
    (by decide +kernel) (by simp [Sample.request, List.lookup, hne]) (by simp [Sample.request])
    (Sample.hmac_injective _)
  refine ⟨hissued 0 [0xc8] (by decide +kernel) (by decide +kernel) 1300000 ?_, ?_⟩
  · intro t ht _
    have ht : some (I64.wrap (Int.tdiv 1000000 1000 + 300)) = some t := ht
    cases ht
    decide
  · refine hforged Sample.forgery rfl (fun h => ?_) (fun h => ?_) _ _ _ _
    · exact absurd (congrArg ChallengeParameters.cost h) (by decide)
    · exact absurd h.symm Sample.json_ne

end TunnelWeaver.Abuse.Pow
