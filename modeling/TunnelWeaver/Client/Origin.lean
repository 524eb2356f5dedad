import TunnelWeaver.Proto.Headers
import TunnelWeaver.Server.Relay

/-! The header fields of the request that the client sends to an origin (`proxy.rs`). -/

namespace TunnelWeaver.Client

open Mux (Bytes)
open Proto (Field HeaderMap HttpHead connectionTokens toAsciiLowercase valuesOf)
open Proto.Policy (fromUtf8)
open Server (HttpTypes validFields)

/-! ## Targets -/

inductive TargetScheme where
  | http
  | https
  deriving DecidableEq

def TargetScheme.defaultPort : TargetScheme → UInt16
  | http => 80
  | https => 443

/-- The local origin that a service proxies to. -/
structure Target where
  scheme : TargetScheme
  host : String
  port : UInt16

/-- The `host[:port]` value of the `Host` header. -/
def Target.authority (t : Target) : String :=
  if t.port = t.scheme.defaultPort then t.host else t.host ++ ":" ++ toString t.port.toNat

/-- The target of a service and what of its proxy policy the request fields depend on. -/
structure ServiceSpec where
  target : Target
  /-- Send the public hostname as `Host` instead of the target's. -/
  preserveHost : Bool := false
  /-- Keep the `Forwarded` and `X-Forwarded-*` fields instead of replacing them. -/
  appendForwarded : Bool := false

/-- One visitor request and the service it is for. -/
structure ExchangeConfig where
  /-- The head as the relay sent it. -/
  head : HttpHead
  spec : ServiceSpec

/-! ## Text -/

/-- How many bytes a character takes that starts with this byte. -/
def utf8CharWidth (b : UInt8) : Nat :=
  if b < 0x80 then 1
  else if 0xc2 ≤ b ∧ b < 0xe0 then 2
  else if 0xe0 ≤ b ∧ b < 0xf0 then 3
  else if 0xf0 ≤ b ∧ b < 0xf5 then 4
  else 0

/-- The bytes that may come second in such a character. -/
def utf8Second (lead b : UInt8) : Bool :=
  if lead = 0xe0 then 0xa0 ≤ b ∧ b < 0xc0
  else if lead = 0xed then 0x80 ≤ b ∧ b < 0xa0
  else if lead = 0xf0 then 0x90 ≤ b ∧ b < 0xc0
  else if lead = 0xf4 then 0x80 ≤ b ∧ b < 0x90
  else 0x80 ≤ b ∧ b < 0xc0

/-- As much of a character as is there after its first byte. -/
def utf8Rest (lead : UInt8) (bytes : Bytes) : Bytes :=
  match bytes.take (utf8CharWidth lead - 1) with
  | [] => []
  | b :: more => if utf8Second lead b then b :: more.takeWhile (fun c => 0x80 ≤ c ∧ c < 0xc0) else []

/-- `String::from_utf8_lossy`: each longest piece that could start a character, but is none, becomes
one replacement character; at most `fuel` pieces. -/
def lossyChars : Nat → Bytes → List Char
  | 0, _ | _, [] => []
  | fuel + 1, b :: bytes =>
    let rest := utf8Rest b bytes
    let piece := match fromUtf8 (b :: rest) with
      | some s => s.toList
      | none => ['\uFFFD']
    piece ++ lossyChars fuel (bytes.drop rest.length)

def fromUtf8Lossy (bytes : Bytes) : String := .ofList (lossyChars bytes.length bytes)

/-! ## Fields -/

/-- Hop-by-hop headers a proxy must not forward. -/
def hopByHop : List String :=
  ["connection", "keep-alive", "proxy-authenticate", "proxy-authorization", "proxy-connection",
    "te", "transfer-encoding", "upgrade"]

def isForwardingHeader (lname : String) : Bool :=
  lname == "forwarded" || "x-forwarded-".toList.isPrefixOf lname.toList

section
variable [HttpTypes]

/-- Several `Cookie` fields are joined into one where the first one is, if the result is valid. -/
def coalesceCookies (headers : List Field) : List Field :=
  let isCookie (f : Field) : Bool := f.1 == "cookie"
  match headers.dropWhile (!isCookie ·) with
  | [] => headers
  | _ :: after =>
    if after.all (!isCookie ·) then headers
    else
      let joined := "; ".toUTF8.toList.intercalate (valuesOf "cookie" headers)
      if HttpTypes.headerValue joined then
        headers.takeWhile (!isCookie ·) ++ ("cookie", joined) :: after.filter (!isCookie ·)
      else headers

/-- Neither a name nor a value that is not valid is inserted. -/
def insertBytes (headers : HeaderMap) (name : String) (value : Bytes) : HeaderMap :=
  match HttpTypes.headerName name, HttpTypes.headerValue value with
  | some n, true => headers.insert n value
  | _, _ => headers

/-- The address of the visitor, which the relay appends last. -/
def visitorOf (headers : HeaderMap) : String :=
  match (headers.getAll "x-forwarded-for").getLast? with
  | some value => fromUtf8Lossy value
  | none => "unknown"

/-- The fields that go on to the origin. -/
def keptHeaders (headers : HeaderMap) (spec : ServiceSpec) : List Field :=
  headers.iter.filter fun f =>
    let lname := toAsciiLowercase f.1
    !(hopByHop.contains lname || (connectionTokens headers).contains lname) &&
      lname != "host" && (spec.appendForwarded || !isForwardingHeader lname)

/-- The pair of an upgrade or the client's own `TE`. -/
def insertUpgrade (headers : HeaderMap) (upgradeProtocol : Option Bytes) : HeaderMap :=
  match upgradeProtocol with
  | some protocol =>
    (headers.insert "connection" "upgrade".toUTF8.toList).insert "upgrade" protocol
  | none => headers.insert "te" "trailers".toUTF8.toList

def hostValue (cfg : ExchangeConfig) : Bytes :=
  (if cfg.spec.preserveHost then cfg.head.authority
  else cfg.spec.target.authority).toUTF8.toList

def insertHost (headers : HeaderMap) (cfg : ExchangeConfig) : HeaderMap :=
  if HttpTypes.headerValue (hostValue cfg) then headers.insert "host" (hostValue cfg) else headers

/-- The canonical trio and `Forwarded`. -/
def canonicalForwarded (publicHost visitor : String) : List Field :=
  [("x-forwarded-for", visitor.toUTF8.toList),
    ("x-forwarded-proto", "https".toUTF8.toList),
    ("x-forwarded-host", publicHost.toUTF8.toList),
    ("forwarded",
      ("for=\"" ++ visitor ++ "\";proto=https;host=\"" ++ publicHost ++ "\"").toUTF8.toList)]

/-- Unless they are kept, the forwarding headers are written anew. -/
def insertForwarded (headers : HeaderMap) (cfg : ExchangeConfig) (visitor : String) : HeaderMap :=
  if cfg.spec.appendForwarded then headers
  else (canonicalForwarded cfg.head.authority visitor).foldl (fun m f => insertBytes m f.1 f.2)
    headers

def applyOriginHeaders (headers : HeaderMap) (cfg : ExchangeConfig) (isUpgrade : Bool) :
    HeaderMap :=
  let upgradeProtocol := if isUpgrade then headers.get "upgrade" else none
  let rebuilt := coalesceCookies (keptHeaders headers cfg.spec)
  let rebuilt := insertUpgrade (.ofFields rebuilt) upgradeProtocol
  insertForwarded (insertHost rebuilt cfg) cfg (visitorOf headers)

/-- The fields of `build_request`. -/
def buildRequest (cfg : ExchangeConfig) (isUpgrade : Bool) : HeaderMap :=
  applyOriginHeaders (.ofFields (validFields cfg.head.headers)) cfg isUpgrade

/-- The fields that `run_exchange` sends to the origin. -/
def requestHeaders (cfg : ExchangeConfig) : HeaderMap :=
  buildRequest cfg (cfg.head.header "upgrade").isSome

/-! ## Cookies -/

/-- What becomes of the values of `Cookie`. -/
def joinCookies (values : List Bytes) : List Bytes :=
  let joined := "; ".toUTF8.toList.intercalate values
  if 2 ≤ values.length ∧ HttpTypes.headerValue joined = true then [joined] else values

omit [HttpTypes] in
theorem valuesOf_cookie_of_all {fields : List Field}
    (h : fields.all (fun f => !(f.1 == "cookie")) = true) : valuesOf "cookie" fields = [] :=
  Proto.valuesOf_eq_nil fun f hf => by simpa using List.all_eq_true.mp h f hf

omit [HttpTypes] in
theorem length_valuesOf_cookie_pos {fields : List Field}
    (h : ¬ fields.all (fun f => !(f.1 == "cookie")) = true) :
    0 < (valuesOf "cookie" fields).length := by
  obtain ⟨f, hf, hname⟩ := List.all_eq_false.mp (Bool.not_eq_true _ ▸ h)
  have hcookie : f.1 = "cookie" := by simpa using hname
  have hmem : f.2 ∈ valuesOf f.1 fields := Proto.mem_valuesOf.mpr hf
  rw [hcookie] at hmem
  exact List.length_pos_of_mem hmem

/-- The cookies are joined, and no other field is touched. -/
theorem valuesOf_coalesceCookies (fields : List Field) (n : String) :
    valuesOf n (coalesceCookies fields) =
      if n = "cookie" then joinCookies (valuesOf "cookie" fields) else valuesOf n fields := by
  have hsplit := List.takeWhile_append_dropWhile (p := fun f : Field => !(f.1 == "cookie"))
    (l := fields)
  have hbefore : valuesOf "cookie" (fields.takeWhile fun f => !(f.1 == "cookie")) = [] :=
    valuesOf_cookie_of_all List.all_takeWhile
  have hsame (h : joinCookies (valuesOf "cookie" fields) = valuesOf "cookie" fields) :
      valuesOf n fields =
        if n = "cookie" then joinCookies (valuesOf "cookie" fields) else valuesOf n fields := by
    split
    · next hn => rw [hn, h]
    · rfl
  unfold coalesceCookies
  dsimp only
  cases hdrop : fields.dropWhile fun f => !(f.1 == "cookie") with
  | nil =>
    rw [hdrop, List.append_nil] at hsplit
    rw [hsplit] at hbefore
    exact hsame (by simp [joinCookies, hbefore])
  | cons first after =>
    dsimp only
    have hfirst : first.1 = "cookie" := by
      have hhead := List.head_dropWhile_not (fun f : Field => !(f.1 == "cookie"))
        (by rw [hdrop]; exact List.cons_ne_nil _ _)
      simpa [hdrop] using hhead
    have hvalues : valuesOf "cookie" fields = first.2 :: valuesOf "cookie" after := by
      rw [← hsplit, hdrop, Proto.valuesOf_append, hbefore, ← hfirst]
      exact Proto.valuesOf_cons.trans (by simp)
    by_cases hone : after.all (fun f => !(f.1 == "cookie")) = true
    · rw [if_pos hone]
      exact hsame (by simp [joinCookies, hvalues, valuesOf_cookie_of_all hone])
    · have hlen : 2 ≤ (valuesOf "cookie" fields).length := by
        have := length_valuesOf_cookie_pos hone
        rw [hvalues, List.length_cons]
        omega
      rw [if_neg hone]
      by_cases hvalid :
          HttpTypes.headerValue ("; ".toUTF8.toList.intercalate (valuesOf "cookie" fields)) = true
      · rw [if_pos hvalid, Proto.valuesOf_append, Proto.valuesOf_cons]
        by_cases hn : n = "cookie"
        · have hafter : valuesOf "cookie" (after.filter fun f => !(f.1 == "cookie")) = [] :=
            Proto.valuesOf_filter_eq_nil fun w _ => by simp
          rw [if_pos hn, if_pos hn, hn, hbefore, hafter, joinCookies, if_pos ⟨hlen, hvalid⟩]
          rfl
        · have hafter : valuesOf n (after.filter fun f => !(f.1 == "cookie")) =
              valuesOf n after := Proto.valuesOf_filter fun w _ => by simpa using hn
          have hskip : valuesOf n (first :: after) = valuesOf n after :=
            Proto.valuesOf_cons.trans (by simp [hfirst, hn])
          rw [if_neg hn, if_neg hn, hafter, List.nil_append, ← hskip, ← Proto.valuesOf_append,
            ← hdrop, hsplit]
      · rw [if_neg hvalid]
        exact hsame (by rw [joinCookies, if_neg fun h => hvalid h.2])

theorem joinCookies_nil : joinCookies [] = [] := by simp [joinCookies]

end

/-! ## What goes on to the origin -/

section
variable {m : HeaderMap} {n : String} {spec : ServiceSpec}

theorem valuesOf_keptHeaders_of_hop (hn : n ∈ hopByHop) : valuesOf n (keptHeaders m spec) = [] := by
  have hlow : ∀ name ∈ hopByHop, toAsciiLowercase name = name := by decide +kernel
  refine Proto.valuesOf_filter_eq_nil fun w _ => ?_
  simp [hlow n hn, hn]

theorem valuesOf_keptHeaders (hlow : ∀ f ∈ m.iter, toAsciiLowercase f.1 = f.1)
    (htokens : n ∉ connectionTokens m) (hhop : n ∉ hopByHop) (hhost : n ≠ "host")
    (hforwarding : spec.appendForwarded = true ∨ isForwardingHeader n = false) :
    valuesOf n (keptHeaders m spec) = m.getAll n := by
  refine Proto.valuesOf_filter fun w hw => ?_
  have hname : toAsciiLowercase n = n := hlow (n, w) hw
  rcases hforwarding with happend | hforwarding
  · simp [hname, htokens, hhop, hhost, happend]
  · simp [hname, htokens, hhop, hhost, hforwarding]

theorem keptHeaders_sublist : (valuesOf n (keptHeaders m spec)).Sublist (m.getAll n) :=
  (List.filter_sublist.filter _).map _

variable [HttpTypes] {head : HttpHead}

/-- The header map that the client makes of a head. -/
def received (head : HttpHead) : HeaderMap := .ofFields (validFields head.headers)

/-- The fields that go on, without those that the client adds. -/
def passedOn (head : HttpHead) (spec : ServiceSpec) : HeaderMap :=
  .ofFields (coalesceCookies (keptHeaders (received head) spec))

theorem getAll_passedOn :
    (passedOn head spec).getAll n =
      if n = "cookie" then joinCookies (valuesOf "cookie" (keptHeaders (received head) spec))
      else valuesOf n (keptHeaders (received head) spec) := by
  rw [passedOn, HeaderMap.getAll_ofFields, valuesOf_coalesceCookies]

theorem requestHeaders_eq :
    requestHeaders ⟨head, spec⟩ =
      insertForwarded (insertHost (insertUpgrade (passedOn head spec)
          (if (head.header "upgrade").isSome then (received head).get "upgrade" else none))
        ⟨head, spec⟩) ⟨head, spec⟩ (visitorOf (received head)) := rfl

end

end TunnelWeaver.Client
