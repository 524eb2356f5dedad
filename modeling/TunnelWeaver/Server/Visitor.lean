import TunnelWeaver.Proto.Headers
import TunnelWeaver.Server.Hostnames
import TunnelWeaver.Server.Relay

/-! The request head that the relay makes of a visitor's request (`tunnel/proxy.rs`). -/

namespace TunnelWeaver.Server

open Mux (Bytes)
open Proto (Field HeaderMap HttpHead connectionTokens eqIgnoreAsciiCase toAsciiLowercase toStr
  tokensOf valuesOf)

/-! ## Valid fields -/

/-- What the `http` crate documents of names: they are lowercased, and a name of a map is valid. -/
class LawfulHttpTypes [HttpTypes] : Prop where
  lowercase {s n : String} : HttpTypes.headerName s = some n → n = toAsciiLowercase s
  valid {s n : String} : HttpTypes.headerName s = some n → HttpTypes.headerName n = some n

section
variable [HttpTypes] {n : String} {fields fields' : List Field}

theorem validFields_append :
    validFields (fields ++ fields') = validFields fields ++ validFields fields' :=
  List.filterMap_append

theorem validFields_eq_self
    (h : ∀ f ∈ fields, HttpTypes.headerName f.1 = some f.1 ∧ HttpTypes.headerValue f.2 = true) :
    validFields fields = fields := by
  induction fields with
  | nil => rfl
  | cons f fields ih =>
    obtain ⟨hname, hvalue⟩ := h f List.mem_cons_self
    have hrest := ih fun g hg => h g (List.mem_cons_of_mem f hg)
    rw [validFields] at hrest ⊢
    rw [List.filterMap_cons_some (b := f) (by simp [hname, hvalue]), hrest]

variable [LawfulHttpTypes]

theorem valid_of_mem {f : Field} (h : f ∈ validFields fields) :
    HttpTypes.headerName f.1 = some f.1 ∧ HttpTypes.headerValue f.2 = true := by
  obtain ⟨g, -, hg⟩ := List.mem_filterMap.mp h
  split at hg
  · next hvalue =>
    obtain ⟨name, hname, rfl⟩ := Option.map_eq_some_iff.mp hg
    exact ⟨LawfulHttpTypes.valid hname, hvalue⟩
  · cases hg

theorem lowercase_of_mem {f : Field} (h : f ∈ validFields fields) : toAsciiLowercase f.1 = f.1 :=
  (LawfulHttpTypes.lowercase (valid_of_mem h).1).symm

/-- Fields whose names are in lowercase keep them, or are left out. -/
theorem validFields_sublist (h : ∀ f ∈ fields, toAsciiLowercase f.1 = f.1) :
    (validFields fields).Sublist fields := by
  induction fields with
  | nil => exact .slnil
  | cons f fields ih =>
    have hrest := ih fun g hg => h g (List.mem_cons_of_mem f hg)
    have hname := h f List.mem_cons_self
    rw [validFields] at hrest ⊢
    rw [List.filterMap_cons]
    split
    · exact .cons f hrest
    · next g hg =>
      split at hg
      · obtain ⟨name, hlow, rfl⟩ := Option.map_eq_some_iff.mp hg
        rw [LawfulHttpTypes.lowercase hlow, hname]
        exact .cons_cons f hrest
      · cases hg

theorem valuesOf_validFields_sublist (h : ∀ f ∈ fields, toAsciiLowercase f.1 = f.1) :
    (valuesOf n (validFields fields)).Sublist (valuesOf n fields) :=
  ((validFields_sublist h).filter _).map _

end

/-! ## Visitors -/

/-- `IpAddr`; an IPv6 address by its eight segments. -/
inductive IpAddr where
  | v4 (a b c d : UInt8)
  | v6 (segments : Vector UInt16 8)

namespace IpAddr

def dotted (a b c d : UInt8) : String :=
  ".".intercalate ([a, b, c, d].map fun octet => toString octet.toNat)

/-- The segments in hexadecimal, separated by colons. -/
def hexSegments (segments : List UInt16) : String :=
  ":".intercalate (segments.map fun s => .ofList (Nat.toDigits 16 s.toNat))

/-- The length of the zeros the list starts with. -/
def zeros (segments : List UInt16) : Nat := (segments.takeWhile (· == 0)).length

/-- Start and length of the first longest run of zero segments. -/
def longestZeros (segments : List UInt16) : Nat × Nat :=
  (List.range segments.length).foldl
    (fun best i =>
      let len := zeros (segments.drop i)
      if best.2 < len then (i, len) else best)
    (0, 0)

/-- `Ipv6Addr::to_string` of an address that is not IPv4-mapped. -/
def colons (segments : List UInt16) : String :=
  let run := longestZeros segments
  if 1 < run.2 then
    hexSegments (segments.take run.1) ++ "::" ++ hexSegments (segments.drop (run.1 + run.2))
  else hexSegments segments

/-- The address as the relay reports it: an IPv4-mapped one as the IPv4 address. -/
def text : IpAddr → String
  | v4 a b c d => dotted a b c d
  | v6 segments =>
    match segments.toList with
    | [0, 0, 0, 0, 0, 0xffff, ab, cd] =>
      dotted (ab >>> 8).toUInt8 ab.toUInt8 (cd >>> 8).toUInt8 cd.toUInt8
    | segments => colons segments

end IpAddr

/-- `http::Version`. -/
inductive HttpVersion where
  | http09
  | http10
  | http11
  | http2
  | http3
  deriving DecidableEq

/-- How the `Via` field names the version. -/
def HttpVersion.received : HttpVersion → String
  | http2 => "2"
  | http3 => "3"
  | http10 => "1.0"
  | http09 | http11 => "1.1"

/-- A visitor's request; `protocol` is the `:protocol` of an extended CONNECT, and `path` the path
with the query. -/
structure VisitorRequest where
  method : String
  protocol : Option String := none
  version : HttpVersion
  path : String
  headers : HeaderMap

/-- A request with these fields, as hyper reads them into a header map. -/
def VisitorRequest.withFields [HttpTypes] (req : VisitorRequest) (raw : List Field) :
    VisitorRequest :=
  { req with headers := .ofFields (validFields raw) }

@[simp] theorem VisitorRequest.getAll_withFields [HttpTypes] (req : VisitorRequest)
    (raw : List Field) (n : String) :
    (req.withFields raw).headers.getAll n = valuesOf n (validFields raw) :=
  HeaderMap.getAll_ofFields

/-- How the visitor asked for an upgrade; carries the protocol token. -/
inductive UpgradeKind where
  | http1 (protocol : String)
  | extendedConnect (protocol : String)
  deriving DecidableEq

def UpgradeKind.protocol : UpgradeKind → String
  | http1 p | extendedConnect p => p

def upgradeKind (req : VisitorRequest) : Option UpgradeKind :=
  if req.method = "CONNECT" then req.protocol.map .extendedConnect
  else
    let wantsUpgrade := (req.headers.getAll "connection").any fun value =>
      (toStr value).any fun s => (Proto.commaParts s).any (eqIgnoreAsciiCase · "upgrade")
    match (req.headers.get "upgrade").bind toStr with
    | some p => if wantsUpgrade then some (.http1 p) else none
    | none => none

/-! ## Fields -/

/-- Hop-by-hop headers a proxy must not forward. -/
def hopByHopHeaders : List String :=
  ["connection", "keep-alive", "proxy-authenticate", "proxy-authorization", "proxy-connection",
    "te", "transfer-encoding", "upgrade"]

/-- Forwarding headers the edge always writes itself. -/
def forwardingHeaders : List String :=
  ["forwarded", "x-forwarded-for", "x-forwarded-proto", "x-forwarded-host"]

/-- The names that the first `Connection` field lists. -/
def extraHopByHop (headers : HeaderMap) : List String :=
  match headers.get "connection" with
  | some value => tokensOf value
  | none => []

/-- The visitor's fields without the ones that stop here. -/
def cleanedHeaders (headers : HeaderMap) : List Field :=
  (headers.iter.map fun f => (toAsciiLowercase f.1, f.2)).filter fun f =>
    !(hopByHopHeaders.contains f.1 || (extraHopByHop headers).contains f.1 ||
      forwardingHeaders.contains f.1)

def forwardedElement (visitor host : String) : String :=
  "for=\"" ++ visitor ++ "\";proto=https;host=\"" ++ host ++ "\""

/-- The forwarding metadata and `Via`. -/
def stampedHeaders (version : HttpVersion) (visitor host : String) : List Field :=
  [("x-forwarded-for", visitor.toUTF8.toList),
    ("x-forwarded-proto", "https".toUTF8.toList),
    ("x-forwarded-host", host.toUTF8.toList),
    ("forwarded", (forwardedElement visitor host).toUTF8.toList),
    ("via", (version.received ++ " weaver").toUTF8.toList)]

/-- The pair that asks the origin for an upgrade. -/
def upgradePair : Option UpgradeKind → List Field
  | some kind => [("connection", "upgrade".toUTF8.toList), ("upgrade", kind.protocol.toUTF8.toList)]
  | none => []

/-- An extended CONNECT of a websocket has no key, but the origin needs one. -/
def generatedKey (upgrade : Option UpgradeKind) (headers : List Field) (key : String) : List Field :=
  match upgrade with
  | some (.extendedConnect protocol) =>
    if eqIgnoreAsciiCase protocol "websocket" && !headers.any (·.1 == "sec-websocket-key") then
      [("sec-websocket-key", key.toUTF8.toList)]
    else []
  | _ => []

/-- What the relay sends to the client for a visitor; `key` is fresh from `generate_key`. -/
def forwardVisitorRequest (req : VisitorRequest) (serviceId : ServiceId) (visitorIp : IpAddr)
    (host key : String) (responseTx : Oneshot) : ProxyRequest :=
  let upgrade := upgradeKind req
  let visitorConnect := upgrade.any fun
    | .extendedConnect _ => true
    | .http1 _ => false
  let headers := cleanedHeaders req.headers ++ stampedHeaders req.version visitorIp.text host ++
    upgradePair upgrade
  { serviceId
    head := {
      method := if visitorConnect then "GET" else req.method
      scheme := "https"
      authority := host
      path := req.path
      headers := headers ++ generatedKey upgrade headers key }
    responseTx
    onUpgrade := upgrade.isSome
    visitorConnect }

/-! ## What goes on and what stops here -/

theorem lowercase_of_mem_tokensOf {value : Bytes} {t : String} (h : t ∈ tokensOf value) :
    toAsciiLowercase t = t := by
  unfold tokensOf at h
  split at h
  · cases h
  · obtain ⟨part, -, rfl⟩ := List.mem_map.mp (List.mem_filter.mp h).1
    exact toAsciiLowercase_idem part

/-- The fields that the relay writes itself. -/
def relayFields (req : VisitorRequest) (visitorIp : IpAddr) (host key : String) : List Field :=
  let own := stampedHeaders req.version visitorIp.text host ++ upgradePair (upgradeKind req)
  own ++ generatedKey (upgradeKind req) (cleanedHeaders req.headers ++ own) key

/-- Their names. -/
def relayNames : List String :=
  forwardingHeaders ++ ["via"] ++ ["connection", "upgrade"] ++ ["sec-websocket-key"]

section
variable {req : VisitorRequest} {serviceId : ServiceId} {visitorIp : IpAddr} {host key n : String}
  {responseTx : Oneshot}

theorem forwarded_headers :
    (forwardVisitorRequest req serviceId visitorIp host key responseTx).head.headers =
      cleanedHeaders req.headers ++ relayFields req visitorIp host key := by
  simp only [forwardVisitorRequest, relayFields, List.append_assoc]

theorem name_of_mem_generatedKey {kind : Option UpgradeKind} {fields : List Field} {f : Field}
    (h : f ∈ generatedKey kind fields key) : f.1 = "sec-websocket-key" := by
  unfold generatedKey at h
  split at h
  · split at h
    · rw [List.mem_singleton.mp h]
    · cases h
  · cases h

theorem name_of_mem_upgradePair {kind : Option UpgradeKind} {f : Field} (h : f ∈ upgradePair kind) :
    f.1 ∈ ["connection", "upgrade"] := by
  cases kind with
  | none => cases h
  | some kind => exact List.mem_map_of_mem h

theorem name_of_mem_stampedHeaders {version : HttpVersion} {visitor : String} {f : Field}
    (h : f ∈ stampedHeaders version visitor host) : f.1 ∈ forwardingHeaders ++ ["via"] := by
  have hname : f.1 ∈ (stampedHeaders version visitor host).map Prod.fst := List.mem_map_of_mem h
  simp only [stampedHeaders, List.map_cons, List.map_nil] at hname
  revert hname
  generalize f.1 = name
  revert name
  decide

theorem name_of_mem_relayFields {f : Field} (h : f ∈ relayFields req visitorIp host key) :
    f.1 ∈ relayNames := by
  rw [relayFields, List.mem_append, List.mem_append, or_assoc] at h
  rcases h with h | h | h
  · exact List.mem_append_left _ (List.mem_append_left _ (name_of_mem_stampedHeaders h))
  · exact List.mem_append_left _ (List.mem_append_right _ (name_of_mem_upgradePair h))
  · exact name_of_mem_generatedKey h ▸ List.mem_append_right _ List.mem_cons_self

theorem valuesOf_relayFields (hn : n ∉ relayNames) :
    valuesOf n (relayFields req visitorIp host key) = [] :=
  Proto.valuesOf_eq_nil fun _ hf hname => hn (hname ▸ name_of_mem_relayFields hf)

theorem lowercase_relayFields {f : Field} (h : f ∈ relayFields req visitorIp host key) :
    toAsciiLowercase f.1 = f.1 := by
  have hall : ∀ name ∈ relayNames, toAsciiLowercase name = name := by decide +kernel
  exact hall f.1 (name_of_mem_relayFields h)

theorem mem_names_of_mem_forwardingHeaders (h : n ∈ forwardingHeaders) :
    n ∈ (relayFields req visitorIp host key).map Prod.fst := by
  have hstamped : ∀ name ∈ forwardingHeaders,
      name ∈ ["x-forwarded-for", "x-forwarded-proto", "x-forwarded-host", "forwarded", "via"] := by
    decide
  rw [relayFields, List.map_append, List.map_append, List.append_assoc]
  exact List.mem_append_left _ (hstamped n h)

theorem mem_connectionTokens_of_mem_extraHopByHop {headers : HeaderMap}
    (h : n ∈ extraHopByHop headers) : n ∈ connectionTokens headers := by
  unfold extraHopByHop at h
  split at h
  · next value hget => exact List.mem_flatMap.mpr ⟨value, List.mem_of_head? hget, h⟩
  · cases h

/-- A field stops at the relay by its name. -/
theorem valuesOf_cleanedHeaders_eq_nil {headers : HeaderMap}
    (h : n ∈ hopByHopHeaders ∨ n ∈ extraHopByHop headers ∨ n ∈ forwardingHeaders) :
    valuesOf n (cleanedHeaders headers) = [] := by
  refine Proto.valuesOf_filter_eq_nil fun w _ => ?_
  rcases h with h | h | h <;> simp [h]

theorem valuesOf_cleanedHeaders {headers : HeaderMap}
    (hlow : ∀ f ∈ headers.iter, toAsciiLowercase f.1 = f.1) (hhop : n ∉ hopByHopHeaders)
    (hextra : n ∉ extraHopByHop headers) (hforwarding : n ∉ forwardingHeaders) :
    valuesOf n (cleanedHeaders headers) = headers.getAll n := by
  have hmap : headers.iter.map (fun f => (toAsciiLowercase f.1, f.2)) = headers.iter := by
    conv_rhs => rw [← List.map_id headers.iter]
    exact List.map_congr_left fun f hf => Prod.ext (hlow f hf) rfl
  rw [cleanedHeaders, hmap, Proto.valuesOf_filter]
  · rfl
  · intro w _
    simp [hhop, hextra, hforwarding]

/-- Of the hop-by-hop fields the relay only writes the pair of an upgrade. -/
theorem valuesOf_relayFields_of_hop (hn : n ∈ hopByHopHeaders) :
    valuesOf n (relayFields req visitorIp host key) = valuesOf n (upgradePair (upgradeKind req)) := by
  have hnot : ∀ name ∈ forwardingHeaders ++ ["via"] ++ ["sec-websocket-key"],
      name ∉ hopByHopHeaders := by decide
  have hstamped : valuesOf n (stampedHeaders req.version visitorIp.text host) = [] := by
    refine Proto.valuesOf_eq_nil fun f hf hname => hnot n (List.mem_append_left _ ?_) hn
    exact hname ▸ name_of_mem_stampedHeaders hf
  have hkey (fields : List Field) :
      valuesOf n (generatedKey (upgradeKind req) fields key) = [] := by
    refine Proto.valuesOf_eq_nil fun f hf hname => hnot n (List.mem_append_right _ ?_) hn
    rw [← hname, name_of_mem_generatedKey hf]
    exact List.mem_cons_self
  rw [relayFields, Proto.valuesOf_append, Proto.valuesOf_append, hstamped, hkey, List.nil_append,
    List.append_nil]

end

end TunnelWeaver.Server
