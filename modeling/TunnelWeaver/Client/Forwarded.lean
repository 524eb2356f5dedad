import TunnelWeaver.Client.HopByHop
import TunnelWeaver.Server.Host

/-! A visitor's forwarding fields do not reach the origin. The relay drops the four it knows by name,
the client drops all that look like one, unless it is told to keep them. -/

namespace TunnelWeaver.Proto.HeaderMap
open Mux (Bytes)

/-! ## Header maps without some names -/

/-- The entries of the names that pass. -/
def named (p : String → Bool) (m : HeaderMap) : List (String × List Bytes) :=
  m.entries.filter fun e => p e.1

variable {p : String → Bool} {m m' : HeaderMap} {n : String} {fields fields' : List Field}

theorem filter_iter : m.iter.filter (fun f => p f.1) =
    (m.named p).flatMap fun e => e.2.map (e.1, ·) := by
  rw [iter, named]
  induction m.entries with
  | nil => rfl
  | cons e entries ih =>
    rw [List.flatMap_cons, List.filter_append, ih, List.filter_cons]
    cases hp : p e.1 <;> simp [hp, List.filter_map, Function.comp_def]

theorem mem_named_names : n ∈ (m.named p).map Prod.fst ↔ n ∈ m.entries.map Prod.fst ∧ p n := by
  simp only [named, List.mem_map, List.mem_filter]
  constructor
  · rintro ⟨e, ⟨he, hp⟩, rfl⟩
    exact ⟨⟨e, he, rfl⟩, hp⟩
  · rintro ⟨⟨e, he, rfl⟩, hp⟩
    exact ⟨e, ⟨he, hp⟩, rfl⟩

/-- An update of a name that does not pass leaves the others alone. -/
theorem named_update_of_false (f : List Bytes → List Bytes) (hn : p n = false) :
    (m.update n f).named p = m.named p := by
  unfold update
  split
  · have hcomp : ((fun e : String × List Bytes => p e.1) ∘
        fun e => if e.1 = n then (e.1, f e.2) else e) = fun e => p e.1 := by
      funext e
      by_cases he : e.1 = n <;> simp [he]
    rw [named, List.filter_map, hcomp, named]
    refine (List.map_congr_left fun e he => ?_).trans (List.map_id _)
    have hp := (List.mem_filter.mp he).2
    exact if_neg fun hen => by simp [hen, hn] at hp
  · rw [named, List.filter_append, List.filter_singleton, hn, named]
    exact List.append_nil _

/-- An update of a name that passes is one of the entries that do. -/
theorem named_update_congr (f : List Bytes → List Bytes) (hn : p n = true)
    (h : m.named p = m'.named p) : (m.update n f).named p = (m'.update n f).named p := by
  have hmem : n ∈ m.entries.map Prod.fst ↔ n ∈ m'.entries.map Prod.fst := by
    have hiff (x : HeaderMap) : n ∈ (x.named p).map Prod.fst ↔ n ∈ x.entries.map Prod.fst := by
      rw [mem_named_names, hn, and_iff_left rfl]
    rw [← hiff m, ← hiff m', h]
  have hcomp : ((fun e : String × List Bytes => p e.1) ∘
      fun e => if e.1 = n then (e.1, f e.2) else e) = fun e => p e.1 := by
    funext e
    by_cases he : e.1 = n <;> simp [he]
  unfold named at h
  by_cases hin : n ∈ m.entries.map Prod.fst
  · rw [update, dif_pos hin, update, dif_pos (hmem.mp hin), named, named, List.filter_map, hcomp, h,
      List.filter_map, hcomp]
  · rw [update, dif_neg hin, update, dif_neg (mt hmem.mpr hin), named, named, List.filter_append, h,
      List.filter_append]

/-- The fields of the names that pass decide on their entries. -/
theorem named_foldl (h : m.named p = m'.named p) :
    (fields.foldl (fun m f => m.append f.1 f.2) m).named p =
      ((fields.filter fun f => p f.1).foldl (fun m f => m.append f.1 f.2) m').named p := by
  induction fields generalizing m m' with
  | nil => exact h
  | cons f fields ih =>
    rw [List.foldl_cons, List.filter_cons]
    cases hp : p f.1 with
    | false => exact ih ((named_update_of_false _ hp).trans h)
    | true => exact ih (named_update_congr _ hp h)

theorem filter_iter_ofFields
    (h : fields.filter (fun f => p f.1) = fields'.filter (fun f => p f.1)) :
    (ofFields fields).iter.filter (fun f => p f.1) =
      (ofFields fields').iter.filter (fun f => p f.1) := by
  have hnamed : (ofFields fields).named p = (ofFields fields').named p := by
    rw [ofFields, ofFields, named_foldl rfl, h, ← named_foldl rfl]
  rw [filter_iter, filter_iter, hnamed]

theorem getAll_congr (h : m.iter.filter (fun f => p f.1) = m'.iter.filter (fun f => p f.1))
    (hn : p n = true) : m.getAll n = m'.getAll n := by
  have hkeep (x : HeaderMap) : valuesOf n (x.iter.filter fun f => p f.1) = x.getAll n :=
    valuesOf_filter fun _ _ => hn
  rw [← hkeep m, ← hkeep m', h]

end TunnelWeaver.Proto.HeaderMap

namespace TunnelWeaver.Client

open Mux (Bytes)
open Proto (Field HeaderMap connectionTokens toAsciiLowercase valuesOf)
open Server (HttpTypes IpAddr LawfulHttpTypes Oneshot ServiceId VisitorRequest cleanedHeaders
  extraHopByHop forwardVisitorRequest forwardingHeaders generatedKey hopByHopHeaders relayFields
  requestHost stampedHeaders upgradeKind upgradePair validFields)

/-- Whether a name in lowercase is none of a forwarding field. -/
def passes (lname : String) : Bool := !isForwardingHeader lname

/-- Two lists of fields are the same but for forwarding fields. -/
def SameButForwarding (raw raw' : List Field) : Prop :=
  raw.filter (fun f => passes (toAsciiLowercase f.1)) =
    raw'.filter (fun f => passes (toAsciiLowercase f.1))

section
variable [HttpTypes] [LawfulHttpTypes] {raw raw' : List Field}

theorem filter_validFields (fields : List Field) :
    (validFields fields).filter (fun f => passes f.1) =
      validFields (fields.filter fun f => passes (toAsciiLowercase f.1)) := by
  unfold Server.validFields
  rw [List.filter_filterMap, List.filterMap_filter]
  refine List.filterMap_congr fun f _ => ?_
  split
  · cases hname : HttpTypes.headerName f.1 with
    | none => simp
    | some name =>
      rw [LawfulHttpTypes.lowercase hname]
      simp [Option.filter]
  · simp

theorem SameButForwarding.validFields (h : SameButForwarding raw raw') :
    (Server.validFields raw).filter (fun f => passes f.1) =
      (Server.validFields raw').filter (fun f => passes f.1) := by
  rw [filter_validFields, h, ← filter_validFields]

theorem SameButForwarding.iter (h : SameButForwarding raw raw') :
    (HeaderMap.ofFields (Server.validFields raw)).iter.filter (fun f => passes f.1) =
      (HeaderMap.ofFields (Server.validFields raw')).iter.filter (fun f => passes f.1) :=
  HeaderMap.filter_iter_ofFields h.validFields

end

/-! ## What the relay makes of the two -/

section
variable [HttpTypes] [LawfulHttpTypes] {raw raw' : List Field} {visitorIp : IpAddr}
  {host key n : String}

/-- All other names have the same values. -/
theorem SameButForwarding.getAll (h : SameButForwarding raw raw') (visited : VisitorRequest)
    (hn : passes n = true) :
    (visited.withFields raw).headers.getAll n = (visited.withFields raw').headers.getAll n :=
  HeaderMap.getAll_congr h.iter hn

theorem SameButForwarding.upgradeKind (h : SameButForwarding raw raw') (visited : VisitorRequest) :
    Server.upgradeKind (visited.withFields raw) = Server.upgradeKind (visited.withFields raw') := by
  unfold Server.upgradeKind
  rw [HeaderMap.get, HeaderMap.get, h.getAll visited (by decide +kernel),
    h.getAll visited (n := "upgrade") (by decide +kernel)]
  rfl

theorem SameButForwarding.extraHopByHop (h : SameButForwarding raw raw')
    (visited : VisitorRequest) :
    Server.extraHopByHop (visited.withFields raw).headers =
      Server.extraHopByHop (visited.withFields raw').headers := by
  unfold Server.extraHopByHop
  rw [HeaderMap.get, HeaderMap.get, h.getAll visited (by decide +kernel)]

theorem SameButForwarding.requestHost (h : SameButForwarding raw raw') (visited : VisitorRequest)
    (authority : Option Bytes) :
    Server.requestHost (visited.withFields raw) authority =
      Server.requestHost (visited.withFields raw') authority := by
  unfold Server.requestHost
  rw [h.getAll visited (by decide +kernel)]
  rfl

omit [HttpTypes] [LawfulHttpTypes] in
theorem cleanedHeaders_eq {headers : HeaderMap}
    (hlow : ∀ f ∈ headers.iter, toAsciiLowercase f.1 = f.1) :
    cleanedHeaders headers = headers.iter.filter fun f =>
      !(hopByHopHeaders.contains f.1 || (extraHopByHop headers).contains f.1 ||
        forwardingHeaders.contains f.1) := by
  have hmap : headers.iter.map (fun f => (toAsciiLowercase f.1, f.2)) = headers.iter := by
    conv_rhs => rw [← List.map_id headers.iter]
    exact List.map_congr_left fun f hf => Prod.ext (hlow f hf) rfl
  rw [cleanedHeaders, hmap]

theorem SameButForwarding.cleanedHeaders (h : SameButForwarding raw raw')
    (visited : VisitorRequest) :
    (Server.cleanedHeaders (visited.withFields raw).headers).filter (fun f => passes f.1) =
      (Server.cleanedHeaders (visited.withFields raw').headers).filter (fun f => passes f.1) := by
  have hlow (fields : List Field) :
      ∀ f ∈ (visited.withFields fields).headers.iter, toAsciiLowercase f.1 = f.1 :=
    fun f hf => (validHeaders_ofFields fields).lowercase hf
  rw [cleanedHeaders_eq (hlow raw), cleanedHeaders_eq (hlow raw'), h.extraHopByHop visited,
    List.filter_filter, List.filter_filter]
  simp only [Bool.and_comm (passes _)]
  rw [← List.filter_filter, ← List.filter_filter]
  exact congrArg _ h.iter

omit [HttpTypes] [LawfulHttpTypes] in
theorem any_name (fields : List Field) (hn : passes n = true) :
    fields.any (·.1 == n) = (fields.filter fun f => passes f.1).any (·.1 == n) := by
  rw [List.any_filter]
  refine List.any_congr rfl fun f => ?_
  by_cases hf : f.1 = n <;> simp [hf, hn]

/-- The relay writes the same fields. -/
theorem SameButForwarding.relayFields (h : SameButForwarding raw raw') (visited : VisitorRequest) :
    Server.relayFields (visited.withFields raw) visitorIp host key =
      Server.relayFields (visited.withFields raw') visitorIp host key := by
  have hkey (own : List Field) :
      (Server.cleanedHeaders (visited.withFields raw).headers ++ own).any
          (·.1 == "sec-websocket-key") =
        (Server.cleanedHeaders (visited.withFields raw').headers ++ own).any
          (·.1 == "sec-websocket-key") := by
    rw [List.any_append, List.any_append, any_name _ (by decide +kernel), h.cleanedHeaders visited,
      ← any_name _ (by decide +kernel)]
  unfold Server.relayFields generatedKey
  dsimp only
  rw [h.upgradeKind visited]
  split
  · rw [hkey]
    rfl
  · rfl

/-- The relay sends the same head, but for fields that it does not know as forwarding fields. -/
theorem SameButForwarding.forwarded (h : SameButForwarding raw raw') (visited : VisitorRequest)
    (serviceId : ServiceId) (visitorIp : IpAddr) (host key : String) (responseTx : Oneshot) :
    let head raw := (forwardVisitorRequest (visited.withFields raw) serviceId visitorIp host key
      responseTx).head
    SameButForwarding (head raw).headers (head raw').headers ∧
      { head raw with headers := [] } = { head raw' with headers := [] } := by
  intro head
  have hlow (fields : List Field) :
      ∀ f ∈ (head fields).headers, toAsciiLowercase f.1 = f.1 := by
    intro f hf
    rw [Server.forwarded_headers, List.mem_append] at hf
    rcases hf with hf | hf
    · have hvalid : ValidHeaders (visited.withFields fields).headers := validHeaders_ofFields fields
      rw [cleanedHeaders_eq fun f hf => hvalid.lowercase hf] at hf
      exact hvalid.lowercase (List.mem_filter.mp hf).1
    · exact Server.lowercase_relayFields hf
  have hfilter (fields : List Field) :
      (head fields).headers.filter (fun f => passes (toAsciiLowercase f.1)) =
        (head fields).headers.filter fun f => passes f.1 :=
    List.filter_congr fun f hf => congrArg passes (hlow fields f hf)
  constructor
  · rw [SameButForwarding, hfilter, hfilter, Server.forwarded_headers, Server.forwarded_headers,
      List.filter_append, List.filter_append, h.cleanedHeaders visited, h.relayFields visited]
  · have hupgrade := h.upgradeKind visited
    simp only [head, forwardVisitorRequest]
    rw [hupgrade]
    rfl

end

/-! ## What the client makes of the two -/

/-- What `build_request` is made of: the method and the target as text, and the fields; and whether
it asks for an upgrade. -/
structure OriginRequest where
  method : String
  target : String
  headers : HeaderMap
  upgrade : Bool

def TargetScheme.asStr : TargetScheme → String
  | http => "http"
  | https => "https"

section
variable [HttpTypes]

/-- The request for an origin that speaks HTTP/2 has an absolute target. -/
def originRequest (cfg : ExchangeConfig) (h2 : Bool) : OriginRequest where
  method := cfg.head.method
  target :=
    if h2 then cfg.spec.target.scheme.asStr ++ "://" ++ cfg.spec.target.authority ++ cfg.head.path
    else cfg.head.path
  headers := requestHeaders cfg
  upgrade := (cfg.head.header "upgrade").isSome

/-- Of the four fields the client gets what the relay wrote. -/
theorem getAll_received_forwarding [LawfulHttpTypes] {req : VisitorRequest}
    (h : ValidHeaders req.headers) {serviceId : ServiceId} {visitorIp : IpAddr} {host key n : String}
    {responseTx : Oneshot} (hn : n ∈ forwardingHeaders) :
    (received (forwardVisitorRequest req serviceId visitorIp host key responseTx).head).getAll n =
      valuesOf n (validFields (relayFields req visitorIp host key)) := by
  rw [getAll_received h, Server.valuesOf_cleanedHeaders_eq_nil (.inr (.inr hn)), List.nil_append]

end

section
variable [HttpTypes] [LawfulHttpTypes] {head head' : Proto.HttpHead} {spec : ServiceSpec}

theorem SameButForwarding.received (h : SameButForwarding head.headers head'.headers) :
    (Client.received head).iter.filter (fun f => passes f.1) =
      (Client.received head').iter.filter (fun f => passes f.1) :=
  h.iter

omit [HttpTypes] [LawfulHttpTypes] in
theorem SameButForwarding.header (h : SameButForwarding head.headers head'.headers) {name : String}
    (hname : passes (toAsciiLowercase name) = true) : head.header name = head'.header name := by
  have hfind (fields : List Field) :
      fields.find? (fun f => Proto.eqIgnoreAsciiCase f.1 name) =
        (fields.filter fun f => passes (toAsciiLowercase f.1)).find?
          fun f => Proto.eqIgnoreAsciiCase f.1 name := by
    rw [List.find?_filter]
    congr 1
    funext f
    by_cases hf : toAsciiLowercase f.1 = toAsciiLowercase name <;>
      simp [Proto.eqIgnoreAsciiCase, hf, hname]
  rw [Proto.HttpHead.header, Proto.headerOf, hfind, h, ← hfind]
  rfl

/-- Unless the client keeps forwarding fields, the same ones go on. -/
theorem SameButForwarding.keptHeaders (h : SameButForwarding head.headers head'.headers)
    (happend : spec.appendForwarded = false) :
    Client.keptHeaders (Client.received head) spec =
      Client.keptHeaders (Client.received head') spec := by
  have htokens : connectionTokens (Client.received head) =
      connectionTokens (Client.received head') := by
    unfold connectionTokens
    rw [HeaderMap.getAll_congr h.received (by decide +kernel)]
  have hkept (x : Proto.HttpHead) : Client.keptHeaders (Client.received x) spec =
      ((Client.received x).iter.filter fun f => passes f.1).filter fun f =>
        !(hopByHop.contains f.1 || (connectionTokens (Client.received x)).contains f.1) &&
          f.1 != "host" := by
    rw [Client.keptHeaders, List.filter_filter]
    refine List.filter_congr fun f hf => ?_
    dsimp only
    rw [lowercase_received hf, happend, Bool.false_or]
    rfl
  rw [hkept, hkept, htokens, h.received]

/-- Unless the client keeps forwarding fields, the origin gets the same request. -/
theorem SameButForwarding.originRequest (h : SameButForwarding head.headers head'.headers)
    (hrest : { head with headers := [] } = { head' with headers := [] })
    (happend : spec.appendForwarded = false)
    (hvisitor : visitorOf (Client.received head) = visitorOf (Client.received head')) (h2 : Bool) :
    Client.originRequest ⟨head, spec⟩ h2 = Client.originRequest ⟨head', spec⟩ h2 := by
  simp only [Proto.HttpHead.mk.injEq, and_true] at hrest
  obtain ⟨hmethod, -, hauthority, hpath⟩ := hrest
  have hupgrade : head.header "upgrade" = head'.header "upgrade" :=
    h.header (by decide +kernel)
  have hget : (Client.received head).get "upgrade" = (Client.received head').get "upgrade" := by
    rw [HeaderMap.get, HeaderMap.getAll_congr h.received (by decide +kernel)]
    rfl
  have hheaders : requestHeaders ⟨head, spec⟩ = requestHeaders ⟨head', spec⟩ := by
    have hpassed : passedOn head spec = passedOn head' spec := by
      rw [passedOn, h.keptHeaders happend]
      rfl
    rw [requestHeaders_eq, requestHeaders_eq, hupgrade, hget, hpassed, hvisitor]
    simp only [insertForwarded, insertHost, hostValue, hauthority]
  simp only [Client.originRequest, hmethod, hpath, hheaders, hupgrade]

end

/-! ## What the relay stamps -/

/-- What the `http` crate documents of text: lowercase letters and hyphens make a name, visible
characters and spaces a value. -/
class AcceptsText [HttpTypes] : Prop where
  name {n : String} : n ≠ "" → n.length < 65536 →
    n.toList.all (fun c => c.isLower || c == '-') = true → HttpTypes.headerName n = some n
  value {v : Bytes} : (∀ b ∈ v, 32 ≤ b.toNat ∧ b.toNat < 127) → HttpTypes.headerValue v = true

theorem valuesOf_eq_singleton {fields : List Field} {n : String} {v : Bytes}
    (hnodup : (fields.map Prod.fst).Nodup) (h : (n, v) ∈ fields) : valuesOf n fields = [v] := by
  induction fields with
  | nil => cases h
  | cons f fields ih =>
    rw [List.map_cons, List.nodup_cons] at hnodup
    rw [show f :: fields = (f.1, f.2) :: fields from rfl, Proto.valuesOf_cons]
    rcases List.mem_cons.mp h with rfl | h
    · have hrest : valuesOf n fields = [] :=
        Proto.valuesOf_eq_nil fun g hg hname => hnodup.1 (List.mem_map.mpr ⟨g, hg, hname⟩)
      rw [if_pos rfl, hrest]
      rfl
    · have hne : n ≠ f.1 := fun hname => hnodup.1 (hname ▸ List.mem_map_of_mem h)
      rw [if_neg hne, ih hnodup.2 h]
      rfl

section
variable {visitor host n : String}

theorem stampedHeaders_eq (version : Server.HttpVersion) :
    stampedHeaders version visitor host =
      canonicalForwarded host visitor ++ [("via", (version.received ++ " weaver").toUTF8.toList)] :=
  rfl

theorem nodup_canonicalForwarded : ((canonicalForwarded host visitor).map Prod.fst).Nodup := by
  simp [canonicalForwarded]

theorem exists_canonicalForwarded (hn : n ∈ forwardingHeaders) :
    ∃ value, (n, value) ∈ canonicalForwarded host visitor := by
  have hnames : ∀ name ∈ forwardingHeaders, name ∈
      ["x-forwarded-for", "x-forwarded-proto", "x-forwarded-host", "forwarded"] := by decide
  obtain ⟨f, hf, rfl⟩ := List.mem_map.mp (show n ∈ (canonicalForwarded host visitor).map Prod.fst
    from hnames n hn)
  exact ⟨f.2, hf⟩

variable [HttpTypes] [AcceptsText]

/-- Every stamped field is valid, for a printable address and host. -/
theorem valid_of_mem_stampedHeaders {version : Server.HttpVersion} (hvisitor : Ascii.Printable visitor)
    (hhost : Ascii.Printable host) {f : Field} (hf : f ∈ stampedHeaders version visitor host) :
    HttpTypes.headerName f.1 = some f.1 ∧ HttpTypes.headerValue f.2 = true := by
  constructor
  · have hnames : ∀ name ∈ forwardingHeaders ++ ["via"],
        name ≠ "" ∧ name.length < 65536 ∧
          name.toList.all (fun c => c.isLower || c == '-') = true := by decide
    obtain ⟨hne, hlength, hchars⟩ := hnames f.1 (Server.name_of_mem_stampedHeaders hf)
    exact AcceptsText.name hne hlength hchars
  · have hvalue {s : String} (h : Ascii.Printable s) :
        HttpTypes.headerValue s.toUTF8.toList = true := AcceptsText.value fun b hb => h.byte hb
    simp only [stampedHeaders, List.mem_cons, List.not_mem_nil, or_false] at hf
    rcases hf with rfl | rfl | rfl | rfl | rfl
    · exact hvalue hvisitor
    · exact hvalue (by decide)
    · exact hvalue hhost
    · have hfor : Ascii.Printable ("for=\"" ++ visitor ++ "\";proto=https;host=\"") :=
        (Ascii.Printable.append (by decide) hvisitor).append (by decide)
      exact hvalue ((hfor.append hhost).append (by decide))
    · refine hvalue (.append ?_ (by decide))
      cases version <;> decide

/-- The relay's own field is the only one of its name. -/
theorem valuesOf_stamped [LawfulHttpTypes] {req : VisitorRequest} {visitorIp : IpAddr}
    {key : String} {value : Bytes} (hhost : Ascii.Printable host)
    (h : (n, value) ∈ canonicalForwarded host visitorIp.text) :
    valuesOf n (validFields (relayFields req visitorIp host key)) = [value] := by
  have hn := name_of_mem_canonicalForwarded h
  have hnot : ∀ name ∈ forwardingHeaders, name ≠ "via" := by decide
  have hother (fields : List Field) (hnames : ∀ f ∈ fields, f.1 ∈ ["connection", "upgrade"] ∨
      f.1 = "sec-websocket-key") : valuesOf n (validFields fields) = [] := by
    have hlow : ∀ name ∈ ["connection", "upgrade", "sec-websocket-key"],
        toAsciiLowercase name = name ∧ name ∉ forwardingHeaders := by decide +kernel
    have hall (f : Field) (hf : f ∈ fields) :
        f.1 ∈ ["connection", "upgrade", "sec-websocket-key"] := by
      have := hnames f hf
      simp at this ⊢
      tauto
    refine List.sublist_nil.mp ((Server.valuesOf_validFields_sublist fun f hf =>
      (hlow f.1 (hall f hf)).1).trans ?_)
    rw [Proto.valuesOf_eq_nil fun f hf hname => (hlow f.1 (hall f hf)).2 (hname ▸ hn)]
  rw [relayFields, Server.validFields_append, Server.validFields_append, Proto.valuesOf_append,
    Proto.valuesOf_append, hother _ fun f hf => .inl (Server.name_of_mem_upgradePair hf),
    hother _ fun f hf => .inr (Server.name_of_mem_generatedKey hf), List.append_nil,
    List.append_nil, Server.validFields_eq_self fun f hf =>
      valid_of_mem_stampedHeaders visitorIp.printable_text hhost hf,
    stampedHeaders_eq, Proto.valuesOf_append, valuesOf_eq_singleton nodup_canonicalForwarded h,
    Proto.valuesOf_cons, if_neg (hnot n hn)]
  rfl

end

/-! ## What the origin gets of the four fields -/

section
variable [HttpTypes] [LawfulHttpTypes] {fields : List Field} {n host key : String} {value : Bytes}

/-- Valid fields that are inserted one after the other are the only ones of their names. -/
theorem getAll_foldl_insertBytes
    (hvalid : ∀ f ∈ fields, HttpTypes.headerName f.1 = some f.1 ∧ HttpTypes.headerValue f.2 = true)
    (hnodup : (fields.map Prod.fst).Nodup) (h : (n, value) ∈ fields) (m : HeaderMap) :
    (fields.foldl (fun m f => insertBytes m f.1 f.2) m).getAll n = [value] := by
  induction fields generalizing m with
  | nil => cases h
  | cons f fields ih =>
    have hrest : ∀ g ∈ fields, HttpTypes.headerName g.1 = some g.1 ∧
        HttpTypes.headerValue g.2 = true := fun g hg => hvalid g (List.mem_cons_of_mem f hg)
    rw [List.map_cons, List.nodup_cons] at hnodup
    rw [List.foldl_cons]
    rcases List.mem_cons.mp h with rfl | h
    · obtain ⟨hname, hvalue⟩ := hvalid _ List.mem_cons_self
      have hover : Overwrites fields (insertBytes m n value)
          (fields.foldl (fun m f => insertBytes m f.1 f.2) (insertBytes m n value)) :=
        .foldl fun g hg => (LawfulHttpTypes.lowercase (hrest g hg).1).symm
      rw [hover.getAll_eq hnodup.1, insertBytes, hname, hvalue]
      dsimp only
      rw [HeaderMap.getAll_insert, if_pos rfl]
    · exact ih hrest hnodup.2 h _

variable [AcceptsText] {visited : VisitorRequest} {raw : List Field} {serviceId : ServiceId}
  {visitorIp : IpAddr} {responseTx : Oneshot} {spec : ServiceSpec}

/-- The client reads the address of the visitor that the relay stamped. -/
theorem visitorOf_received (hhost : Ascii.Printable host) :
    visitorOf (received (forwardVisitorRequest (visited.withFields raw) serviceId visitorIp host key
      responseTx).head) = visitorIp.text := by
  have hfor : ("x-forwarded-for", visitorIp.text.toUTF8.toList) ∈
      canonicalForwarded host visitorIp.text := List.mem_cons_self
  rw [visitorOf, getAll_received_forwarding (validHeaders_ofFields raw)
    (name_of_mem_canonicalForwarded hfor), valuesOf_stamped hhost hfor]
  exact fromUtf8Lossy_toUTF8 visitorIp.printable_text.ascii

/-- Each of the four fields gets to the origin once, as the relay stamped it. -/
theorem getAll_requestHeaders_forwarding (hhost : Ascii.Printable host)
    (h : (n, value) ∈ canonicalForwarded host visitorIp.text) {head : Proto.HttpHead}
    (hhead : head = (forwardVisitorRequest (visited.withFields raw) serviceId visitorIp host key
      responseTx).head) :
    (requestHeaders ⟨head, spec⟩).getAll n = [value] := by
  have hvalid : ValidHeaders (visited.withFields raw).headers := validHeaders_ofFields raw
  have hvisitor : visitorOf (received head) = visitorIp.text := hhead ▸ visitorOf_received hhost
  have hauthority : head.authority = host := hhead ▸ rfl
  cases happend : spec.appendForwarded with
  | true =>
    have hn := name_of_mem_canonicalForwarded h
    have hother : ∀ name ∈ forwardingHeaders, name ∉ hopByHop ∧ name ≠ "host" ∧ name ≠ "cookie" ∧
        name ≠ "upgrade" ∧ name ≠ "connection" ∧ name ≠ "te" := by decide
    obtain ⟨hhop, hnothost, hcookie, hupgrade, hconnection, hte⟩ := hother n hn
    obtain ⟨pair, hpair, m, hm, -, hrewritten⟩ := request_cases spec hvalid hhead
    have hpairnames : n ∉ pair.map Prod.fst := by
      intro hmem
      obtain ⟨f, hf, rfl⟩ := List.mem_map.mp hmem
      rcases hpair with ⟨rfl, -⟩ | rfl
      · have hname := Server.name_of_mem_upgradePair hf
        simp [hupgrade, hconnection] at hname
      · exact hte (List.mem_singleton.mp hf ▸ rfl)
    have hrewrittennames : n ∉ (rewrittenFields ⟨head, spec⟩ (visitorOf (received head))).map
        Prod.fst := by
      simp [rewrittenFields, happend, hnothost]
    have htokens : n ∉ connectionTokens (received head) := fun hmem =>
      hupgrade (eq_upgrade_of_mem_tokens hvalid (hhead ▸ hmem))
    rw [hrewritten.getAll_eq hrewrittennames, hm.getAll_eq hpairnames, getAll_passedOn,
      if_neg hcookie, valuesOf_keptHeaders (fun f hf => lowercase_received hf) htokens hhop hnothost
        (.inl happend), hhead, getAll_received_forwarding hvalid hn, valuesOf_stamped hhost h]
  | false =>
    rw [requestHeaders_eq, insertForwarded, if_neg (by simp [happend]), hvisitor, hauthority]
    refine getAll_foldl_insertBytes (fun f hf => ?_) nodup_canonicalForwarded h _
    have hstamped : f ∈ stampedHeaders visited.version visitorIp.text host :=
      List.mem_append_left _ hf
    exact valid_of_mem_stampedHeaders visitorIp.printable_text hhost hstamped

/-! ## Both hops -/

/-- The origin sees the forwarding metadata of the relay, whatever forwarding fields the visitor
sends; unless the client keeps them, the rest of the request is the same, too. -/
theorem forwarding_not_influenced (visited : VisitorRequest) (raw raw' : List Field)
    (authority : Option Bytes) (host : String) (serviceId : ServiceId) (visitorIp : IpAddr)
    (key : String) (responseTx : Oneshot) (spec : ServiceSpec) (h2 : Bool)
    (hsame : SameButForwarding raw raw')
    (hhost : requestHost (visited.withFields raw) authority = .ok host) :
    let origin raw := originRequest ⟨(forwardVisitorRequest (visited.withFields raw) serviceId
      visitorIp host key responseTx).head, spec⟩ h2
    requestHost (visited.withFields raw') authority = .ok host ∧
      (spec.appendForwarded = false → origin raw = origin raw') ∧
      ∀ n ∈ forwardingHeaders, ∃ value,
        (n, value) ∈ stampedHeaders visited.version visitorIp.text host ∧
          (origin raw).headers.getAll n = [value] ∧ (origin raw').headers.getAll n = [value] := by
  intro origin
  have hprintable := Server.printable_of_requestHost hhost
  refine ⟨(hsame.requestHost visited authority).symm.trans hhost, fun happend => ?_, fun n hn => ?_⟩
  · obtain ⟨hfields, hrest⟩ := hsame.forwarded visited serviceId visitorIp host key responseTx
    exact hfields.originRequest hrest happend
      ((visitorOf_received hprintable).trans (visitorOf_received hprintable).symm) h2
  · obtain ⟨value, hvalue⟩ := exists_canonicalForwarded hn
    exact ⟨value, List.mem_append_left _ hvalue, getAll_requestHeaders_forwarding hprintable hvalue rfl,
      getAll_requestHeaders_forwarding hprintable hvalue rfl⟩

end

namespace HopByHop.Sample

theorem toLower_of_isLower {c : Char} (h : (c.isLower || c == '-') = true) :
    c.toLower = c ∧ (c.isAlphanum || c == '-') = true := by
  have hupper : ¬(c.val ≥ 'A'.val ∧ c.val ≤ 'Z'.val) := by
    intro hc
    rcases Bool.or_eq_true_iff.mp h with h | h
    · have hlow := (Bool.and_eq_true_iff.mp h).1
      have hle := UInt32.le_iff_toNat_le.mp hc.2
      have hge := UInt32.le_iff_toNat_le.mp (of_decide_eq_true hlow)
      simp at hle hge
      omega
    · rw [eq_of_beq h] at hc
      exact absurd hc (by decide)
  refine ⟨by rw [Char.toLower, dif_neg hupper], ?_⟩
  rcases Bool.or_eq_true_iff.mp h with h | h <;> simp [Char.isAlphanum, Char.isAlpha, h]

scoped instance : AcceptsText where
  name {n} _ _ h := by
    have hchars := List.all_eq_true.mp h
    have hlow : toAsciiLowercase n = n := by
      apply String.toList_inj.mp
      rw [toAsciiLowercase, String.toList_map]
      conv_rhs => rw [← List.map_id n.toList]
      exact List.map_congr_left fun c hc => (toLower_of_isLower (hchars c hc)).1
    have hall : n.toList.all (fun c => c.isAlphanum || c == '-') = true :=
      List.all_eq_true.mpr fun c hc => (toLower_of_isLower (hchars c hc)).2
    simp only [HttpTypes.headerName, hlow, hall, if_true]
  value {v} h := by
    refine List.all_eq_true.mpr fun b hb => ?_
    obtain ⟨hlow, hhigh⟩ := h b hb
    have hne : b ≠ 127 := fun hb => by simp [hb] at hhigh
    simp [UInt8.le_iff_toNat_le, hlow, hne]

/-- Fields of a visitor that asks for a websocket and claims to come from elsewhere. -/
def forged : List Field :=
  [("Host", "ann.tunnel.example".toUTF8.toList), ("X-Forwarded-For", "6.6.6.6".toUTF8.toList),
    ("Connection", "x-forwarded-for, upgrade".toUTF8.toList),
    ("X-Forwarded-Port", "1".toUTF8.toList), ("Upgrade", "websocket".toUTF8.toList)]

/-- The same request with another claim. -/
def forgedAgain : List Field :=
  [("FORWARDED", "for=elsewhere".toUTF8.toList), ("Host", "ann.tunnel.example".toUTF8.toList),
    ("Connection", "x-forwarded-for, upgrade".toUTF8.toList),
    ("Upgrade", "websocket".toUTF8.toList), ("forwarded", "host=other".toUTF8.toList)]

end HopByHop.Sample

open HopByHop.Sample in
/-- A websocket whose visitor makes up forwarding fields. -/
theorem forged_not_influenced :
    let origin raw := originRequest ⟨head get raw, spec⟩ false
    origin forged = origin forgedAgain ∧
      ∀ n ∈ forwardingHeaders, ∃ value,
        (n, value) ∈ stampedHeaders .http11 "203.0.113.9" "ann.tunnel.example" ∧
          (origin forged).headers.getAll n = [value] := by
  intro origin
  have hsame : SameButForwarding forged forgedAgain := by
    unfold SameButForwarding
    decide +kernel
  have hhost : requestHost (get.withFields forged) none = .ok "ann.tunnel.example" := by
    unfold requestHost
    rw [VisitorRequest.getAll_withFields]
    decide +kernel
  obtain ⟨-, hequal, hstamped⟩ := forwarding_not_influenced get forged forgedAgain none
    "ann.tunnel.example" 1 (.v4 203 0 113 9) "a2V5" 0 spec false hsame hhost
  refine ⟨hequal rfl, fun n hn => ?_⟩
  obtain ⟨value, hmem, hvalue, -⟩ := hstamped n hn
  exact ⟨value, hmem, hvalue⟩

end TunnelWeaver.Client
