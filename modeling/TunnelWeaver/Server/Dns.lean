import TunnelWeaver.Server.HostnameScheme
import TunnelWeaver.Server.Visitor
import Mathlib.Data.List.Destutter

/-! The DNS responder of the tunnel zone (`dns/mod.rs`). Two generators know something about names:
the tunnel domain, whose hosts all resolve to the relay, and the store of ACME challenges. -/

namespace TunnelWeaver.Server

open Proto (toAsciiLowercase)
open Proto.Policy (isWhitespace trim)

/-! ## Messages -/

inductive RecordType where
  | a
  | aaaa
  | any
  | soa
  | ns
  | caa
  | txt
  | axfr
  | ixfr
  | other (code : UInt16)
  deriving DecidableEq

inductive DnsClass where
  | internet
  | other (code : UInt16)
  deriving DecidableEq

inductive OpCode where
  | query
  | status
  | notify
  | update
  | unknown (code : UInt8)
  deriving DecidableEq

inductive ResponseCode where
  | noError
  | formErr
  | nxDomain
  | notImp
  | refused
  | badVers
  deriving DecidableEq

structure Metadata where
  id : UInt16
  opCode : OpCode
  response : Bool
  authoritative : Bool
  truncation : Bool
  recursionDesired : Bool
  recursionAvailable : Bool
  authenticData : Bool
  checkingDisabled : Bool
  responseCode : ResponseCode
  deriving DecidableEq

/-- What the responder uses of the `hickory` crate. -/
class Hickory where
  Name : Type
  decEq : DecidableEq Name
  /-- The text of a name; it ends with a dot. -/
  toUtf8 : Name → String
  /-- `Name::from_str`. -/
  fromStr : String → Option Name
  /-- `Metadata::response_from_request`. -/
  responseFromRequest : Metadata → Metadata

section
variable [Hickory]

instance : DecidableEq Hickory.Name := Hickory.decEq

structure SoaData where
  mname : Hickory.Name
  rname : Hickory.Name
  serial : UInt32
  refresh : Int32
  retry : Int32
  expire : Int32
  minimum : UInt32
  deriving DecidableEq

inductive RData where
  | a (a b c d : UInt8)
  | aaaa (segments : List UInt16)
  | hinfo (cpu os : String)
  | soa (data : SoaData)
  | ns (name : Hickory.Name)
  | caaIssue (critical : Bool) (name : Hickory.Name)
  | caaIssueWild (critical : Bool) (name : Hickory.Name)
  | txt (values : List String)
  deriving DecidableEq

structure Record where
  name : Hickory.Name
  ttl : UInt32
  rdata : RData
  deriving DecidableEq

/-- When two records count as equal: whatever their time to live. -/
def Record.same (r r' : Record) : Prop := r.name = r'.name ∧ r.rdata = r'.rdata

instance (r r' : Record) : Decidable (r.same r') := inferInstanceAs (Decidable (_ ∧ _))

structure Query where
  name : Hickory.Name
  queryType : RecordType
  queryClass : DnsClass
  deriving DecidableEq

structure Edns where
  version : UInt8
  maxPayload : UInt16
  dnssecOk : Bool
  deriving DecidableEq

structure Message where
  metadata : Metadata
  queries : List Query
  answers : List Record := []
  authorities : List Record := []
  edns : Option Edns := none
  deriving DecidableEq

def Message.withCode (m : Message) (code : ResponseCode) : Message :=
  { m with metadata := { m.metadata with responseCode := code } }

end

/-! ## Generators -/

/-- For static records, in seconds. -/
def staticTtl : UInt32 := 3600

def challengeTtl : UInt32 := 30

def caaTtl : UInt32 := 60

def negativeTtl : UInt32 := 30

section
variable [Hickory]

/-- What a generator knows about a name: its records of the asked type and what a negative answer
carries; that it does not exist; or nothing. -/
inductive Answer where
  | exists (records authority : List Record)
  | absent (authority : List Record)
  | notMine

/-- A generator takes the normalized name. -/
abbrev DomainGenerator := String → RecordType → Answer

structure DnsResponderConfig extends Domains where
  relayIps : List IpAddr
  caaIssuers : List String

/-- The tunnel domain: its apex and one label beneath it. -/
structure TunnelDomains where
  config : DnsResponderConfig
  rootName : Hickory.Name
  adminName : Hickory.Name
  soa : SoaData

namespace TunnelDomains

/-- Fails where the source panics: the domains of a configuration are names. -/
def new (config : DnsResponderConfig) : Option TunnelDomains := do
  let rootName ← Hickory.fromStr (normalizeDomain config.tunnelDomain ++ ".")
  let adminName ← Hickory.fromStr (normalizeDomain config.adminDomain ++ ".")
  return {
    config, rootName, adminName
    soa := {
      mname := adminName
      rname := adminName
      serial := 1
      refresh := 7200
      retry := 3600
      expire := 1209600
      minimum := negativeTtl } }

def tunnel (d : TunnelDomains) : String := normalizeDomain d.config.tunnelDomain

def zoneName (d : TunnelDomains) (name : String) : ZoneName := d.config.zoneName name

def aRecords (d : TunnelDomains) (owner : Hickory.Name) : List Record :=
  d.config.relayIps.filterMap fun
    | .v4 a b c e => some ⟨owner, staticTtl, .a a b c e⟩
    | .v6 _ => none

def aaaaRecords (d : TunnelDomains) (owner : Hickory.Name) : List Record :=
  d.config.relayIps.filterMap fun
    | .v6 segments => some ⟨owner, staticTtl, .aaaa segments.toList⟩
    | .v4 .. => none

def soaRecord (d : TunnelDomains) : Record := ⟨d.rootName, negativeTtl, .soa d.soa⟩

/-- Records of the asked type, or the authority of a negative answer if there are none. -/
def orSoa (d : TunnelDomains) (records : List Record) : Answer :=
  if records = [] then .exists [] [d.soaRecord] else .exists records []

/-- The CAs may issue ordinary and wildcard certificates. -/
def caaRecords (d : TunnelDomains) : List Record :=
  d.config.caaIssuers.flatMap fun issuer =>
    match Hickory.fromStr issuer with
    | some name => [⟨d.rootName, caaTtl, .caaIssue false name⟩,
        ⟨d.rootName, caaTtl, .caaIssueWild false name⟩]
    | none => []

def records (d : TunnelDomains) (qname : String) (owner : Hickory.Name) : RecordType → Answer
  | .a => d.orSoa (d.aRecords owner)
  | .aaaa => d.orSoa (d.aaaaRecords owner)
  | .any => .exists [⟨owner, staticTtl, .hinfo "RFC8482" ""⟩] []
  | .soa => d.orSoa (if qname = d.tunnel then [d.soaRecord] else [])
  | .ns => d.orSoa (if qname = d.tunnel then [⟨d.rootName, staticTtl, .ns d.adminName⟩] else [])
  | .caa =>
    if qname = d.tunnel ∧ d.config.caaIssuers ≠ [] then .exists d.caaRecords []
    else .exists [] [d.soaRecord]
  | _ => .exists [] [d.soaRecord]

def generate (d : TunnelDomains) : DomainGenerator := fun qname qtype =>
  match d.zoneName qname with
  | .outside => .notMine
  | .notAHost => .absent [d.soaRecord]
  | .apex | .host =>
    match Hickory.fromStr (qname ++ ".") with
    | none => .notMine
    | some owner => d.records qname owner qtype

end TunnelDomains

/-- A row of the table of challenges. -/
structure ChallengeRow where
  name : String
  kind : String
  value : String

def getChallenges (rows : List ChallengeRow) (name : String) : List String :=
  (rows.filter fun r => r.name == toAsciiLowercase name && r.kind == "dns-01").map (·.value)

def isChallenge (qname : String) : Bool := "_acme-challenge.".toList.isPrefixOf qname.toList

/-- The challenges of a store that may fail to be read. -/
def acmeChallenges (rows : Option (List ChallengeRow)) : DomainGenerator := fun qname qtype =>
  if isChallenge qname then
    let values := (rows.map (getChallenges · qname)).getD []
    match Hickory.fromStr (qname ++ ".") with
    | none => .notMine
    | some owner =>
      if values = [] then .notMine
      else .exists
        (if qtype = .txt then values.map fun value => ⟨owner, challengeTtl, .txt [value]⟩ else []) []
  else .notMine

/-! ## The responder -/

/-- What the generators say together. -/
structure Combined where
  found : Bool := false
  absent : Bool := false
  records : List Record := []
  authority : List Record := []

def Combined.add (c : Combined) : Answer → Combined
  | .exists records authority => { c with
      found := true
      records := c.records ++ records
      authority := c.authority ++ authority }
  | .absent authority => { c with absent := true, authority := c.authority ++ authority }
  | .notMine => c

def combine (generators : List DomainGenerator) (qname : String) (qtype : RecordType) : Combined :=
  generators.foldl (fun c g => c.add (g qname qtype)) {}

/-- The sections of the reply. -/
def Combined.reply (c : Combined) (resp : Message) : Message :=
  if !c.found && !c.absent then resp.withCode .refused
  else
    let resp := if c.found then resp else resp.withCode .nxDomain
    if c.records = [] then { resp with authorities := c.authority.destutter (¬ ·.same ·) }
    else { resp with answers := c.records }

def replyEdns : Edns := { version := 0, maxPayload := 512, dnssecOk := false }

/-- The name as the generators take it. -/
def qnameOf (name : Hickory.Name) : String := normalizeDomain (Hickory.toUtf8 name)

/-- The reply before it says anything. -/
def startReply (req : Message) : Message where
  metadata := { Hickory.responseFromRequest req.metadata with
    authoritative := true
    recursionAvailable := false }
  queries := req.queries
  edns := req.edns.map fun _ => replyEdns

/-- `DnsResponder::answer`. -/
def answer (generators : List DomainGenerator) (req : Message) : Option Message :=
  let resp := startReply req
  if req.edns.any (·.version != 0) then some (resp.withCode .badVers)
  else match req.metadata.opCode with
    | .update | .notify => some (resp.withCode .refused)
    | .status | .unknown _ => some (resp.withCode .notImp)
    | .query =>
      match req.queries with
      | [query] =>
        if query.queryClass ≠ .internet then some (resp.withCode .refused)
        else if query.queryType = .axfr ∨ query.queryType = .ixfr then
          some (resp.withCode .refused)
        else some ((combine generators (qnameOf query.name) query.queryType).reply resp)
      | _ => some (resp.withCode .formErr)

/-- The generators of the relay. -/
def generators (rows : Option (List ChallengeRow)) (d : TunnelDomains) : List DomainGenerator :=
  [acmeChallenges rows, d.generate]

end

/-! ## Owner names -/

section
variable [Hickory]

def Record.withOwner (owner : Hickory.Name) (r : Record) : Record := { r with name := owner }

def Answer.withOwner (owner : Hickory.Name) : Answer → Answer
  | .exists records authority => .exists (records.map (·.withOwner owner)) authority
  | .absent authority => .absent authority
  | .notMine => .notMine

/-- The message with another name in its question and as the owner of its answers. -/
def Message.withOwner (owner : Hickory.Name) (m : Message) : Message :=
  { m with
    queries := m.queries.map fun q => { q with name := owner }
    answers := m.answers.map (·.withOwner owner) }

/-- The same message with one question. -/
def Message.asking (m : Message) (name : Hickory.Name) (queryType : RecordType)
    (queryClass : DnsClass) : Message :=
  { m with queries := [⟨name, queryType, queryClass⟩] }

variable {d : TunnelDomains} {qname qname' : String} {qtype : RecordType}
  {rows rows' : Option (List ChallengeRow)} {owner o : Hickory.Name}

/-- The store is read for challenges only. -/
theorem acmeChallenges_eq (h : isChallenge qname = false) :
    acmeChallenges rows qname qtype = .notMine := if_neg (by simp [h])

/-- A host is a label of letters, digits and dashes beneath the apex. -/
theorem TunnelDomains.eq_of_host (h : d.zoneName qname = .host) :
    qname ≠ d.tunnel ∧ ∃ label, label ≠ "" ∧
      (label.toList.all fun c => c.isAlphanum || c == '-') = true ∧
      qname = label ++ ("." ++ d.tunnel) := by
  unfold zoneName Domains.zoneName at h
  dsimp only at h
  split at h
  · cases h
  · next hapex =>
    split at h
    · next label hstrip =>
      split_ifs at h with hlabel hchars
      rw [Bool.and_eq_true, decide_eq_true_eq] at hlabel
      exact ⟨by simpa [tunnel] using hapex, label, hlabel.1, hchars, append_of_stripSuffix hstrip⟩
    · cases h

/-- No host is the name of a challenge. -/
theorem TunnelDomains.not_challenge (h : d.zoneName qname = .host) : isChallenge qname = false := by
  obtain ⟨-, label, hne, hchars, rfl⟩ := d.eq_of_host h
  obtain ⟨c, rest, hlabel⟩ := List.exists_cons_of_ne_nil (mt String.toList_eq_nil_iff.mp hne)
  have hc : c ≠ '_' := by
    rintro rfl
    rw [hlabel, List.all_cons] at hchars
    exact absurd hchars (by simp +decide)
  rw [isChallenge, String.toList_append, hlabel]
  simp [List.isPrefixOf, hc.symm]

namespace TunnelDomains

theorem withOwner_aRecords : (d.aRecords owner).map (·.withOwner o) = d.aRecords o := by
  rw [aRecords, List.map_filterMap, aRecords]
  refine List.filterMap_congr fun ip _ => ?_
  cases ip <;> rfl

theorem withOwner_aaaaRecords : (d.aaaaRecords owner).map (·.withOwner o) = d.aaaaRecords o := by
  rw [aaaaRecords, List.map_filterMap, aaaaRecords]
  refine List.filterMap_congr fun ip _ => ?_
  cases ip <;> rfl

theorem withOwner_orSoa (records : List Record) :
    (d.orSoa records).withOwner o = d.orSoa (records.map (·.withOwner o)) := by
  cases records <;> rfl

/-- But for the owner, the answers are the same at all hosts. -/
theorem withOwner_records (h : qname ≠ d.tunnel) (h' : qname' ≠ d.tunnel) :
    (d.records qname owner qtype).withOwner o = d.records qname' o qtype := by
  cases qtype with
  | a => rw [records, withOwner_orSoa, withOwner_aRecords, records]
  | aaaa => rw [records, withOwner_orSoa, withOwner_aaaaRecords, records]
  | soa | ns => rw [records, if_neg h, withOwner_orSoa, records, if_neg h', List.map_nil]
  | caa => rw [records, if_neg (mt And.left h), records, if_neg (mt And.left h')]; rfl
  | any | txt | axfr | ixfr | other => rfl

end TunnelDomains

/-! ## What the responder says -/

theorem combine_eq (h : isChallenge qname = false) :
    combine (generators rows d) qname qtype = Combined.add {} (d.generate qname qtype) := by
  rw [combine, generators, List.foldl_cons, List.foldl_cons, List.foldl_nil, acmeChallenges_eq h]
  rfl

theorem generate_host (h : d.zoneName qname = .host) :
    d.generate qname qtype =
      ((Hickory.fromStr (qname ++ ".")).map fun owner => d.records qname owner qtype).getD .notMine := by
  rw [TunnelDomains.generate, h]
  cases Hickory.fromStr (qname ++ ".") <;> rfl

theorem reply_withOwner (a : Answer) (resp : Message) :
    ((Combined.add {} a).reply resp).withOwner o =
      (Combined.add {} (a.withOwner o)).reply (resp.withOwner o) := by
  cases a with
  | «exists» records authority => cases records <;> rfl
  | absent authority => rfl
  | notMine => rfl

theorem answer_congr {generators generators' : List DomainGenerator} {req : Message}
    (h : ∀ q ∈ req.queries, ∀ t,
      combine generators (qnameOf q.name) t = combine generators' (qnameOf q.name) t) :
    answer generators req = answer generators' req := by
  unfold answer
  rcases hqueries : req.queries with _ | ⟨query, _ | ⟨other, rest⟩⟩
  · rfl
  · simp only [h query (hqueries ▸ List.mem_singleton_self query)]
  · rfl

/-- Two hosts get the same answers if both are names or neither is. -/
theorem withOwner_generate (h : d.zoneName qname = .host) (h' : d.zoneName qname' = .host)
    (hparse : (Hickory.fromStr (qname ++ ".")).isSome = (Hickory.fromStr (qname' ++ ".")).isSome) :
    (d.generate qname qtype).withOwner o = (d.generate qname' qtype).withOwner o := by
  have hne := (d.eq_of_host h).1
  have hne' := (d.eq_of_host h').1
  rw [generate_host h, generate_host h']
  cases hname : Hickory.fromStr (qname ++ ".") <;>
    cases hname' : Hickory.fromStr (qname' ++ ".") <;> simp [hname, hname'] at hparse ⊢
  rw [TunnelDomains.withOwner_records hne hne', TunnelDomains.withOwner_records hne' hne']

variable {n n' : Hickory.Name}

theorem withOwner_answer (h : d.zoneName (qnameOf n) = .host) (h' : d.zoneName (qnameOf n') = .host)
    (hparse : (Hickory.fromStr (qnameOf n ++ ".")).isSome =
      (Hickory.fromStr (qnameOf n' ++ ".")).isSome) (req : Message) (qclass : DnsClass) :
    (answer (generators rows d) (req.asking n qtype qclass)).map (·.withOwner o) =
      (answer (generators rows d) (req.asking n' qtype qclass)).map (·.withOwner o) := by
  have hstart : (startReply (req.asking n qtype qclass)).withOwner o =
      (startReply (req.asking n' qtype qclass)).withOwner o := rfl
  have hreply : ((combine (generators rows d) (qnameOf n) qtype).reply
        (startReply (req.asking n qtype qclass))).withOwner o =
      ((combine (generators rows d) (qnameOf n') qtype).reply
        (startReply (req.asking n' qtype qclass))).withOwner o := by
    rw [combine_eq (d.not_challenge h), combine_eq (d.not_challenge h'), reply_withOwner, reply_withOwner,
      withOwner_generate h h' hparse, hstart]
  unfold answer
  dsimp only [Message.asking] at hreply ⊢
  by_cases hedns : req.edns.any (·.version != 0) = true
  · simp only [hedns, if_true]
    rfl
  · simp only [hedns, Bool.false_eq_true, if_false]
    cases req.metadata.opCode with
    | query =>
      by_cases hclass : qclass = .internet
      · by_cases htype : qtype = .axfr ∨ qtype = .ixfr
        · simp only [hclass, htype, ne_eq, not_true, if_true, if_false]
          rfl
        · simp only [hclass, htype, ne_eq, not_true, if_false]
          exact congrArg some (hclass ▸ hreply)
      · simp only [hclass, ne_eq, not_false_iff, if_true]
        rfl
    | status | notify | update | unknown => rfl

/-! ## What a query tells about tunnels -/

omit [Hickory] in
/-- Trimming a name that does not start with whitespace leaves its front alone. -/
theorem isChallenge_of_normalizeDomain {name : String}
    (hspace : ∀ c, name.toList.head? = some c → isWhitespace c = false)
    (h : isChallenge (normalizeDomain name) = true) :
    isChallenge (toAsciiLowercase name) = true := by
  have hfront : name.toList.dropWhile isWhitespace = name.toList := by
    cases hlist : name.toList with
    | nil => rfl
    | cons c rest => exact List.dropWhile_cons_of_neg (by simp [hspace c (by rw [hlist]; rfl)])
  have htrim : trim name.toList <+: name.toList := by
    rw [trim, hfront]
    exact List.rdropWhile_prefix isWhitespace name.toList
  have hnormal : (normalizeDomain name).toList <+: (toAsciiLowercase name).toList := by
    rw [normalizeDomain, toAsciiLowercase, toAsciiLowercase, String.toList_map, String.toList_map,
      String.toList_ofList]
    exact ((List.rdropWhile_prefix _ _).trans htrim).map Char.toLower
  rw [isChallenge, List.isPrefixOf_iff_prefix] at h ⊢
  exact h.trans hnormal

/-- What `hickory` documents of responses: they start without an error. -/
class LawfulHickory : Prop where
  noError (m : Metadata) : (Hickory.responseFromRequest m).responseCode = .noError

/-- A message of which only the question matters. -/
def plain : Message where
  metadata := {
    id := 0
    opCode := .query
    response := false
    authoritative := false
    truncation := false
    recursionDesired := false
    recursionAvailable := false
    authenticData := false
    checkingDisabled := false
    responseCode := .noError }
  queries := []

/-- A host that is no name is refused. -/
theorem code_of_host [LawfulHickory] (h : d.zoneName (qnameOf n) = .host) :
    (answer (generators rows d) (plain.asking n .a .internet)).map (·.metadata.responseCode) =
      some (if (Hickory.fromStr (qnameOf n ++ ".")).isSome then .noError else .refused) := by
  have hanswer : answer (generators rows d) (plain.asking n .a .internet) =
      some ((combine (generators rows d) (qnameOf n) .a).reply
        (startReply (plain.asking n .a .internet))) := rfl
  have hstart : (startReply (plain.asking n .a .internet)).metadata.responseCode = .noError :=
    LawfulHickory.noError _
  rw [hanswer, combine_eq (d.not_challenge h), generate_host h, Option.map_some]
  cases Hickory.fromStr (qnameOf n ++ ".") with
  | none => rfl
  | some owner =>
    simp only [Option.map_some, Option.getD_some, TunnelDomains.records]
    cases d.aRecords owner <;> exact congrArg some hstart

end

/-! ## A sample zone -/

namespace Dns.Sample

/-- An `xn--` label whose last number never ends: no digit of Punycode from `0` to `9` ends one. -/
def badPunycode (label : List Char) : Bool :=
  "xn--".toList.isPrefixOf label && label.getLast?.any Char.isDigit

/-- Names as text, none with such a label. -/
scoped instance : Hickory where
  Name := String
  decEq := inferInstance
  toUtf8 name := name ++ "."
  fromStr s :=
    if (s.toList.splitOn '.').any badPunycode then none
    else some (.ofList (s.toList.rdropWhile (· == '.')))
  responseFromRequest m := { m with
    response := true
    authoritative := false
    truncation := false
    recursionAvailable := false
    authenticData := false
    responseCode := .noError }

scoped instance : LawfulHickory where
  noError _ := rfl

def zone : TunnelDomains where
  config := {
    tunnelDomain := "tunnel.example"
    adminDomain := "relay.example"
    relayIps := [.v4 203 0 113 7]
    caaIssuers := [] }
  rootName := "tunnel.example"
  adminName := "relay.example"
  soa := {
    mname := "relay.example"
    rname := "relay.example"
    serial := 1
    refresh := 7200
    retry := 3600
    expire := 1209600
    minimum := negativeTtl }

example : TunnelDomains.new zone.config = some zone := by
  have hroot : Hickory.fromStr (normalizeDomain zone.config.tunnelDomain ++ ".") =
      some zone.rootName := by decide +kernel
  have hadmin : Hickory.fromStr (normalizeDomain zone.config.adminDomain ++ ".") =
      some zone.adminName := by decide +kernel
  rw [TunnelDomains.new, hroot, hadmin]
  rfl

end Dns.Sample

end TunnelWeaver.Server
