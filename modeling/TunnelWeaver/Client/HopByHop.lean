import TunnelWeaver.Client.Origin
import TunnelWeaver.Server.Visitor

/-! Which fields of a visitor's request get through the relay and the client. Each of the two strips
the hop-by-hop fields and those that a `Connection` field names, and writes fields of its own. -/

namespace TunnelWeaver.Client

open Mux (Bytes)
open Proto (Field HeaderMap connectionTokens toAsciiLowercase valuesOf tokensOf mem_valuesOf)
open Server (HttpTypes IpAddr LawfulHttpTypes Oneshot ServiceId VisitorRequest cleanedHeaders
  extraHopByHop forwardVisitorRequest forwardingHeaders hopByHopHeaders relayFields upgradeKind
  upgradePair validFields)

/-! ## Insertions -/

/-- The second map has the values of the first, but for names of the fields, of which it has one. -/
def Overwrites (fields : List Field) (m m' : HeaderMap) : Prop :=
  ∀ n, m'.getAll n = m.getAll n ∨ ∃ v, (n, v) ∈ fields ∧ m'.getAll n = [v]

section
variable {fields fields' : List Field} {m m' m'' : HeaderMap} {n : String} {v : Bytes}

theorem Overwrites.refl : Overwrites fields m m := fun _ => .inl rfl

theorem Overwrites.trans (h : Overwrites fields m m') (h' : Overwrites fields m' m'') :
    Overwrites fields m m'' := by
  intro n
  rcases h' n with hsame | hnew
  · exact (h n).imp hsame.trans (Exists.imp fun v => And.imp_right hsame.trans)
  · exact .inr hnew

theorem Overwrites.mono (h : Overwrites fields m m') (hsub : fields ⊆ fields') :
    Overwrites fields' m m' :=
  fun n => (h n).imp_right (Exists.imp fun _ => And.imp_left (hsub ·))

/-- Names of no field keep their values. -/
theorem Overwrites.getAll_eq (h : Overwrites fields m m') (hn : n ∉ fields.map Prod.fst) :
    m'.getAll n = m.getAll n := by
  refine (h n).resolve_right fun hnew => hn ?_
  obtain ⟨v, hmem, -⟩ := hnew
  exact List.mem_map_of_mem hmem

theorem Overwrites.insert (h : (n, v) ∈ fields) : Overwrites fields m (m.insert n v) := by
  intro k
  rw [HeaderMap.getAll_insert]
  by_cases hk : k = n
  · exact .inr ⟨v, hk ▸ h, if_pos hk⟩
  · exact .inl (if_neg hk)

variable [HttpTypes] [LawfulHttpTypes]

theorem Overwrites.insertBytes (hlow : toAsciiLowercase n = n) (h : (n, v) ∈ fields) :
    Overwrites fields m (insertBytes m n v) := by
  unfold Client.insertBytes
  split
  · next name hname _ =>
    rw [LawfulHttpTypes.lowercase hname, hlow]
    exact .insert h
  · exact .refl

theorem Overwrites.foldl (hlow : ∀ f ∈ fields, toAsciiLowercase f.1 = f.1) :
    ∀ {m : HeaderMap},
      Overwrites fields m (fields.foldl (fun m f => Client.insertBytes m f.1 f.2) m) := by
  induction fields with
  | nil => exact .refl
  | cons f fields ih =>
    intro m
    have hfirst : Overwrites (f :: fields) m (Client.insertBytes m f.1 f.2) :=
      .insertBytes (hlow f List.mem_cons_self) List.mem_cons_self
    refine hfirst.trans ((ih fun g hg => hlow g (List.mem_cons_of_mem f hg)).mono ?_)
    exact List.subset_cons_self f fields

end

/-- The `Host` and the forwarding headers of the client. -/
def rewrittenFields (cfg : ExchangeConfig) (visitor : String) : List Field :=
  ("host", hostValue cfg) ::
    if cfg.spec.appendForwarded then [] else canonicalForwarded cfg.head.authority visitor

/-- The client's own `TE`. -/
def acceptTrailers : Field := ("te", "trailers".toUTF8.toList)

theorem name_of_mem_canonicalForwarded {publicHost visitor : String} {f : Field}
    (h : f ∈ canonicalForwarded publicHost visitor) : f.1 ∈ forwardingHeaders := by
  have hname : f.1 ∈ (canonicalForwarded publicHost visitor).map Prod.fst := List.mem_map_of_mem h
  simp only [canonicalForwarded, List.map_cons, List.map_nil] at hname
  revert hname
  generalize f.1 = name
  revert name
  decide

theorem name_of_mem_rewrittenFields {cfg : ExchangeConfig} {visitor : String} {f : Field}
    (h : f ∈ rewrittenFields cfg visitor) : f.1 ∈ "host" :: forwardingHeaders := by
  rcases List.mem_cons.mp h with rfl | h
  · exact List.mem_cons_self
  · split at h
    · cases h
    · exact List.mem_cons_of_mem _ (name_of_mem_canonicalForwarded h)

/-- `Host` and the forwarding headers are no hop-by-hop fields. -/
theorem not_mem_rewrittenFields {cfg : ExchangeConfig} {visitor n : String}
    (hn : n ∈ hopByHopHeaders) : n ∉ (rewrittenFields cfg visitor).map Prod.fst := by
  intro hmem
  obtain ⟨f, hf, rfl⟩ := List.mem_map.mp hmem
  have hnot : ∀ name ∈ "host" :: forwardingHeaders, name ∉ hopByHopHeaders := by decide
  exact hnot f.1 (name_of_mem_rewrittenFields hf) hn

section
variable [HttpTypes] {cfg : ExchangeConfig} {visitor : String} {m : HeaderMap} {n : String}

theorem overwrites_insertForwarded [LawfulHttpTypes] :
    Overwrites (rewrittenFields cfg visitor) m
      (insertForwarded (insertHost m cfg) cfg visitor) := by
  have hhost : Overwrites (rewrittenFields cfg visitor) m (insertHost m cfg) := by
    unfold insertHost
    split
    · exact .insert List.mem_cons_self
    · exact .refl
  refine hhost.trans ?_
  unfold insertForwarded
  split
  · exact .refl
  · next happend =>
    have hall : ∀ name ∈ forwardingHeaders, toAsciiLowercase name = name := by decide +kernel
    refine (Overwrites.foldl fun f hf => hall _ (name_of_mem_canonicalForwarded hf)).mono ?_
    rw [rewrittenFields, if_neg happend]
    exact fun f hf => List.mem_cons_of_mem _ hf

omit [HttpTypes] in
theorem insertUpgrade_some (kind : Server.UpgradeKind) (m : HeaderMap) :
    Overwrites (upgradePair (some kind)) m
        (insertUpgrade m (some kind.protocol.toUTF8.toList)) ∧
      ∀ n, m.getAll n = [] →
        (insertUpgrade m (some kind.protocol.toUTF8.toList)).getAll n =
          valuesOf n (upgradePair (some kind)) := by
  constructor
  · exact (Overwrites.insert List.mem_cons_self).trans
      (.insert (List.mem_cons_of_mem _ List.mem_cons_self))
  · intro n hn
    rw [insertUpgrade, HeaderMap.getAll_insert, HeaderMap.getAll_insert, upgradePair]
    by_cases hupgrade : n = "upgrade"
    · simp [hupgrade]
    · by_cases hconnection : n = "connection"
      · simp [hconnection]
      · simp [hupgrade, hconnection, hn]

omit [HttpTypes] in
theorem insertUpgrade_none (m : HeaderMap) :
    Overwrites [acceptTrailers] m (insertUpgrade m none) ∧
      ∀ n, m.getAll n = [] → (insertUpgrade m none).getAll n = valuesOf n [acceptTrailers] := by
  constructor
  · exact .insert List.mem_cons_self
  · intro n hn
    rw [insertUpgrade, HeaderMap.getAll_insert, acceptTrailers, hn]
    by_cases hte : n = "te" <;> simp [hte]

end

/-! ## What the client receives -/

section
variable [HttpTypes] [LawfulHttpTypes] {req : VisitorRequest} {serviceId : ServiceId}
  {visitorIp : IpAddr} {host key n : String} {responseTx : Oneshot} {spec : ServiceSpec}

theorem lowercase_received {head : Proto.HttpHead} {f : Field} (h : f ∈ (received head).iter) :
    toAsciiLowercase f.1 = f.1 :=
  Server.lowercase_of_mem (HeaderMap.mem_iter_ofFields.mp h)

/-- Every field of the visitor is valid, as hyper read it into a header map. -/
def ValidHeaders (headers : HeaderMap) : Prop :=
  ∀ f ∈ headers.iter, HttpTypes.headerName f.1 = some f.1 ∧ HttpTypes.headerValue f.2 = true

theorem validHeaders_ofFields (raw : List Field) : ValidHeaders (.ofFields (validFields raw)) :=
  fun _ hf => Server.valid_of_mem (HeaderMap.mem_iter_ofFields.mp hf)

theorem ValidHeaders.lowercase {headers : HeaderMap} (h : ValidHeaders headers) {f : Field}
    (hf : f ∈ headers.iter) : toAsciiLowercase f.1 = f.1 :=
  (LawfulHttpTypes.lowercase (h f hf).1).symm

theorem validFields_cleanedHeaders {headers : HeaderMap} (h : ValidHeaders headers) :
    validFields (cleanedHeaders headers) = cleanedHeaders headers := by
  refine Server.validFields_eq_self fun f hf => ?_
  obtain ⟨g, hg, rfl⟩ := List.mem_map.mp (List.mem_filter.mp hf).1
  rw [h.lowercase hg]
  exact h g hg

/-- The values that the client sees: the visitor's that go on, and the relay's own. -/
theorem getAll_received (h : ValidHeaders req.headers) :
    (received (forwardVisitorRequest req serviceId visitorIp host key responseTx).head).getAll n =
      valuesOf n (cleanedHeaders req.headers) ++
        valuesOf n (validFields (relayFields req visitorIp host key)) := by
  rw [received, HeaderMap.getAll_ofFields, Server.forwarded_headers, Server.validFields_append,
    validFields_cleanedHeaders h, Proto.valuesOf_append]

/-- Of a name that stops at the relay only its own fields are left. -/
theorem received_sublist (h : ValidHeaders req.headers)
    (hn : n ∈ hopByHopHeaders ∨ n ∈ extraHopByHop req.headers) :
    ((received (forwardVisitorRequest req serviceId visitorIp host key responseTx).head).getAll
      n).Sublist (valuesOf n (relayFields req visitorIp host key)) := by
  rw [getAll_received h, Server.valuesOf_cleanedHeaders_eq_nil (by tauto), List.nil_append]
  exact Server.valuesOf_validFields_sublist fun f hf => Server.lowercase_relayFields hf

/-- The only token of a `Connection` field that the client sees. -/
theorem eq_upgrade_of_mem_tokens (h : ValidHeaders req.headers) {t : String}
    (ht : t ∈ connectionTokens
      (received (forwardVisitorRequest req serviceId visitorIp host key responseTx).head)) :
    t = "upgrade" := by
  obtain ⟨value, hvalue, ht⟩ := List.mem_flatMap.mp ht
  have hmem := (received_sublist h (.inl (by decide))).subset hvalue
  rw [Server.valuesOf_relayFields_of_hop (by decide), mem_valuesOf] at hmem
  cases hkind : upgradeKind req with
  | none => simp [hkind, upgradePair] at hmem
  | some kind =>
    have hupgrade : value = "upgrade".toUTF8.toList := by simpa [hkind, upgradePair] using hmem
    have htokens : tokensOf "upgrade".toUTF8.toList = ["upgrade"] := by decide +kernel
    rw [hupgrade, htokens] at ht
    exact List.mem_singleton.mp ht

/-- The `Upgrade` field that the client sees is the one of the pair. -/
theorem received_upgrade (h : ValidHeaders req.headers) {protocol : Bytes}
    (hget : (received (forwardVisitorRequest req serviceId visitorIp host key responseTx).head).get
      "upgrade" = some protocol) :
    ∃ kind, upgradeKind req = some kind ∧ protocol = kind.protocol.toUTF8.toList := by
  have hmem := (received_sublist h (.inl (by decide))).subset (List.mem_of_head? hget)
  rw [Server.valuesOf_relayFields_of_hop (by decide), mem_valuesOf] at hmem
  cases hkind : upgradeKind req with
  | none => simp [hkind, upgradePair] at hmem
  | some kind => exact ⟨kind, rfl, by simpa [hkind, upgradePair] using hmem⟩

/-! ## What the origin receives -/

/-- A field the relay stripped does not come back at the client. -/
theorem passedOn_sublist (h : ValidHeaders req.headers)
    (hn : n ∈ hopByHopHeaders ∨ n ∈ extraHopByHop req.headers) :
    ((passedOn (forwardVisitorRequest req serviceId visitorIp host key responseTx).head spec).getAll
      n).Sublist (valuesOf n (relayFields req visitorIp host key)) := by
  have hkept : (valuesOf n (keptHeaders (received (forwardVisitorRequest req serviceId visitorIp
      host key responseTx).head) spec)).Sublist (valuesOf n (relayFields req visitorIp host key)) :=
    keptHeaders_sublist.trans (received_sublist h hn)
  rw [getAll_passedOn]
  split
  · next hcookie =>
    subst hcookie
    rw [Server.valuesOf_relayFields (by decide)] at hkept
    rw [List.sublist_nil.mp hkept, joinCookies_nil]
    exact List.nil_sublist _
  · exact hkept

omit [LawfulHttpTypes] in
theorem getAll_passedOn_of_hop {head : Proto.HttpHead} (hn : n ∈ hopByHopHeaders) :
    (passedOn head spec).getAll n = [] := by
  have hcookie : ∀ name ∈ hopByHopHeaders, name ≠ "cookie" := by decide
  rw [getAll_passedOn, if_neg (hcookie n hn)]
  exact valuesOf_keptHeaders_of_hop hn

/-- The client adds the pair of an upgrade or its `TE`, and then `Host` and the forwarding headers.
An upgrade that it asks for is the visitor's. -/
theorem request_cases (spec : ServiceSpec) (h : ValidHeaders req.headers)
    {head : Proto.HttpHead}
    (hhead : head = (forwardVisitorRequest req serviceId visitorIp host key responseTx).head) :
    ∃ pair, (pair = upgradePair (upgradeKind req) ∧ (upgradeKind req).isSome = true ∨
        pair = [acceptTrailers]) ∧
      ∃ m, Overwrites pair (passedOn head spec) m ∧
        (∀ n ∈ hopByHopHeaders, m.getAll n = valuesOf n pair) ∧
        Overwrites (rewrittenFields ⟨head, spec⟩ (visitorOf (received head))) m
          (requestHeaders ⟨head, spec⟩) := by
  rw [requestHeaders_eq]
  have hnone := insertUpgrade_none (passedOn head spec)
  split
  · cases hget : (received head).get "upgrade" with
    | none =>
      exact ⟨_, .inr rfl, _, hnone.1, fun n hn => hnone.2 n (getAll_passedOn_of_hop hn),
        overwrites_insertForwarded⟩
    | some protocol =>
      obtain ⟨kind, hkind, rfl⟩ := received_upgrade h (hhead ▸ hget)
      have hsome := insertUpgrade_some kind (passedOn head spec)
      refine ⟨_, .inl ⟨rfl, hkind ▸ rfl⟩, _, hkind ▸ hsome.1, fun n hn => ?_,
        overwrites_insertForwarded⟩
      rw [hkind]
      exact hsome.2 n (getAll_passedOn_of_hop hn)
  · exact ⟨_, .inr rfl, _, hnone.1, fun n hn => hnone.2 n (getAll_passedOn_of_hop hn),
      overwrites_insertForwarded⟩

/-- Of a name that stops at the relay, the origin gets fields of the two proxies only. -/
theorem origin_stopped (h : ValidHeaders req.headers)
    (hn : n ∈ hopByHopHeaders ∨ n ∈ extraHopByHop req.headers) {head : Proto.HttpHead}
    (hhead : head = (forwardVisitorRequest req serviceId visitorIp host key responseTx).head) :
    ((requestHeaders ⟨head, spec⟩).getAll n).Sublist
      (valuesOf n (relayFields req visitorIp host key ++ acceptTrailers ::
        rewrittenFields ⟨head, spec⟩ (visitorOf (received head)))) := by
  obtain ⟨pair, hpair, m, hm, -, hrewritten⟩ := request_cases spec h hhead
  have hsub : ∀ f ∈ pair, f ∈ relayFields req visitorIp host key ++ acceptTrailers ::
      rewrittenFields ⟨head, spec⟩ (visitorOf (received head)) := by
    intro f hf
    rcases hpair with ⟨rfl, -⟩ | rfl
    · exact List.mem_append_left _ (List.mem_append_left _ (List.mem_append_right _ hf))
    · rw [List.mem_singleton.mp hf]
      exact List.mem_append_right _ List.mem_cons_self
  have hone {v : Bytes} (hv : (n, v) ∈ relayFields req visitorIp host key ++ acceptTrailers ::
      rewrittenFields ⟨head, spec⟩ (visitorOf (received head))) :
      [v].Sublist (valuesOf n (relayFields req visitorIp host key ++ acceptTrailers ::
        rewrittenFields ⟨head, spec⟩ (visitorOf (received head)))) :=
    List.singleton_sublist.mpr (mem_valuesOf.mpr hv)
  rcases hrewritten n with hsame | ⟨v, hv, hvalue⟩
  · rw [hsame]
    rcases hm n with hsame | ⟨v, hv, hvalue⟩
    · rw [hsame, hhead, Proto.valuesOf_append]
      exact (passedOn_sublist h hn).trans (List.sublist_append_left _ _)
    · exact hvalue ▸ hone (hsub _ hv)
  · exact hvalue ▸ hone (List.mem_append_right _ (List.mem_cons_of_mem _ hv))

/-- Any other name keeps the visitor's values. -/
theorem origin_other (h : ValidHeaders req.headers) {head : Proto.HttpHead}
    (hhead : head = (forwardVisitorRequest req serviceId visitorIp host key responseTx).head)
    (hhop : n ∉ hopByHopHeaders) (htokens : n ∉ connectionTokens req.headers)
    (hown : n ∉ (relayFields req visitorIp host key ++
      rewrittenFields ⟨head, spec⟩ (visitorOf (received head))).map Prod.fst)
    (hforwarding : spec.appendForwarded = true ∨ isForwardingHeader n = false) :
    (requestHeaders ⟨head, spec⟩).getAll n =
      if n = "cookie" then joinCookies (req.headers.getAll n) else req.headers.getAll n := by
  rw [List.map_append, List.mem_append, not_or] at hown
  obtain ⟨pair, hpair, m, hm, -, hrewritten⟩ := request_cases spec h hhead
  have hnames : n ∉ pair.map Prod.fst := by
    intro hmem
    obtain ⟨f, hf, rfl⟩ := List.mem_map.mp hmem
    rcases hpair with ⟨rfl, -⟩ | rfl
    · have hhops : ∀ name ∈ ["connection", "upgrade"], name ∈ hopByHopHeaders := by decide
      exact hhop (hhops _ (Server.name_of_mem_upgradePair hf))
    · rw [List.mem_singleton.mp hf] at hhop
      exact hhop (by decide)
  have hextra : n ∉ extraHopByHop req.headers :=
    fun hmem => htokens (Server.mem_connectionTokens_of_mem_extraHopByHop hmem)
  have hrelay : valuesOf n (validFields (relayFields req visitorIp host key)) = [] := by
    refine Proto.valuesOf_eq_nil fun f hf hname => hown.1 ?_
    have hsub : (validFields (relayFields req visitorIp host key)).Sublist _ :=
      Server.validFields_sublist fun f hf => Server.lowercase_relayFields hf
    exact List.mem_map.mpr ⟨f, hsub.subset hf, hname⟩
  have hreceived : (received head).getAll n = req.headers.getAll n := by
    rw [hhead, getAll_received h, hrelay, List.append_nil]
    exact Server.valuesOf_cleanedHeaders (fun f hf => h.lowercase hf) hhop hextra
      fun hmem => hown.1 (Server.mem_names_of_mem_forwardingHeaders hmem)
  have hkept : valuesOf n (keptHeaders (received head) spec) = req.headers.getAll n := by
    rw [valuesOf_keptHeaders (fun f hf => lowercase_received hf) ?_ hhop ?_ hforwarding, hreceived]
    · intro hmem
      rw [hhead] at hmem
      rw [eq_upgrade_of_mem_tokens h hmem] at hhop
      exact hhop (by decide)
    · rintro rfl
      exact hown.2 List.mem_cons_self
  rw [hrewritten.getAll_eq hown.2, hm.getAll_eq hnames, getAll_passedOn, hkept]
  split
  · next hcookie => rw [← hcookie, hkept]
  · rfl

end

section
variable {req : VisitorRequest} {visitorIp : IpAddr} {host key visitor n : String}
  {cfg : ExchangeConfig}

/-- The names that a proxy writes, besides `TE`. -/
theorem name_of_mem_own {f : Field}
    (h : f ∈ relayFields req visitorIp host key ++ rewrittenFields cfg visitor) :
    f.1 ∈ "host" :: Server.relayNames := by
  have hnames : ∀ name ∈ "host" :: forwardingHeaders, name ∈ "host" :: Server.relayNames := by
    decide
  rcases List.mem_append.mp h with h | h
  · exact List.mem_cons_of_mem _ (Server.name_of_mem_relayFields h)
  · exact hnames _ (name_of_mem_rewrittenFields h)

theorem not_mem_own (hn : n ∉ "host" :: Server.relayNames) :
    n ∉ (relayFields req visitorIp host key ++ rewrittenFields cfg visitor).map Prod.fst := by
  intro hmem
  obtain ⟨f, hf, rfl⟩ := List.mem_map.mp hmem
  exact hn (name_of_mem_own hf)

theorem valuesOf_own (hn : n ∉ "host" :: Server.relayNames) (hte : n ≠ "te") :
    valuesOf n (relayFields req visitorIp host key ++ acceptTrailers ::
      rewrittenFields cfg visitor) = [] := by
  have hown : valuesOf n (relayFields req visitorIp host key ++ rewrittenFields cfg visitor) = [] :=
    Proto.valuesOf_eq_nil fun f hf hname => hn (hname ▸ name_of_mem_own hf)
  rw [Proto.valuesOf_append, List.append_eq_nil_iff] at hown
  rw [Proto.valuesOf_append, acceptTrailers, Proto.valuesOf_cons, if_neg hte, hown.1, hown.2]
  rfl

end

/-! ## Both hops -/

section
variable [HttpTypes] [LawfulHttpTypes]

/-- The names that the first `Connection` field lists get through only as fields that a proxy
writes itself; the hop-by-hop fields are the pair of an upgrade or the client's `TE`; all other names
keep their values. -/
theorem hop_by_hop (visited : VisitorRequest) (raw : List Field) (serviceId : ServiceId)
    (visitorIp : IpAddr) (host key : String) (responseTx : Oneshot) (spec : ServiceSpec) :
    let req := visited.withFields raw
    let head := (forwardVisitorRequest req serviceId visitorIp host key responseTx).head
    let own := relayFields req visitorIp host key
    let rewritten := rewrittenFields ⟨head, spec⟩ (visitorOf (received head))
    let origin := requestHeaders ⟨head, spec⟩
    (∀ n ∈ extraHopByHop req.headers, valuesOf n head.headers = valuesOf n own ∧
      (origin.getAll n).Sublist (valuesOf n (own ++ acceptTrailers :: rewritten))) ∧
    (∃ pair, (pair = upgradePair (upgradeKind req) ∧ (upgradeKind req).isSome = true ∨
        pair = [acceptTrailers]) ∧
      ∀ n ∈ hopByHopHeaders,
        valuesOf n head.headers = valuesOf n (upgradePair (upgradeKind req)) ∧
          origin.getAll n = valuesOf n pair) ∧
    ∀ n, n ∉ hopByHopHeaders → n ∉ connectionTokens req.headers →
      n ∉ (own ++ rewritten).map Prod.fst →
      (spec.appendForwarded = true ∨ isForwardingHeader n = false) →
      origin.getAll n =
        if n = "cookie" then joinCookies (valuesOf n (validFields raw))
        else valuesOf n (validFields raw) := by
  intro req head own rewritten origin
  have hvalid : ValidHeaders req.headers := validHeaders_ofFields raw
  have hstop {n : String} (hn : n ∈ hopByHopHeaders ∨ n ∈ extraHopByHop req.headers) :
      valuesOf n head.headers = valuesOf n own := by
    rw [Server.forwarded_headers, Proto.valuesOf_append,
      Server.valuesOf_cleanedHeaders_eq_nil (by tauto), List.nil_append]
  refine ⟨fun n hn => ⟨hstop (.inr hn), origin_stopped hvalid (.inr hn) rfl⟩, ?_, ?_⟩
  · obtain ⟨pair, hpair, m, -, hhop, hrewritten⟩ := request_cases spec hvalid (Eq.refl head)
    refine ⟨pair, hpair, fun n hn => ⟨?_, ?_⟩⟩
    · rw [hstop (.inl hn)]
      exact Server.valuesOf_relayFields_of_hop hn
    · exact (hrewritten.getAll_eq (not_mem_rewrittenFields hn)).trans (hhop n hn)
  · intro n hhop htokens hown hforwarding
    have hall : req.headers.getAll n = valuesOf n (validFields raw) :=
      visited.getAll_withFields raw n
    have horigin := origin_other hvalid (Eq.refl head) hhop htokens hown hforwarding
    rw [horigin, hall]

end

/-! ## Sample requests -/

namespace HopByHop.Sample

/-- Tokens in lowercase; visible characters, spaces and tabs. -/
scoped instance httpTypes : HttpTypes where
  headerName name :=
    let low := toAsciiLowercase name
    if low.toList.all (fun c => c.isAlphanum || c == '-') then some low else none
  headerValue value := value.all fun b => 32 ≤ b && b != 127 || b == 9

scoped instance : LawfulHttpTypes where
  lowercase h := by
    simp only [HttpTypes.headerName] at h
    split at h
    · exact (Option.some.inj h).symm
    · cases h
  valid {s n} h := by
    simp only [HttpTypes.headerName] at h ⊢
    split at h
    · next hall =>
      rw [← Option.some.inj h, Server.toAsciiLowercase_idem, if_pos hall]
    · cases h

def get : VisitorRequest := { method := "GET", version := .http11, path := "/", headers := {} }

/-- An extended CONNECT. -/
def connect : VisitorRequest :=
  { method := "CONNECT", protocol := some "websocket", version := .http2, path := "/", headers := {} }

def spec : ServiceSpec := { target := ⟨.http, "localhost", 8080⟩ }

/-- The head of the request of a visitor with these fields. -/
def head (visited : VisitorRequest) (raw : List Field) : Proto.HttpHead :=
  (forwardVisitorRequest (visited.withFields raw) 1 (.v4 203 0 113 9) "ann.tunnel.example" "a2V5"
    0).head

/-- The fields that the origin gets for it. -/
def origin (visited : VisitorRequest) (raw : List Field) : HeaderMap :=
  requestHeaders ⟨head visited raw, spec⟩

end HopByHop.Sample

open HopByHop.Sample in
/-- A name that `Connection` lists stops, the cookies are joined. -/
theorem hop_by_hop_cookies :
    let raw := [("Connection", "X-Secret".toUTF8.toList), ("X-Secret", [49]),
      ("Cookie", "a=1".toUTF8.toList), ("cookie", "b=2".toUTF8.toList)]
    valuesOf "x-secret" (head get raw).headers = [] ∧ (origin get raw).getAll "x-secret" = [] ∧
      (origin get raw).getAll "cookie" = ["a=1; b=2".toUTF8.toList] := by
  intro raw
  obtain ⟨hnamed, -, hother⟩ := hop_by_hop get raw 1 (.v4 203 0 113 9) "ann.tunnel.example" "a2V5" 0
    spec
  have hsecret : "x-secret" ∈ extraHopByHop (get.withFields raw).headers := by
    rw [extraHopByHop, HeaderMap.get, VisitorRequest.getAll_withFields]
    decide +kernel
  have htokens : "cookie" ∉ connectionTokens (get.withFields raw).headers := by
    rw [connectionTokens, VisitorRequest.getAll_withFields]
    decide +kernel
  obtain ⟨hhead, horigin⟩ := hnamed "x-secret" hsecret
  have hcookie := hother "cookie" (by decide) htokens (not_mem_own (by decide))
    (.inr (by decide +kernel))
  rw [Server.valuesOf_relayFields (by decide)] at hhead
  rw [valuesOf_own (by decide) (by decide)] at horigin
  refine ⟨hhead, List.sublist_nil.mp horigin, ?_⟩
  exact Eq.trans hcookie (by decide +kernel)

open HopByHop.Sample in
/-- The relay makes up a key for the websocket of an extended CONNECT; and `Connection` may name a
field that the relay then writes itself. -/
theorem own_fields_get_through :
    ((connect.withFields []).headers.getAll "sec-websocket-key" = [] ∧
      (origin connect []).getAll "sec-websocket-key" = ["a2V5".toUTF8.toList]) ∧
    "via" ∈ connectionTokens (get.withFields [("Connection", "via".toUTF8.toList)]).headers ∧
      valuesOf "via" (head get [("Connection", "via".toUTF8.toList)]).headers =
        ["1.1 weaver".toUTF8.toList] := by
  decide +kernel

end TunnelWeaver.Client
