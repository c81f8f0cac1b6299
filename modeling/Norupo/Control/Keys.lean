import Norupo.Control.Register
import Norupo.Core.Hosts
import Norupo.Ingress.Route
import Norupo.Registry.Codec

/-!
# The keys that are registered

The routing keys that `resolve_http_target` hands out and what they are good for: that the ingress
looks up the key of every spelling of a registered name, and that a record survives being stored.
The base domain and the custom domains of an account are configuration; the requested name is
whatever the agent sends.
-/

namespace Norupo

open Text

/-- The alphabet of `ids.rs`. -/
def isIdChar (c : Char) : Bool := isAsciiLowercase c || isAsciiDigit c

/-- What `session_id` and `tunnel_id` can return: a kind, an underscore and 16 random characters. -/
def isId (kind id : Text) : Bool :=
  match stripPrefix (kind ++ ['_']) id with
  | some suffix => suffix.length = 16 && suffix.all isIdChar
  | none => false

/-- Where the name of an HTTP tunnel comes from. -/
theorem resolveHttpTarget_eq_ok {config : NodeConfig} {principal : Principal}
    {randomSubdomain : Text} {spec : HttpTunnelSpec} {key : RoutingKey} {publicUrl : Text}
    (h : resolveHttpTarget config principal randomSubdomain spec = .ok (key, publicUrl)) :
    ∃ host, key = .host host ∧
      ((spec.customDomain ≠ [] ∧ normalizeHost spec.customDomain = .ok host ∧
          principal.mayUseCustomDomain host = true) ∨
        (spec.customDomain = [] ∧ ∃ label, publicHost label config.baseDomain = .ok host ∧
          (label = randomSubdomain ∨ validateSubdomainSyntax spec.subdomain = .ok label ∧
            (isReservedSubdomain label = true → principal.mayClaimSubdomain label = true)))) := by
  unfold resolveHttpTarget at h
  simp only at h
  split at h
  · rename_i hcustom
    simp only [bind_eq_ok, check_eq_ok, pure_eq_ok, Prod.mk.injEq, Bool.not_eq_true',
      Bool.not_eq_false] at h
    obtain ⟨domain, hdomain, hmay, host, rfl, rfl, -⟩ := h
    exact ⟨domain, rfl, .inl ⟨by simpa using hcustom, hdomain, hmay⟩⟩
  · rename_i hcustom
    have hempty : spec.customDomain = [] := by simpa using hcustom
    split at h
    · simp only [bind_eq_ok, pure_eq_ok, Prod.mk.injEq] at h
      obtain ⟨host, hpublic, rfl, -⟩ := h
      exact ⟨host, rfl, .inr ⟨hempty, randomSubdomain, hpublic, .inl rfl⟩⟩
    · simp only [bind_eq_ok, check_eq_ok, pure_eq_ok, Prod.mk.injEq, Bool.and_eq_true,
        Bool.not_eq_true', not_and, Bool.not_eq_false] at h
      obtain ⟨label, hlabel, hclaim, host, hpublic, rfl, -⟩ := h
      exact ⟨host, rfl, .inr ⟨hempty, label, hpublic, .inr ⟨hlabel, hclaim⟩⟩⟩

/-- The port of a TCP tunnel is its key. -/
theorem resolveTcpTarget_eq_ok {config : NodeConfig} {spec : TcpTunnelSpec} {key : RoutingKey}
    {publicUrl : Text} (h : resolveTcpTarget config spec = .ok (key, publicUrl)) :
    0 < spec.remotePort ∧ spec.remotePort ≤ 65535 ∧ key = .tcpPort spec.remotePort := by
  unfold resolveTcpTarget at h
  simp only [check_eq_ok, pure_eq_ok, Prod.mk.injEq, Nat.not_lt] at h
  obtain ⟨hle, hne, rfl, -⟩ := h
  exact ⟨Nat.pos_of_ne_zero hne, hle, rfl⟩

/-- A target is resolved by the kind of the tunnel. -/
theorem resolveTarget_eq_ok {config : NodeConfig} {principal : Principal} {randomSubdomain : Text}
    {spec : Option TunnelSpec} {key : RoutingKey} {publicUrl : Text}
    (h : resolveTarget config principal randomSubdomain spec = .ok (key, publicUrl)) :
    (∃ http, spec = some (.http http) ∧
        resolveHttpTarget config principal randomSubdomain http = .ok (key, publicUrl)) ∨
      ∃ tcp, spec = some (.tcp tcp) ∧ resolveTcpTarget config tcp = .ok (key, publicUrl) := by
  have hok : ∀ {r : Except Error (RoutingKey × Text)}, r.mapError Error.toText =
      .ok (key, publicUrl) → r = .ok (key, publicUrl) := by
    intro r hr
    cases r with
    | error e => cases hr
    | ok target => exact congrArg Except.ok (Except.ok.inj hr)
  unfold resolveTarget at h
  split at h
  · exact .inl ⟨_, rfl, hok h⟩
  · exact .inr ⟨_, rfl, hok h⟩
  · cases h

/-- Every name that is registered is its own key, and the ingress looks it up under every
spelling. -/
theorem registered_key_spellings {config : NodeConfig} {principal : Principal}
    {randomSubdomain : Text} {spec : HttpTunnelSpec} {key : RoutingKey} {publicUrl : Text}
    (hbase : ∀ base, normalizeHost config.baseDomain = .ok base → base.all isKeyChar = true)
    (hentries : ∀ entry ∈ principal.customDomains, isDomainEntry entry = true)
    (h : resolveHttpTarget config principal randomSubdomain spec = .ok (key, publicUrl)) :
    normalizeHost key.asStorageKey = .ok key.asStorageKey ∧
      ∀ text, Spells text key.asStorageKey → normalizeHost text = .ok key.asStorageKey ∧
        ∀ req, requestHost req = some text → routingKey req = some key.asStorageKey := by
  obtain ⟨host, rfl, hhost⟩ := resolveHttpTarget_eq_ok h
  have hcanonical : CanonicalHost host := by
    rcases hhost with ⟨-, hnorm, hmay⟩ | ⟨-, label, hpublic, -⟩
    · exact .of_normalizeHost hnorm (principal.getLast?_of_mayUse hentries hmay)
    · exact .of_publicHost hpublic hbase
  refine ⟨hcanonical.normalizeHost_self, fun text htext => ?_⟩
  have hnorm := hcanonical.normalizeHost_spelling htext
  refine ⟨hnorm, fun req hreq => ?_⟩
  rw [routingKey, hreq, Option.bind_some, hnorm]
  rfl

/-- An account with one wildcard of custom domains. -/
def wildcardAccount : Principal := ⟨"acct_1".toList, [], ["*.example.com".toList], Limits.default⟩

/-- A custom domain under a wildcard, looked up in another spelling. -/
theorem registered_key_wildcard :
    normalizeHost " Shop.EXAMPLE.com..:8443".toList = .ok "shop.example.com".toList := by
  have hbase : ∀ base, normalizeHost testNode.baseDomain = .ok base →
      base.all isKeyChar = true := by
    intro base hb
    obtain rfl : "tunnel.com".toList = base := Except.ok.inj hb
    rfl
  refine ((registered_key_spellings hbase (by decide) (?_ : resolveHttpTarget testNode
    wildcardAccount [] ⟨[], "shop.Example.com".toList, "3000".toList, false⟩ =
      .ok (.host "shop.example.com".toList, "https://shop.example.com".toList))).2 _ ?_).1
  · rfl
  · exact ⟨" ".toList, "Shop.EXAMPLE.com".toList, "..".toList, ":8443".toList, [], rfl, rfl, rfl,
      by decide, by decide, .inr ⟨"8443".toList, rfl, by decide⟩⟩

/-- The name that a tunnel asks for has no tab in front of its port. -/
def OpenTunnel.HasPlainName (openTunnel : OpenTunnel) : Prop :=
  ∀ spec, openTunnel.spec = some (.http spec) →
    tab ∉ (trim spec.customDomain).takeWhile (· ≠ ':')

/-- Generated ids have no tab. -/
theorem tab_notMem_of_isId {kind id : Text} (hkind : tab ∉ kind) (h : isId kind id = true) :
    tab ∉ id := by
  unfold isId at h
  split at h
  · rename_i suffix hs
    rw [stripPrefix_eq_some.mp hs]
    simp only [Bool.and_eq_true, List.all_eq_true] at h
    simp only [List.mem_append, List.mem_singleton, not_or]
    refine ⟨⟨hkind, by decide⟩, fun hm => ?_⟩
    exact absurd (h.2 tab hm) (by decide)
  · cases h

/-- The key of a port has no tab. -/
theorem tab_notMem_tcpPort (port : Nat) : tab ∉ (RoutingKey.tcpPort port).asStorageKey := by
  rw [RoutingKey.asStorageKey, List.mem_append, not_or]
  refine ⟨by decide, fun hm => ?_⟩
  rw [Nat.repr, String.toList_ofList] at hm
  exact absurd (Nat.isDigit_of_mem_toDigits (by decide) (by decide) hm) (by decide)

/-- The key of a registered tunnel has no tab exactly when its name has a plain form. -/
theorem tab_notMem_key {config : NodeConfig} {principal : Principal} {randomSubdomain : Text}
    {openTunnel : OpenTunnel} {key : RoutingKey} {publicUrl : Text}
    (hbase : tab ∉ config.baseDomain)
    (hentries : ∀ entry ∈ principal.customDomains, isDomainEntry entry = true)
    (h : resolveTarget config principal randomSubdomain openTunnel.spec = .ok (key, publicUrl)) :
    tab ∉ key.asStorageKey ↔ openTunnel.HasPlainName := by
  unfold OpenTunnel.HasPlainName
  rcases resolveTarget_eq_ok h with ⟨http, hspec, hr⟩ | ⟨tcp, hspec, hr⟩
  · rw [hspec]
    obtain ⟨host, rfl, hhost⟩ := resolveHttpTarget_eq_ok hr
    simp only [Option.some.injEq, TunnelSpec.http.injEq, forall_eq', RoutingKey.asStorageKey]
    rcases hhost with ⟨-, hnorm, hmay⟩ | ⟨hempty, label, hpublic, -⟩
    · have hend := principal.getLast?_of_mayUse hentries hmay
      rw [mem_normalizeHost_iff hnorm (fun c hc he => absurd (hend c hc) (by rw [he]; decide))
        (by decide) (by decide)]
    · obtain ⟨name, base, hname, hb, rfl, -⟩ := publicHost_eq_ok hpublic
      have hsafe := (validateSubdomainSyntax_eq_ok.mp hname).2
      rw [hempty]
      refine iff_of_true ?_ (by simp [trim, trimEnd])
      simp only [List.mem_append, List.mem_singleton, not_or]
      refine ⟨⟨fun hm => absurd (hsafe.isKeyChar hm) (by decide), by decide⟩, fun hm => ?_⟩
      exact hbase (mem_of_mem_normalizeHost hb (by decide) hm)
  · rw [hspec]
    obtain ⟨-, -, rfl⟩ := resolveTcpTarget_eq_ok hr
    simp [tab_notMem_tcpPort]

/-- A record that registration claims survives being stored, and names its owner where the scripts
look for it, exactly when the requested name has no tab in front of its port. -/
theorem stored_record_iff {config : NodeConfig} {principal : Principal} {sessionId : Text}
    {tunnelCount : Nat} {openTunnel : OpenTunnel} {randomSubdomain tunnelId publicUrl : Text}
    {record : RouteRecord} (hnode : tab ∉ config.nodeId) (haddr : tab ∉ config.nodeAddr)
    (hbase : tab ∉ config.baseDomain) (haccount : tab ∉ principal.accountId)
    (hentries : ∀ entry ∈ principal.customDomains, isDomainEntry entry = true)
    (hsession : isId "sess".toList sessionId = true) (htunnel : isId "tun".toList tunnelId = true)
    (h : prepareTunnel config principal sessionId tunnelCount openTunnel randomSubdomain tunnelId =
      .ok (record, publicUrl)) :
    RouteRecord.decode record.encode = .ok record ∧
        matchOwner record.encode = some record.sessionId ↔ openTunnel.HasPlainName := by
  obtain ⟨key, hkey, rfl⟩ := prepareTunnel_eq_ok h
  have hfree : RouteRecord.TabFree ⟨key.asStorageKey, config.nodeId, config.nodeAddr, sessionId,
      tunnelId, principal.accountId⟩ ↔ tab ∉ key.asStorageKey := by
    have hs := tab_notMem_of_isId (by decide) hsession
    have ht := tab_notMem_of_isId (by decide) htunnel
    simp [RouteRecord.TabFree, RouteRecord.fields, hnode, haddr, hs, ht, haccount]
  rw [← tab_notMem_key hbase hentries hkey, ← hfree, ← RouteRecord.decode_encode_iff]
  constructor
  · exact And.left
  · intro hd
    exact ⟨hd, matchOwner_encode ((RouteRecord.decode_encode_iff _).mp hd)⟩

/-- A request for a custom domain. -/
def domainRequest (domain : Text) : OpenTunnel :=
  ⟨"req_1".toList, some (.http ⟨[], domain, "3000".toList, false⟩)⟩

/-- The record of a custom domain of `wildcardAccount` on `testNode`. -/
def domainRecord (domain : Text) : RouteRecord where
  routingKey := domain
  nodeId := testNode.nodeId
  nodeAddr := testNode.nodeAddr
  sessionId := "sess_0123456789abcdef".toList
  tunnelId := "tun_0123456789abcdef".toList
  accountId := wildcardAccount.accountId

/-- The record of `shop.example.com` survives being stored. -/
theorem stored_record_domain :
    matchOwner (domainRecord "shop.example.com".toList).encode =
      some "sess_0123456789abcdef".toList := by
  have hplain : (domainRequest "shop.example.com".toList).HasPlainName := by
    intro spec hspec
    obtain rfl : ⟨[], "shop.example.com".toList, "3000".toList, false⟩ = spec :=
      TunnelSpec.http.inj (Option.some.inj hspec)
    decide
  have hprepare : prepareTunnel testNode wildcardAccount "sess_0123456789abcdef".toList 0
      (domainRequest "shop.example.com".toList) [] "tun_0123456789abcdef".toList =
        .ok (domainRecord "shop.example.com".toList, "https://shop.example.com".toList) := rfl
  exact ((stored_record_iff (by decide) (by decide) (by decide) (by decide) (by decide) (by decide)
    (by decide) hprepare).mpr hplain).2

/-- A tab in a custom domain passes the wildcard and splits the record it is stored in. -/
theorem stored_record_tab :
    ¬ ∀ (config : NodeConfig) (principal : Principal) (sessionId : Text) (tunnelCount : Nat)
      (openTunnel : OpenTunnel) (randomSubdomain tunnelId publicUrl : Text) (record : RouteRecord),
      tab ∉ config.nodeId → tab ∉ config.nodeAddr → tab ∉ config.baseDomain →
      tab ∉ principal.accountId → (∀ entry ∈ principal.customDomains, isDomainEntry entry = true) →
      isId "sess".toList sessionId = true → isId "tun".toList tunnelId = true →
      prepareTunnel config principal sessionId tunnelCount openTunnel randomSubdomain tunnelId =
        .ok (record, publicUrl) →
      RouteRecord.decode record.encode = .ok record ∧
        matchOwner record.encode = some record.sessionId := by
  intro h
  have howner := (h testNode wildcardAccount "sess_0123456789abcdef".toList 0
    (domainRequest "a\tb.example.com".toList) [] "tun_0123456789abcdef".toList
    "https://a\tb.example.com".toList (domainRecord "a\tb.example.com".toList) (by decide)
    (by decide) (by decide) (by decide) (by decide) (by decide) (by decide) rfl).2
  exact absurd howner (by decide)

end Norupo
