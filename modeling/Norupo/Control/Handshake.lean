import Norupo.Agent.Retry
import Norupo.Core.Tokens
import Norupo.Control.Authorization
import Norupo.Control.Ownership

/-!
# From a token to a route

The handshake at the start of `ControlService::session` in `norupo-server/src/control.rs`, and what
it means for the routing table. A session exists only after its first frame was a `Hello` with the
version of the edge and a token that the edge accepts, and it has the principal of that token for
good. So whatever sessions, heartbeats, teardowns and requests do on any number of nodes, every
record of the routing table belongs to an account that presented a token and is entitled to the
name.
-/

namespace Norupo

open Transition

/-- `PROTOCOL_VERSION`. -/
def protocolVersion : Nat := 1

/-- `Hello`, with the fields that the edge acts on. -/
structure Hello where
  token : Text
  protocolVersion : Nat
  deriving DecidableEq, Repr

/-- A status of the RPC, by what `run_session` looks at. -/
structure RpcStatus where
  code : RpcCode
  message : Text
  deriving DecidableEq, Repr

/-- What the agent's stream yields first. -/
inductive FirstFrame
  | hello (hello : Hello)
  /-- Another frame, or one without a payload. -/
  | other
  | failed (status : RpcStatus)
  | closed
  deriving DecidableEq, Repr

/-- `session` up to the point where the session is created: its principal, or the status that the
agent is refused with. -/
def openSession (auth : StaticTokenAuth) : FirstFrame → Except RpcStatus Principal
  | .hello hello =>
    if hello.protocolVersion ≠ protocolVersion then
      .error ⟨.failedPrecondition, "unsupported protocol version ".toList ++
        (Nat.repr hello.protocolVersion).toList ++ " (server speaks ".toList ++
        (Nat.repr protocolVersion).toList ++ "); upgrade the norupo CLI".toList⟩
    else (auth.authenticate hello.token).mapError fun error => ⟨.unauthenticated, error.toText⟩
  | .other => .error ⟨.failedPrecondition, "first frame must be Hello".toList⟩
  | .failed status => .error status
  | .closed => .error ⟨.failedPrecondition, "stream closed before Hello".toList⟩

/-- A session exists only for a `Hello` with the right version and an accepted token. -/
theorem openSession_eq_ok {auth : StaticTokenAuth} {first : FirstFrame} {principal : Principal} :
    openSession auth first = .ok principal ↔ ∃ token,
      first = .hello ⟨token, protocolVersion⟩ ∧ auth.authenticate token = .ok principal := by
  cases first with
  | hello hello =>
    obtain ⟨token, version⟩ := hello
    by_cases hv : version = protocolVersion
    · subst hv
      cases ha : auth.authenticate token <;> simp [openSession, ha, Except.mapError]
    · simp [openSession, hv]
  | _ => simp [openSession]

/-- An account is entitled to a routing key: a host is one of its custom domains, or a label in
front of the base domain of the node that is not reserved, unless for the account. A port is for
anyone. -/
def Entitled (node : NodeConfig) (principal : Principal) : RoutingKey → Prop
  | .host host => principal.mayUseCustomDomain host = true ∨
      ∃ label base, normalizeHost node.baseDomain = .ok base ∧ host = label ++ ['.'] ++ base ∧
        SafeLabel label ∧ (label ∈ reservedSubdomains → principal.Granted label)
  | .tcpPort port => 0 < port ∧ port ≤ 65535

/-- A target that is resolved is one that the account is entitled to. -/
theorem entitled_of_resolveTarget {node : NodeConfig} {principal : Principal}
    {picks : Fin generatedSubdomainLen → Fin subdomainAlphabet.length} {spec : Option TunnelSpec}
    {key : RoutingKey} {publicUrl : Text}
    (h : resolveTarget node principal (randomSubdomain picks) spec = .ok (key, publicUrl)) :
    Entitled node principal key := by
  rcases resolveTarget_eq_ok h with ⟨http, -, hr⟩ | ⟨tcp, -, hr⟩
  · obtain ⟨host, rfl, ⟨-, -, hmay⟩ | ⟨-, asked, hpublic, hasked⟩⟩ := resolveHttpTarget_eq_ok hr
    · exact .inl hmay
    · obtain ⟨label, base, hlabel, hbase, rfl, -⟩ := publicHost_eq_ok hpublic
      refine .inr ⟨label, base, hbase, rfl, (validateSubdomainSyntax_eq_ok.mp hlabel).2, ?_⟩
      intro hm
      rcases hasked with rfl | ⟨hvalid, hclaim⟩
      · rw [(SafeLabel.randomSubdomain picks).validate_self] at hlabel
        exact absurd (Except.ok.inj hlabel ▸ hm) (randomSubdomain_notMem picks)
      · rw [(validateSubdomainSyntax_eq_ok.mp hvalid).2.validate_self] at hlabel
        obtain rfl := Except.ok.inj hlabel
        exact Principal.granted_iff.mp (hclaim (isReservedSubdomain_of_mem hm))
  · obtain ⟨hpos, hle, rfl⟩ := resolveTcpTarget_eq_ok hr
    exact ⟨hpos, hle⟩

namespace Cluster

/-- Sessions start with a handshake on a node that has started, and subdomains that are not asked
for are generated. -/
def Admits (config : Text → AuthConfig) : ClusterAction → Prop
  | .connect _ node principal => ∃ auth first, buildAuth (config node.nodeId) = .ok auth ∧
      openSession auth first = .ok principal
  | .openTunnel _ _ subdomain _ => ∃ picks, subdomain = randomSubdomain picks
  | _ => True

/-- A record is vouched for by a token: the node of the record grants it, and its account is
entitled to the key. -/
def Vouched (config : Text → AuthConfig) (record : RouteRecord) : Prop :=
  ∃ node token principal key, (config node.nodeId).Grants token principal ∧
    Entitled node principal key ∧ record.routingKey = key.asStorageKey ∧
    record.nodeId = node.nodeId ∧ record.accountId = principal.accountId

/-- What the handshake leaves behind, wherever a record can be. -/
structure Guarded (config : Text → AuthConfig) (s : Cluster) : Prop where
  admitted : ∀ i, (s.session i).driver ≠ .absent →
    ∃ token, (config (s.session i).node.nodeId).Grants token (s.session i).principal
  claiming : ∀ i requestId record publicUrl,
    (s.session i).driver = .claiming requestId record publicUrl → Vouched config record
  stored : ∀ key record expiry, s.registry key = some (record, expiry) →
    record.routingKey = key ∧ Vouched config record
  found : ∀ n nodeId role req key record, s.visit n = .found nodeId role req key record →
    record.routingKey = key ∧ Vouched config record

theorem Guarded.init (config : Text → AuthConfig) : Guarded config Cluster.init where
  admitted i h := by simp [Cluster.init] at h
  claiming i requestId record publicUrl h := by simp [Cluster.init] at h
  stored key record expiry h := by simp [Cluster.init, MemoryRegistry.new] at h
  found n nodeId role req key record h := by simp [Cluster.init] at h

section Preservation

variable {s s' : Cluster} {a : ClusterAction} {config : Text → AuthConfig}

/-- A session keeps its node and its principal, or it has just come through the handshake. -/
theorem Guarded.admitted_step (hg : Guarded config s) (ha : Admits config a) (h : Step s a s')
    (i : Text) (hi : (s'.session i).driver ≠ .absent) :
    ∃ token, (config (s'.session i).node.nodeId).Grants token (s'.session i).principal := by
  have hold := hg.admitted i
  cases h
  case connect j node principal hj =>
    by_cases he : i = j
    · subst he
      obtain ⟨auth, first, hauth, hfirst⟩ := ha
      obtain ⟨token, -, htoken⟩ := openSession_eq_ok.mp hfirst
      exact ⟨token, by simpa using (buildAuth_authenticate hauth).mp htoken⟩
    · simpa [he] using hold (by simpa [he] using hi)
  all_goals first
    | exact hold hi
    | (simp only [setSession, setDriver, setHeartbeat, called, Function.update_apply] at hi ⊢
       split_ifs at hi ⊢ <;> simp_all)

/-- What a session claims is vouched for by the token that it came with. -/
theorem Guarded.claiming_step (hg : Guarded config s) (ha : Admits config a) (h : Step s a s')
    (i requestId : Text) (record : RouteRecord) (publicUrl : Text)
    (hd : (s'.session i).driver = .claiming requestId record publicUrl) :
    Vouched config record := by
  have hold := hg.claiming i requestId record publicUrl
  cases h
  case openTunnel j request subdomain tunnelId record' publicUrl' hj hp =>
    by_cases he : i = j
    · subst he
      obtain ⟨-, rfl, -⟩ : _ ∧ record' = record ∧ _ := by simpa using hd
      obtain ⟨picks, rfl⟩ := ha
      obtain ⟨key, hkey, rfl⟩ := prepareTunnel_eq_ok hp
      obtain ⟨token, htoken⟩ := hg.admitted i (by simp [hj])
      exact ⟨_, token, _, key, htoken, entitled_of_resolveTarget hkey, rfl, rfl, rfl⟩
    · exact hold (by simpa [he] using hd)
  all_goals first
    | exact hold hd
    | (simp only [setSession, setDriver, setHeartbeat, called, Function.update_apply] at hd
       split_ifs at hd <;> simp_all)

theorem Guarded.stored_step (hg : Guarded config s) (h : Step s a s') (key : Text)
    (record : RouteRecord) (expiry : Nat) (hk : s'.registry key = some (record, expiry)) :
    record.routingKey = key ∧ Vouched config record := by
  rcases h.registry_cases hk with ⟨_, hold⟩ | ⟨i, _, requestId, publicUrl, -, hkey, hd, -⟩
  · exact hg.stored key record _ hold
  · exact ⟨hkey.symm, hg.claiming i requestId record publicUrl hd⟩

theorem Guarded.found_step (hg : Guarded config s) (h : Step s a s') (n : Nat) (nodeId : Text)
    (role : Role) (req : HttpRequest) (key : Text) (record : RouteRecord)
    (hv : s'.visit n = .found nodeId role req key record) :
    record.routingKey = key ∧ Vouched config record := by
  have hold := hg.found n nodeId role req key record
  cases h
  case lookup m clock _ _ _ key' record' hf hr =>
    by_cases he : n = m
    · subst he
      obtain ⟨-, -, -, rfl, rfl⟩ : _ ∧ _ ∧ _ ∧ key' = key ∧ record' = record := by simpa using hv
      obtain ⟨⟨_, expiry⟩, hget, rfl⟩ := Option.map_eq_some_iff.mp hr
      exact hg.stored key' _ expiry (MemoryRegistry.evictExpired_eq_some.mp hget).1
    · exact hold (by simpa [he] using hv)
  all_goals first
    | exact hold hv
    | (simp only [setVisit, called, Function.update_apply] at hv
       split_ifs at hv
       simp_all)

end Preservation

theorem Guarded.step {s s' : Cluster} {a : ClusterAction} {config : Text → AuthConfig}
    (hg : Guarded config s) (ha : Admits config a) (h : s.step a = some s') :
    Guarded config s' where
  admitted := hg.admitted_step ha (step_cases h)
  claiming := hg.claiming_step ha (step_cases h)
  stored := hg.stored_step (step_cases h)
  found := hg.found_step (step_cases h)

/-- However many nodes there are and whatever happens on them, every record in the routing table,
and every record that a request is about to be handed to, is there for its own key, and its account
has presented a token that its node grants and is entitled to that key. -/
theorem routes_vouched {config : Text → AuthConfig} {s : Cluster}
    (h : Run Cluster.step (fun _ a => Admits config a) Cluster.init s) :
    (∀ key record expiry, s.registry key = some (record, expiry) →
      record.routingKey = key ∧ Vouched config record) ∧
    ∀ n nodeId role req key record, s.visit n = .found nodeId role req key record →
      record.routingKey = key ∧ Vouched config record := by
  have hg : Guarded config s := h.invariant (.init config) fun _ _ _ hg ha hs => hg.step ha hs
  exact ⟨hg.stored, hg.found⟩

/-- A token file with one entry, on every node. -/
def oneToken : Text → AuthConfig := fun _ =>
  { tokensFile := some ("tokens.json".toList, .ok fun token =>
      if token = "tok_a".toList then some ⟨"acct_a".toList, [], [], none⟩ else none)
    allowAnonymous := true }

/-- The account of the token registers a subdomain. -/
def registered : List ClusterAction :=
  [.connect "ses_1".toList testNode ⟨"acct_a".toList, [], [], Limits.default⟩,
    .welcome "ses_1".toList,
    .openTunnel "ses_1".toList
      ⟨"req_1".toList, some (.http ⟨"ada".toList, [], "3000".toList, false⟩)⟩
      (randomSubdomain fun _ => ⟨0, by decide⟩) "tun_1".toList,
    .claim "ses_1".toList ⟨1, 1⟩]

/-- Although the anonymous mode is on as well, the account of the record is that of the token. -/
theorem routes_vouched_one : ∃ s record expiry,
    exec Cluster.step Cluster.init registered = some s ∧
    s.registry "ada.tunnel.com".toList = some (record, expiry) ∧
    record.accountId = "acct_a".toList ∧ Vouched oneToken record := by
  obtain ⟨s, record, expiry, hs, hget, haccount⟩ : ∃ s record expiry,
      exec Cluster.step Cluster.init registered = some s ∧
      s.registry "ada.tunnel.com".toList = some (record, expiry) ∧
      record.accountId = "acct_a".toList :=
    ⟨_, ⟨"ada.tunnel.com".toList, "node_a".toList, "10.0.0.1:8081".toList, "ses_1".toList,
      "tun_1".toList, "acct_a".toList⟩, 31, rfl, rfl, rfl⟩
  have hadmits : ∀ a ∈ registered, Admits oneToken a := by
    simp only [registered, List.forall_mem_cons, List.not_mem_nil, false_implies, implies_true,
      and_true, Admits]
    exact ⟨⟨_, .hello ⟨"tok_a".toList, 1⟩, rfl, rfl⟩, trivial, _, rfl⟩
  have hrun := Run.of_throughout .nil hs (Throughout.of_forall hadmits)
  exact ⟨s, record, expiry, hs, hget, haccount, ((routes_vouched hrun).1 _ _ _ hget).2⟩

end Cluster

end Norupo
