import Norupo.Core.Auth
import Norupo.Core.Routing
import Norupo.Proto.Frame
import Norupo.Registry.Memory

/-!
# Registering a tunnel

`register_tunnel` of `norupo-server/src/control.rs`, around its call of the routing table. What is
drawn at random, a subdomain and the id of the new tunnel, is an argument.
-/

namespace Norupo

/-- The options of an edge node that registration reads. -/
structure NodeConfig where
  nodeId : Text
  /-- Address that sibling nodes dial. -/
  nodeAddr : Text
  baseDomain : Text
  publicScheme : Text
  /-- Lifetime of a claim without renewal. -/
  routeTtl : Nat
  deriving DecidableEq, Repr

/-- An edge node of the base domain `tunnel.com`. -/
def testNode : NodeConfig :=
  ⟨"node_a".toList, "10.0.0.1:8081".toList, "tunnel.com".toList, "https".toList, 30⟩

/-- `ServerConfig::public_url`. -/
def NodeConfig.publicUrl (config : NodeConfig) (host : Text) : Text :=
  config.publicScheme ++ "://".toList ++ host

/-- `Tunnel`: a registered tunnel of a session. -/
structure Tunnel where
  tunnelId : Text
  routingKey : Text
  publicUrl : Text
  deriving DecidableEq, Repr

/-- `resolve_http_target`: the routing key and the public URL of an HTTP tunnel. -/
def resolveHttpTarget (config : NodeConfig) (principal : Principal) (randomSubdomain : Text)
    (spec : HttpTunnelSpec) : Except Error (RoutingKey × Text) := do
  let host ←
    if !spec.customDomain.isEmpty then do
      let domain ← normalizeHost spec.customDomain
      if !principal.mayUseCustomDomain domain then
        throw (.unauthorized ("custom domain `".toList ++ domain ++
          "` is not verified for this account".toList))
      pure domain
    else if spec.subdomain.isEmpty then
      publicHost randomSubdomain config.baseDomain
    else do
      let label ← validateSubdomainSyntax spec.subdomain
      if isReservedSubdomain label && !principal.mayClaimSubdomain label then
        throw (.unauthorized ("subdomain `".toList ++ label ++ "` is reserved".toList))
      publicHost label config.baseDomain
  return (.host host, config.publicUrl host)

/-- `resolve_tcp_target`: the routing key and the public URL of a TCP tunnel. -/
def resolveTcpTarget (config : NodeConfig) (spec : TcpTunnelSpec) :
    Except Error (RoutingKey × Text) := do
  if 65535 < spec.remotePort then
    throw (.invalidRoute ("port ".toList ++ (Nat.repr spec.remotePort).toList ++
      " is out of range".toList))
  if spec.remotePort = 0 then
    throw (.invalidRoute
      "automatic TCP port assignment is not implemented yet; pass --remote-port".toList)
  return (.tcpPort spec.remotePort, "tcp://".toList ++ config.baseDomain ++ ":".toList ++
    (Nat.repr spec.remotePort).toList)

/-- The `reject` closure of `register_tunnel`. -/
def rejectTunnel (requestId error : Text) : TunnelStatus where
  requestId := requestId
  tunnelId := []
  accepted := false
  error := error
  publicUrl := []
  routingKey := []

/-- The target of a registration, or the text of its rejection. -/
def resolveTarget (config : NodeConfig) (principal : Principal) (randomSubdomain : Text) :
    Option TunnelSpec → Except Text (RoutingKey × Text)
  | some (.http spec) =>
    (resolveHttpTarget config principal randomSubdomain spec).mapError Error.toText
  | some (.tcp spec) => (resolveTcpTarget config spec).mapError Error.toText
  | none => .error "OpenTunnel is missing a spec".toList

/-- `register_tunnel` up to the claim: the record to claim and the public URL, or a rejection. -/
def prepareTunnel (config : NodeConfig) (principal : Principal) (sessionId : Text)
    (tunnelCount : Nat) (openTunnel : OpenTunnel) (randomSubdomain tunnelId : Text) :
    Except TunnelStatus (RouteRecord × Text) :=
  if 0 < principal.limits.maxTunnels && principal.limits.maxTunnels ≤ tunnelCount then
    .error (rejectTunnel openTunnel.requestId ("account is limited to ".toList ++
      (Nat.repr principal.limits.maxTunnels).toList ++ " concurrent tunnels".toList))
  else
    match resolveTarget config principal randomSubdomain openTunnel.spec with
    | .error error => .error (rejectTunnel openTunnel.requestId error)
    | .ok (key, publicUrl) =>
      .ok ({ routingKey := key.asStorageKey
             nodeId := config.nodeId
             nodeAddr := config.nodeAddr
             sessionId := sessionId
             tunnelId := tunnelId
             accountId := principal.accountId }, publicUrl)

/-- `register_tunnel` after the claim: the status, and the tunnel to insert. -/
def finishTunnel (requestId : Text) (record : RouteRecord) (publicUrl : Text) :
    Claim → TunnelStatus × Option Tunnel
  | .acquired =>
    ({ requestId := requestId
       tunnelId := record.tunnelId
       accepted := true
       error := []
       publicUrl := publicUrl
       routingKey := record.routingKey },
      some ⟨record.tunnelId, record.routingKey, publicUrl⟩)
  | .taken owner =>
    (rejectTunnel requestId (Error.routeTaken (record.routingKey ++ " (held by session ".toList ++
      owner.sessionId ++ " on node ".toList ++ owner.nodeId ++ ")".toList)).toText, none)

/-- The record that is claimed, with the key of its target. -/
theorem prepareTunnel_eq_ok {config : NodeConfig} {principal : Principal} {sessionId : Text}
    {tunnelCount : Nat} {openTunnel : OpenTunnel} {randomSubdomain tunnelId publicUrl : Text}
    {record : RouteRecord}
    (h : prepareTunnel config principal sessionId tunnelCount openTunnel randomSubdomain tunnelId =
      .ok (record, publicUrl)) :
    ∃ key, resolveTarget config principal randomSubdomain openTunnel.spec = .ok (key, publicUrl) ∧
      record = ⟨key.asStorageKey, config.nodeId, config.nodeAddr, sessionId, tunnelId,
        principal.accountId⟩ := by
  unfold prepareTunnel at h
  split at h
  · cases h
  split at h
  · cases h
  rename_i key url hkey
  obtain ⟨rfl, rfl⟩ := Prod.mk.inj (Except.ok.inj h)
  exact ⟨key, hkey, rfl⟩

/-- A session under a quota claims only while it has fewer tunnels. -/
theorem prepareTunnel_below {config : NodeConfig} {principal : Principal} {sessionId : Text}
    {tunnelCount : Nat} {openTunnel : OpenTunnel} {randomSubdomain tunnelId publicUrl : Text}
    {record : RouteRecord}
    (h : prepareTunnel config principal sessionId tunnelCount openTunnel randomSubdomain tunnelId =
      .ok (record, publicUrl)) (hpos : 0 < principal.limits.maxTunnels) :
    tunnelCount < principal.limits.maxTunnels := by
  unfold prepareTunnel at h
  split at h
  · cases h
  · rename_i hquota
    simpa [hpos] using hquota

/-- A record that is claimed names its own session and its own node. -/
theorem prepareTunnel_ok {config : NodeConfig} {principal : Principal} {sessionId : Text}
    {tunnelCount : Nat} {openTunnel : OpenTunnel} {randomSubdomain tunnelId publicUrl : Text}
    {record : RouteRecord}
    (h : prepareTunnel config principal sessionId tunnelCount openTunnel randomSubdomain tunnelId =
      .ok (record, publicUrl)) :
    record.sessionId = sessionId ∧ record.nodeId = config.nodeId := by
  obtain ⟨key, -, rfl⟩ := prepareTunnel_eq_ok h
  exact ⟨rfl, rfl⟩

end Norupo
