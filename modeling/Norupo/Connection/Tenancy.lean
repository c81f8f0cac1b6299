import Norupo.Connection.System
import Norupo.Control.Cluster

/-!
# The tunnels of a connection

An edge session and its agent together with the control plane of the session: `register_tunnel` and
the `CloseTunnel` arm on the edge's read loop, and the heartbeat, which renews the claims of the
listed tunnels and tells the agent of those it has lost (`norupo-server/src/control.rs`). The
routing table answers as it likes: its answers are labels. All other moves are those of the
connection.
-/

namespace Norupo

open Async Transition

/-- Progress of the heartbeat of a connection. -/
inductive Beat
  | off
  | sleeping
  /-- Waiting to queue a `Ping`. -/
  | pinging
  /-- Renewing the rest of the tunnels. -/
  | renewing (rest : List Tunnel)
  /-- In `notify_tunnel_lost`, waiting to queue the status. -/
  | notifying (tunnel : Tunnel) (rest : List Tunnel)
  deriving DecidableEq, Repr

/-- The tunnels that the heartbeat still has to renew. -/
def Beat.rest : Beat → List Tunnel
  | .renewing rest | .notifying _ rest => rest
  | _ => []

/-- The frame of `notify_tunnel_lost`. -/
def tunnelLost (tunnel : Tunnel) : ServerFrame :=
  .tunnelStatus
    { requestId := []
      tunnelId := tunnel.tunnelId
      accepted := false
      error := "routing claim lost; reconnect to re-register".toList
      publicUrl := tunnel.publicUrl
      routingKey := tunnel.routingKey }

/-- A connection and the tunnels of its session. -/
structure Tenancy where
  node : NodeConfig
  principal : Principal
  sessionId : Text
  connection : Connection
  /-- The registered tunnels, by tunnel id. -/
  tunnels : List Tunnel
  /-- The registration whose claim the edge waits for: its request id, record and public URL. -/
  registering : Option (Text × RouteRecord × Text)
  beat : Beat
  /-- The tunnels whose renewal was refused, oldest first. -/
  lost : List Tunnel

inductive TenancyAction
  /-- A move of the connection that does not concern tunnels. -/
  | connection (a : ConnectionAction)
  /-- The edge takes a frame about tunnels; a subdomain and a tunnel id are drawn. -/
  | handleTunnel (randomSubdomain tunnelId : Text)
  /-- The routing table answers a claim. -/
  | claimed (answer : Except Error Claim)
  /-- The routing table answers the release that follows a `CloseTunnel`. -/
  | released
  /-- The ticker of the heartbeat fires. -/
  | tick
  /-- The `Ping` is queued and the tunnels are listed. -/
  | pinged (nonce : Nat) (tunnels : List Tunnel)
  /-- The routing table answers a renewal. -/
  | renewed (answer : Except Error Bool)
  | notified
  /-- All tunnels have been renewed. -/
  | rest
  /-- The heartbeat is aborted after the edge's read loop has ended. -/
  | abort

namespace Tenancy

/-- The session after `session` has queued the `Welcome`. -/
def init (node : NodeConfig) (principal : Principal) (sessionId : Text) (initialWindow : Nat)
    (options : AgentOptions) (downCapacity upCapacity : Nat) : Tenancy where
  node := node
  principal := principal
  sessionId := sessionId
  connection :=
    { Connection.init principal.limits.maxConcurrentStreams initialWindow options downCapacity
        upCapacity with
      edge := (Edge.init principal.limits.maxConcurrentStreams initialWindow).push
        (.welcome sessionId node.nodeId) }
  tunnels := []
  registering := none
  beat := .sleeping
  lost := []

/-- Move the connection. -/
def move (s : Tenancy) (as : List ConnectionAction) : Option Tenancy :=
  (exec Connection.step s.connection as).map fun connection => { s with connection := connection }

/-- The moves of the connection that are left to it: the registry, the heartbeat and the frames
about tunnels belong to the control plane. -/
def isPlain (s : Tenancy) : ConnectionAction → Bool
  | .edge (.registryDone _) | .edge (.control _) => false
  | .recvUp => match s.connection.up.queue with
    | frame :: _ => !frame.isTunnel
    | [] => true
  | _ => true

/-- Queue a frame of the heartbeat; without a receiver the send fails. -/
def send (s : Tenancy) (frame : ServerFrame) (sent failed : Beat) : Option Tenancy :=
  match s.connection.edge.session.outbound.poll with
  | .ready => ({ s with beat := sent }).move [.edge (.control frame)]
  | .closed => some { s with beat := failed }
  | .pending => none

/-- One move; `none` when it is not enabled. -/
def step (s : Tenancy) : TenancyAction → Option Tenancy
  | .connection a => if s.isPlain a then s.move [a] else none
  | .handleTunnel randomSubdomain tunnelId =>
    match s.connection.up.queue with
    | .openTunnel request :: _ =>
      match prepareTunnel s.node s.principal s.sessionId s.tunnels.length request randomSubdomain
          tunnelId with
      | .ok (record, publicUrl) =>
        { s with registering := some (request.requestId, record, publicUrl) }.move [.recvUp]
      | .error status => s.move [.recvUp, .edge (.registryDone (some status))]
    | .closeTunnel tunnelId :: _ =>
      match s.tunnels.find? fun tunnel => tunnel.tunnelId = tunnelId with
      | some _ => { s with tunnels := removeTunnel tunnelId s.tunnels }.move [.recvUp]
      | none => s.move [.recvUp, .edge (.registryDone none)]
    | _ => none
  | .claimed answer =>
    match s.registering with
    | some (requestId, record, publicUrl) =>
      let (status, tunnel) := match answer with
        | .ok claim => finishTunnel requestId record publicUrl claim
        | .error e => (rejectTunnel requestId e.toText, none)
      { s with
        registering := none
        tunnels := match tunnel with
          | some tunnel => insertTunnel tunnel s.tunnels
          | none => s.tunnels }.move [.edge (.registryDone (some status))]
    | none => none
  | .released => if s.registering.isNone then s.move [.edge (.registryDone none)] else none
  | .tick => if s.beat = .sleeping then some { s with beat := .pinging } else none
  | .pinged nonce tunnels =>
    if s.beat = .pinging && tunnels.isPerm s.tunnels then
      s.send (.ping nonce) (.renewing tunnels) .off
    else none
  | .renewed answer =>
    match s.beat with
    | .renewing (tunnel :: rest) =>
      match answer with
      | .ok false =>
        some { s with
          tunnels := removeTunnel tunnel.tunnelId s.tunnels
          lost := s.lost ++ [tunnel]
          beat := .notifying tunnel rest }
      -- A failed renewal is logged and tried again at the next beat.
      | _ => some { s with beat := .renewing rest }
    | _ => none
  | .notified =>
    match s.beat with
    | .notifying tunnel rest => s.send (tunnelLost tunnel) (.renewing rest) (.renewing rest)
    | _ => none
  | .rest => if s.beat = .renewing [] then some { s with beat := .sleeping } else none
  | .abort =>
    match s.connection.edge.readLoop with
    | .tearingDown | .closing _ | .stopped => some { s with beat := .off }
    | _ => none

/-- The moves by what they require and what they do to the tunnels. -/
inductive Step (s : Tenancy) : TenancyAction → Tenancy → Prop
  | connection {a s'} : s.isPlain a = true → s.move [a] = some s' → Step s (.connection a) s'
  | request {randomSubdomain tunnelId request rest registration s'} :
      s.connection.up.queue = .openTunnel request :: rest →
      { s with registering := some registration }.move [.recvUp] = some s' →
      Step s (.handleTunnel randomSubdomain tunnelId) s'
  | refuse {randomSubdomain tunnelId status s'} :
      s.move [.recvUp, .edge (.registryDone (some status))] = some s' →
      Step s (.handleTunnel randomSubdomain tunnelId) s'
  | close {randomSubdomain tunnelId closed rest s'} :
      s.connection.up.queue = .closeTunnel closed :: rest →
      { s with tunnels := removeTunnel closed s.tunnels }.move [.recvUp] = some s' →
      Step s (.handleTunnel randomSubdomain tunnelId) s'
  | closeUnknown {randomSubdomain tunnelId s'} :
      s.move [.recvUp, .edge (.registryDone none)] = some s' →
      Step s (.handleTunnel randomSubdomain tunnelId) s'
  | acquired {registration tunnel status s'} : s.registering = some registration →
      { s with registering := none, tunnels := insertTunnel tunnel s.tunnels }.move
        [.edge (.registryDone (some status))] = some s' →
      Step s (.claimed (.ok .acquired)) s'
  | unclaimed {answer registration status s'} : s.registering = some registration →
      { s with registering := none }.move [.edge (.registryDone (some status))] = some s' →
      Step s (.claimed answer) s'
  | released {s'} : s.move [.edge (.registryDone none)] = some s' → Step s .released s'
  | tick : Step s .tick { s with beat := .pinging }
  | pinged {nonce tunnels s'} : tunnels.Perm s.tunnels →
      s.send (.ping nonce) (.renewing tunnels) .off = some s' → Step s (.pinged nonce tunnels) s'
  | lost {tunnel rest} : s.beat = .renewing (tunnel :: rest) →
      Step s (.renewed (.ok false)) { s with
        tunnels := removeTunnel tunnel.tunnelId s.tunnels
        lost := s.lost ++ [tunnel]
        beat := .notifying tunnel rest }
  | renewed {answer tunnel rest} : s.beat = .renewing (tunnel :: rest) → answer ≠ .ok false →
      Step s (.renewed answer) { s with beat := .renewing rest }
  | notified {tunnel rest s'} : s.beat = .notifying tunnel rest →
      s.send (tunnelLost tunnel) (.renewing rest) (.renewing rest) = some s' → Step s .notified s'
  | rest : Step s .rest { s with beat := .sleeping }
  | abort : Step s .abort { s with beat := .off }

/-- The cases of a claim that is answered. -/
theorem claimed_cases {s s' : Tenancy} {answer : Except Error Claim}
    (h : s.step (.claimed answer) = some s') : Step s (.claimed answer) s' := by
  simp only [step] at h
  split at h
  · rename_i requestId record publicUrl hr
    cases answer with
    | error e => exact .unclaimed hr h
    | ok claim =>
      cases claim with
      | acquired => exact .acquired hr h
      | taken owner => exact .unclaimed hr h
  · cases h

/-- An enabled move is one of the cases of `Step`. -/
theorem step_cases {s s' : Tenancy} {a : TenancyAction} (h : s.step a = some s') : Step s a s' := by
  cases a with
  | connection a =>
    simp only [step] at h
    split at h
    · exact .connection ‹_› h
    · cases h
  | handleTunnel randomSubdomain tunnelId =>
    simp only [step] at h
    split at h
    · rename_i request rest hq
      split at h
      · exact .request hq h
      · exact .refuse h
    · rename_i closed rest hq
      split at h
      · exact .close hq h
      · exact .closeUnknown h
    · cases h
  | claimed answer => exact claimed_cases h
  | released =>
    simp only [step] at h
    split at h
    · exact .released h
    · cases h
  | tick =>
    simp only [step] at h
    split at h
    · obtain rfl := Option.some.inj h
      exact .tick
    · cases h
  | pinged nonce tunnels =>
    simp only [step] at h
    split at h
    · rename_i hok
      rw [Bool.and_eq_true, List.isPerm_iff] at hok
      exact .pinged hok.2 h
    · cases h
  | renewed answer =>
    simp only [step] at h
    split at h
    · rename_i tunnel rest hb
      split at h
      · obtain rfl := Option.some.inj h
        exact .lost hb
      · rename_i hne
        obtain rfl := Option.some.inj h
        exact .renewed hb hne
    · cases h
  | notified =>
    simp only [step] at h
    split at h
    · exact .notified ‹_› h
    · cases h
  | rest =>
    simp only [step] at h
    split at h
    · obtain rfl := Option.some.inj h
      exact .rest
    · cases h
  | abort =>
    simp only [step] at h
    split at h
    all_goals first
      | cases h; done
      | obtain rfl := Option.some.inj h
        exact .abort

/-- The session has not been torn down at either end: both read loops are in place and so are the
receivers that carry their frames. -/
def Established (s : Tenancy) : Prop :=
  (s.connection.edge.readLoop ≠ .tearingDown ∧ (∀ ids, s.connection.edge.readLoop ≠ .closing ids) ∧
    s.connection.edge.readLoop ≠ .stopped ∧ s.connection.edge.readLoop ≠ .crashed) ∧
  (s.connection.agent.readLoop ≠ .stopped ∧ s.connection.agent.readLoop ≠ .crashed) ∧
  s.connection.edge.session.outbound.rxOpen = true ∧ s.connection.agent.outbound.rxOpen = true

/-- All frames have been delivered and handled, nothing is being registered, and the heartbeat waits
for its next beat. -/
structure Quiescent (s : Tenancy) : Prop where
  edgeLoop : s.connection.edge.readLoop = .idle
  edgeQueue : s.connection.edge.session.outbound.queue = []
  down : s.connection.down.queue = []
  agentLoop : s.connection.agent.readLoop = .idle
  agentQueue : s.connection.agent.outbound.queue = []
  up : s.connection.up.queue = []
  beat : s.beat = .sleeping

/-- A tunnel was lost and its key has no tunnel any more, while the session goes on as if nothing
were to be done. -/
def Stranded (s : Tenancy) (tunnel : Tunnel) : Prop :=
  tunnel ∈ s.lost ∧ s.Established ∧ s.Quiescent ∧
    ∀ other ∈ s.tunnels, other.routingKey ≠ tunnel.routingKey

end Tenancy

end Norupo
