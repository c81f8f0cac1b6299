import Norupo.Control.Register
import Norupo.Ingress.Route
import Norupo.Foundation.Transition
import Mathlib.Data.Finset.Erase
import Mathlib.Data.Finset.Insert
import Mathlib.Data.List.Perm.Basic

/-!
# Nodes sharing a routing table

Any number of edge nodes around one routing table, as a labelled system: the sessions of
`norupo-server/src/control.rs` with their heartbeats and teardowns, and the requests of
`ingress::handle`. A node is its node id, and session ids are drawn once. Each call of the routing
table is one atomic step that reads a non-decreasing clock; every wait of a task, and every point
between a call and what is done with its answer, lets all other tasks move.
-/

namespace Norupo

open Transition

/-- Progress of `ControlService::session` and `run_session`. -/
inductive Driver
  | absent
  /-- Waiting to queue the `Welcome`; not yet in the session table. -/
  | greeting
  /-- Waiting for the agent's next frame. -/
  | idle
  /-- In `register_tunnel`, waiting for the claim. -/
  | claiming (requestId : Text) (record : RouteRecord) (publicUrl : Text)
  /-- The claim is answered. -/
  | claimed (requestId : Text) (record : RouteRecord) (publicUrl : Text) (claim : Claim)
  /-- Waiting to queue a `TunnelStatus`. -/
  | replying (status : TunnelStatus)
  /-- A `CloseTunnel` has removed this tunnel; waiting for the release. -/
  | releasing (tunnel : Tunnel)
  /-- In `teardown`, with the rest of the tunnels to release. -/
  | tearingDown (rest : List Tunnel)
  | gone
  deriving DecidableEq, Repr

/-- The loop of `run_session` has not ended. -/
def Driver.isRunning : Driver → Bool
  | .tearingDown _ | .gone => false
  | _ => true

/-- Progress of the heartbeat of a session. -/
inductive Heartbeat
  | off
  | sleeping
  /-- Waiting to queue a `Ping`. -/
  | pinging
  /-- Renewing the rest of the tunnels. -/
  | renewing (rest : List Tunnel)
  /-- A renewal has found its claim lost; the tunnel is still listed. -/
  | dropping (tunnel : Tunnel) (rest : List Tunnel)
  /-- Waiting to tell the agent of a lost tunnel. -/
  | notifying (rest : List Tunnel)
  deriving DecidableEq, Repr

/-- One agent session as the control plane sees it. -/
structure ControlSession where
  node : NodeConfig
  principal : Principal
  driver : Driver
  heartbeat : Heartbeat
  /-- The registered tunnels, by tunnel id. -/
  tunnels : List Tunnel

/-- Progress of a public request. -/
inductive Visit
  | unused
  /-- Waiting for the routing table. -/
  | looking (nodeId : Text) (role : Role) (req : HttpRequest) (key : Text)
  /-- The routing table has named a record; the session table has not been asked yet. -/
  | found (nodeId : Text) (role : Role) (req : HttpRequest) (key : Text) (record : RouteRecord)
  /-- Waiting to release a stale claim. -/
  | releasing (key sessionId : Text)
  | finished
  deriving DecidableEq, Repr

/-- The routing table, the session tables of all nodes, and all tasks. -/
structure Cluster where
  registry : MemoryRegistry
  /-- The latest clock reading. -/
  now : Nat
  /-- `SessionManager`: the session ids in the table of each node. -/
  manager : Text → Finset Text
  session : Text → ControlSession
  visit : Nat → Visit

inductive ClusterAction
  /-- An agent is authenticated on a node, and its session gets an id. -/
  | connect (sessionId : Text) (node : NodeConfig) (principal : Principal)
  /-- The `Welcome` is queued: the session enters the table and its tasks start. -/
  | welcome (sessionId : Text)
  /-- The agent hung up during the handshake. -/
  | hangUp (sessionId : Text)
  | openTunnel (sessionId : Text) (request : OpenTunnel) (randomSubdomain tunnelId : Text)
  | claim (sessionId : Text) (clock : Clock)
  | register (sessionId : Text)
  | replied (sessionId : Text)
  | closeTunnel (sessionId tunnelId : Text)
  | releaseClosed (sessionId : Text)
  /-- The agent's stream ends; the heartbeat is aborted and the tunnels are listed. -/
  | disconnect (sessionId : Text) (tunnels : List Tunnel)
  | releaseNext (sessionId : Text)
  /-- The last step of `teardown`: the session leaves the table. -/
  | leave (sessionId : Text)
  | beat (sessionId : Text)
  /-- The `Ping` is queued and the tunnels are listed. -/
  | pinged (sessionId : Text) (tunnels : List Tunnel)
  | renewNext (sessionId : Text) (clock : Clock)
  /-- A tunnel whose claim is lost is removed. -/
  | dropTunnel (sessionId : Text)
  | notified (sessionId : Text)
  /-- All tunnels have been renewed. -/
  | rest (sessionId : Text)
  /-- The heartbeat returns, because the agent is gone or because it was aborted. -/
  | stopHeartbeat (sessionId : Text)
  /-- A request arrives at a listener of a node. -/
  | request (visit : Nat) (nodeId : Text) (role : Role) (req : HttpRequest)
  | lookup (visit : Nat) (clock : Clock)
  /-- The session table is asked for the session of the record. -/
  | consult (visit : Nat)
  | releaseStale (visit : Nat)
  deriving DecidableEq, Repr

/-- The clock that a step reads. -/
def ClusterAction.clock : ClusterAction → Option Clock
  | .claim _ clock | .renewNext _ clock | .lookup _ clock => some clock
  | _ => none

/-- The steps by which a session changes its own claims: when it registers a tunnel, when it closes
one, and when it is torn down. -/
def ClusterAction.changesClaimsOf (sessionId : Text) : ClusterAction → Bool
  | .claim s _ | .releaseClosed s | .releaseNext s => s = sessionId
  | _ => false

/-- `remove_tunnel`. -/
def removeTunnel (tunnelId : Text) (tunnels : List Tunnel) : List Tunnel :=
  tunnels.filter fun tunnel => tunnel.tunnelId ≠ tunnelId

/-- `insert_tunnel`. -/
def insertTunnel (tunnel : Tunnel) (tunnels : List Tunnel) : List Tunnel :=
  removeTunnel tunnel.tunnelId tunnels ++ [tunnel]

/-- Removal by id. -/
@[simp] theorem mem_removeTunnel {tunnelId : Text} {tunnels : List Tunnel} {tunnel : Tunnel} :
    tunnel ∈ removeTunnel tunnelId tunnels ↔ tunnel ∈ tunnels ∧ tunnel.tunnelId ≠ tunnelId := by
  simp [removeTunnel]

/-- Insertion by id. -/
@[simp] theorem mem_insertTunnel {tunnel other : Tunnel} {tunnels : List Tunnel} :
    other ∈ insertTunnel tunnel tunnels ↔
      (other ∈ tunnels ∧ other.tunnelId ≠ tunnel.tunnelId) ∨ other = tunnel := by
  simp [insertTunnel]

namespace Cluster

/-- A cluster without sessions. -/
def init : Cluster where
  registry := MemoryRegistry.new
  now := 0
  manager := fun _ => ∅
  session := fun _ =>
    { node := ⟨[], [], [], [], 0⟩
      principal := ⟨[], [], [], Limits.default⟩
      driver := .absent
      heartbeat := .off
      tunnels := [] }
  visit := fun _ => .unused

/-- Change one session. -/
@[simp] def setSession (s : Cluster) (i : Text) (session : ControlSession) : Cluster :=
  { s with session := Function.update s.session i session }

/-- Move the driver of a session. -/
@[simp] def setDriver (s : Cluster) (i : Text) (driver : Driver) : Cluster :=
  s.setSession i { s.session i with driver := driver }

/-- Move the heartbeat of a session. -/
@[simp] def setHeartbeat (s : Cluster) (i : Text) (heartbeat : Heartbeat) : Cluster :=
  s.setSession i { s.session i with heartbeat := heartbeat }

/-- Move a request. -/
@[simp] def setVisit (s : Cluster) (n : Nat) (visit : Visit) : Cluster :=
  { s with visit := Function.update s.visit n visit }

/-- The readings of a call follow those of earlier calls. -/
def follows (s : Cluster) (clock : Clock) : Bool := s.now ≤ clock.now && clock.now ≤ clock.stamp

/-- A call of the routing table with its clock readings. -/
@[simp] def called (s : Cluster) (registry : MemoryRegistry) (clock : Clock) : Cluster :=
  { s with registry := registry, now := clock.stamp }

/-- One move; `none` when it is not enabled. -/
def step (s : Cluster) : ClusterAction → Option Cluster
  | .connect i node principal =>
    if (s.session i).driver = .absent then
      some (s.setSession i
        { node := node, principal := principal, driver := .greeting, heartbeat := .off,
          tunnels := [] })
    else none
  | .welcome i =>
    if (s.session i).driver = .greeting then
      some { s.setSession i { s.session i with driver := .idle, heartbeat := .sleeping } with
        manager := Function.update s.manager (s.session i).node.nodeId
          (insert i (s.manager (s.session i).node.nodeId)) }
    else none
  | .hangUp i =>
    if (s.session i).driver = .greeting then some (s.setDriver i .gone) else none
  | .openTunnel i request randomSubdomain tunnelId =>
    if (s.session i).driver = .idle then
      match prepareTunnel (s.session i).node (s.session i).principal i (s.session i).tunnels.length
          request randomSubdomain tunnelId with
      | .ok (record, publicUrl) =>
        some (s.setDriver i (.claiming request.requestId record publicUrl))
      | .error status => some (s.setDriver i (.replying status))
    else none
  | .claim i clock =>
    match (s.session i).driver, s.follows clock with
    | .claiming requestId record publicUrl, true =>
      let (registry, claim) := s.registry.claim record (s.session i).node.routeTtl clock
      some ((s.called registry clock).setDriver i (.claimed requestId record publicUrl claim))
    | _, _ => none
  | .register i =>
    match (s.session i).driver with
    | .claimed requestId record publicUrl claim =>
      let (status, tunnel) := finishTunnel requestId record publicUrl claim
      some (s.setSession i { s.session i with
        driver := .replying status
        tunnels := match tunnel with
          | some tunnel => insertTunnel tunnel (s.session i).tunnels
          | none => (s.session i).tunnels })
    | _ => none
  | .replied i =>
    match (s.session i).driver with
    | .replying _ => some (s.setDriver i .idle)
    | _ => none
  | .closeTunnel i tunnelId =>
    if (s.session i).driver = .idle then
      match (s.session i).tunnels.find? fun tunnel => tunnel.tunnelId = tunnelId with
      | some tunnel =>
        some (s.setSession i { s.session i with
          driver := .releasing tunnel
          tunnels := removeTunnel tunnelId (s.session i).tunnels })
      | none => some s
    else none
  | .releaseClosed i =>
    match (s.session i).driver with
    | .releasing tunnel =>
      some ({ s with registry := s.registry.release tunnel.routingKey i }.setDriver i .idle)
    | _ => none
  | .disconnect i tunnels =>
    if (s.session i).driver = .idle && tunnels.isPerm (s.session i).tunnels then
      some (s.setDriver i (.tearingDown tunnels))
    else none
  | .releaseNext i =>
    match (s.session i).driver with
    | .tearingDown (tunnel :: rest) =>
      some ({ s with registry := s.registry.release tunnel.routingKey i }.setDriver i
        (.tearingDown rest))
    | _ => none
  | .leave i =>
    if (s.session i).driver = .tearingDown [] then
      some { s.setDriver i .gone with
        manager := Function.update s.manager (s.session i).node.nodeId
          ((s.manager (s.session i).node.nodeId).erase i) }
    else none
  | .beat i =>
    if (s.session i).heartbeat = .sleeping && (s.session i).driver.isRunning then
      some (s.setHeartbeat i .pinging)
    else none
  | .pinged i tunnels =>
    if (s.session i).heartbeat = .pinging && tunnels.isPerm (s.session i).tunnels then
      some (s.setHeartbeat i (.renewing tunnels))
    else none
  | .renewNext i clock =>
    match (s.session i).heartbeat, s.follows clock with
    | .renewing (tunnel :: rest), true =>
      let (registry, renewed) :=
        s.registry.renew tunnel.routingKey i (s.session i).node.routeTtl clock
      some ((s.called registry clock).setHeartbeat i
        (if renewed then .renewing rest else .dropping tunnel rest))
    | _, _ => none
  | .dropTunnel i =>
    match (s.session i).heartbeat with
    | .dropping tunnel rest =>
      some (s.setSession i { s.session i with
        heartbeat := .notifying rest
        tunnels := removeTunnel tunnel.tunnelId (s.session i).tunnels })
    | _ => none
  | .notified i =>
    match (s.session i).heartbeat with
    | .notifying rest => some (s.setHeartbeat i (.renewing rest))
    | _ => none
  | .rest i =>
    if (s.session i).heartbeat = .renewing [] then some (s.setHeartbeat i .sleeping) else none
  | .stopHeartbeat i =>
    if (s.session i).heartbeat = .off then none else some (s.setHeartbeat i .off)
  | .request n nodeId role req =>
    if s.visit n = .unused then
      match lookupKey req with
      | some key => some (s.setVisit n (.looking nodeId role req key))
      | none => some (s.setVisit n .finished)
    else none
  | .lookup n clock =>
    match s.visit n, s.follows clock with
    | .looking nodeId role req key, true =>
      let (registry, record) := s.registry.lookup key clock
      some ((s.called registry clock).setVisit n
        (match record with
          | some record => .found nodeId role req key record
          | none => .finished))
    | _, _ => none
  | .consult n =>
    match s.visit n with
    | .found nodeId role req key record =>
      some (s.setVisit n
        (match place nodeId (fun i => i ∈ s.manager nodeId) role req key record with
          | .releaseStale key record => .releasing key record.sessionId
          | _ => .finished))
    | _ => none
  | .releaseStale n =>
    match s.visit n with
    | .releasing key sessionId =>
      some ({ s with registry := s.registry.release key sessionId }.setVisit n .finished)
    | _ => none

/-- The moves by what they require and what they do. -/
inductive Step (s : Cluster) : ClusterAction → Cluster → Prop
  | connect {i node principal} : (s.session i).driver = .absent →
      Step s (.connect i node principal) (s.setSession i
        { node := node, principal := principal, driver := .greeting, heartbeat := .off,
          tunnels := [] })
  | welcome {i} : (s.session i).driver = .greeting →
      Step s (.welcome i)
        { s.setSession i { s.session i with driver := .idle, heartbeat := .sleeping } with
          manager := Function.update s.manager (s.session i).node.nodeId
            (insert i (s.manager (s.session i).node.nodeId)) }
  | hangUp {i} : (s.session i).driver = .greeting → Step s (.hangUp i) (s.setDriver i .gone)
  | openTunnel {i request randomSubdomain tunnelId record publicUrl} :
      (s.session i).driver = .idle →
      prepareTunnel (s.session i).node (s.session i).principal i (s.session i).tunnels.length
        request randomSubdomain tunnelId = .ok (record, publicUrl) →
      Step s (.openTunnel i request randomSubdomain tunnelId)
        (s.setDriver i (.claiming request.requestId record publicUrl))
  | openRejected {i request randomSubdomain tunnelId status} : (s.session i).driver = .idle →
      Step s (.openTunnel i request randomSubdomain tunnelId) (s.setDriver i (.replying status))
  | claim {i clock requestId record publicUrl} :
      (s.session i).driver = .claiming requestId record publicUrl → s.follows clock = true →
      Step s (.claim i clock)
        ((s.called (s.registry.claim record (s.session i).node.routeTtl clock).1 clock).setDriver i
          (.claimed requestId record publicUrl
            (s.registry.claim record (s.session i).node.routeTtl clock).2))
  | register {i requestId record publicUrl} :
      (s.session i).driver = .claimed requestId record publicUrl .acquired →
      Step s (.register i) (s.setSession i { s.session i with
        driver := .replying (finishTunnel requestId record publicUrl .acquired).1
        tunnels := insertTunnel ⟨record.tunnelId, record.routingKey, publicUrl⟩
          (s.session i).tunnels })
  | registerTaken {i requestId record publicUrl owner} :
      (s.session i).driver = .claimed requestId record publicUrl (.taken owner) →
      Step s (.register i) (s.setDriver i
        (.replying (finishTunnel requestId record publicUrl (.taken owner)).1))
  | replied {i status} : (s.session i).driver = .replying status →
      Step s (.replied i) (s.setDriver i .idle)
  | closeTunnel {i tunnelId tunnel} : (s.session i).driver = .idle →
      (s.session i).tunnels.find? (fun tunnel => tunnel.tunnelId = tunnelId) = some tunnel →
      Step s (.closeTunnel i tunnelId) (s.setSession i { s.session i with
        driver := .releasing tunnel, tunnels := removeTunnel tunnelId (s.session i).tunnels })
  | closeUnknown {i tunnelId} : (s.session i).driver = .idle → Step s (.closeTunnel i tunnelId) s
  | releaseClosed {i tunnel} : (s.session i).driver = .releasing tunnel →
      Step s (.releaseClosed i)
        ({ s with registry := s.registry.release tunnel.routingKey i }.setDriver i .idle)
  | disconnect {i tunnels} : (s.session i).driver = .idle →
      tunnels.Perm (s.session i).tunnels →
      Step s (.disconnect i tunnels) (s.setDriver i (.tearingDown tunnels))
  | releaseNext {i tunnel rest} : (s.session i).driver = .tearingDown (tunnel :: rest) →
      Step s (.releaseNext i)
        ({ s with registry := s.registry.release tunnel.routingKey i }.setDriver i
          (.tearingDown rest))
  | leave {i} : (s.session i).driver = .tearingDown [] →
      Step s (.leave i) { s.setDriver i .gone with
        manager := Function.update s.manager (s.session i).node.nodeId
          ((s.manager (s.session i).node.nodeId).erase i) }
  | beat {i} : (s.session i).heartbeat = .sleeping → Step s (.beat i) (s.setHeartbeat i .pinging)
  | pinged {i tunnels} : (s.session i).heartbeat = .pinging → tunnels.Perm (s.session i).tunnels →
      Step s (.pinged i tunnels) (s.setHeartbeat i (.renewing tunnels))
  | renewNext {i clock tunnel rest} : (s.session i).heartbeat = .renewing (tunnel :: rest) →
      s.follows clock = true →
      Step s (.renewNext i clock)
        ((s.called (s.registry.renew tunnel.routingKey i (s.session i).node.routeTtl clock).1
          clock).setHeartbeat i
            (if (s.registry.renew tunnel.routingKey i (s.session i).node.routeTtl clock).2 then
              .renewing rest else .dropping tunnel rest))
  | dropTunnel {i tunnel rest} : (s.session i).heartbeat = .dropping tunnel rest →
      Step s (.dropTunnel i) (s.setSession i { s.session i with
        heartbeat := .notifying rest
        tunnels := removeTunnel tunnel.tunnelId (s.session i).tunnels })
  | notified {i rest} : (s.session i).heartbeat = .notifying rest →
      Step s (.notified i) (s.setHeartbeat i (.renewing rest))
  | rest {i} : (s.session i).heartbeat = .renewing [] →
      Step s (.rest i) (s.setHeartbeat i .sleeping)
  | stopHeartbeat {i} : Step s (.stopHeartbeat i) (s.setHeartbeat i .off)
  | request {n nodeId role req key} : s.visit n = .unused →
      Step s (.request n nodeId role req) (s.setVisit n (.looking nodeId role req key))
  | requestDone {n nodeId role req} : s.visit n = .unused →
      Step s (.request n nodeId role req) (s.setVisit n .finished)
  | lookup {n clock nodeId role req key record} : s.follows clock = true →
      (s.registry.lookup key clock).2 = some record →
      Step s (.lookup n clock) ((s.called (s.registry.lookup key clock).1 clock).setVisit n
        (.found nodeId role req key record))
  | lookupNone {n clock key} : s.follows clock = true →
      Step s (.lookup n clock)
        ((s.called (s.registry.lookup key clock).1 clock).setVisit n .finished)
  | consultStale {n nodeId role req key record} :
      s.visit n = .found nodeId role req key record → record.nodeId = nodeId →
      record.sessionId ∉ s.manager nodeId →
      Step s (.consult n) (s.setVisit n (.releasing key record.sessionId))
  | consult {n} : Step s (.consult n) (s.setVisit n .finished)
  | releaseStale {n key sessionId} : s.visit n = .releasing key sessionId →
      Step s (.releaseStale n)
        ({ s with registry := s.registry.release key sessionId }.setVisit n .finished)

/-- An enabled move is one of the cases of `Step`. -/
theorem step_cases {s s' : Cluster} {a : ClusterAction} (h : s.step a = some s') : Step s a s' := by
  cases a
  case openTunnel i request randomSubdomain tunnelId =>
    simp only [step] at h
    split at h
    · split at h
      · rename_i hp
        obtain rfl := Option.some.inj h
        exact .openTunnel ‹_› hp
      · obtain rfl := Option.some.inj h
        exact .openRejected ‹_›
    · cases h
  case lookup n clock =>
    simp only [step] at h
    split at h
    · rename_i nodeId role req key _ hf
      obtain rfl := Option.some.inj h
      split
      · exact .lookup hf ‹_›
      · exact .lookupNone hf
    · cases h
  case consult n =>
    simp only [step] at h
    split at h
    · rename_i nodeId role req key record hv
      obtain rfl := Option.some.inj h
      split
      · rename_i hp
        obtain ⟨rfl, rfl, hn, hm⟩ := place_releaseStale hp
        exact .consultStale hv hn (by simpa using hm)
      · exact .consult
    · cases h
  case renewNext i clock =>
    simp only [step] at h
    split at h
    · rename_i hb hf
      obtain rfl := Option.some.inj h
      exact .renewNext hb hf
    · cases h
  case register i =>
    simp only [step] at h
    split at h
    · rename_i requestId record publicUrl claim hd
      obtain rfl := Option.some.inj h
      cases claim with
      | acquired => exact .register hd
      | taken owner => exact .registerTaken hd
    · cases h
  all_goals
    simp only [step] at h
    repeat' split at h
  all_goals first
    | cases h; done
    | obtain rfl := Option.some.inj h
  all_goals constructor <;> first | assumption | simp_all [List.isPerm_iff]

end Cluster

end Norupo
