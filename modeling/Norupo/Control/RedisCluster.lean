import Norupo.Control.Cluster
import Norupo.Control.Keys
import Norupo.Registry.Redis

/-!
# Nodes sharing a Redis server

The tasks of `Cluster` call the routing table through the `Registry` trait, and `build_registry` of
`norupo-server/src/lib.rs` decides whether that is the table in memory or a Redis server. Here the
server is asked instead. A call is cut into what a task asks for and what it does with the answer,
and a Redis server has answers that a table in memory never gives: a stored text that is no record.
As long as what is stored has no tab and lifetimes are whole milliseconds in range, the nodes cannot
tell the two tables apart.
-/

namespace Norupo

open Transition

namespace Cluster

/-- The call of the routing table that a move makes. -/
def call (s : Cluster) : ClusterAction → Option RegistryOp
  | .claim i _ =>
    match (s.session i).driver with
    | .claiming _ record _ => some (.claim record (s.session i).node.routeTtl)
    | _ => none
  | .releaseClosed i =>
    match (s.session i).driver with
    | .releasing tunnel => some (.release tunnel.routingKey i)
    | _ => none
  | .releaseNext i =>
    match (s.session i).driver with
    | .tearingDown (tunnel :: _) => some (.release tunnel.routingKey i)
    | _ => none
  | .renewNext i _ =>
    match (s.session i).heartbeat with
    | .renewing (tunnel :: _) => some (.renew tunnel.routingKey i (s.session i).node.routeTtl)
    | _ => none
  | .lookup n _ =>
    match s.visit n with
    | .looking _ _ _ key => some (.lookup key)
    | _ => none
  | .releaseStale n =>
    match s.visit n with
    | .releasing key sessionId => some (.release key sessionId)
    | _ => none
  | _ => none

/-- What a task does with the answer to its call. A claim that fails is a rejection, a renewal that
fails leaves the tunnel to the next beat, and a lookup that fails is an error page. -/
def answer (s : Cluster) (reply : Except Error RegistryReply) : ClusterAction → Option Cluster
  | .claim i _ =>
    match (s.session i).driver, reply with
    | .claiming requestId record publicUrl, .ok (.claimed claim) =>
      some (s.setDriver i (.claimed requestId record publicUrl claim))
    | .claiming requestId _ _, .error e =>
      some (s.setDriver i (.replying (rejectTunnel requestId e.toText)))
    | _, _ => none
  | .releaseClosed i =>
    match (s.session i).driver with
    | .releasing _ => some (s.setDriver i .idle)
    | _ => none
  | .releaseNext i =>
    match (s.session i).driver with
    | .tearingDown (_ :: rest) => some (s.setDriver i (.tearingDown rest))
    | _ => none
  | .renewNext i _ =>
    match (s.session i).heartbeat, reply with
    | .renewing (tunnel :: rest), .ok (.renewed owned) =>
      some (s.setHeartbeat i (if owned then .renewing rest else .dropping tunnel rest))
    | .renewing (_ :: rest), .error _ => some (s.setHeartbeat i (.renewing rest))
    | _, _ => none
  | .lookup n _ =>
    match s.visit n, reply with
    | .looking nodeId role req key, .ok (.found (some record)) =>
      some (s.setVisit n (.found nodeId role req key record))
    | .looking _ _ _ _, .ok (.found none) | .looking _ _ _ _, .error _ =>
      some (s.setVisit n .finished)
    | _, _ => none
  | .releaseStale n =>
    match s.visit n with
    | .releasing _ _ => some (s.setVisit n .finished)
    | _ => none
  | _ => none

/-- The same tasks around another table. -/
def withTable (s : Cluster) (registry : MemoryRegistry) (now : Nat) : Cluster :=
  { s with registry := registry, now := now }

end Cluster

/-- The move whose call reads the clock once. -/
def ClusterAction.at (time : Nat) : ClusterAction → ClusterAction
  | .claim i _ => .claim i ⟨time, time⟩
  | .renewNext i _ => .renewNext i ⟨time, time⟩
  | .lookup n _ => .lookup n ⟨time, time⟩
  | a => a

/-- A call that reads the clock sees one instant. -/
def ClusterAction.ReadsOnce (a : ClusterAction) : Prop :=
  ∀ clock, a.clock = some clock → clock.now = clock.stamp

theorem ClusterAction.at_readsOnce (a : ClusterAction) (time : Nat) : (a.at time).ReadsOnce := by
  intro clock hclock
  cases a <;>
    simp only [ClusterAction.at, ClusterAction.clock, Option.some.injEq, reduceCtorEq] at hclock
  all_goals exact hclock ▸ rfl

theorem ClusterAction.at_eq_self {a : ClusterAction} {time : Nat}
    (h : ∀ clock, a.clock = some clock → clock = ⟨time, time⟩) : a.at time = a := by
  cases a
  case claim i clock | renewNext i clock | lookup n clock =>
    rw [h clock rfl]
    rfl
  all_goals rfl

namespace Cluster

section Tables

variable {s s' : Cluster} {a : ClusterAction} {op : RegistryOp} (registry : MemoryRegistry)
  (now : Nat)

/-- Calls do not depend on the table, and neither does what is done with an answer. -/
theorem call_withTable (s : Cluster) (a : ClusterAction) :
    (s.withTable registry now).call a = s.call a := by
  cases a <;> rfl

theorem answer_withTable (s : Cluster) (reply : Except Error RegistryReply) (a : ClusterAction) :
    (s.withTable registry now).answer reply a =
      (s.answer reply a).map fun t => t.withTable registry now := by
  cases a <;> simp only [answer, withTable, Option.map_none] <;> split <;> rfl

/-- A move without a call is the same around every table. -/
theorem step_withTable (h : s.call a = none) :
    (s.withTable registry now).step a = (s.step a).map fun t => t.withTable registry now := by
  cases a
  case claim i clock | releaseClosed i =>
    cases hd : (s.session i).driver <;> simp_all [call, step, withTable]
  case releaseNext i =>
    cases hd : (s.session i).driver with
    | tearingDown rest => cases rest <;> simp_all [call, step, withTable]
    | _ => simp_all [call, step, withTable]
  case renewNext i clock =>
    cases hb : (s.session i).heartbeat with
    | renewing rest => cases rest <;> simp_all [call, step, withTable]
    | _ => simp_all [call, step, withTable]
  case lookup n clock | releaseStale n =>
    cases hv : s.visit n <;> simp_all [call, step, withTable]
  case openTunnel i request randomSubdomain tunnelId =>
    simp only [step, withTable]
    by_cases hd : (s.session i).driver = .idle
    · simp only [hd, if_true]
      cases prepareTunnel (s.session i).node (s.session i).principal i
        (s.session i).tunnels.length request randomSubdomain tunnelId <;> rfl
    · simp [hd]
  case closeTunnel i tunnelId =>
    simp only [step, withTable]
    by_cases hd : (s.session i).driver = .idle
    · simp only [hd, if_true]
      cases (s.session i).tunnels.find? fun tunnel => tunnel.tunnelId = tunnelId <;> rfl
    · simp [hd]
  case request n nodeId role req =>
    simp only [step, withTable]
    by_cases hv : s.visit n = .unused
    · simp only [hv, if_true]
      cases lookupKey req <;> rfl
    · simp [hv]
  case register | replied | dropTunnel | notified | consult =>
    simp only [step, withTable]
    split <;> rfl
  -- What is left is allowed or not, and then does one thing.
  all_goals
    simp only [step, withTable, apply_ite (Option.map _), Option.map_some, Option.map_none]
    rfl

/-- A move without a call reads no clock. -/
theorem at_of_quiet (h : s.call a = none) (hs : s.step a = some s') (time : Nat) :
    a.at time = a := by
  cases a
  case claim i clock => cases hd : (s.session i).driver <;> simp_all [call, step]
  case renewNext i clock =>
    cases hb : (s.session i).heartbeat with
    | renewing rest => cases rest <;> simp_all [call, step]
    | _ => simp_all [step]
  case lookup n clock => cases hv : s.visit n <;> simp_all [call, step]
  all_goals rfl

/-- The readings of a move follow the earlier ones. -/
theorem follows_of_step (hs : s.step a = some s') {clock : Clock} (hc : a.clock = some clock) :
    s.now ≤ clock.now ∧ clock.now ≤ clock.stamp := by
  have hf : s.follows clock = true := by
    cases step_cases hs <;> simp only [ClusterAction.clock, Option.some.injEq, reduceCtorEq] at hc
    all_goals exact hc ▸ ‹_›
  simpa [follows] using hf

/-- A move with a call, around the table in memory: the table performs the call, and the task goes
on with its reply. -/
theorem step_at (h : s.call a = some op) {time : Nat} (ht : s.now ≤ time) :
    s.step (a.at time) = (s.withTable (s.registry.perform ⟨time, time⟩ op).1
      (if a.clock.isSome then time else s.now)).answer
        (.ok (s.registry.perform ⟨time, time⟩ op).2) a := by
  have hf : s.follows ⟨time, time⟩ = true := by simp [follows, ht]
  cases a <;> simp only [call] at h
  case claim | releaseClosed | releaseNext | renewNext =>
    split at h
    · rename_i hd
      obtain rfl := Option.some.inj h
      simp [ClusterAction.at, step, answer, withTable, hd, hf, ClusterAction.clock,
        MemoryRegistry.perform]
    · cases h
  case lookup n clock =>
    split at h
    · rename_i hv
      obtain rfl := Option.some.inj h
      simp only [ClusterAction.at, step, answer, withTable, hv, hf, ClusterAction.clock,
        MemoryRegistry.perform, Prod.map, id]
      cases (s.registry.lookup _ ⟨time, time⟩).2 <;> rfl
    · cases h
  case releaseStale =>
    split at h
    · rename_i hv
      obtain rfl := Option.some.inj h
      simp [ClusterAction.at, step, answer, withTable, hv, ClusterAction.clock,
        MemoryRegistry.perform]
    · cases h
  all_goals cases h

end Tables

end Cluster

/-- The sessions and requests of all nodes, around a Redis server. -/
structure RedisCluster where
  store : RedisStore
  /-- The latest clock reading of the server. -/
  now : Nat
  manager : Text → Finset Text
  session : Text → ControlSession
  visit : Nat → Visit

namespace RedisCluster

/-- The tasks, around a table in memory that is empty. -/
def tasks (r : RedisCluster) : Cluster := ⟨MemoryRegistry.new, 0, r.manager, r.session, r.visit⟩

/-- The same server with other tasks. -/
def withTasks (r : RedisCluster) (s : Cluster) : RedisCluster :=
  { r with manager := s.manager, session := s.session, visit := s.visit }

/-- No sessions, and an empty server. -/
def init : RedisCluster where
  store := RedisStore.new
  now := 0
  manager := Cluster.init.manager
  session := Cluster.init.session
  visit := Cluster.init.visit

/-- One move, at a time of the server's clock; `none` when it is not enabled. -/
def step (redis : RedisRegistry) (r : RedisCluster) : Nat × ClusterAction → Option RedisCluster
  | (time, a) =>
    match r.tasks.call a with
    | none => (r.tasks.step a).map r.withTasks
    | some op =>
      if r.now ≤ time then
        let (store, reply) := redis.perform r.store time op
        (r.tasks.answer reply a).map fun s => { r.withTasks s with store := store, now := time }
      else none

/-- The tasks are the same, and the two tables show the same. -/
structure Refines (redis : RedisRegistry) (r : RedisCluster) (s : Cluster) : Prop where
  tasks : s = r.tasks.withTable s.registry s.now
  agree : Agree redis r.now s.registry r.store
  clock : s.now ≤ r.now

section Moves

variable {redis : RedisRegistry} {r r' : RedisCluster} {s s' : Cluster} {a : ClusterAction}
  {time : Nat}

theorem Refines.init (redis : RedisRegistry) : Refines redis RedisCluster.init Cluster.init where
  tasks := rfl
  agree := .new redis
  clock := Nat.le_refl 0

/-- The calls are the same. -/
theorem Refines.call_eq (h : Refines redis r s) (a : ClusterAction) :
    r.tasks.call a = s.call a := by
  rw [h.tasks, Cluster.call_withTable]

/-- What the table in memory makes of a call. -/
theorem Refines.step_at (h : Refines redis r s) {op : RegistryOp} (hop : s.call a = some op)
    (htime : s.now ≤ time) :
    s.step (a.at time) =
      (r.tasks.answer (.ok (s.registry.perform ⟨time, time⟩ op).2) a).map fun t =>
        t.withTable (s.registry.perform ⟨time, time⟩ op).1
          (if a.clock.isSome then time else s.now) := by
  have hsame (registry : MemoryRegistry) (now : Nat) :
      s.withTable registry now = r.tasks.withTable registry now := by
    rw [h.tasks]
    rfl
  rw [Cluster.step_at hop htime, hsame, Cluster.answer_withTable]

/-- What a call leaves shows the same in both tables. -/
theorem Refines.called (h : Refines redis r s) {map : MemoryRegistry} {store : RedisStore}
    (t : Cluster) (hagree : Agree redis time map store) (htime : r.now ≤ time) :
    Refines redis { r.withTasks t with store := store, now := time }
      (t.withTable map (if a.clock.isSome then time else s.now)) where
  tasks := rfl
  agree := hagree
  clock := by
    have hclock := h.clock
    simp only [Cluster.withTable]
    split <;> omega

/-- A move over the server is the move over the table in memory with one clock reading. -/
theorem Refines.step (hnum : ∀ n < 2 ^ 53, redis.toNumber n = n) (h : Refines redis r s)
    (hop : ∀ op, s.call a = some op → op.InRange ∧ op.WholeMillis)
    (hs : r.step redis (time, a) = some r') :
    ∃ s', s.step (a.at time) = some s' ∧ Refines redis r' s' := by
  simp only [RedisCluster.step, h.call_eq] at hs
  split at hs
  · rename_i hno
    obtain ⟨t, ht, rfl⟩ := Option.map_eq_some_iff.mp hs
    have hquiet : r.tasks.call a = none := (h.call_eq a).trans hno
    refine ⟨t.withTable s.registry s.now, ?_, rfl, h.agree, h.clock⟩
    rw [Cluster.at_of_quiet hquiet ht, h.tasks, Cluster.step_withTable _ _ hquiet, ht]
    rfl
  · rename_i op hsome
    split at hs
    · rename_i htime
      obtain ⟨hrange, hwhole⟩ := hop op hsome
      obtain ⟨hreply, hagree⟩ := (h.agree.mono htime).perform hnum hrange hwhole
      rw [hreply] at hs
      obtain ⟨t, ht, rfl⟩ := Option.map_eq_some_iff.mp hs
      refine ⟨_, ?_, h.called (a := a) t hagree htime⟩
      rw [h.step_at hsome (Nat.le_trans h.clock htime), ht]
      rfl
    · cases hs

/-- A move over the table in memory that reads the clock once is a move over the server. -/
theorem Refines.back (hnum : ∀ n < 2 ^ 53, redis.toNumber n = n) (h : Refines redis r s)
    (hnow : r.now = s.now) (hop : ∀ op, s.call a = some op → op.InRange ∧ op.WholeMillis)
    (honce : a.ReadsOnce) (hs : s.step a = some s') :
    ∃ time r', r.step redis (time, a) = some r' ∧ Refines redis r' s' ∧ r'.now = s'.now := by
  cases hcall : s.call a with
  | none =>
    have hquiet : r.tasks.call a = none := (h.call_eq a).trans hcall
    rw [h.tasks, Cluster.step_withTable _ _ hquiet] at hs
    obtain ⟨t, ht, rfl⟩ := Option.map_eq_some_iff.mp hs
    refine ⟨0, r.withTasks t, ?_, ⟨rfl, h.agree, h.clock⟩, hnow⟩
    simp [RedisCluster.step, hquiet, ht]
  | some op =>
    obtain ⟨time, hat, htime, hlast⟩ : ∃ time, a.at time = a ∧ s.now ≤ time ∧
        (if a.clock.isSome then time else s.now) = time := by
      cases hclock : a.clock with
      | none => exact ⟨s.now, ClusterAction.at_eq_self (by simp [hclock]), Nat.le_refl _, rfl⟩
      | some clock =>
        have heq := honce clock hclock
        obtain ⟨hle, -⟩ := Cluster.follows_of_step hs hclock
        refine ⟨clock.now, ClusterAction.at_eq_self fun other hother => ?_, hle, rfl⟩
        obtain rfl := Option.some.inj (hclock.symm.trans hother)
        obtain ⟨now, stamp⟩ := clock
        exact congrArg (Clock.mk now) heq.symm
    obtain ⟨hrange, hwhole⟩ := hop op hcall
    obtain ⟨hreply, hagree⟩ := (h.agree.mono (hnow ▸ htime)).perform hnum hrange hwhole
    have hstep := h.step_at hcall htime
    rw [hat, hs] at hstep
    obtain ⟨t, ht, rfl⟩ := Option.map_eq_some_iff.mp hstep.symm
    refine ⟨time, { r.withTasks t with store := (redis.perform r.store time op).1, now := time },
      ?_, h.called (a := a) t hagree (hnow ▸ htime), hlast.symm⟩
    simp [RedisCluster.step, h.call_eq, hcall, hnow, htime, hreply, ht]

end Moves

end RedisCluster

/-- A node whose records and lifetimes a server can store. -/
structure NodeConfig.Storable (config : NodeConfig) : Prop where
  routeTtl : TtlInRange config.routeTtl
  whole : nanosPerMilli ∣ config.routeTtl
  nodeId : tab ∉ config.nodeId
  nodeAddr : tab ∉ config.nodeAddr
  baseDomain : tab ∉ config.baseDomain

/-- An account whose records a server can store. -/
structure Principal.Storable (principal : Principal) : Prop where
  accountId : tab ∉ principal.accountId
  customDomains : ∀ entry ∈ principal.customDomains, isDomainEntry entry = true

/-- The nodes and accounts that connect are configured without tabs, the ids are those of `ids.rs`,
and no tunnel asks for a name with a tab. -/
def ClusterAction.Storable : ClusterAction → Prop
  | .connect i node principal => isId "sess".toList i = true ∧ node.Storable ∧ principal.Storable
  | .openTunnel _ asked _ tunnelId => isId "tun".toList tunnelId = true ∧ asked.HasPlainName
  | _ => True

theorem ClusterAction.Storable.at {a : ClusterAction} (h : a.Storable) (time : Nat) :
    (a.at time).Storable := by
  cases a <;> exact h

namespace Cluster

/-- What the sessions have and claim can be stored. -/
structure Storable (s : Cluster) : Prop where
  connected : ∀ i, (s.session i).driver ≠ .absent → isId "sess".toList i = true ∧
    (s.session i).node.Storable ∧ (s.session i).principal.Storable
  claiming : ∀ i requestId record publicUrl,
    (s.session i).driver = .claiming requestId record publicUrl → record.TabFree
  beating : ∀ i, (s.session i).heartbeat ≠ .off → (s.session i).driver ≠ .absent

theorem Storable.init : Storable Cluster.init where
  connected _ h := absurd rfl h
  claiming _ _ _ _ h := by cases h
  beating _ h := absurd rfl h

/-- A record that a session prepares can be stored. -/
theorem tabFree_of_prepareTunnel {config : NodeConfig} {principal : Principal} {sessionId : Text}
    {tunnelCount : Nat} {request : OpenTunnel} {randomSubdomain tunnelId publicUrl : Text}
    {record : RouteRecord} (hconfig : config.Storable) (hprincipal : principal.Storable)
    (hsession : isId "sess".toList sessionId = true) (htunnel : isId "tun".toList tunnelId = true)
    (hname : request.HasPlainName)
    (h : prepareTunnel config principal sessionId tunnelCount request randomSubdomain tunnelId =
      .ok (record, publicUrl)) : record.TabFree := by
  obtain ⟨key, hkey, rfl⟩ := prepareTunnel_eq_ok h
  have hfree := (tab_notMem_key hconfig.baseDomain hprincipal.customDomains hkey).mpr hname
  have hs := tab_notMem_of_isId (by decide) hsession
  have ht := tab_notMem_of_isId (by decide) htunnel
  simp [RouteRecord.TabFree, RouteRecord.fields, hfree, hconfig.nodeId, hconfig.nodeAddr, hs, ht,
    hprincipal.accountId]

variable {s s' : Cluster} {a : ClusterAction}

/-- What is called with can be stored. -/
theorem Storable.call (hs : Storable s) {op : RegistryOp} (h : s.call a = some op) :
    op.InRange ∧ op.WholeMillis := by
  cases a <;> simp only [Cluster.call] at h
  case claim i clock =>
    split at h
    · rename_i requestId record publicUrl hd
      obtain rfl := Option.some.inj h
      obtain ⟨-, hnode, -⟩ := hs.connected i (by simp [hd])
      exact ⟨⟨hs.claiming i _ _ _ hd, hnode.routeTtl⟩, hnode.whole⟩
    · cases h
  case renewNext i clock =>
    split at h
    · rename_i hb
      obtain rfl := Option.some.inj h
      obtain ⟨-, hnode, -⟩ := hs.connected i (hs.beating i (by simp [hb]))
      exact ⟨hnode.routeTtl, hnode.whole⟩
    · cases h
  case releaseClosed | releaseNext | lookup | releaseStale =>
    split at h
    · obtain rfl := Option.some.inj h
      exact ⟨trivial, trivial⟩
    · cases h
  all_goals cases h

theorem Storable.connected_step (hs : Storable s) (ha : a.Storable) (h : Step s a s') (i : Text)
    (hi : (s'.session i).driver ≠ .absent) : isId "sess".toList i = true ∧
      (s'.session i).node.Storable ∧ (s'.session i).principal.Storable := by
  have hold := hs.connected i
  cases h
  case connect j node principal hd =>
    by_cases he : i = j
    · subst he
      simp only [setSession, Function.update_self]
      exact ha
    · simp only [setSession, Function.update_of_ne he] at hi ⊢
      exact hold hi
  all_goals first
    | exact hold hi
    | (simp only [setSession, setDriver, setHeartbeat, called, Function.update_apply] at hi ⊢
       split_ifs at hi ⊢ <;> simp_all)

theorem Storable.claiming_step (hs : Storable s) (ha : a.Storable) (h : Step s a s') (i : Text)
    (requestId : Text) (record : RouteRecord) (publicUrl : Text)
    (hi : (s'.session i).driver = .claiming requestId record publicUrl) : record.TabFree := by
  have hold := hs.claiming i requestId record publicUrl
  cases h
  case openTunnel j request randomSubdomain tunnelId other url hd hprepare =>
    by_cases he : i = j
    · subst he
      simp only [setDriver, setSession, Function.update_self, Driver.claiming.injEq] at hi
      obtain ⟨-, rfl, -⟩ := hi
      obtain ⟨hid, hnode, hprincipal⟩ := hs.connected i (by simp [hd])
      exact tabFree_of_prepareTunnel hnode hprincipal hid ha.1 ha.2 hprepare
    · simp only [setDriver, setSession, Function.update_of_ne he] at hi
      exact hold hi
  all_goals first
    | exact hold hi
    | (simp only [setSession, setDriver, setHeartbeat, called, Function.update_apply] at hi
       split_ifs at hi <;> simp_all)

theorem Storable.beating_step (hs : Storable s) (h : Step s a s') (i : Text)
    (hi : (s'.session i).heartbeat ≠ .off) : (s'.session i).driver ≠ .absent := by
  have hold := hs.beating i
  cases h
  all_goals first
    | exact hold hi
    | (simp only [setSession, setDriver, setHeartbeat, called, Function.update_apply] at hi ⊢
       split_ifs at hi ⊢ <;> simp_all)

theorem Storable.step (hs : Storable s) (ha : a.Storable) (h : s.step a = some s') :
    Storable s' where
  connected := hs.connected_step ha (step_cases h)
  claiming := hs.claiming_step ha (step_cases h)
  beating := hs.beating_step (step_cases h)

end Cluster

namespace RedisCluster

section Runs

variable {redis : RedisRegistry} {r : RedisCluster} {s : Cluster}

/-- A run over a server is a run over a table in memory. -/
theorem refines_of_run (hnum : ∀ n < 2 ^ 53, redis.toNumber n = n)
    (h : Run (step redis) (fun _ move => move.2.Storable) init r) :
    ∃ s, Run Cluster.step (fun _ a => a.Storable ∧ a.ReadsOnce) Cluster.init s ∧
      Refines redis r s ∧ s.Storable := by
  refine h.simulate (R := fun r s => Refines redis r s ∧ s.Storable) ⟨.init redis, .init⟩ ?_
  rintro r s ⟨time, a⟩ r' ⟨href, hstore⟩ ha hs
  obtain ⟨s', hs', href'⟩ := href.step hnum (fun _ hop => hstore.call hop) hs
  have hat : (a.at time).Storable := ha.at time
  exact ⟨a.at time, s', ⟨hat, a.at_readsOnce time⟩, hs', href', hstore.step hat hs'⟩

/-- A run over a table in memory whose calls see one instant each is a run over a server. -/
theorem run_of_refined (hnum : ∀ n < 2 ^ 53, redis.toNumber n = n)
    (h : Run Cluster.step (fun _ a => a.Storable ∧ a.ReadsOnce) Cluster.init s) :
    ∃ r, Run (step redis) (fun _ move => move.2.Storable) init r ∧
      Refines redis r s ∧ r.now = s.now ∧ s.Storable := by
  refine h.simulate (R := fun s r => Refines redis r s ∧ r.now = s.now ∧ s.Storable)
    ⟨.init redis, rfl, .init⟩ ?_
  rintro s r a s' ⟨href, hnow, hstore⟩ ⟨ha, honce⟩ hs
  obtain ⟨time, r', hr', href', hnow'⟩ :=
    href.back hnum hnow (fun _ hop => hstore.call hop) honce hs
  exact ⟨(time, a), r', ha, hr', href', hnow', hstore.step ha hs⟩

end Runs

/-- The nodes cannot tell a Redis server from a table in memory: as long as what they store has no
tab and lifetimes are whole milliseconds in range, the session tables, sessions and requests that
are reached over the one are those that are reached over the other, when a call sees one instant. -/
theorem reached_iff {redis : RedisRegistry} (hnum : ∀ n < 2 ^ 53, redis.toNumber n = n)
    (manager : Text → Finset Text) (session : Text → ControlSession) (visit : Nat → Visit) :
    (∃ r, Run (step redis) (fun _ move => move.2.Storable) init r ∧
        r.manager = manager ∧ r.session = session ∧ r.visit = visit) ↔
      ∃ s, Run Cluster.step (fun _ a => a.Storable ∧ a.ReadsOnce) Cluster.init s ∧
        s.manager = manager ∧ s.session = session ∧ s.visit = visit := by
  constructor
  · rintro ⟨r, hr, rfl, rfl, rfl⟩
    obtain ⟨s, hs, href, -⟩ := refines_of_run hnum hr
    exact ⟨s, hs, by rw [href.tasks]; exact ⟨rfl, rfl, rfl⟩⟩
  · rintro ⟨s, hs, rfl, rfl, rfl⟩
    obtain ⟨r, hr, href, -⟩ := run_of_refined hnum hs
    exact ⟨r, hr, by rw [href.tasks]; exact ⟨rfl, rfl, rfl⟩⟩

/-- An edge node with a heartbeat of a second. -/
def beatingNode : NodeConfig := { testNode with routeTtl := 3000 * nanosPerMilli }

/-- A session registers `api.tunnel.com` over the server, and a request finds its record a
millisecond later. -/
def lookedUp : List (Nat × ClusterAction) :=
  [(0, .connect "sess_0123456789abcdef".toList beatingNode
      ⟨"acct_1".toList, [], [], Limits.default⟩),
    (0, .welcome "sess_0123456789abcdef".toList),
    (0, .openTunnel "sess_0123456789abcdef".toList
      ⟨"req_1".toList, some (.http ⟨"demo".toList, [], "3000".toList, false⟩)⟩ []
      "tun_0123456789abcdef".toList),
    (0, .claim "sess_0123456789abcdef".toList ⟨0, 0⟩),
    (0, .register "sess_0123456789abcdef".toList),
    (0, .request 0 "node_a".toList .publicListener
      ⟨"GET".toList, ⟨some "demo.tunnel.com".toList, "/".toList, none⟩, .http2, []⟩),
    (nanosPerMilli, .lookup 0 ⟨0, 0⟩)]

theorem reached_iff_lookedUp : ∃ r s, exec (step testRegistry) init lookedUp = some r ∧
    Run Cluster.step (fun _ a => a.Storable ∧ a.ReadsOnce) Cluster.init s ∧
    s.session = r.session ∧ ∃ node role req key record,
      s.visit 0 = .found node role req key record ∧
      record.sessionId = "sess_0123456789abcdef".toList := by
  obtain ⟨r, node, role, req, key, record, hr, hv, hrecord⟩ : ∃ r node role req key record,
      exec (step testRegistry) init lookedUp = some r ∧
      r.visit 0 = .found node role req key record ∧
      record.sessionId = "sess_0123456789abcdef".toList :=
    ⟨_, _, _, _, _, _, rfl, rfl, rfl⟩
  have hnode : beatingNode.Storable :=
    ⟨by decide, ⟨3000, by decide⟩, by decide, by decide, by decide⟩
  have hname : OpenTunnel.HasPlainName
      ⟨"req_1".toList, some (.http ⟨"demo".toList, [], "3000".toList, false⟩)⟩ := by
    intro spec hspec
    obtain rfl : ⟨"demo".toList, [], "3000".toList, false⟩ = spec :=
      TunnelSpec.http.inj (Option.some.inj hspec)
    decide
  have hstore : ∀ move ∈ lookedUp, move.2.Storable := by
    simp only [lookedUp, List.forall_mem_cons, List.not_mem_nil, false_implies, implies_true,
      and_true]
    exact ⟨⟨by decide, hnode, by decide, by simp⟩, trivial, ⟨by decide, hname⟩, trivial, trivial,
      trivial, trivial⟩
  obtain ⟨s, hs, -, hsession, hvisit⟩ := (reached_iff (fun _ _ => rfl) _ _ _).mp
    ⟨r, Run.of_throughout .nil hr (.of_forall hstore), rfl, rfl, rfl⟩
  exact ⟨r, s, hr, hs, hsession, node, role, req, key, record, by rw [hvisit, hv], hrecord⟩

end RedisCluster

end Norupo
