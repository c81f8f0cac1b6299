import Norupo.Control.Cluster

/-!
# Who may take a claim away

The clean-up in `ingress::handle` releases a claim under the id of its owner, so the owner check of
the routing table does not protect it. What does is the order of things: a session is in its node's
session table before it claims anything and leaves it after its last release, for good. A request
that misses a session in the table of its node therefore only releases claims of sessions that are
over.
-/

namespace Norupo

open Transition

/-- The session is in the session table of its node. -/
def Driver.isListed : Driver → Bool
  | .absent | .greeting | .gone => false
  | _ => true

/-- The session has entered the session table, or it is over. -/
def Driver.hasStarted : Driver → Bool
  | .absent | .greeting => false
  | _ => true

namespace Cluster

/-- The record was claimed by a session of the node it names, which may be over. -/
def Started (s : Cluster) (record : RouteRecord) : Prop :=
  (s.session record.sessionId).driver.hasStarted = true ∧
    record.nodeId = (s.session record.sessionId).node.nodeId

/-- What holds between the session tables, the routing table and the tasks. -/
structure Coherent (s : Cluster) : Prop where
  /-- The session tables list the sessions that have entered and not left. -/
  listed : ∀ i nodeId, i ∈ s.manager nodeId ↔
    (s.session i).driver.isListed = true ∧ (s.session i).node.nodeId = nodeId
  /-- Records belong to sessions that have entered. -/
  owned : ∀ key record expiry, s.registry key = some (record, expiry) → s.Started record
  /-- A session claims under its own name. -/
  claiming : ∀ i requestId record publicUrl,
    (s.session i).driver = .claiming requestId record publicUrl →
      record.sessionId = i ∧ record.nodeId = (s.session i).node.nodeId
  /-- So do the records in the hands of requests. -/
  found : ∀ n nodeId role req key record, s.visit n = .found nodeId role req key record →
    s.Started record
  /-- Requests release claims of sessions that are over. -/
  releasing : ∀ n key i, s.visit n = .releasing key i → (s.session i).driver = .gone

theorem Coherent.init : Coherent Cluster.init where
  listed i nodeId := by simp [Cluster.init, Driver.isListed]
  owned key record expiry h := by simp [Cluster.init, MemoryRegistry.new] at h
  claiming i requestId record publicUrl h := by simp [Cluster.init] at h
  found n nodeId role req key record h := by simp [Cluster.init] at h
  releasing n key i h := by simp [Cluster.init] at h

section Preservation

variable {s s' : Cluster} {a : ClusterAction}

/-- A session that has started stays so, on its node. -/
theorem Step.session_mono (h : Step s a s') (i : Text)
    (hs : (s.session i).driver.hasStarted = true) :
    (s'.session i).driver.hasStarted = true ∧ (s'.session i).node = (s.session i).node := by
  cases h
  all_goals first
    | exact ⟨hs, rfl⟩
    | (simp only [setSession, setDriver, setHeartbeat, called, Function.update_apply]
       split_ifs <;> simp_all [Driver.hasStarted])

theorem Step.started_mono (h : Step s a s') {record : RouteRecord} (hs : s.Started record) :
    s'.Started record := by
  obtain ⟨hstart, hnode⟩ := h.session_mono _ hs.1
  exact ⟨hstart, hs.2.trans (by rw [hnode])⟩

/-- A session that is over stays so. -/
theorem Step.gone_mono (h : Step s a s') {i : Text} (hs : (s.session i).driver = .gone) :
    (s'.session i).driver = .gone := by
  cases h
  all_goals first
    | exact hs
    | (simp only [setSession, setDriver, setHeartbeat, called, Function.update_apply]
       split_ifs <;> simp_all)

theorem Coherent.listed_step (hc : Coherent s) (h : Step s a s') (i nodeId : Text) :
    i ∈ s'.manager nodeId ↔
      (s'.session i).driver.isListed = true ∧ (s'.session i).node.nodeId = nodeId := by
  have hl := hc.listed i nodeId
  cases h
  case welcome j hj =>
    by_cases hi : i = j
    · subst hi
      have hn : i ∉ s.manager nodeId := by simp [hl, hj, Driver.isListed]
      by_cases hnode : nodeId = (s.session i).node.nodeId
      · simp [hnode, Driver.isListed]
      · simp [hnode, Ne.symm hnode, hn, Driver.isListed]
    · by_cases hnode : nodeId = (s.session j).node.nodeId
      · subst hnode
        simpa [hi] using hl
      · simpa [hi, hnode] using hl
  case leave j hj =>
    by_cases hi : i = j
    · subst hi
      by_cases hnode : nodeId = (s.session i).node.nodeId
      · simp [hnode, Driver.isListed]
      · simp [hnode, hl, Ne.symm hnode, Driver.isListed]
    · by_cases hnode : nodeId = (s.session j).node.nodeId
      · subst hnode
        simpa [hi] using hl
      · simpa [hi, hnode] using hl
  all_goals first
    | exact hl
    | (simp only [setSession, setDriver, setHeartbeat, called, Function.update_apply]
       split_ifs <;> simp_all [Driver.isListed])

/-- A record that is in the routing table was there before, or has just been claimed. -/
theorem Step.registry_cases (h : Step s a s') {key : Text} {record : RouteRecord} {expiry : Nat}
    (hk : s'.registry key = some (record, expiry)) :
    (∃ expiry, s.registry key = some (record, expiry)) ∨
      ∃ i clock requestId publicUrl, a = .claim i clock ∧ key = record.routingKey ∧
        (s.session i).driver = .claiming requestId record publicUrl ∧
        (s'.session i).driver = .claimed requestId record publicUrl .acquired := by
  have hevict {now : Nat} (he : s.registry.evictExpired now key = some (record, expiry)) :
      ∃ expiry, s.registry key = some (record, expiry) :=
    ⟨expiry, (MemoryRegistry.evictExpired_eq_some.mp he).1⟩
  cases h
  case claim i clock requestId claimed publicUrl hd hf =>
    rcases MemoryRegistry.claim_cases s.registry claimed (s.session i).node.routeTtl clock with
      ⟨_, _, _, _, _, hs⟩ | ⟨-, hs⟩
    · simp only [setDriver, setSession, called, hs] at hk
      exact .inl (hevict hk)
    · simp only [setDriver, setSession, called, hs, Function.update_apply] at hk
      split at hk
      · rename_i hkey
        obtain ⟨rfl, -⟩ := Prod.mk.inj (Option.some.inj hk)
        exact .inr ⟨i, clock, requestId, publicUrl, rfl, hkey, hd, by simp [hs]⟩
      · exact .inl (hevict hk)
  case renewNext i clock tunnel rest hb hf =>
    rcases MemoryRegistry.renew_cases s.registry tunnel.routingKey i (s.session i).node.routeTtl
      clock with ⟨old, e, hold, -, -, hs⟩ | ⟨-, hs⟩
    · simp only [setHeartbeat, setSession, called, hs, Function.update_apply] at hk
      split at hk
      · obtain ⟨rfl, -⟩ := Prod.mk.inj (Option.some.inj hk)
        rename_i heq
        exact .inl ⟨e, heq ▸ hold⟩
      · exact .inl (hevict hk)
    · simp only [setHeartbeat, setSession, called, hs] at hk
      exact .inl (hevict hk)
  case lookup | lookupNone => exact .inl (hevict hk)
  case releaseClosed | releaseNext | releaseStale =>
    exact .inl ⟨expiry, (MemoryRegistry.release_eq_some.mp hk).1⟩
  all_goals exact .inl ⟨expiry, hk⟩

theorem Coherent.owned_step (hc : Coherent s) (h : Step s a s') (key : Text)
    (record : RouteRecord) (expiry : Nat) (hk : s'.registry key = some (record, expiry)) :
    s'.Started record := by
  refine h.started_mono ?_
  rcases h.registry_cases hk with ⟨e, hold⟩ | ⟨i, _, requestId, publicUrl, -, -, hd, -⟩
  · exact hc.owned key record e hold
  · obtain ⟨rfl, hnode⟩ := hc.claiming i requestId record publicUrl hd
    exact ⟨by rw [hd]; rfl, hnode⟩

theorem Coherent.claiming_step (hc : Coherent s) (h : Step s a s') (i requestId : Text)
    (record : RouteRecord) (publicUrl : Text)
    (hd : (s'.session i).driver = .claiming requestId record publicUrl) :
    record.sessionId = i ∧ record.nodeId = (s'.session i).node.nodeId := by
  have hold := hc.claiming i requestId record publicUrl
  cases h
  case openTunnel j request _ _ record' publicUrl' hj hp =>
    simp only [setDriver, setSession, Function.update_apply] at hd ⊢
    split at hd
    · obtain ⟨-, rfl, -⟩ := Driver.claiming.inj hd
      rename_i hij
      rw [if_pos hij, hij]
      exact prepareTunnel_ok hp
    · rename_i hij
      rw [if_neg hij]
      exact hold hd
  all_goals first
    | exact hold hd
    | (simp only [setSession, setDriver, setHeartbeat, called, Function.update_apply] at hd ⊢
       split_ifs at hd ⊢ <;> simp_all)

theorem Coherent.found_step (hc : Coherent s) (h : Step s a s') (n : Nat) (nodeId : Text)
    (role : Role) (req : HttpRequest) (key : Text) (record : RouteRecord)
    (hv : s'.visit n = .found nodeId role req key record) : s'.Started record := by
  refine h.started_mono ?_
  have hold := hc.found n nodeId role req key record
  cases h
  case lookup m clock _ _ _ key' record' hf hr =>
    simp only [setVisit, called, Function.update_apply] at hv
    split at hv
    · obtain ⟨-, -, -, rfl, rfl⟩ := Visit.found.inj hv
      obtain ⟨⟨_, e⟩, he, rfl⟩ := Option.map_eq_some_iff.mp hr
      exact hc.owned _ _ e (MemoryRegistry.evictExpired_eq_some.mp he).1
    · exact hold hv
  all_goals first
    | exact hold hv
    | (simp only [setVisit, called, Function.update_apply] at hv
       split_ifs at hv
       exact hold hv)

theorem Coherent.releasing_step (hc : Coherent s) (h : Step s a s') (n : Nat) (key i : Text)
    (hv : s'.visit n = .releasing key i) : (s'.session i).driver = .gone := by
  refine h.gone_mono ?_
  have hold := hc.releasing n key i
  cases h
  case consultStale m nodeId role req key' record hm hnode hmiss =>
    simp only [setVisit, Function.update_apply] at hv
    split at hv
    · -- The session of the record has started and is not in the table of its node: it is over.
      obtain ⟨-, rfl⟩ := Visit.releasing.inj hv
      obtain ⟨hstart, hrec⟩ := hc.found m nodeId role req key' record hm
      rw [hc.listed] at hmiss
      cases hd : (s.session record.sessionId).driver <;>
        simp_all [Driver.hasStarted, Driver.isListed]
    · exact hold hv
  all_goals first
    | exact hold hv
    | (simp only [setVisit, called, Function.update_apply] at hv
       split_ifs at hv
       exact hold hv)

end Preservation

theorem Coherent.step {s s' : Cluster} {a : ClusterAction} (hc : Coherent s)
    (h : s.step a = some s') : Coherent s' where
  listed := hc.listed_step (step_cases h)
  owned := hc.owned_step (step_cases h)
  claiming := hc.claiming_step (step_cases h)
  found := hc.found_step (step_cases h)
  releasing := hc.releasing_step (step_cases h)

/-- In every reachable state, an unexpired record of a session that is in its node's session table
is removed or replaced only by a step in which that session registers or closes a tunnel or is torn
down. -/
theorem record_kept {s s' : Cluster} {a : ClusterAction} (h : Reachable step Cluster.init s)
    (hs : s.step a = some s') {key : Text} {record : RouteRecord} {expiry : Nat}
    (hk : s.registry key = some (record, expiry))
    (hlive : record.sessionId ∈ s.manager record.nodeId)
    (hfresh : ∀ clock, a.clock = some clock → clock.now < expiry) :
    (∃ expiry', s'.registry key = some (record, expiry')) ∨
      a.changesClaimsOf record.sessionId = true := by
  have hc : Coherent s := h.invariant .init fun _ _ _ hc _ hs => hc.step hs
  have hevict {clock : Clock} (ha : a.clock = some clock) :
      s.registry.evictExpired clock.now key = some (record, expiry) :=
    MemoryRegistry.evictExpired_eq_some.mpr ⟨hk, hfresh clock ha⟩
  have hrelease (other session : Text) (hne : record.sessionId ≠ session) :
      ∃ expiry', s.registry.release other session key = some (record, expiry') :=
    ⟨expiry, MemoryRegistry.release_eq_some.mpr ⟨hk, fun h => hne h.2⟩⟩
  cases step_cases hs
  case claim i clock requestId claimed publicUrl hd hf =>
    obtain ⟨hown, -⟩ := hc.claiming i requestId claimed publicUrl hd
    rcases MemoryRegistry.claim_cases s.registry claimed (s.session i).node.routeTtl clock with
      ⟨_, _, _, _, _, hcl⟩ | ⟨hmine, hcl⟩
    · left
      simp only [setDriver, setSession, called, hcl]
      exact ⟨expiry, hevict rfl⟩
    · by_cases hkey : key = claimed.routingKey
      · right
        subst hkey
        have := hmine record expiry hk (hfresh clock rfl)
        simp [ClusterAction.changesClaimsOf, this, hown]
      · left
        simp only [setDriver, setSession, called, hcl, Function.update_of_ne hkey]
        exact ⟨expiry, hevict rfl⟩
  case renewNext i clock tunnel rest hb hf =>
    left
    rcases MemoryRegistry.renew_cases s.registry tunnel.routingKey i (s.session i).node.routeTtl
      clock with ⟨old, e, hold, -, -, hr⟩ | ⟨-, hr⟩
    · simp only [setHeartbeat, setSession, called, hr, Function.update_apply]
      split
      · rename_i hkey
        subst hkey
        obtain ⟨rfl, -⟩ := Prod.mk.inj (Option.some.inj (hk.symm.trans hold))
        exact ⟨_, rfl⟩
      · exact ⟨expiry, hevict rfl⟩
    · simp only [setHeartbeat, setSession, called, hr]
      exact ⟨expiry, hevict rfl⟩
  case lookup | lookupNone => exact .inl ⟨expiry, hevict rfl⟩
  case releaseClosed i tunnel hd =>
    by_cases hi : record.sessionId = i
    · exact .inr (by simp [ClusterAction.changesClaimsOf, hi])
    · exact .inl (hrelease _ i hi)
  case releaseNext i tunnel rest hd =>
    by_cases hi : record.sessionId = i
    · exact .inr (by simp [ClusterAction.changesClaimsOf, hi])
    · exact .inl (hrelease _ i hi)
  case releaseStale n other i hv =>
    refine .inl (hrelease other i fun hi => ?_)
    subst hi
    have hgone := hc.releasing n other _ hv
    simp [hc.listed, hgone, Driver.isListed] at hlive
  all_goals exact .inl ⟨expiry, hk⟩

/-- A session that registers `a.tunnel.com`. -/
def registering (sessionId tunnelId : Text) (clock : Clock) : List ClusterAction :=
  [.connect sessionId testNode ⟨"acct".toList, [], [], Limits.default⟩, .welcome sessionId,
    .openTunnel sessionId ⟨"req".toList, some (.http ⟨"a".toList, [], "3000".toList, false⟩)⟩ []
      tunnelId,
    .claim sessionId clock, .register sessionId, .replied sessionId]

/-- A request looks up a session that then ends; by the time the request releases the stale claim,
a second session has taken the key over. -/
def overtaken : List ClusterAction :=
  registering "ses_1".toList "tun_1".toList ⟨0, 0⟩ ++
    [.request 0 "node_a".toList .publicListener
        ⟨"GET".toList, ⟨some "a.tunnel.com".toList, "/".toList, none⟩, .http2, []⟩,
      .lookup 0 ⟨1, 1⟩,
      .disconnect "ses_1".toList
        [⟨"tun_1".toList, "a.tunnel.com".toList, "https://a.tunnel.com".toList⟩],
      .releaseNext "ses_1".toList, .leave "ses_1".toList, .consult 0] ++
    registering "ses_2".toList "tun_2".toList ⟨2, 2⟩

/-- The late release leaves the claim of the second session alone. -/
theorem record_kept_overtaken : ∃ s s' record, exec step Cluster.init overtaken = some s ∧
    s.step (.releaseStale 0) = some s' ∧ record.sessionId = "ses_2".toList ∧
    s.registry "a.tunnel.com".toList = some (record, 32) ∧
    record.sessionId ∈ s.manager record.nodeId ∧
    ∃ expiry, s'.registry "a.tunnel.com".toList = some (record, expiry) := by
  obtain ⟨s, s', record, hs, hstep, hses, hk, hlive⟩ : ∃ s s' record,
      exec step Cluster.init overtaken = some s ∧ s.step (.releaseStale 0) = some s' ∧
      record.sessionId = "ses_2".toList ∧
      s.registry "a.tunnel.com".toList = some (record, 32) ∧
      record.sessionId ∈ s.manager record.nodeId :=
    ⟨_, _, _, rfl, rfl, rfl, rfl, by decide⟩
  refine ⟨s, s', record, hs, hstep, hses, hk, hlive, ?_⟩
  rcases record_kept (Reachable.of_exec .nil hs) hstep hk hlive
    (by intro clock hclock; cases hclock) with hkept | hown
  · exact hkept
  · cases hown

end Cluster

end Norupo
