import Norupo.Control.Ownership

/-!
# How long a route lives

The heartbeat of `norupo-server/src/control.rs` renews the claims of a session for `route_ttl` at a
time. While its rounds come in time the route is found by every lookup, whatever everybody else does
meanwhile. When a node dies nothing of its sessions is released, and nothing is renewed either: at
the latest one lifetime after its last call, no record of such a session is found any more and none
is in the way of another claim.
-/

namespace Norupo

open Transition

/-- The calls by which a session extends the life of its claims. -/
def ClusterAction.refreshes (sessionId : Text) : ClusterAction → Bool
  | .claim s _ | .renewNext s _ => s = sessionId
  | _ => false

namespace Cluster

section Expiries

variable {s s' : Cluster} {a : ClusterAction}

/-- An entry of the routing table was there before with the same expiry, or its session has just
claimed or renewed it. -/
theorem Step.expiry_cases (hc : Coherent s) (h : Step s a s') {key : Text} {record : RouteRecord}
    {expiry : Nat} (hk : s'.registry key = some (record, expiry)) :
    s.registry key = some (record, expiry) ∨ a.refreshes record.sessionId = true ∧
      expiry = s'.now + (s.session record.sessionId).node.routeTtl := by
  have hevict {now : Nat} (he : s.registry.evictExpired now key = some (record, expiry)) :
      s.registry key = some (record, expiry) := (MemoryRegistry.evictExpired_eq_some.mp he).1
  cases h
  case claim i clock requestId claimed publicUrl hd hf =>
    rcases MemoryRegistry.claim_cases s.registry claimed (s.session i).node.routeTtl clock with
      ⟨_, _, _, _, _, hs⟩ | ⟨-, hs⟩
    · simp only [setDriver, setSession, called, hs] at hk
      exact .inl (hevict hk)
    · simp only [setDriver, setSession, called, hs, Function.update_apply] at hk
      split at hk
      · obtain ⟨rfl, rfl⟩ := Prod.mk.inj (Option.some.inj hk)
        obtain ⟨rfl, -⟩ := hc.claiming i requestId claimed publicUrl hd
        exact .inr ⟨by simp [ClusterAction.refreshes], rfl⟩
      · exact .inl (hevict hk)
  case renewNext i clock tunnel rest hb hf =>
    rcases MemoryRegistry.renew_cases s.registry tunnel.routingKey i (s.session i).node.routeTtl
      clock with ⟨old, e, -, -, hown, hs⟩ | ⟨-, hs⟩
    · simp only [setHeartbeat, setSession, called, hs, Function.update_apply] at hk
      split at hk
      · obtain ⟨rfl, rfl⟩ := Prod.mk.inj (Option.some.inj hk)
        subst hown
        exact .inr ⟨by simp [ClusterAction.refreshes], rfl⟩
      · exact .inl (hevict hk)
    · simp only [setHeartbeat, setSession, called, hs] at hk
      exact .inl (hevict hk)
  case lookup | lookupNone => exact .inl (hevict hk)
  case releaseClosed | releaseNext | releaseStale =>
    exact .inl (MemoryRegistry.release_eq_some.mp hk).1
  all_goals exact .inl hk

/-- The clock does not run backwards. -/
theorem Step.now_mono (h : Step s a s') : s.now ≤ s'.now := by
  cases h
  case claim hf | renewNext hf | lookup hf _ | lookupNone hf =>
    simp only [follows, Bool.and_eq_true, decide_eq_true_eq] at hf
    exact hf.1.trans hf.2
  all_goals exact le_rfl

/-- No claim lasts longer than the lifetime that its session gives it. -/
def Bounded (s : Cluster) : Prop :=
  ∀ key record expiry, s.registry key = some (record, expiry) →
    expiry ≤ s.now + (s.session record.sessionId).node.routeTtl

/-- A session stays on its node. -/
theorem Step.node_eq (h : Step s a s') {i : Text}
    (hi : (s.session i).driver.hasStarted = true ∨ a.refreshes i = true) :
    (s'.session i).node = (s.session i).node := by
  rcases hi with hstarted | ha
  · exact (h.session_mono i hstarted).2
  · cases h <;> simp_all [ClusterAction.refreshes]

/-- Old expiries stay within the bound as the clock goes on, and a new one is the bound. -/
theorem Bounded.of_cases (hc : Coherent s) (hb : Bounded s) (hnow : s.now ≤ s'.now)
    (hcases : ∀ key record expiry, s'.registry key = some (record, expiry) →
      s.registry key = some (record, expiry) ∨ a.refreshes record.sessionId = true ∧
        expiry = s'.now + (s.session record.sessionId).node.routeTtl)
    (hnode : ∀ i, (s.session i).driver.hasStarted = true ∨ a.refreshes i = true →
      (s'.session i).node = (s.session i).node) : Bounded s' := by
  intro key record expiry hk
  rcases hcases key record expiry hk with hold | ⟨ha, rfl⟩
  · have hbound := hb key record expiry hold
    rw [hnode _ (.inl (hc.owned key record expiry hold).1)]
    omega
  · rw [hnode _ (.inr ha)]

theorem Bounded.step (hc : Coherent s) (hb : Bounded s) (h : s.step a = some s') : Bounded s' :=
  hb.of_cases hc (step_cases h).now_mono (fun _ _ _ => (step_cases h).expiry_cases hc)
    fun _ => (step_cases h).node_eq

end Expiries

theorem bounded_of_run {s : Cluster} (h : Reachable step Cluster.init s) :
    Coherent s ∧ Bounded s := by
  refine h.invariant (P := fun s => Coherent s ∧ Bounded s)
    ⟨.init, fun key record expiry hk => ?_⟩ ?_
  · simp [Cluster.init, MemoryRegistry.new] at hk
  · rintro s a s' ⟨hc, hb⟩ - hs
    exact ⟨hc.step hs, hb.step hc hs⟩

/-- A session that neither claims nor renews gets nothing new into the routing table. -/
theorem registry_of_quiet {s s' : Cluster} {as : List ClusterAction} (hc : Coherent s)
    (h : exec step s as = some s') {key : Text} {record : RouteRecord} {expiry : Nat}
    (hquiet : ∀ a ∈ as, a.refreshes record.sessionId = false)
    (hk : s'.registry key = some (record, expiry)) : s.registry key = some (record, expiry) := by
  induction as generalizing s with
  | nil =>
    obtain rfl : s = s' := by simpa using h
    exact hk
  | cons a as ih =>
    rw [exec_cons, Option.bind_eq_some_iff] at h
    obtain ⟨mid, hs, hrest⟩ := h
    have hmid := ih (hc.step hs) hrest fun b hb => hquiet b (List.mem_cons_of_mem a hb)
    rcases (step_cases hs).expiry_cases hc hmid with hold | ⟨ha, -⟩
    · exact hold
    · rw [hquiet a List.mem_cons_self] at ha
      cases ha

/-- Sessions that are dead from some moment on are gone from the routing table as soon as the
lifetime of their claims is over: no lookup finds a record of theirs, and no claim is refused
because of one. All others may do what they like in the meantime. -/
theorem routes_expire {s s' : Cluster} {as : List ClusterAction} {dead : Text → Prop}
    {clock : Clock} (h : Reachable step Cluster.init s) (he : exec step s as = some s')
    (hdead : ∀ i, dead i → ∀ a ∈ as, a.refreshes i = false)
    (hover : ∀ i, dead i → s.now + (s.session i).node.routeTtl ≤ clock.now) :
    (∀ key record, (s'.registry.lookup key clock).2 = some record → ¬ dead record.sessionId) ∧
    ∀ record ttl owner, (s'.registry.claim record ttl clock).2 = .taken owner →
      ¬ dead owner.sessionId := by
  obtain ⟨hc, hb⟩ := bounded_of_run h
  have hgone {key : Text} {record : RouteRecord} {expiry : Nat}
      (hk : s'.registry key = some (record, expiry)) (hlive : clock.now < expiry) :
      ¬ dead record.sessionId := by
    intro hi
    have hold := registry_of_quiet hc he (hdead _ hi) hk
    have hbound := hb key record expiry hold
    have htime := hover _ hi
    omega
  constructor
  · intro key record hr
    obtain ⟨⟨_, expiry⟩, hget, rfl⟩ := Option.map_eq_some_iff.mp hr
    obtain ⟨hk, hlive⟩ := MemoryRegistry.evictExpired_eq_some.mp hget
    exact hgone hk hlive
  · intro record ttl owner ht
    rcases s'.registry.claim_cases record ttl clock with
      ⟨existing, expiry, hk, hlive, -, hr⟩ | ⟨-, hr⟩
    · rw [hr] at ht
      obtain rfl : existing = owner := by simpa using ht
      exact hgone hk hlive
    · rw [hr] at ht
      cases ht

/-- The node of the first session dies after its registration. One lifetime later a second session
registers the same name. -/
theorem routes_expire_taken_over : ∃ s s', Reachable step Cluster.init s ∧
    exec step s [.connect "ses_2".toList testNode ⟨"acct".toList, [], [], Limits.default⟩] =
      some s' ∧
    (∃ expiry record, s'.registry "a.tunnel.com".toList = some (record, expiry) ∧
      record.sessionId = "ses_1".toList) ∧
    ∀ owner, (s'.registry.claim ⟨"a.tunnel.com".toList, "node_a".toList, "10.0.0.1:8081".toList,
      "ses_2".toList, "tun_2".toList, "acct".toList⟩ 30 ⟨40, 40⟩).2 = .taken owner →
      owner.sessionId ≠ "ses_1".toList := by
  obtain ⟨s, s', hs, hs', hnow, hk⟩ : ∃ s s',
      exec step Cluster.init (registering "ses_1".toList "tun_1".toList ⟨5, 5⟩) = some s ∧
      exec step s [.connect "ses_2".toList testNode ⟨"acct".toList, [], [], Limits.default⟩] =
        some s' ∧ s.now + (s.session "ses_1".toList).node.routeTtl = 35 ∧
      s'.registry "a.tunnel.com".toList = some (⟨"a.tunnel.com".toList, "node_a".toList,
        "10.0.0.1:8081".toList, "ses_1".toList, "tun_1".toList, "acct".toList⟩, 35) :=
    ⟨_, _, rfl, rfl, rfl, rfl⟩
  have hrun := Reachable.of_exec .nil hs
  refine ⟨s, s', hrun, hs', ⟨35, _, hk, rfl⟩, fun owner ht => ?_⟩
  let dead := fun i : Text => i = "ses_1".toList
  refine (@routes_expire s s' _ dead ⟨40, 40⟩ hrun hs' ?_ ?_).2 _ 30 owner ht
  · rintro i rfl a ha
    obtain rfl := List.mem_singleton.mp ha
    rfl
  · rintro i rfl
    rw [hnow]
    decide

/-- The time of a renewal: the heartbeat of a session has come to a tunnel with this key. -/
def renewal (key i : Text) (s : Cluster) : ClusterAction → List Nat
  | .renewNext j clock =>
    match (s.session j).heartbeat with
    | .renewing (tunnel :: _) => if j = i ∧ tunnel.routingKey = key then [clock.stamp] else []
    | _ => []
  | _ => []

/-- When a claim expires after some renewals: one lifetime after the last of them, and without one
when it did before. -/
def deadline (lifetime expiry : Nat) (renewals : List Nat) : Nat :=
  (renewals.getLast?.map fun time => time + lifetime).getD expiry

theorem deadline_append (lifetime expiry : Nat) (renewals later : List Nat) :
    deadline lifetime expiry (renewals ++ later) =
      deadline lifetime (deadline lifetime expiry renewals) later := by
  unfold deadline
  rw [List.getLast?_append]
  cases later.getLast? <;> rfl

section Renewals

variable {s s' : Cluster} {a : ClusterAction} {key : Text} {record : RouteRecord} {expiry : Nat}

/-- A claim that has not expired stays with its session, with the expiry that the step gives it. -/
theorem Step.registry_kept (hc : Coherent s) (h : Step s a s')
    (hk : s.registry key = some (record, expiry))
    (hlive : record.sessionId ∈ s.manager record.nodeId)
    (hfresh : ∀ clock, a.clock = some clock → clock.now < expiry)
    (hown : a.changesClaimsOf record.sessionId = false) :
    s'.registry key = some (record, deadline (s.session record.sessionId).node.routeTtl expiry
      (renewal key record.sessionId s a)) := by
  have hevict {clock : Clock} (ha : a.clock = some clock) :
      s.registry.evictExpired clock.now key = some (record, expiry) :=
    MemoryRegistry.evictExpired_eq_some.mpr ⟨hk, hfresh clock ha⟩
  have hrelease (other session : Text) (hne : record.sessionId ≠ session) :
      s.registry.release other session key = some (record, expiry) :=
    MemoryRegistry.release_eq_some.mpr ⟨hk, fun h => hne h.2⟩
  cases h
  case claim i clock requestId claimed publicUrl hd hf =>
    obtain ⟨hname, -⟩ := hc.claiming i requestId claimed publicUrl hd
    rcases MemoryRegistry.claim_cases s.registry claimed (s.session i).node.routeTtl clock with
      ⟨_, _, _, _, _, hcl⟩ | ⟨hmine, hcl⟩
    · simp only [setDriver, setSession, called, hcl]
      exact hevict rfl
    · have hkey : key ≠ claimed.routingKey := by
        rintro rfl
        have howner := hmine record expiry hk (hfresh clock rfl)
        simp [ClusterAction.changesClaimsOf, howner, hname] at hown
      simp only [setDriver, setSession, called, hcl, Function.update_of_ne hkey]
      exact hevict rfl
  case renewNext i clock tunnel rest hb hf =>
    have hnone (hn : ¬ (i = record.sessionId ∧ tunnel.routingKey = key)) :
        renewal key record.sessionId s (.renewNext i clock) = [] := by
      simp only [renewal, hb, if_neg hn]
    rcases MemoryRegistry.renew_cases s.registry tunnel.routingKey i (s.session i).node.routeTtl
      clock with ⟨old, e, hold, -, hmine, hr⟩ | ⟨hnot, hr⟩
    · simp only [setHeartbeat, setSession, called, hr]
      by_cases hkey : key = tunnel.routingKey
      · subst hkey
        obtain ⟨rfl, rfl⟩ := Prod.mk.inj (Option.some.inj (hk.symm.trans hold))
        subst hmine
        simp [renewal, hb, deadline]
      · rw [Function.update_of_ne hkey, hnone fun hn => hkey hn.2.symm]
        exact hevict rfl
    · simp only [setHeartbeat, setSession, called, hr]
      rw [hnone fun hn => hnot record expiry (hn.2 ▸ hk) (hfresh clock rfl) hn.1.symm]
      exact hevict rfl
  case lookup | lookupNone => exact hevict rfl
  case releaseClosed i tunnel hd =>
    refine hrelease _ i ?_
    rintro rfl
    simp [ClusterAction.changesClaimsOf] at hown
  case releaseNext i tunnel rest hd =>
    refine hrelease _ i ?_
    rintro rfl
    simp [ClusterAction.changesClaimsOf] at hown
  case releaseStale n other i hv =>
    refine hrelease other i ?_
    rintro rfl
    have hgone := hc.releasing n other _ hv
    simp [hc.listed, hgone, Driver.isListed] at hlive
  all_goals exact hk

/-- A session stays in the table of its node until it leaves. -/
theorem Step.manager_kept (h : Step s a s') {i nodeId : Text} (hm : i ∈ s.manager nodeId)
    (ha : a ≠ .leave i) : i ∈ s'.manager nodeId := by
  cases h
  case welcome j hj =>
    simp only [Function.update_apply]
    split
    · rename_i hnode
      exact Finset.mem_insert_of_mem (hnode ▸ hm)
    · exact hm
  case leave j hj =>
    simp only [Function.update_apply]
    split
    · rename_i hnode
      refine Finset.mem_erase.mpr ⟨?_, hnode ▸ hm⟩
      rintro rfl
      exact ha rfl
    · exact hm
  all_goals exact hm

end Renewals

/-- The record of a session that neither registers, closes nor ends, after a run whose clock
readings are all before the deadline of their time. -/
theorem registry_of_renewed {s s' : Cluster} {as : List ClusterAction} {key : Text}
    {record : RouteRecord} {expiry : Nat} (hc : Coherent s) (he : exec step s as = some s')
    (hk : s.registry key = some (record, expiry))
    (hlive : record.sessionId ∈ s.manager record.nodeId)
    (hstays : ∀ a ∈ as, a.changesClaimsOf record.sessionId = false ∧ a ≠ .leave record.sessionId)
    (htimely : ∀ before a after clock, as = before ++ a :: after → a.clock = some clock →
      clock.now < deadline (s.session record.sessionId).node.routeTtl expiry
        (trace step (renewal key record.sessionId) s before)) :
    Coherent s' ∧ record.sessionId ∈ s'.manager record.nodeId ∧
      (s'.session record.sessionId).node = (s.session record.sessionId).node ∧
      s'.registry key = some (record, deadline (s.session record.sessionId).node.routeTtl expiry
        (trace step (renewal key record.sessionId) s as)) := by
  induction as using List.reverseRecOn generalizing s' with
  | nil =>
    obtain rfl : s = s' := by simpa using he
    exact ⟨hc, hlive, rfl, hk⟩
  | append_singleton as a ih =>
    obtain ⟨mid, hmid, hs⟩ := exec_concat_eq_some.mp he
    obtain ⟨hcm, hlivem, hnode, hkm⟩ := ih hmid
      (fun b hb => hstays b (List.mem_append_left _ hb))
      fun before b after clock hsplit => htimely before b (after ++ [a]) clock (by simp [hsplit])
    obtain ⟨hown, hleave⟩ := hstays a (List.mem_append_right _ (List.mem_singleton_self a))
    have hstep := step_cases hs
    have hstarted : (mid.session record.sessionId).driver.hasStarted = true :=
      (hcm.owned key record _ hkm).1
    refine ⟨hcm.step hs, hstep.manager_kept hlivem hleave,
      (hstep.session_mono _ hstarted).2.trans hnode, ?_⟩
    have hnext := hstep.registry_kept hcm hkm hlivem
      (fun clock ha => htimely as a [] clock rfl ha) hown
    rw [trace_concat hmid hs, deadline_append, ← hnode]
    exact hnode ▸ hnext

/-- The route of a session that neither registers, closes nor ends is there as long as its heartbeat
is in time: if nothing reads the clock later than one lifetime after the last renewal of its key,
then every lookup that is in time finds it. All others may do what they like. -/
theorem route_renewed {s s' : Cluster} {as : List ClusterAction} {key : Text} {record : RouteRecord}
    {expiry : Nat} (h : Reachable step Cluster.init s) (he : exec step s as = some s')
    (hk : s.registry key = some (record, expiry))
    (hlive : record.sessionId ∈ s.manager record.nodeId)
    (hstays : ∀ a ∈ as, a.changesClaimsOf record.sessionId = false ∧ a ≠ .leave record.sessionId)
    (htimely : ∀ before a after clock, as = before ++ a :: after → a.clock = some clock →
      clock.now < deadline (s.session record.sessionId).node.routeTtl expiry
        (trace step (renewal key record.sessionId) s before)) :
    ∀ clock : Clock, clock.now < deadline (s.session record.sessionId).node.routeTtl expiry
        (trace step (renewal key record.sessionId) s as) →
      (s'.registry.lookup key clock).2 = some record := by
  obtain ⟨-, -, -, hk'⟩ := registry_of_renewed (bounded_of_run h).1 he hk hlive hstays htimely
  intro clock hnow
  have hget := MemoryRegistry.evictExpired_eq_some.mpr ⟨hk', hnow⟩
  simp [MemoryRegistry.lookup, hget]

/-- A heartbeat renews its claim shortly before it expires: the route is found beyond the first
expiry. -/
theorem route_renewed_once : ∃ s s' record,
    exec step Cluster.init (registering "ses_1".toList "tun_1".toList ⟨5, 5⟩) = some s ∧
    exec step s [.beat "ses_1".toList,
      .pinged "ses_1".toList
        [⟨"tun_1".toList, "a.tunnel.com".toList, "https://a.tunnel.com".toList⟩],
      .renewNext "ses_1".toList ⟨34, 34⟩] = some s' ∧
    s.registry "a.tunnel.com".toList = some (record, 35) ∧
    (s'.registry.lookup "a.tunnel.com".toList ⟨63, 63⟩).2 = some record := by
  obtain ⟨s, s', record, hs, hs', hk, hlive, httl, hquiet, htrace⟩ : ∃ s s' record,
      exec step Cluster.init (registering "ses_1".toList "tun_1".toList ⟨5, 5⟩) = some s ∧
      exec step s [.beat "ses_1".toList,
        .pinged "ses_1".toList
          [⟨"tun_1".toList, "a.tunnel.com".toList, "https://a.tunnel.com".toList⟩],
        .renewNext "ses_1".toList ⟨34, 34⟩] = some s' ∧
      s.registry "a.tunnel.com".toList = some (record, 35) ∧
      record.sessionId ∈ s.manager record.nodeId ∧
      (s.session record.sessionId).node.routeTtl = 30 ∧
      trace step (renewal "a.tunnel.com".toList record.sessionId) s [.beat "ses_1".toList,
        .pinged "ses_1".toList
          [⟨"tun_1".toList, "a.tunnel.com".toList, "https://a.tunnel.com".toList⟩]] = [] ∧
      trace step (renewal "a.tunnel.com".toList record.sessionId) s [.beat "ses_1".toList,
        .pinged "ses_1".toList
          [⟨"tun_1".toList, "a.tunnel.com".toList, "https://a.tunnel.com".toList⟩],
        .renewNext "ses_1".toList ⟨34, 34⟩] = [34] :=
    ⟨_, _, _, rfl, rfl, rfl, by decide, rfl, rfl, rfl⟩
  refine ⟨s, s', record, hs, hs', hk, ?_⟩
  refine route_renewed (.of_exec .nil hs) hs' hk hlive ?_ ?_ ⟨63, 63⟩ ?_
  · simp [ClusterAction.changesClaimsOf]
  · intro before a after clock hsplit ha
    rcases before with _ | ⟨_, _ | ⟨_, _ | ⟨_, rest⟩⟩⟩
    · obtain ⟨rfl, -⟩ := List.cons.inj hsplit
      cases ha
    · simp only [List.nil_append, List.cons_append, List.cons.injEq] at hsplit
      obtain ⟨-, rfl, -⟩ := hsplit
      cases ha
    · simp only [List.nil_append, List.cons_append, List.cons.injEq] at hsplit
      obtain ⟨rfl, rfl, rfl, -⟩ := hsplit
      obtain rfl := Option.some.inj ha
      rw [hquiet, httl]
      decide
    · simp at hsplit
  · rw [htrace, httl]
    decide

end Cluster

end Norupo
