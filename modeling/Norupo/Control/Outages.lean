import Norupo.Control.Expiry
import Norupo.Control.RedisCluster
import Norupo.Control.Teardown

/-!
# Outages of the routing table

A call of the routing table can fail: the server is not reached, or it performs the call and the
answer is lost. The tasks of `norupo-server/src/control.rs` and `ingress.rs` go on either way. A
claim that fails rejects the tunnel, a release that fails is left to the lifetime of the claim, and
a renewal that fails is left to the next beat, because "the TTL gives us `route_ttl` of slack". So
an outage that is shorter than that costs no live session its tunnel, whoever else calls what
meanwhile.
-/

namespace Norupo

open Transition

/-- How a call of the routing table ends. -/
inductive Outcome
  | answered
  /-- The call fails and is not performed. -/
  | refused (detail : Text)
  /-- The call is performed, but fails for the caller. -/
  | unheard (detail : Text)
  deriving DecidableEq, Repr

/-- The steps by which a session registers a tunnel, closes one or ends. -/
def ClusterAction.alters (sessionId : Text) : ClusterAction → Bool
  | .claim i _ | .register i | .closeTunnel i _ | .releaseClosed i | .releaseNext i | .leave i =>
    i = sessionId
  | _ => false

/-- The routing table has performed the call. -/
def Outcome.isPerformed : Outcome → Bool
  | .refused _ => false
  | _ => true

namespace Cluster

/-- One move, with the outcome of its call; `none` when it is not enabled. -/
def tryStep (s : Cluster) : ClusterAction × Outcome → Option Cluster
  | (a, .answered) => s.step a
  | (a, .refused detail) => s.answer (.error (.registryUnavailable detail)) a
  | (a, .unheard detail) =>
    (s.step a).bind fun called =>
      (s.answer (.error (.registryUnavailable detail)) a).map fun s' =>
        s'.withTable called.registry called.now

/-- What a task does when its call fails. -/
inductive Failed (s : Cluster) : ClusterAction → Cluster → Prop
  | claim {i clock requestId record publicUrl status} :
      (s.session i).driver = .claiming requestId record publicUrl →
      Failed s (.claim i clock) (s.setDriver i (.replying status))
  | releaseClosed {i tunnel} : (s.session i).driver = .releasing tunnel →
      Failed s (.releaseClosed i) (s.setDriver i .idle)
  | releaseNext {i tunnel rest} : (s.session i).driver = .tearingDown (tunnel :: rest) →
      Failed s (.releaseNext i) (s.setDriver i (.tearingDown rest))
  | renewNext {i clock tunnel rest} : (s.session i).heartbeat = .renewing (tunnel :: rest) →
      Failed s (.renewNext i clock) (s.setHeartbeat i (.renewing rest))
  | lookup {n clock} : Failed s (.lookup n clock) (s.setVisit n .finished)
  | releaseStale {n} : Failed s (.releaseStale n) (s.setVisit n .finished)

section Failures

variable {s s' : Cluster} {a : ClusterAction}

theorem failed_of_answer {e : Error} (h : s.answer (.error e) a = some s') : Failed s a s' := by
  cases a <;> simp only [answer] at h
  case claim i clock =>
    split at h
    · cases ‹Except.error e = _›
    · obtain rfl := Option.some.inj h
      exact .claim ‹_›
    · cases h
  case releaseClosed i =>
    split at h
    · obtain rfl := Option.some.inj h
      exact .releaseClosed ‹_›
    · cases h
  case releaseNext i =>
    split at h
    · obtain rfl := Option.some.inj h
      exact .releaseNext ‹_›
    · cases h
  case renewNext i clock =>
    split at h
    · cases ‹Except.error e = _›
    · obtain rfl := Option.some.inj h
      exact .renewNext ‹_›
    · cases h
  case lookup n clock =>
    split at h
    · cases ‹Except.error e = _›
    · cases ‹Except.error e = _›
    · obtain rfl := Option.some.inj h
      exact .lookup
    · cases h
  case releaseStale n =>
    split at h
    · obtain rfl := Option.some.inj h
      exact .releaseStale
    · cases h
  all_goals cases h

/-- A move is answered, or its task goes on without an answer, around a table that has performed the
call or has not. -/
theorem tryStep_cases {outcome : Outcome} (h : s.tryStep (a, outcome) = some s') :
    (outcome.isPerformed = true ∧ s.step a = some s') ∨
      Failed s a s' ∨
      ∃ called task, outcome.isPerformed = true ∧ s.step a = some called ∧ Failed s a task ∧
        s' = task.withTable called.registry called.now := by
  cases outcome with
  | answered => exact .inl ⟨rfl, h⟩
  | refused detail => exact .inr (.inl (failed_of_answer h))
  | unheard detail =>
    obtain ⟨called, hs, hrest⟩ := Option.bind_eq_some_iff.mp h
    obtain ⟨task, htask, rfl⟩ := Option.map_eq_some_iff.mp hrest
    exact .inr (.inr ⟨called, task, rfl, hs, failed_of_answer htask, rfl⟩)

/-- A failed call of a task changes no table. -/
theorem Failed.tables_eq (h : Failed s a s') :
    s'.registry = s.registry ∧ s'.now = s.now ∧ s'.manager = s.manager := by
  cases h <;> exact ⟨rfl, rfl, rfl⟩

/-- It leaves the sessions on their nodes, in or out of the session table. -/
theorem Failed.session_kept (h : Failed s a s') (i : Text) :
    (s'.session i).node = (s.session i).node ∧ (s'.session i).tunnels = (s.session i).tunnels ∧
      (s'.session i).driver.isListed = (s.session i).driver.isListed ∧
      (s'.session i).driver.hasStarted = (s.session i).driver.hasStarted := by
  cases h
  all_goals first
    | exact ⟨rfl, rfl, rfl, rfl⟩
    | (simp only [setDriver, setHeartbeat, setSession, Function.update_apply]
       split_ifs <;> simp_all [Driver.isListed, Driver.hasStarted])

theorem Failed.gone_mono (h : Failed s a s') {i : Text} (hs : (s.session i).driver = .gone) :
    (s'.session i).driver = .gone := by
  cases h
  all_goals first
    | exact hs
    | (simp only [setDriver, setHeartbeat, setSession, Function.update_apply]
       split_ifs <;> simp_all)

theorem Failed.started_mono (h : Failed s a s') {record : RouteRecord} (hs : s.Started record) :
    s'.Started record := by
  obtain ⟨hnode, -, -, hstarted⟩ := h.session_kept record.sessionId
  exact ⟨hstarted.trans hs.1, hs.2.trans (by rw [hnode])⟩

/-- Whatever becomes of their calls, tasks keep to what holds of them. -/
theorem Coherent.failed (hc : Coherent s) (h : Failed s a s') : Coherent s' where
  listed i nodeId := by
    obtain ⟨hnode, -, hlisted, -⟩ := h.session_kept i
    rw [h.tables_eq.2.2, hnode, hlisted, hc.listed]
  owned key record expiry hk := by
    rw [h.tables_eq.1] at hk
    exact h.started_mono (hc.owned key record expiry hk)
  claiming i requestId record publicUrl hd := by
    have hold := hc.claiming i requestId record publicUrl
    cases h
    all_goals first
      | exact hold hd
      | (simp only [setDriver, setHeartbeat, setSession, Function.update_apply] at hd ⊢
         split_ifs at hd ⊢ <;> simp_all)
  found n nodeId role req key record hv := by
    have hold := hc.found n nodeId role req key record
    refine h.started_mono ?_
    cases h
    all_goals first
      | exact hold hv
      | (simp only [setVisit, Function.update_apply] at hv
         split_ifs at hv
         exact hold hv)
  releasing n key i hv := by
    have hold := hc.releasing n key i
    refine h.gone_mono ?_
    cases h
    all_goals first
      | exact hold hv
      | (simp only [setVisit, Function.update_apply] at hv
         split_ifs at hv
         exact hold hv)

theorem Coherent.tryStep {outcome : Outcome} (hc : Coherent s)
    (h : s.tryStep (a, outcome) = some s') : Coherent s' := by
  rcases tryStep_cases h with ⟨-, hs⟩ | hf | ⟨called, task, -, hs, hf, rfl⟩
  · exact hc.step hs
  · exact hc.failed hf
  · have hcalled := hc.step hs
    have htask := hc.failed hf
    refine ⟨htask.listed, fun key record expiry hk => ?_, htask.claiming, htask.found,
      htask.releasing⟩
    -- What is in the table now was there before, or the task has claimed it under its own name.
    refine hf.started_mono ?_
    rcases (step_cases hs).registry_cases hk with
      ⟨e, hold⟩ | ⟨i, _, requestId, publicUrl, -, -, hd, -⟩
    · exact hc.owned key record e hold
    · obtain ⟨rfl, hnode⟩ := hc.claiming i requestId record publicUrl hd
      exact ⟨by rw [hd]; rfl, hnode⟩

/-- An entry of the routing table was there before with the same expiry, or its session has just
claimed or renewed it, whether it knows or not. -/
theorem expiry_cases_of_tryStep {outcome : Outcome} (hc : Coherent s)
    (h : s.tryStep (a, outcome) = some s') {key : Text} {record : RouteRecord} {expiry : Nat}
    (hk : s'.registry key = some (record, expiry)) :
    s.registry key = some (record, expiry) ∨ (outcome.isPerformed = true ∧
      a.refreshes record.sessionId = true ∧
      expiry = s'.now + (s.session record.sessionId).node.routeTtl) := by
  rcases tryStep_cases h with ⟨hp, hs⟩ | hf | ⟨called, task, hp, hs, hf, rfl⟩
  · exact ((step_cases hs).expiry_cases hc hk).imp_right fun hnew => ⟨hp, hnew⟩
  · rw [hf.tables_eq.1] at hk
    exact .inl hk
  · exact ((step_cases hs).expiry_cases hc hk).imp_right fun hnew => ⟨hp, hnew⟩

/-- The clock does not run backwards. -/
theorem now_mono_of_tryStep {outcome : Outcome} (h : s.tryStep (a, outcome) = some s') :
    s.now ≤ s'.now := by
  rcases tryStep_cases h with ⟨-, hs⟩ | hf | ⟨called, task, -, hs, hf, rfl⟩
  · exact (step_cases hs).now_mono
  · exact hf.tables_eq.2.1.ge
  · exact (step_cases hs).now_mono

/-- A session stays on its node. -/
theorem node_eq_of_tryStep {outcome : Outcome} (h : s.tryStep (a, outcome) = some s') {i : Text}
    (hi : (s.session i).driver.hasStarted = true ∨ a.refreshes i = true) :
    (s'.session i).node = (s.session i).node := by
  rcases tryStep_cases h with ⟨-, hs⟩ | hf | ⟨called, task, -, hs, hf, rfl⟩
  · exact (step_cases hs).node_eq hi
  · exact (hf.session_kept i).1
  · exact (hf.session_kept i).1

theorem Bounded.tryStep {outcome : Outcome} (hc : Coherent s) (hb : Bounded s)
    (h : s.tryStep (a, outcome) = some s') : Bounded s' :=
  hb.of_cases hc (now_mono_of_tryStep h)
    (fun _ _ _ hk => (expiry_cases_of_tryStep hc h hk).imp_right And.right)
    fun _ => node_eq_of_tryStep h

end Failures

section Slack

variable {s s' : Cluster} {a : ClusterAction} {key : Text} {record : RouteRecord} {tunnel : Tunnel}
  {expiry : Nat}

/-- A tunnel with an unexpired claim, which neither its session nor its heartbeat is about to
drop. -/
structure Kept (key : Text) (record : RouteRecord) (tunnel : Tunnel) (expiry : Nat) (s : Cluster) :
    Prop where
  live : record.sessionId ∈ s.manager record.nodeId
  held : ∃ later, expiry ≤ later ∧ s.registry key = some (record, later)
  listed : tunnel ∈ (s.session record.sessionId).tunnels
  /-- The id of the tunnel names nothing with another key. -/
  named : ∀ other ∈ (s.session record.sessionId).known, other.tunnelId = tunnel.tunnelId →
    other.routingKey = key
  wanted : ∀ other, (s.session record.sessionId).heartbeat.dropped = some other →
    other.routingKey ≠ key

/-- A renewal only moves the deadline of a claim further. -/
theorem Step.le_deadline (h : Step s a s') {i : Text} {lifetime : Nat}
    (hbound : expiry ≤ s.now + lifetime) :
    expiry ≤ deadline lifetime expiry (renewal key i s a) := by
  cases h
  case renewNext j clock other rest hb hf =>
    simp only [follows, Bool.and_eq_true, decide_eq_true_eq] at hf
    simp only [renewal, hb]
    split
    · simp only [deadline, List.getLast?_singleton, Option.map_some, Option.getD_some]
      omega
    · exact le_rfl
  all_goals exact le_rfl

/-- Without a registration nothing becomes known to a session. -/
theorem Step.known_subset (h : Step s a s') {i : Text} (ha : a ≠ .register i)
    (hstarted : (s.session i).driver.hasStarted = true) :
    (s'.session i).known ⊆ (s.session i).known := by
  by_cases hi : a.session = some i
  swap
  · rw [h.session_other hi]
    exact List.Subset.refl _
  cases h
  case connect j node principal hd =>
    obtain rfl := Option.some.inj hi
    simp [hd, Driver.hasStarted] at hstarted
  case register j requestId record publicUrl hd =>
    obtain rfl := Option.some.inj hi
    exact absurd rfl ha
  case closeUnknown => exact List.Subset.refl _
  case request | requestDone | lookup | lookupNone | consult | consultStale | releaseStale =>
    cases hi
  all_goals
    obtain rfl := Option.some.inj hi
    simp only [setHeartbeat, setDriver, setSession, called, Function.update_self]
    intro other
    simp_all [ControlSession.known, Heartbeat.pending]
    try grind

/-- A tunnel leaves the list of its session only when it is closed or dropped. -/
theorem Step.listed_kept (h : Step s a s') {i : Text} (hlisted : tunnel ∈ (s.session i).tunnels)
    (hstarted : (s.session i).driver.hasStarted = true) (hregister : a ≠ .register i)
    (hclose : ∀ tunnelId, a ≠ .closeTunnel i tunnelId)
    (hdropped : ∀ other, (s.session i).heartbeat.dropped = some other →
      other.tunnelId ≠ tunnel.tunnelId) :
    tunnel ∈ (s'.session i).tunnels := by
  by_cases hi : a.session = some i
  swap
  · rwa [h.session_other hi]
  cases h
  case connect j node principal hd =>
    obtain rfl := Option.some.inj hi
    simp [hd, Driver.hasStarted] at hstarted
  case register j requestId record publicUrl hd =>
    obtain rfl := Option.some.inj hi
    exact absurd rfl hregister
  case closeTunnel j tunnelId other hd hfind =>
    obtain rfl := Option.some.inj hi
    exact absurd rfl (hclose tunnelId)
  case dropTunnel j other rest hb =>
    obtain rfl := Option.some.inj hi
    have hne := hdropped other (by simp [hb, Heartbeat.dropped])
    simpa [hlisted] using hne.symm
  case request | requestDone | lookup | lookupNone | consult | consultStale | releaseStale =>
    cases hi
  all_goals
    obtain rfl := Option.some.inj hi
    simpa using hlisted

/-- The heartbeat drops a tunnel only when it has lost its claim. -/
theorem Step.dropped_cases (h : Step s a s') {i : Text} {other : Tunnel}
    (hd : (s'.session i).heartbeat.dropped = some other) :
    (s.session i).heartbeat.dropped = some other ∨
      ∃ clock, a = .renewNext i clock ∧ ∀ record expiry,
        s.registry other.routingKey = some (record, expiry) → clock.now < expiry →
          record.sessionId ≠ i := by
  by_cases hi : a.session = some i
  swap
  · exact .inl (h.session_other hi ▸ hd)
  cases h
  case renewNext j clock lost rest hb hf =>
    obtain rfl := Option.some.inj hi
    simp only [setHeartbeat, setSession, Function.update_self] at hd
    rcases MemoryRegistry.renew_cases s.registry lost.routingKey j (s.session j).node.routeTtl
      clock with ⟨old, e, -, -, -, hr⟩ | ⟨hnot, hr⟩
    · simp [hr, Heartbeat.dropped] at hd
    · simp only [hr, Heartbeat.dropped] at hd
      obtain rfl := Option.some.inj hd
      exact .inr ⟨clock, rfl, hnot⟩
  case request | requestDone | lookup | lookupNone | consult | consultStale | releaseStale =>
    cases hi
  all_goals
    obtain rfl := Option.some.inj hi
    left
    simp_all [Heartbeat.dropped]

/-- What a session has started with is there for its tunnels. -/
theorem Kept.started (hc : Coherent s) (hk : Kept key record tunnel expiry s) :
    (s.session record.sessionId).driver.hasStarted = true := by
  obtain ⟨later, -, hheld⟩ := hk.held
  exact (hc.owned key record later hheld).1

/-- A call that is answered before the claim expires leaves the tunnel alone. -/
theorem Kept.step (hc : Coherent s) (hb : Bounded s) (hk : Kept key record tunnel expiry s)
    (ha : a.alters record.sessionId = false)
    (hfresh : ∀ clock, a.clock = some clock → clock.now < expiry) (h : Step s a s') :
    Kept key record tunnel expiry s' := by
  have hstarted := hk.started hc
  obtain ⟨later, hle, hheld⟩ := hk.held
  have hlater : ∀ clock, a.clock = some clock → clock.now < later := fun clock hclock =>
    Nat.lt_of_lt_of_le (hfresh clock hclock) hle
  refine ⟨h.manager_kept hk.live ?_, ⟨_, ?_, h.registry_kept hc hheld hk.live hlater ?_⟩,
    h.listed_kept hk.listed hstarted ?_ ?_ ?_, fun other hother => ?_, fun other hother => ?_⟩
  · rintro rfl
    simp [ClusterAction.alters] at ha
  · exact Nat.le_trans hle (h.le_deadline (hb key record later hheld))
  · cases a <;> simp_all [ClusterAction.alters, ClusterAction.changesClaimsOf]
  · rintro rfl
    simp [ClusterAction.alters] at ha
  · rintro tunnelId rfl
    simp [ClusterAction.alters] at ha
  · intro other hother hid
    refine hk.wanted other hother (hk.named other ?_ hid)
    cases hbeat : (s.session record.sessionId).heartbeat <;>
      simp_all [Heartbeat.dropped, ControlSession.known, Heartbeat.pending]
  · refine hk.named other (h.known_subset ?_ hstarted hother)
    rintro rfl
    simp [ClusterAction.alters] at ha
  · rcases h.dropped_cases hother with hold | ⟨clock, rfl, hlost⟩
    · exact hk.wanted other hold
    · rintro rfl
      exact hlost record later hheld (hlater clock rfl) rfl

/-- A heartbeat without an answer goes on with the rest. -/
theorem Failed.heartbeat_kept (h : Failed s a s') (i : Text) :
    (s'.session i).heartbeat.pending ⊆ (s.session i).heartbeat.pending ∧
      ((s'.session i).heartbeat.dropped = none ∨
        (s'.session i).heartbeat.dropped = (s.session i).heartbeat.dropped) := by
  cases h
  case renewNext j clock lost rest hb =>
    by_cases he : i = j
    · subst he
      simp [hb, Heartbeat.pending, Heartbeat.dropped]
    · simp [he]
  case claim j _ _ _ _ _ _ | releaseClosed j _ _ | releaseNext j _ _ _ =>
    by_cases he : i = j <;> simp [he]
  all_goals simp

/-- A call that fails leaves the tunnel alone. -/
theorem Kept.failed (hk : Kept key record tunnel expiry s) (h : Failed s a s') :
    Kept key record tunnel expiry s' := by
  obtain ⟨-, htunnels, -, -⟩ := h.session_kept record.sessionId
  have hbeat := h.heartbeat_kept record.sessionId
  refine ⟨by rw [h.tables_eq.2.2]; exact hk.live, by rw [h.tables_eq.1]; exact hk.held,
    htunnels ▸ hk.listed, fun other hother => ?_, fun other hother => ?_⟩
  · refine hk.named other ?_
    rw [ControlSession.known, htunnels, List.mem_append] at hother
    exact List.mem_append.mpr (hother.imp_right fun hm => hbeat.1 hm)
  · rcases hbeat.2 with hnone | hsame
    · rw [hnone] at hother
      cases hother
    · exact hk.wanted other (hsame ▸ hother)

/-- Before the claim expires, no outcome of any call costs the session its tunnel. -/
theorem Kept.tryStep {outcome : Outcome} (hc : Coherent s) (hb : Bounded s)
    (hk : Kept key record tunnel expiry s) (ha : a.alters record.sessionId = false)
    (hfresh : outcome.isPerformed = true → ∀ clock, a.clock = some clock → clock.now < expiry)
    (h : s.tryStep (a, outcome) = some s') : Kept key record tunnel expiry s' := by
  rcases tryStep_cases h with ⟨hp, hs⟩ | hf | ⟨called, task, hp, hs, hf, rfl⟩
  · exact hk.step hc hb ha (hfresh hp) (step_cases hs)
  · exact hk.failed hf
  · -- The table is the one that has performed the call, and the rest is as if it had not.
    have hcalled := hk.step hc hb ha (hfresh hp) (step_cases hs)
    have htask := hk.failed hf
    exact ⟨htask.live, hcalled.held, htask.listed, htask.named, htask.wanted⟩

end Slack

end Cluster

end Norupo
