import Norupo.Control.Ownership

/-!
# What a session leaves behind

The driver of a session and its heartbeat both remove tunnels, and `teardown` releases the claims of
the tunnels it finds listed. Nothing escapes it: a record of a session has a listed tunnel, because
the heartbeat only drops a tunnel whose claim was lost, and a claim that is made while it does so is
made for a tunnel with an id of its own. Tunnel ids are drawn once per session.
-/

namespace Norupo

open Transition

/-- The session that a step is about. -/
def ClusterAction.session : ClusterAction → Option Text
  | .connect i _ _ | .welcome i | .hangUp i | .openTunnel i _ _ _ | .claim i _ | .register i
  | .replied i | .closeTunnel i _ | .releaseClosed i | .disconnect i _ | .releaseNext i | .leave i
  | .beat i | .pinged i _ | .renewNext i _ | .dropTunnel i | .notified i | .rest i
  | .stopHeartbeat i => some i
  | .request _ _ _ _ | .lookup _ _ | .consult _ | .releaseStale _ => none

/-- The tunnel id that a step draws for a session. -/
def ClusterAction.draws (i : Text) : ClusterAction → Option Text
  | .openTunnel j _ _ tunnelId => if j = i then some tunnelId else none
  | _ => none

/-- The steps of `teardown`. -/
def ClusterAction.tearsDown (i : Text) : ClusterAction → Bool
  | .disconnect j _ | .releaseNext j | .leave j => j = i
  | _ => false

/-- The record that a registration is claiming or has claimed. -/
def Driver.record : Driver → Option RouteRecord
  | .claiming _ record _ | .claimed _ record _ _ => some record
  | _ => none

/-- The key is that of the registration or of the close that is being handled. -/
def Driver.isHandling (key : Text) : Driver → Bool
  | .claimed _ record _ .acquired => record.routingKey = key
  | .releasing tunnel => tunnel.routingKey = key
  | _ => false

/-- The tunnels that the heartbeat still has in hand. -/
def Heartbeat.pending : Heartbeat → List Tunnel
  | .renewing rest | .notifying rest => rest
  | .dropping tunnel rest => tunnel :: rest
  | _ => []

/-- The tunnel that the heartbeat is about to remove. -/
def Heartbeat.dropped : Heartbeat → Option Tunnel
  | .dropping tunnel _ => some tunnel
  | _ => none

/-- The tunnels that the session or its heartbeat knows of. -/
def ControlSession.known (c : ControlSession) : List Tunnel := c.tunnels ++ c.heartbeat.pending

/-- Tunnel ids tell the tunnels of a session apart. -/
structure ControlSession.Catalogued (drawn : List Text) (c : ControlSession) : Prop where
  /-- The ids of known tunnels have been drawn. -/
  ids : ∀ tunnel ∈ c.known, tunnel.tunnelId ∈ drawn
  /-- Known tunnels with one id have one key. -/
  keyed : ∀ tunnel ∈ c.known, ∀ other ∈ c.known, other.tunnelId = tunnel.tunnelId →
    other.routingKey = tunnel.routingKey
  /-- A tunnel that is being registered has a new id. -/
  fresh : ∀ record, c.driver.record = some record → record.tunnelId ∈ drawn ∧
    ∀ tunnel ∈ c.known, tunnel.tunnelId ≠ record.tunnelId

/-- Learning of no new tunnel and registering nothing new. -/
theorem ControlSession.Catalogued.mono {drawn : List Text} {c c' : ControlSession}
    (hc : c.Catalogued drawn) (hknown : c'.known ⊆ c.known)
    (hrecord : ∀ record, c'.driver.record = some record → c.driver.record = some record) :
    c'.Catalogued drawn where
  ids tunnel ht := hc.ids tunnel (hknown ht)
  keyed tunnel ht other ho := hc.keyed tunnel (hknown ht) other (hknown ho)
  fresh record hr :=
    ⟨(hc.fresh record (hrecord record hr)).1,
      fun tunnel ht => (hc.fresh record (hrecord record hr)).2 tunnel (hknown ht)⟩

namespace Cluster

variable {s s' : Cluster} {a : ClusterAction} {i : Text}

/-- A session moves only by its own steps. -/
theorem Step.session_other (h : Step s a s') (hi : a.session ≠ some i) :
    s'.session i = s.session i := by
  cases h
  all_goals first
    | rfl
    | (rw [ClusterAction.session, ne_eq, Option.some.injEq, eq_comm] at hi
       simp [hi])

/-- A step keeps the tunnels of a session apart when the ids it draws are new. -/
theorem Step.catalogued {drawn : List Text} (h : Step s a s')
    (hnew : ∀ tunnelId, a.draws i = some tunnelId → tunnelId ∉ drawn)
    (hc : (s.session i).Catalogued drawn) :
    (s'.session i).Catalogued (drawn ++ (a.draws i).toList) := by
  by_cases hi : a.session = some i
  swap
  · have hdraws : a.draws i = none := by
      cases a
      case openTunnel j _ _ _ =>
        rw [ClusterAction.session, Option.some.injEq] at hi
        exact if_neg hi
      all_goals rfl
    rw [h.session_other hi, hdraws]
    simpa using hc
  cases h
  case openTunnel j request randomSubdomain tunnelId record publicUrl hd hp =>
    obtain rfl : j = i := Option.some.inj hi
    have hdraws : (ClusterAction.openTunnel j request randomSubdomain tunnelId).draws j =
        some tunnelId := if_pos rfl
    obtain ⟨key, -, rfl⟩ := prepareTunnel_eq_ok hp
    rw [hdraws] at hnew ⊢
    simp only [setDriver, setSession, Function.update_self, Option.toList_some]
    refine ⟨fun tunnel ht => List.mem_append_left _ (hc.ids tunnel ht), hc.keyed, ?_⟩
    intro record hr
    obtain rfl := Option.some.inj hr
    refine ⟨List.mem_append_right _ (List.mem_singleton_self _), fun tunnel ht he => ?_⟩
    have hid : tunnel.tunnelId = tunnelId := he
    exact hnew tunnelId rfl (hid ▸ hc.ids tunnel ht)
  case openRejected j request randomSubdomain tunnelId status hd =>
    obtain rfl : j = i := Option.some.inj hi
    simp only [setDriver, setSession, Function.update_self]
    exact ⟨fun tunnel ht => List.mem_append_left _ (hc.ids tunnel ht), hc.keyed, by
      intro record hr
      cases hr⟩
  case register j requestId record publicUrl hd =>
    obtain rfl : j = i := Option.some.inj hi
    obtain ⟨hdrawn, hfresh⟩ := hc.fresh record (by rw [hd]; rfl)
    simp only [setSession, Function.update_self, ClusterAction.draws, Option.toList_none,
      List.append_nil]
    have hmem : ∀ tunnel, tunnel ∈ ControlSession.known { s.session j with
        driver := .replying (finishTunnel requestId record publicUrl .acquired).1
        tunnels := insertTunnel ⟨record.tunnelId, record.routingKey, publicUrl⟩
          (s.session j).tunnels } →
        tunnel ∈ (s.session j).known ∨
          tunnel = ⟨record.tunnelId, record.routingKey, publicUrl⟩ := by
      intro tunnel ht
      simp only [ControlSession.known, List.mem_append, mem_insertTunnel] at ht ⊢
      tauto
    refine ⟨fun tunnel ht => ?_, fun tunnel ht other ho he => ?_, fun record hr => by cases hr⟩
    · rcases hmem tunnel ht with ht | rfl
      · exact hc.ids tunnel ht
      · exact hdrawn
    · rcases hmem tunnel ht with ht | rfl
      · rcases hmem other ho with ho | rfl
        · exact hc.keyed tunnel ht other ho he
        · exact absurd he.symm (hfresh tunnel ht)
      · rcases hmem other ho with ho | rfl
        · exact absurd he (hfresh other ho)
        · rfl
  case request | requestDone | lookup | lookupNone | consult | consultStale | releaseStale =>
    cases hi
  all_goals
    obtain rfl := Option.some.inj hi
    simp only [setHeartbeat, setDriver, setSession, called, Function.update_self,
      ClusterAction.draws, Option.toList_none, List.append_nil]
    refine hc.mono ?_ ?_
    · intro tunnel
      simp_all [ControlSession.known, Heartbeat.pending]
      try grind
    · simp_all [Driver.record]

/-- Every record of a session has a listed tunnel that the heartbeat is not about to remove, except
while its registration or its close is handled; `teardown` has it on its list, and a session that is
over has no records. -/
structure Accounted (i : Text) (s : Cluster) : Prop where
  listed : ∀ key record expiry, s.registry key = some (record, expiry) → record.sessionId = i →
    (∃ tunnel ∈ (s.session i).tunnels, tunnel.routingKey = key ∧
      ∀ lost, (s.session i).heartbeat.dropped = some lost → tunnel.tunnelId ≠ lost.tunnelId) ∨
    (s.session i).driver.isHandling key = true
  tearing : ∀ rest, (s.session i).driver = .tearingDown rest →
    ∀ key record expiry, s.registry key = some (record, expiry) → record.sessionId = i →
      ∃ tunnel ∈ rest, tunnel.routingKey = key
  finished : (s.session i).driver = .gone →
    ∀ key record expiry, s.registry key = some (record, expiry) → record.sessionId ≠ i

/-- A record of a session was there before a step, unless the session claims it in that step. -/
theorem Step.owned_cases (h : Step s a s') (hc : Coherent s) {key : Text} {record : RouteRecord}
    {expiry : Nat} (hk : s'.registry key = some (record, expiry)) (hown : record.sessionId = i) :
    (∃ expiry, s.registry key = some (record, expiry)) ∨
      (a.session = some i ∧ ∃ requestId publicUrl, key = record.routingKey ∧
        (s'.session i).driver = .claimed requestId record publicUrl .acquired) := by
  rcases h.registry_cases hk with hold | ⟨j, clock, requestId, publicUrl, rfl, hkey, hd, hd'⟩
  · exact .inl hold
  · obtain ⟨hj, -⟩ := hc.claiming j requestId record publicUrl hd
    obtain rfl : j = i := hj.symm.trans hown
    exact .inr ⟨rfl, requestId, publicUrl, hkey, hd'⟩

theorem Accounted.listed_step {drawn : List Text} (hc : Coherent s)
    (hd : (s.session i).Catalogued drawn) (ha : Accounted i s) (h : Step s a s') (key : Text)
    (record : RouteRecord) (expiry : Nat) (hk : s'.registry key = some (record, expiry))
    (hown : record.sessionId = i) :
    (∃ tunnel ∈ (s'.session i).tunnels, tunnel.routingKey = key ∧
      ∀ lost, (s'.session i).heartbeat.dropped = some lost → tunnel.tunnelId ≠ lost.tunnelId) ∨
    (s'.session i).driver.isHandling key = true := by
  rcases h.owned_cases hc hk hown with ⟨e, hold⟩ | ⟨-, requestId, publicUrl, hkey, hclaimed⟩
  swap
  · right
    rw [hclaimed, hkey]
    simp [Driver.isHandling]
  have hl := ha.listed key record e hold hown
  by_cases hi : a.session = some i
  swap
  · rwa [h.session_other hi]
  cases h
  case request | requestDone | lookup | lookupNone | consult | consultStale | releaseStale =>
    cases hi
  case register j requestId claimed publicUrl hj =>
    obtain rfl : j = i := Option.some.inj hi
    obtain ⟨-, hfresh⟩ := hd.fresh claimed (by rw [hj]; rfl)
    left
    simp only [setSession, Function.update_self, mem_insertTunnel]
    rcases hl with ⟨tunnel, ht, hkey, hlost⟩ | hhandling
    · exact ⟨tunnel, .inl ⟨ht, hfresh tunnel (List.mem_append_left _ ht)⟩, hkey, hlost⟩
    · -- The new tunnel: its id is not the one that the heartbeat removes.
      rw [hj, Driver.isHandling, decide_eq_true_eq] at hhandling
      refine ⟨_, .inr rfl, hhandling, fun lost hlost he => ?_⟩
      refine hfresh lost (List.mem_append_right _ ?_) he.symm
      cases hb : (s.session j).heartbeat <;> simp_all [Heartbeat.dropped, Heartbeat.pending]
  case closeTunnel j tunnelId tunnel hj hf =>
    obtain rfl : j = i := Option.some.inj hi
    simp only [setSession, Function.update_self, mem_removeTunnel]
    have hid : tunnel.tunnelId = tunnelId := by simpa using List.find?_some hf
    obtain ⟨witness, hw, hkey, hlost⟩ := hl.resolve_right (by simp [hj, Driver.isHandling])
    by_cases he : witness.tunnelId = tunnelId
    · right
      have hsame := hd.keyed tunnel (List.mem_append_left _ (List.mem_of_find?_eq_some hf)) witness
        (List.mem_append_left _ hw) (he.trans hid.symm)
      simp [Driver.isHandling, ← hsame, hkey]
    · exact .inl ⟨witness, ⟨hw, he⟩, hkey, hlost⟩
  case releaseClosed j tunnel hj =>
    obtain rfl : j = i := Option.some.inj hi
    have hne : key ≠ tunnel.routingKey :=
      fun he => (MemoryRegistry.release_eq_some.mp hk).2 ⟨he, hown⟩
    left
    simp only [setDriver, setSession, Function.update_self]
    exact hl.resolve_right (by simp [hj, Driver.isHandling, hne.symm])
  case renewNext j clock tunnel rest hb hf =>
    obtain rfl : j = i := Option.some.inj hi
    simp only [setHeartbeat, setSession, called, Function.update_self] at hk ⊢
    rcases hl with ⟨witness, hw, hkey, -⟩ | hhandling
    swap
    · exact .inr hhandling
    left
    refine ⟨witness, hw, hkey, fun lost hlost he => ?_⟩
    split at hlost
    · cases hlost
    · -- The lost claim is not the record at hand, so the tunnel is another one.
      rename_i hr
      obtain rfl : tunnel = lost := Option.some.inj hlost
      have hsame := hd.keyed tunnel (List.mem_append_right _ (by simp [hb, Heartbeat.pending]))
        witness (List.mem_append_left _ hw) he
      rw [← hkey, hsame] at hk
      exact MemoryRegistry.renew_lost (Bool.eq_false_iff.mpr hr) hk hown
  case dropTunnel j tunnel rest hb =>
    obtain rfl : j = i := Option.some.inj hi
    simp only [setSession, Function.update_self, mem_removeTunnel]
    rcases hl with ⟨witness, hw, hkey, hlost⟩ | hhandling
    · refine .inl ⟨witness, ⟨hw, hlost tunnel (by rw [hb]; rfl)⟩, hkey, ?_⟩
      intro lost hl
      cases hl
    · exact .inr hhandling
  case connect | welcome =>
    -- A session that has a record has been welcomed before.
    obtain rfl := Option.some.inj hi
    have hstart := (hc.owned key record e hold).1
    rw [hown] at hstart
    simp_all [Driver.hasStarted]
  case stopHeartbeat j =>
    obtain rfl : j = i := Option.some.inj hi
    simp only [setHeartbeat, setSession, Function.update_self]
    rcases hl with ⟨witness, hw, hkey, -⟩ | hhandling
    · exact .inl ⟨witness, hw, hkey, fun lost hlost => by cases hlost⟩
    · exact .inr hhandling
  all_goals
    obtain rfl := Option.some.inj hi
    simp_all [Driver.isHandling, Heartbeat.dropped]

theorem Accounted.tearing_step (hc : Coherent s) (ha : Accounted i s) (h : Step s a s')
    (rest : List Tunnel) (hd : (s'.session i).driver = .tearingDown rest) (key : Text)
    (record : RouteRecord) (expiry : Nat) (hk : s'.registry key = some (record, expiry))
    (hown : record.sessionId = i) : ∃ tunnel ∈ rest, tunnel.routingKey = key := by
  rcases h.owned_cases hc hk hown with ⟨e, hold⟩ | ⟨-, requestId, publicUrl, -, hclaimed⟩
  swap
  · rw [hclaimed] at hd
    cases hd
  have htear := ha.tearing rest
  by_cases hi : a.session = some i
  swap
  · rw [h.session_other hi] at hd
    exact htear hd key record e hold hown
  cases h
  case disconnect j tunnels hj hp =>
    obtain rfl : j = i := Option.some.inj hi
    simp only [setDriver, setSession, Function.update_self, Driver.tearingDown.injEq] at hd
    obtain rfl := hd
    obtain ⟨tunnel, ht, hkey, -⟩ := (ha.listed key record e hold hown).resolve_right
      (by simp [hj, Driver.isHandling])
    exact ⟨tunnel, hp.mem_iff.mpr ht, hkey⟩
  case releaseNext j tunnel others hj =>
    obtain rfl : j = i := Option.some.inj hi
    have hne : key ≠ tunnel.routingKey :=
      fun he => (MemoryRegistry.release_eq_some.mp hk).2 ⟨he, hown⟩
    simp only [setDriver, setSession, Function.update_self, Driver.tearingDown.injEq] at hd
    obtain rfl := hd
    obtain ⟨witness, hw, hkey⟩ := ha.tearing _ hj key record e hold hown
    rcases List.mem_cons.mp hw with rfl | hw
    · exact absurd hkey.symm hne
    · exact ⟨witness, hw, hkey⟩
  case request | requestDone | lookup | lookupNone | consult | consultStale | releaseStale =>
    cases hi
  case closeUnknown => exact htear hd key record e hold hown
  all_goals
    obtain rfl := Option.some.inj hi
    simp only [setHeartbeat, setDriver, setSession, called, Function.update_self] at hd
    first
      | cases hd
      | exact htear hd key record e hold hown

theorem Accounted.finished_step (hc : Coherent s) (ha : Accounted i s) (h : Step s a s')
    (hd : (s'.session i).driver = .gone) (key : Text) (record : RouteRecord) (expiry : Nat)
    (hk : s'.registry key = some (record, expiry)) : record.sessionId ≠ i := by
  intro hown
  rcases h.owned_cases hc hk hown with ⟨e, hold⟩ | ⟨-, requestId, publicUrl, -, hclaimed⟩
  swap
  · rw [hclaimed] at hd
    cases hd
  have hover : (s.session i).driver ≠ .gone := fun hg => ha.finished hg key record e hold hown
  by_cases hi : a.session = some i
  swap
  · rw [h.session_other hi] at hd
    exact hover hd
  cases h
  case leave j hj =>
    obtain rfl : j = i := Option.some.inj hi
    obtain ⟨tunnel, ht, -⟩ := ha.tearing [] hj key record e hold hown
    cases ht
  case hangUp j hj =>
    obtain rfl : j = i := Option.some.inj hi
    have hstart := (hc.owned key record e hold).1
    rw [hown, hj] at hstart
    cases hstart
  case request | requestDone | lookup | lookupNone | consult | consultStale | releaseStale =>
    cases hi
  case closeUnknown => exact hover hd
  all_goals
    obtain rfl := Option.some.inj hi
    simp only [setHeartbeat, setDriver, setSession, called, Function.update_self] at hd
    first
      | cases hd
      | exact hover hd

/-- The tunnel ids that an execution draws for a session. -/
def drawnIds (i : Text) (as : List ClusterAction) : List Text := as.filterMap (·.draws i)

theorem Accounted.step {drawn : List Text} (hc : Coherent s)
    (hd : (s.session i).Catalogued drawn) (ha : Accounted i s) (h : Step s a s') :
    Accounted i s' where
  listed := ha.listed_step hc hd h
  tearing := ha.tearing_step hc h
  finished := ha.finished_step hc h

/-- Along every execution that draws the tunnel ids of a session once, its records are accounted
for. -/
theorem accounted_of_exec {as : List ClusterAction} (h : exec step Cluster.init as = some s)
    (hids : (drawnIds i as).Nodup) : Coherent s ∧ Accounted i s := by
  have hall : Coherent s ∧ ((drawnIds i as).Nodup →
      (s.session i).Catalogued (drawnIds i as) ∧ Accounted i s) := by
    refine exec_history (P := fun as s => Coherent s ∧ ((drawnIds i as).Nodup →
      (s.session i).Catalogued (drawnIds i as) ∧ Accounted i s)) ?_ ?_ h
    · refine ⟨.init, fun _ => ⟨⟨?_, ?_, ?_⟩, ⟨?_, ?_, ?_⟩⟩⟩ <;>
        simp [Cluster.init, ControlSession.known, Heartbeat.pending, Driver.record,
          MemoryRegistry.new]
    · rintro as s a s' ⟨hc, hold⟩ hs
      refine ⟨hc.step hs, fun hnodup => ?_⟩
      have hdrawn : drawnIds i (as ++ [a]) = drawnIds i as ++ (a.draws i).toList := by
        cases hdr : a.draws i <;> simp [drawnIds, hdr]
      rw [hdrawn, List.nodup_append] at hnodup
      obtain ⟨hd, ha⟩ := hold hnodup.1
      refine ⟨?_, ha.step hc hd (step_cases hs)⟩
      rw [hdrawn]
      refine (step_cases hs).catalogued (fun tunnelId hid hmem => ?_) hd
      exact hnodup.2.2 tunnelId hmem tunnelId (by simp [hid]) rfl
  exact ⟨hall.1, (hall.2 hids).2⟩

/-- The steps of a teardown change no record of another session. -/
theorem Step.teardown_other (h : Step s a s') (ha : a.tearsDown i = true) {key : Text}
    {record : RouteRecord} {expiry : Nat} (hne : record.sessionId ≠ i) :
    s'.registry key = some (record, expiry) ↔ s.registry key = some (record, expiry) := by
  cases h
  case disconnect | leave => rfl
  case releaseNext j tunnel rest hj =>
    obtain rfl : j = i := of_decide_eq_true ha
    exact MemoryRegistry.release_eq_some.trans (and_iff_left fun h => hne h.2)
  all_goals cases ha

/-- A session that is over stays so along every execution. -/
theorem gone_of_exec {as : List ClusterAction} {t : Cluster} (h : exec step s as = some t)
    (hs : (s.session i).driver = .gone) : (t.session i).driver = .gone := by
  refine exec_history (P := fun _ t => (t.session i).driver = .gone) hs ?_ h
  intro _ t a t' ht hstep
  exact (step_cases hstep).gone_mono ht

/-- In every run, every record of a session names the key of a listed tunnel, except the one whose
registration or close is being handled; once its teardown has returned no record carries its id,
then or later; and its teardown changes no record of another session. -/
theorem teardown_leaves_nothing {as : List ClusterAction}
    (h : exec step Cluster.init as = some s) (hids : (drawnIds i as).Nodup) :
    (∀ key record expiry, s.registry key = some (record, expiry) → record.sessionId = i →
      (∃ tunnel ∈ (s.session i).tunnels, tunnel.routingKey = key) ∨
        (s.session i).driver.isHandling key = true) ∧
    (∀ before after mid, as = before ++ after → exec step Cluster.init before = some mid →
      (mid.session i).driver = .gone →
        ∀ key record expiry, s.registry key = some (record, expiry) → record.sessionId ≠ i) ∧
    ∀ a s', a.tearsDown i = true → s.step a = some s' → ∀ key record expiry,
      record.sessionId ≠ i →
        (s'.registry key = some (record, expiry) ↔ s.registry key = some (record, expiry)) := by
  obtain ⟨-, ha⟩ := accounted_of_exec h hids
  refine ⟨fun key record expiry hk hown => ?_, fun before after mid has hmid hgone => ?_,
    fun a s' htear hs key record expiry hne => (step_cases hs).teardown_other htear hne⟩
  · rcases ha.listed key record expiry hk hown with ⟨tunnel, ht, hkey, -⟩ | hhandling
    · exact .inl ⟨tunnel, ht, hkey⟩
    · exact .inr hhandling
  · rw [has, exec_append, hmid, Option.bind_some] at h
    exact ha.finished (gone_of_exec h hgone)

/-- A claim expires, and while the heartbeat drops its tunnel the agent registers the name again
and hangs up. -/
def droppedMidway : List ClusterAction :=
  registering "ses_1".toList "tun_1".toList ⟨0, 0⟩ ++
    [.beat "ses_1".toList,
      .pinged "ses_1".toList
        [⟨"tun_1".toList, "a.tunnel.com".toList, "https://a.tunnel.com".toList⟩],
      .renewNext "ses_1".toList ⟨40, 40⟩,
      .openTunnel "ses_1".toList
        ⟨"req".toList, some (.http ⟨"a".toList, [], "3000".toList, false⟩)⟩ [] "tun_2".toList,
      .claim "ses_1".toList ⟨41, 41⟩, .register "ses_1".toList, .replied "ses_1".toList,
      .dropTunnel "ses_1".toList,
      .disconnect "ses_1".toList
        [⟨"tun_2".toList, "a.tunnel.com".toList, "https://a.tunnel.com".toList⟩],
      .releaseNext "ses_1".toList, .leave "ses_1".toList]

/-- The second claim is released with the session. -/
theorem teardown_leaves_nothing_midway : ∃ s, exec step Cluster.init droppedMidway = some s ∧
    ∀ key record expiry, s.registry key = some (record, expiry) →
      record.sessionId ≠ "ses_1".toList := by
  obtain ⟨s, hs, hgone⟩ : ∃ s, exec step Cluster.init droppedMidway = some s ∧
      (s.session "ses_1".toList).driver = .gone := ⟨_, rfl, rfl⟩
  exact ⟨s, hs, (teardown_leaves_nothing hs (by decide)).2.1 droppedMidway [] s
    (List.append_nil _).symm hs hgone⟩

end Cluster

end Norupo
