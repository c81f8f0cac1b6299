import Norupo.Control.Cluster

/-!
# The tunnel list and the claims of a session

`handle_client_frame` for the frames `OpenTunnel` and `CloseTunnel`, one frame after the other: the
steps of `Cluster` that the driver of a session takes for a frame, with nothing else in between. The
list of tunnels and the routing table are updated separately, one by tunnel id and the other by
routing key, and a session may register one key twice.
-/

namespace Norupo

open Transition

/-- A frame about tunnels, with what is drawn and read while it is handled. -/
inductive TunnelFrame
  | openTunnel (request : OpenTunnel) (randomSubdomain tunnelId : Text) (clock : Clock)
  | closeTunnel (tunnelId : Text)
  deriving DecidableEq, Repr

/-- The routing table and the tunnels of one session. -/
structure Holdings where
  node : NodeConfig
  principal : Principal
  sessionId : Text
  registry : MemoryRegistry
  tunnels : List Tunnel
  /-- The tunnel ids drawn so far. -/
  drawn : List Text

namespace Holdings

/-- `handle_client_frame` on `OpenTunnel`: `register_tunnel`. -/
def openTunnel (s : Holdings) (request : OpenTunnel) (randomSubdomain tunnelId : Text)
    (clock : Clock) : Holdings × TunnelStatus :=
  let s := { s with drawn := s.drawn ++ [tunnelId] }
  match prepareTunnel s.node s.principal s.sessionId s.tunnels.length request randomSubdomain
      tunnelId with
  | .error status => (s, status)
  | .ok (record, publicUrl) =>
    let (registry, claim) := s.registry.claim record s.node.routeTtl clock
    let (status, tunnel) := finishTunnel request.requestId record publicUrl claim
    ({ s with
       registry := registry
       tunnels := match tunnel with
         | some tunnel => insertTunnel tunnel s.tunnels
         | none => s.tunnels }, status)

/-- `handle_client_frame` on `CloseTunnel`. -/
def closeTunnel (s : Holdings) (tunnelId : Text) : Holdings :=
  match s.tunnels.find? fun tunnel => tunnel.tunnelId = tunnelId with
  | some tunnel =>
    { s with
      registry := s.registry.release tunnel.routingKey s.sessionId
      tunnels := removeTunnel tunnelId s.tunnels }
  | none => s

/-- No claim of a listed tunnel has expired. -/
def unexpired (s : Holdings) (now : Nat) : Bool :=
  s.tunnels.all fun tunnel => match s.registry tunnel.routingKey with
    | some (record, expiry) => record.sessionId ≠ s.sessionId || now < expiry
    | none => true

/-- One frame, as long as tunnel ids are drawn once and no claim expires. -/
def step (s : Holdings) : TunnelFrame → Option Holdings
  | .openTunnel request randomSubdomain tunnelId clock =>
    if tunnelId ∉ s.drawn && s.unexpired clock.now then
      some (s.openTunnel request randomSubdomain tunnelId clock).1
    else none
  | .closeTunnel tunnelId => some (s.closeTunnel tunnelId)

/-- The session holds a claim on the key. -/
def Owns (s : Holdings) (key : Text) : Prop :=
  ∃ record expiry, s.registry key = some (record, expiry) ∧ record.sessionId = s.sessionId

/-- The keys of the listed tunnels are the keys that the session owns, and the records name listed
tunnels. -/
structure InStep (s : Holdings) : Prop where
  keys : ∀ key, (∃ tunnel ∈ s.tunnels, tunnel.routingKey = key) ↔ s.Owns key
  names : ∀ key record expiry, s.registry key = some (record, expiry) →
    record.sessionId = s.sessionId → ∃ tunnel ∈ s.tunnels, tunnel.tunnelId = record.tunnelId

/-- A frame closes no tunnel whose key another listed tunnel shares. -/
def closesAlone (s : Holdings) : TunnelFrame → Bool
  | .openTunnel _ _ _ _ => true
  | .closeTunnel tunnelId => decide (∀ tunnel ∈ s.tunnels, tunnel.tunnelId = tunnelId →
      ∀ other ∈ s.tunnels, other.routingKey = tunnel.routingKey → other.tunnelId = tunnelId)

/-- What holds whichever tunnels are closed. -/
structure WellFormed (s : Holdings) : Prop where
  /-- Ids of listed tunnels have been drawn. -/
  drawn : ∀ tunnel ∈ s.tunnels, tunnel.tunnelId ∈ s.drawn
  /-- Listed tunnels differ in their ids. -/
  unique : ∀ tunnel ∈ s.tunnels, ∀ other ∈ s.tunnels, other.tunnelId = tunnel.tunnelId →
    other = tunnel
  /-- Ids in records have been drawn, and the tunnel of a record has its key. -/
  keyed : ∀ key record expiry, s.registry key = some (record, expiry) →
    record.sessionId = s.sessionId → record.tunnelId ∈ s.drawn ∧
      ∀ tunnel ∈ s.tunnels, tunnel.tunnelId = record.tunnelId → tunnel.routingKey = key
  /-- Claims are listed. -/
  listed : ∀ key, s.Owns key → ∃ tunnel ∈ s.tunnels, tunnel.routingKey = key

/-- The frames by what they do. -/
inductive Step (s : Holdings) : TunnelFrame → Holdings → Prop
  | rejected {request randomSubdomain tunnelId clock} :
      Step s (.openTunnel request randomSubdomain tunnelId clock)
        { s with drawn := s.drawn ++ [tunnelId] }
  | taken {request randomSubdomain tunnelId clock} : s.unexpired clock.now = true →
      Step s (.openTunnel request randomSubdomain tunnelId clock)
        { s with drawn := s.drawn ++ [tunnelId], registry := s.registry.evictExpired clock.now }
  | acquired {request randomSubdomain tunnelId clock record publicUrl expiry} :
      tunnelId ∉ s.drawn → s.unexpired clock.now = true → record.sessionId = s.sessionId →
      record.tunnelId = tunnelId →
      Step s (.openTunnel request randomSubdomain tunnelId clock)
        { s with
          drawn := s.drawn ++ [tunnelId]
          registry := Function.update (s.registry.evictExpired clock.now) record.routingKey
            (some (record, expiry))
          tunnels := insertTunnel ⟨tunnelId, record.routingKey, publicUrl⟩ s.tunnels }
  | closed {tunnelId tunnel} : tunnel ∈ s.tunnels → tunnel.tunnelId = tunnelId →
      Step s (.closeTunnel tunnelId)
        { s with
          registry := s.registry.release tunnel.routingKey s.sessionId
          tunnels := removeTunnel tunnelId s.tunnels }
  | unknown {tunnelId} : (∀ tunnel ∈ s.tunnels, tunnel.tunnelId ≠ tunnelId) →
      Step s (.closeTunnel tunnelId) s

variable {s s' : Holdings} {a : TunnelFrame}

/-- An enabled frame is one of the cases of `Step`. -/
theorem step_cases (h : s.step a = some s') : Step s a s' := by
  cases a with
  | openTunnel request randomSubdomain tunnelId clock =>
    simp only [step] at h
    split at h
    · rename_i hok
      rw [Bool.and_eq_true, decide_eq_true_eq] at hok
      obtain rfl := Option.some.inj h
      unfold openTunnel
      dsimp only
      split
      · exact .rejected
      · rename_i record publicUrl hp
        obtain ⟨key, -, rfl⟩ := prepareTunnel_eq_ok hp
        rcases MemoryRegistry.claim_cases s.registry ⟨key.asStorageKey, s.node.nodeId,
          s.node.nodeAddr, s.sessionId, tunnelId, s.principal.accountId⟩ s.node.routeTtl clock with
          ⟨_, _, _, _, _, hc⟩ | ⟨-, hc⟩
        · rw [hc]
          exact .taken hok.2
        · rw [hc]
          exact .acquired hok.1 hok.2 rfl rfl
    · cases h
  | closeTunnel tunnelId =>
    obtain rfl := Option.some.inj h
    unfold closeTunnel
    split
    · rename_i tunnel hf
      exact .closed (List.mem_of_find?_eq_some hf) (by simpa using List.find?_some hf)
    · rename_i hf
      exact .unknown (by simpa using hf)

/-- Eviction finds no claim of the session. -/
theorem WellFormed.evict_owned (hw : WellFormed s) {now : Nat} (hu : s.unexpired now = true)
    {key : Text} {record : RouteRecord} {expiry : Nat} (hown : record.sessionId = s.sessionId) :
    s.registry.evictExpired now key = some (record, expiry) ↔
      s.registry key = some (record, expiry) := by
  rw [MemoryRegistry.evictExpired_eq_some, and_iff_left_iff_imp]
  intro hk
  obtain ⟨tunnel, ht, rfl⟩ := hw.listed key ⟨record, expiry, hk, hown⟩
  have := List.all_eq_true.mp hu tunnel ht
  simpa [hk, hown] using this

/-- What is owned after a registration. -/
theorem WellFormed.owns_acquired (hw : WellFormed s) {now : Nat} (hu : s.unexpired now = true)
    {claimed : RouteRecord} {stamp : Nat} {key : Text} {record : RouteRecord} {expiry : Nat}
    (hown : record.sessionId = s.sessionId) :
    Function.update (s.registry.evictExpired now) claimed.routingKey (some (claimed, stamp)) key =
        some (record, expiry) ↔
      (key = claimed.routingKey ∧ claimed = record ∧ stamp = expiry) ∨
        (key ≠ claimed.routingKey ∧ s.registry key = some (record, expiry)) := by
  rw [Function.update_apply]
  split
  · rename_i he
    simp [he]
  · rename_i he
    simp [he, hw.evict_owned hu hown]

theorem WellFormed.step (hw : WellFormed s) (h : s.step a = some s') : WellFormed s' := by
  cases step_cases h with
  | rejected =>
    exact ⟨fun tunnel ht => List.mem_append_left _ (hw.drawn tunnel ht), hw.unique,
      fun key record expiry hk hown =>
        ⟨List.mem_append_left _ (hw.keyed key record expiry hk hown).1,
          (hw.keyed key record expiry hk hown).2⟩, hw.listed⟩
  | taken hu =>
    refine ⟨fun tunnel ht => List.mem_append_left _ (hw.drawn tunnel ht), hw.unique, ?_, ?_⟩
    · intro key record expiry hk hown
      have hold := hw.keyed key record expiry ((hw.evict_owned hu hown).mp hk) hown
      exact ⟨List.mem_append_left _ hold.1, hold.2⟩
    · rintro key ⟨record, expiry, hk, hown⟩
      exact hw.listed key ⟨record, expiry, (hw.evict_owned hu hown).mp hk, hown⟩
  | @acquired _ _ tunnelId _ claimed publicUrl _ hnew hu hclaimed hid =>
    have hfresh : ∀ tunnel ∈ s.tunnels, tunnel.tunnelId ≠ tunnelId :=
      fun tunnel ht he => hnew (he ▸ hw.drawn tunnel ht)
    constructor
    · intro tunnel ht
      rcases mem_insertTunnel.mp ht with ⟨ht, -⟩ | rfl
      · exact List.mem_append_left _ (hw.drawn tunnel ht)
      · exact List.mem_append_right _ (List.mem_singleton_self _)
    · intro tunnel ht other ho he
      rcases mem_insertTunnel.mp ht with ⟨ht, -⟩ | rfl
      · rcases mem_insertTunnel.mp ho with ⟨ho, -⟩ | rfl
        · exact hw.unique tunnel ht other ho he
        · exact absurd he.symm (hfresh tunnel ht)
      · rcases mem_insertTunnel.mp ho with ⟨-, hne⟩ | rfl
        · exact absurd he hne
        · rfl
    · intro key record expiry hk hown
      rcases (hw.owns_acquired hu hown).mp hk with ⟨rfl, rfl, -⟩ | ⟨-, hk⟩
      · refine ⟨List.mem_append_right _ (by simp [hid]), fun tunnel ht he => ?_⟩
        rcases mem_insertTunnel.mp ht with ⟨ht, -⟩ | rfl
        · exact absurd (he.trans hid) (hfresh tunnel ht)
        · rfl
      · obtain ⟨hdrawn, hkey⟩ := hw.keyed key record expiry hk hown
        refine ⟨List.mem_append_left _ hdrawn, fun tunnel ht he => ?_⟩
        rcases mem_insertTunnel.mp ht with ⟨ht, -⟩ | rfl
        · exact hkey tunnel ht he
        · have hid' : tunnelId = record.tunnelId := he
          exact absurd (hid' ▸ hdrawn) hnew
    · rintro key ⟨record, expiry, hk, hown⟩
      rcases (hw.owns_acquired hu hown).mp hk with ⟨rfl, rfl, -⟩ | ⟨-, hk⟩
      · exact ⟨_, mem_insertTunnel.mpr (.inr rfl), rfl⟩
      · obtain ⟨tunnel, ht, hkey⟩ := hw.listed key ⟨record, expiry, hk, hown⟩
        exact ⟨tunnel, mem_insertTunnel.mpr (.inl ⟨ht, hfresh tunnel ht⟩), hkey⟩
  | @closed tunnelId closed hclosed hid =>
    refine ⟨fun tunnel ht => hw.drawn tunnel (mem_removeTunnel.mp ht).1,
      fun tunnel ht other ho => hw.unique tunnel (mem_removeTunnel.mp ht).1 other
        (mem_removeTunnel.mp ho).1, fun key record expiry hk hown => ?_, ?_⟩
    · obtain ⟨hk, -⟩ := MemoryRegistry.release_eq_some.mp hk
      obtain ⟨hdrawn, hkey⟩ := hw.keyed key record expiry hk hown
      exact ⟨hdrawn, fun tunnel ht => hkey tunnel (mem_removeTunnel.mp ht).1⟩
    · rintro key ⟨record, expiry, hk, hown⟩
      obtain ⟨hk, hne⟩ := MemoryRegistry.release_eq_some.mp hk
      obtain ⟨tunnel, ht, hkey⟩ := hw.listed key ⟨record, expiry, hk, hown⟩
      refine ⟨tunnel, mem_removeTunnel.mpr ⟨ht, fun he => ?_⟩, hkey⟩
      -- The tunnel that was closed had another key.
      obtain rfl := hw.unique closed hclosed tunnel ht (he.trans hid.symm)
      exact hne ⟨hkey.symm, hown⟩
  | unknown hnone => exact hw

/-- One frame keeps the list and the claims in step exactly when it closes no shared key. -/
theorem InStep.step_iff (hw : WellFormed s) (hp : InStep s) (h : s.step a = some s') :
    InStep s' ↔ s.closesAlone a = true := by
  cases step_cases h with
  | rejected => exact iff_of_true ⟨hp.keys, hp.names⟩ rfl
  | taken hu =>
    refine iff_of_true ⟨fun key => (hp.keys key).trans ?_, fun key record expiry hk hown =>
      hp.names key record expiry ((hw.evict_owned hu hown).mp hk) hown⟩ rfl
    constructor
    · rintro ⟨record, expiry, hk, hown⟩
      exact ⟨record, expiry, (hw.evict_owned hu hown).mpr hk, hown⟩
    · rintro ⟨record, expiry, hk, hown⟩
      exact ⟨record, expiry, (hw.evict_owned hu hown).mp hk, hown⟩
  | @acquired _ _ tunnelId _ claimed publicUrl stamp hnew hu hclaimed hid =>
    have hw' := hw.step h
    refine iff_of_true ⟨fun key => ⟨?_, hw'.listed key⟩, ?_⟩ rfl
    · rintro ⟨tunnel, ht, rfl⟩
      by_cases hkey : tunnel.routingKey = claimed.routingKey
      · exact ⟨claimed, stamp, (hw.owns_acquired hu hclaimed).mpr (.inl ⟨hkey, rfl, rfl⟩), hclaimed⟩
      · rcases mem_insertTunnel.mp ht with ⟨ht, -⟩ | rfl
        · obtain ⟨record, expiry, hk, hown⟩ := (hp.keys _).mp ⟨tunnel, ht, rfl⟩
          exact ⟨record, expiry, (hw.owns_acquired hu hown).mpr (.inr ⟨hkey, hk⟩), hown⟩
        · exact absurd rfl hkey
    · intro key record expiry hk hown
      rcases (hw.owns_acquired hu hown).mp hk with ⟨rfl, rfl, -⟩ | ⟨-, hk⟩
      · exact ⟨_, mem_insertTunnel.mpr (.inr rfl), hid.symm⟩
      · obtain ⟨tunnel, ht, he⟩ := hp.names key record expiry hk hown
        have hfresh : tunnel.tunnelId ≠ tunnelId := fun hn => hnew (hn ▸ hw.drawn tunnel ht)
        exact ⟨tunnel, mem_insertTunnel.mpr (.inl ⟨ht, hfresh⟩), he⟩
  | @closed tunnelId closed hclosed hid =>
    have hw' := hw.step h
    rw [closesAlone, decide_eq_true_eq]
    constructor
    · -- The key of another tunnel is listed, but it has just been released.
      intro hp' tunnel ht he other ho hkey
      obtain rfl := hw.unique closed hclosed tunnel ht (he.trans hid.symm)
      by_contra hne
      obtain ⟨record, expiry, hk, hown⟩ :=
        (hp'.keys other.routingKey).mp ⟨other, mem_removeTunnel.mpr ⟨ho, hne⟩, rfl⟩
      exact (MemoryRegistry.release_eq_some.mp hk).2 ⟨hkey, hown⟩
    · intro halone
      refine ⟨fun key => ⟨?_, hw'.listed key⟩, ?_⟩
      · rintro ⟨tunnel, ht, rfl⟩
        obtain ⟨ht, hne⟩ := mem_removeTunnel.mp ht
        obtain ⟨record, expiry, hk, hown⟩ := (hp.keys _).mp ⟨tunnel, ht, rfl⟩
        refine ⟨record, expiry, MemoryRegistry.release_eq_some.mpr ⟨hk, fun he => ?_⟩, hown⟩
        exact hne (halone closed hclosed hid tunnel ht he.1)
      · intro key record expiry hk hown
        obtain ⟨hk, hne⟩ := MemoryRegistry.release_eq_some.mp hk
        obtain ⟨tunnel, ht, he⟩ := hp.names key record expiry hk hown
        refine ⟨tunnel, mem_removeTunnel.mpr ⟨ht, fun hn => hne ⟨?_, hown⟩⟩, he⟩
        rw [← (hw.keyed key record expiry hk hown).2 tunnel ht he,
          hw.unique closed hclosed tunnel ht (hn.trans hid.symm)]
  | unknown hnone =>
    rw [closesAlone, decide_eq_true_eq]
    exact iff_of_true hp fun tunnel ht he => absurd he (hnone tunnel ht)

/-- The session of a cluster as the frames about its tunnels see it. -/
def ofCluster (s : Cluster) (i : Text) (drawn : List Text) : Holdings :=
  ⟨(s.session i).node, (s.session i).principal, i, s.registry, (s.session i).tunnels, drawn⟩

/-- The driver of a session in a cluster handles a frame by a few steps of its own, with the same
effect. -/
theorem exec_frame {s : Cluster} {i : Text} {drawn : List Text} {a : TunnelFrame} {t : Holdings}
    (hidle : (s.session i).driver = .idle)
    (hclock : ∀ request randomSubdomain tunnelId clock,
      a = .openTunnel request randomSubdomain tunnelId clock → s.follows clock = true)
    (h : (ofCluster s i drawn).step a = some t) :
    ∃ moves s', exec Cluster.step s moves = some s' ∧ (s'.session i).driver = .idle ∧
      ofCluster s' i t.drawn = t := by
  cases a with
  | openTunnel request randomSubdomain tunnelId clock =>
    have hfollows := hclock _ _ _ _ rfl
    simp only [step] at h
    split at h
    swap
    · cases h
    obtain rfl := Option.some.inj h
    unfold openTunnel
    dsimp only [ofCluster]
    split
    · rename_i status hp
      refine ⟨[.openTunnel i request randomSubdomain tunnelId, .replied i],
        (s.setDriver i (.replying status)).setDriver i .idle, ?_, ?_, ?_⟩
      · simp [Cluster.step, hidle, hp]
      · simp
      · simp
    · rename_i record publicUrl hp
      have hfollows' : Cluster.follows (s.setDriver i
          (.claiming request.requestId record publicUrl)) clock = true := hfollows
      rcases hclaim : s.registry.claim record (s.session i).node.routeTtl clock with
        ⟨registry, claim⟩
      simp only [Cluster.setDriver, Cluster.setSession] at hfollows'
      cases claim with
      | acquired =>
        refine ⟨[.openTunnel i request randomSubdomain tunnelId, .claim i clock, .register i,
          .replied i], (s.called registry clock).setSession i { s.session i with
            tunnels := insertTunnel ⟨record.tunnelId, record.routingKey, publicUrl⟩
              (s.session i).tunnels }, ?_, ?_, ?_⟩
        · simp [Cluster.step, hidle, hp, hfollows', hclaim, finishTunnel]
        · simp [hidle]
        · simp [finishTunnel]
      | taken owner =>
        refine ⟨[.openTunnel i request randomSubdomain tunnelId, .claim i clock, .register i,
          .replied i], (s.called registry clock).setDriver i .idle, ?_, ?_, ?_⟩
        · simp [Cluster.step, hidle, hp, hfollows', hclaim, finishTunnel]
        · simp
        · simp [finishTunnel]
  | closeTunnel tunnelId =>
    obtain rfl := Option.some.inj h
    unfold closeTunnel
    dsimp only [ofCluster]
    split
    · rename_i tunnel hf
      refine ⟨[.closeTunnel i tunnelId, .releaseClosed i],
        (Cluster.setDriver { s.setSession i { s.session i with
          driver := .releasing tunnel
          tunnels := removeTunnel tunnelId (s.session i).tunnels } with
            registry := s.registry.release tunnel.routingKey i } i .idle), ?_, ?_, ?_⟩
      · simp [Cluster.step, hidle, hf]
      · simp
      · simp
    · rename_i hf
      exact ⟨[], s, rfl, hidle, rfl⟩

/-- A session that has registered nothing. -/
structure IsNew (s : Holdings) : Prop where
  tunnels : s.tunnels = []
  registry : ∀ key, ¬ s.Owns key

/-- Along every sequence of frames of a new session, its tunnels and its claims are in step after
each frame exactly when no frame closes a tunnel whose key another listed tunnel shares. -/
theorem inStep_iff (hnew : s.IsNew) (frames : List TunnelFrame) :
    Always step InStep s frames ↔
      Throughout step (fun s a => s.closesAlone a = true) s frames := by
  have hnone (key : Text) (record : RouteRecord) (expiry : Nat)
      (hk : s.registry key = some (record, expiry)) : record.sessionId ≠ s.sessionId :=
    fun hown => hnew.registry key ⟨record, expiry, hk, hown⟩
  refine always_iff_throughout (I := WellFormed) (fun _ _ _ hw hs => hw.step hs)
    (fun _ _ _ hw hp hs => hp.step_iff hw hs) ?_ ?_ frames
  · refine ⟨?_, ?_, fun key record expiry hk hown => absurd hown (hnone key record expiry hk),
      fun key hown => absurd hown (hnew.registry key)⟩ <;> simp [hnew.tunnels]
  · refine ⟨fun key => ?_, fun key record expiry hk hown =>
      absurd hown (hnone key record expiry hk)⟩
    simp [hnew.tunnels, hnew.registry]

/-- A new session on `testNode`. -/
def testSession : Holdings :=
  ⟨testNode, ⟨"acct".toList, [], [], Limits.default⟩, "ses_1".toList, MemoryRegistry.new, [], []⟩

/-- A registration of `a.tunnel.com`. -/
def openName (tunnelId : Text) : TunnelFrame :=
  .openTunnel ⟨"req".toList, some (.http ⟨"a".toList, [], "3000".toList, false⟩)⟩ [] tunnelId ⟨0, 0⟩

theorem testSession_isNew : testSession.IsNew :=
  ⟨rfl, by rintro key ⟨record, expiry, hk, -⟩; cases hk⟩

/-- A name that is registered once and closed. -/
theorem inStep_once :
    Always step InStep testSession [openName "tun_1".toList, .closeTunnel "tun_1".toList] := by
  exact (inStep_iff testSession_isNew _).mpr (Throughout.of_meets rfl)

/-- A name that is registered twice is released when its first tunnel is closed, while its second
tunnel stays listed. -/
theorem inStep_twice : ¬ ∀ (s : Holdings) (frames : List TunnelFrame), s.IsNew →
    Always step InStep s frames := by
  intro h
  have halways := h testSession [openName "tun_1".toList, openName "tun_2".toList,
    .closeTunnel "tun_1".toList] testSession_isNew
  obtain ⟨s, hs, ht, hk⟩ : ∃ s, exec step testSession [openName "tun_1".toList,
      openName "tun_2".toList, .closeTunnel "tun_1".toList] = some s ∧
      (⟨"tun_2".toList, "a.tunnel.com".toList, "https://a.tunnel.com".toList⟩ : Tunnel) ∈
        s.tunnels ∧
      s.registry "a.tunnel.com".toList = none :=
    ⟨_, rfl, List.mem_singleton_self _, rfl⟩
  obtain ⟨record, expiry, hget, -⟩ := ((halways.of_exec hs).keys _).mp ⟨_, ht, rfl⟩
  rw [hk] at hget
  cases hget

end Holdings

end Norupo
