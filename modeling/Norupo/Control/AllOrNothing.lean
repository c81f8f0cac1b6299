import Norupo.Control.Tunnels

/-!
# Registration is all or nothing

`register_tunnel` of `norupo-server/src/control.rs` as a whole, on a session and on the routing
table. It has exits before the claim, where nothing has been touched, and one after a claim that was
lost, where the routing table has at most dropped what was expired. Only a claim that was acquired
changes the two stores, and it changes both.
-/

namespace Norupo

namespace Holdings

variable {s s' : Holdings} {request : OpenTunnel} {randomSubdomain tunnelId : Text} {clock : Clock}
  {status : TunnelStatus}

/-- Nothing has changed: neither the tunnels nor a record that is in force. -/
structure Untouched (s s' : Holdings) (clock : Clock) : Prop where
  tunnels : s'.tunnels = s.tunnels
  records : ∀ now, clock.now ≤ now → s'.registry.evictExpired now = s.registry.evictExpired now

/-- The tunnel of the status has been added to both stores, and nothing else has changed. -/
structure Added (s s' : Holdings) (clock : Clock) (status : TunnelStatus) : Prop where
  /-- One more tunnel is listed. -/
  tunnels : s'.tunnels = s.tunnels ++ [⟨status.tunnelId, status.routingKey, status.publicUrl⟩]
  /-- The routing table has its record, for one lifetime. -/
  record : s'.registry status.routingKey = some (⟨status.routingKey, s.node.nodeId, s.node.nodeAddr,
    s.sessionId, status.tunnelId, s.principal.accountId⟩, clock.stamp + s.node.routeTtl)
  /-- The records of other keys stay in force. -/
  others : ∀ key, key ≠ status.routingKey → ∀ now, clock.now ≤ now →
    s'.registry.evictExpired now key = s.registry.evictExpired now key
  /-- No other session had a record in force under the key. -/
  vacant : ∀ record expiry, s.registry status.routingKey = some (record, expiry) →
    clock.now < expiry → record.sessionId = s.sessionId
  /-- There was room under the quota. -/
  room : 0 < s.principal.limits.maxTunnels → s.tunnels.length < s.principal.limits.maxTunnels

/-- Rejections before the claim answer the request. -/
theorem prepareTunnel_eq_error {config : NodeConfig} {principal : Principal} {sessionId : Text}
    {tunnelCount : Nat}
    (h : prepareTunnel config principal sessionId tunnelCount request randomSubdomain tunnelId =
      .error status) : status.accepted = false ∧ status.requestId = request.requestId := by
  unfold prepareTunnel at h
  split at h
  · obtain rfl := Except.error.inj h
    exact ⟨rfl, rfl⟩
  split at h
  · obtain rfl := Except.error.inj h
    exact ⟨rfl, rfl⟩
  · cases h

/-- A tunnel with a new id is added at the end. -/
theorem insertTunnel_of_fresh {tunnel : Tunnel} {tunnels : List Tunnel}
    (h : ∀ other ∈ tunnels, other.tunnelId ≠ tunnel.tunnelId) :
    insertTunnel tunnel tunnels = tunnels ++ [tunnel] := by
  have hkeep : removeTunnel tunnel.tunnelId tunnels = tunnels := by
    rw [removeTunnel, List.filter_eq_self]
    intro other hother
    rw [decide_eq_true_eq]
    exact h other hother
  rw [insertTunnel, hkeep]

/-- The ways through `register_tunnel`. -/
theorem openTunnel_cases (h : s.openTunnel request randomSubdomain tunnelId clock = (s', status))
    (hfresh : ∀ tunnel ∈ s.tunnels, tunnel.tunnelId ≠ tunnelId) :
    status.requestId = request.requestId ∧
      ((status.accepted = false ∧ Untouched s s' clock) ∨
        (status.accepted = true ∧ status.tunnelId = tunnelId ∧ Added s s' clock status)) := by
  unfold openTunnel at h
  dsimp only at h
  split at h
  · rename_i rejection hp
    obtain ⟨rfl, rfl⟩ := Prod.mk.inj h
    obtain ⟨haccepted, hrequest⟩ := prepareTunnel_eq_error hp
    exact ⟨hrequest, .inl ⟨haccepted, rfl, fun _ _ => rfl⟩⟩
  · rename_i record publicUrl hp
    obtain ⟨key, -, hrecord⟩ := prepareTunnel_eq_ok hp
    rcases MemoryRegistry.claim_cases s.registry record s.node.routeTtl clock with
      ⟨existing, expiry, -, -, -, hclaim⟩ | ⟨hvacant, hclaim⟩
    · rw [hclaim] at h
      obtain ⟨rfl, rfl⟩ := Prod.mk.inj h
      refine ⟨rfl, .inl ⟨rfl, rfl, fun now hnow => ?_⟩⟩
      exact MemoryRegistry.evictExpired_evictExpired s.registry hnow
    · rw [hclaim] at h
      obtain ⟨rfl, rfl⟩ := Prod.mk.inj h
      subst hrecord
      refine ⟨rfl, .inr ⟨rfl, rfl, ?_, ?_, ?_, hvacant, prepareTunnel_below hp⟩⟩
      · exact insertTunnel_of_fresh hfresh
      · exact Function.update_self _ _ _
      · intro other (hne : other ≠ key.asStorageKey) now hnow
        have hother := congrFun (MemoryRegistry.evictExpired_evictExpired s.registry hnow) other
        rw [← hother, MemoryRegistry.evictExpired, MemoryRegistry.evictExpired]
        exact congrArg _ (Function.update_of_ne hne _ _)

/-- A registration with a tunnel id that the session does not use yet answers the request that was
sent. A refusal leaves both stores as they were. An acceptance adds one tunnel, with the id of the
answer, to both, against no record in force of another session and within the quota. -/
theorem openTunnel_allOrNothing
    (h : s.openTunnel request randomSubdomain tunnelId clock = (s', status))
    (hfresh : ∀ tunnel ∈ s.tunnels, tunnel.tunnelId ≠ tunnelId) :
    status.requestId = request.requestId ∧
      (status.accepted = false → Untouched s s' clock) ∧
      (status.accepted = true → status.tunnelId = tunnelId ∧ Added s s' clock status) := by
  obtain ⟨hrequest, ⟨haccepted, hsame⟩ | ⟨haccepted, hid, hadded⟩⟩ := openTunnel_cases h hfresh
  · refine ⟨hrequest, fun _ => hsame, fun htrue => ?_⟩
    rw [haccepted] at htrue
    cases htrue
  · refine ⟨hrequest, fun hfalse => ?_, fun _ => ⟨hid, hadded⟩⟩
    rw [haccepted] at hfalse
    cases hfalse

/-- A request for the name `a`. -/
def requestName : OpenTunnel := ⟨"req".toList, some (.http ⟨"a".toList, [], "3000".toList, false⟩)⟩

/-- A session that has registered the name `a`. -/
def namedSession : Holdings := (testSession.openTunnel requestName [] "tun_1".toList ⟨0, 1⟩).1

/-- The name is registered once more by its own session, and its record names the new tunnel. -/
theorem openTunnel_allOrNothing_again :
    (namedSession.openTunnel requestName [] "tun_2".toList ⟨2, 3⟩).1.registry
      "a.tunnel.com".toList = some (⟨"a.tunnel.com".toList, "node_a".toList, "10.0.0.1:8081".toList,
        "ses_1".toList, "tun_2".toList, "acct".toList⟩, 33) := by
  obtain ⟨s', status, hopen⟩ : ∃ s' status,
      namedSession.openTunnel requestName [] "tun_2".toList ⟨2, 3⟩ = (s', status) := ⟨_, _, rfl⟩
  have hstatus : status.accepted = true ∧ status.routingKey = "a.tunnel.com".toList := by
    obtain rfl := (Prod.mk.inj hopen).2
    exact ⟨rfl, rfl⟩
  obtain ⟨hid, hadded⟩ := (openTunnel_allOrNothing hopen (by decide)).2.2 hstatus.1
  have hrecord := hadded.record
  rw [hid, hstatus.2] at hrecord
  rw [hopen]
  exact hrecord

end Holdings

end Norupo
