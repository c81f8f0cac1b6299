import Norupo.Connection.Recovery

/-!
# What the agent knows of its tunnel

The edge tells the agent of its tunnel twice at most: the read loop answers the registration, and
the heartbeat sends a notice when it has dropped the tunnel. The two are different tasks that wait
for the same queue, so the notice may be queued before the answer. Nothing else is said about
tunnels, and nothing of it is lost while the session is in place; so once everything has been
delivered, the tunnels that the edge lists are those that the agent has been told of and not of
their loss.
-/

namespace Norupo

open Async Transition

/-- The status that a frame carries. -/
def ServerFrame.status : ServerFrame → Option TunnelStatus
  | .tunnelStatus status => some status
  | _ => none

/-- The status that the read loop waits to queue. -/
def ReadLoop.status : ReadLoop → Option TunnelStatus
  | .replying frame => frame.status
  | _ => none

/-- The status that a move hands over for the agent. -/
def EdgeAction.status : EdgeAction → Option TunnelStatus
  | .control frame => frame.status
  | .registryDone status => status
  | _ => none

/-- The status announces the tunnel. -/
structure TunnelStatus.Announces (status : TunnelStatus) (tunnel : Tunnel) : Prop where
  accepted : status.accepted = true
  tunnelId : status.tunnelId = tunnel.tunnelId
  routingKey : status.routingKey = tunnel.routingKey
  publicUrl : status.publicUrl = tunnel.publicUrl

/-- A status announces one tunnel at most. -/
theorem TunnelStatus.Announces.unique {status : TunnelStatus} {tunnel other : Tunnel}
    (h : status.Announces tunnel) (ho : status.Announces other) : other = tunnel := by
  cases tunnel
  cases other
  simp only [Tunnel.mk.injEq]
  exact ⟨ho.tunnelId.symm.trans h.tunnelId, ho.routingKey.symm.trans h.routingKey,
    ho.publicUrl.symm.trans h.publicUrl⟩

namespace Edge

/-- The statuses for the agent, queued or about to be queued. -/
def statuses (s : Edge) : List TunnelStatus :=
  s.log.filterMap ServerFrame.status ++ s.readLoop.status.toList

/-- Frames for the agent are still taken, and the read loop has not come to its end. -/
def Intact (s : Edge) : Prop := s.session.outbound.rxOpen = true ∧ s.readLoop.isOver = false

section Statuses

variable {s s' : Edge} {a : EdgeAction}

/-- Apart from the read loop and the heartbeat nobody queues a status. -/
theorem Step.log_status (h : Step s a s') (hreply : a ≠ .reply) :
    s'.log.filterMap ServerFrame.status = s.log.filterMap ServerFrame.status ++
      (match a with
        | .control frame => frame.status.toList
        | _ => []) := by
  cases h
  case reply | replyGone => exact absurd rfl hreply
  case control frame hf hp => cases hs : frame.status <;> simp [log, hs]
  case transmit frame rest hx hq => simp [log, hq]
  all_goals simp [log, ServerFrame.status, Session.insertStream]

/-- The read loop waits to queue a status from the answer of the routing table on. -/
theorem Step.loop_status (h : Step s a s') (hreply : a ≠ .reply) :
    s'.readLoop.status.toList = s.readLoop.status.toList ++
      (match a with
        | .registryDone status => status.toList
        | _ => []) := by
  cases h
  case reply | replyGone => exact absurd rfl hreply
  all_goals simp [*, ReadLoop.status, ServerFrame.status]

/-- What the read loop was about to queue is queued, unless nobody takes it. -/
theorem Step.reply_statuses (h : Step s .reply s') :
    s'.statuses = s.statuses ∨ s'.session.outbound.rxOpen = false ∧
      s'.statuses = s.log.filterMap ServerFrame.status := by
  cases h with
  | @reply frame hl hp =>
    left
    cases hs : frame.status <;> simp [statuses, log, hl, ReadLoop.status, hs]
  | replyGone hl hp =>
    right
    exact ⟨Channel.poll_eq_closed.mp hp, by simp [statuses, log, ReadLoop.status]⟩

/-- Any other step adds the status that it hands over. -/
theorem Step.mem_statuses_iff (h : Step s a s') (hreply : a ≠ .reply) {status : TunnelStatus} :
    status ∈ s'.statuses ↔ status ∈ s.statuses ∨ a.status = some status := by
  rw [statuses, statuses, h.log_status hreply, h.loop_status hreply]
  cases a <;> simp [EdgeAction.status, or_assoc, or_comm, or_left_comm, eq_comm]

/-- No status comes from anywhere else. -/
theorem Step.mem_statuses (h : Step s a s') {status : TunnelStatus} (hs : status ∈ s'.statuses) :
    status ∈ s.statuses ∨ a.status = some status := by
  by_cases hreply : a = .reply
  · subst hreply
    rcases h.reply_statuses with he | ⟨-, he⟩
    · exact .inl (he ▸ hs)
    · exact .inl (List.mem_append_left _ (he ▸ hs))
  · exact (h.mem_statuses_iff hreply).mp hs

/-- A session that is in place was so before. -/
theorem Step.intact (h : Step s a s') (hi : s'.Intact) : s.Intact := by
  obtain ⟨hopen, hrunning⟩ := hi
  cases h
  case dropOutbound => cases hopen
  all_goals simp_all [Intact, ReadLoop.isOver, Session.insertStream]

/-- While the session is in place no status is lost. -/
theorem Step.statuses_kept (h : Step s a s') (hi : s'.Intact) {status : TunnelStatus}
    (hs : status ∈ s.statuses ∨ a.status = some status) : status ∈ s'.statuses := by
  by_cases hreply : a = .reply
  · subst hreply
    rcases h.reply_statuses with he | ⟨hclosed, -⟩
    · exact he ▸ hs.resolve_right (by simp [EdgeAction.status])
    · rw [hi.1] at hclosed
      cases hclosed
  · exact (h.mem_statuses_iff hreply).mpr hs

end Statuses

end Edge

/-- The status that a move hands over for the agent. -/
def ConnectionAction.status : ConnectionAction → Option TunnelStatus
  | .edge a => a.status
  | _ => none

namespace Connection

/-- What moves of a connection make of the statuses: they hand over their own, and lose none while
the session is in place. -/
structure Conveys (s s' : Connection) (given : TunnelStatus → Prop) : Prop where
  origin : ∀ status ∈ s'.edge.statuses, status ∈ s.edge.statuses ∨ given status
  intact : s'.edge.Intact → s.edge.Intact
  kept : s'.edge.Intact → ∀ status, status ∈ s.edge.statuses ∨ given status →
    status ∈ s'.edge.statuses

theorem conveys_step {s s' : Connection} {a : ConnectionAction} (h : s.step a = some s') :
    Conveys s s' fun status => a.status = some status := by
  have hedge {b : EdgeAction} (hb : s.edge.step b = some s'.edge) (hs : a.status = b.status) :
      Conveys s s' fun status => a.status = some status := by
    have hstep := Edge.step_cases hb
    rw [hs]
    exact ⟨fun _ => hstep.mem_statuses, hstep.intact, fun hi _ => hstep.statuses_kept hi⟩
  cases step_cases h with
  | edge _ hs => exact hedge hs rfl
  | sendDown _ _ hs => exact hedge hs rfl
  | recvUp _ hs => exact hedge hs rfl
  | agent | recvDown | sendUp =>
    exact ⟨fun _ => .inl, id, fun _ _ hs => hs.resolve_right (by simp [ConnectionAction.status])⟩

theorem conveys_exec {s s' : Connection} {as : List ConnectionAction}
    (h : exec step s as = some s') :
    Conveys s s' fun status => ∃ a ∈ as, a.status = some status := by
  induction as generalizing s with
  | nil =>
    obtain rfl := Option.some.inj h
    exact ⟨fun _ => .inl, id, fun _ _ hs => hs.resolve_right (by simp)⟩
  | cons a as ih =>
    rw [exec_cons, Option.bind_eq_some_iff] at h
    obtain ⟨mid, hmid, hrest⟩ := h
    have hfirst := conveys_step hmid
    have hlater := ih hrest
    refine ⟨fun status hs => ?_, fun hi => hfirst.intact (hlater.intact hi), fun hi status hs => ?_⟩
    · rcases hlater.origin status hs with hs | ⟨b, hb, hs⟩
      · exact (hfirst.origin status hs).imp_right fun hs => ⟨a, List.mem_cons_self, hs⟩
      · exact .inr ⟨b, List.mem_cons_of_mem a hb, hs⟩
    · have hmid := hfirst.kept (hlater.intact hi) status
      rcases hs with hs | ⟨b, hb, hs⟩
      · exact hlater.kept hi status (.inl (hmid (.inl hs)))
      · rcases List.mem_cons.mp hb with rfl | hb
        · exact hlater.kept hi status (.inl (hmid (.inr hs)))
        · exact hlater.kept hi status (.inr ⟨b, hb, hs⟩)

end Connection

namespace Tenancy

/-- What has been said to the agent about its tunnels. -/
structure Told (s : Tenancy) : Prop where
  invariant : Invariant s
  /-- A status announces a tunnel, tells of its loss, or refuses the only request. -/
  status : ∀ status ∈ s.connection.edge.statuses,
    (∃ tunnel ∈ s.tunnels ++ s.lost, status.Announces tunnel) ∨
    (∃ tunnel ∈ s.lost, .tunnelStatus status = tunnelLost tunnel) ∨
    (status.accepted = false ∧ s.tunnels ++ s.lost = [] ∧ s.registering = none ∧
      0 < s.connection.requests)
  announced : s.connection.edge.Intact → ∀ tunnel ∈ s.tunnels ++ s.lost,
    ∃ status ∈ s.connection.edge.statuses, status.Announces tunnel
  noticed : s.connection.edge.Intact → ∀ tunnel ∈ s.lost,
    (∃ status ∈ s.connection.edge.statuses, .tunnelStatus status = tunnelLost tunnel) ∨
      ∃ rest, s.beat = .notifying tunnel rest
  notifying : ∀ tunnel rest, s.beat = .notifying tunnel rest → tunnel ∈ s.lost

section Preservation

variable {s s' : Tenancy}

/-- A move that says nothing about tunnels. -/
theorem Told.of_silent (ht : Told s) (hi : Invariant s')
    (hc : Connection.Conveys s.connection s'.connection fun _ => False)
    (hrequests : s.connection.requests ≤ s'.connection.requests)
    (hsame : s'.tunnels = s.tunnels ∧ s'.lost = s.lost ∧ s'.registering = s.registering)
    (hbeat : ∀ tunnel rest, s'.beat = .notifying tunnel rest → s.beat = .notifying tunnel rest)
    (hstays : s'.connection.edge.Intact → ∀ tunnel rest, s.beat = .notifying tunnel rest →
      s'.beat = .notifying tunnel rest) : Told s' := by
  obtain ⟨htunnels, hlost, hregistering⟩ := hsame
  refine ⟨hi, fun status hs => ?_, fun hx tunnel hm => ?_, fun hx tunnel hm => ?_,
    fun tunnel rest hb => ?_⟩
  · rw [htunnels, hlost, hregistering]
    have hold := (hc.origin status hs).resolve_right not_false
    rcases ht.status status hold with h | h | ⟨hno, hnil, hnone, hpos⟩
    · exact .inl h
    · exact .inr (.inl h)
    · exact .inr (.inr ⟨hno, hnil, hnone, hpos.trans_le hrequests⟩)
  · rw [htunnels, hlost] at hm
    obtain ⟨status, hs, ha⟩ := ht.announced (hc.intact hx) tunnel hm
    exact ⟨status, hc.kept hx status (.inl hs), ha⟩
  · rw [hlost] at hm
    rcases ht.noticed (hc.intact hx) tunnel hm with ⟨status, hs, ha⟩ | ⟨rest, hb⟩
    · exact .inl ⟨status, hc.kept hx status (.inl hs), ha⟩
    · exact .inr ⟨rest, hstays hx tunnel rest hb⟩
  · rw [hlost]
    exact ht.notifying tunnel rest (hbeat tunnel rest hb)

/-- A session that has lost nothing waits to tell of nothing. -/
theorem Told.not_notifying (ht : Told s) (hlost : s.lost = []) (tunnel : Tunnel)
    (rest : List Tunnel) : s.beat ≠ .notifying tunnel rest := by
  intro hb
  have hm := ht.notifying tunnel rest hb
  rw [hlost] at hm
  cases hm

/-- Before its first request is answered, a session has said nothing about tunnels. -/
theorem Told.unspoken (ht : Told s) (hnil : s.tunnels ++ s.lost = [])
    (hfirst : s.registering ≠ none ∨ s.connection.requests = 0) (status : TunnelStatus) :
    status ∉ s.connection.edge.statuses := by
  intro hs
  rcases ht.status status hs with ⟨tunnel, hm, -⟩ | ⟨tunnel, hm, -⟩ | ⟨-, -, hnone, hpos⟩
  · rw [hnil] at hm
    cases hm
  · have hmem : tunnel ∈ s.tunnels ++ s.lost := List.mem_append_right _ hm
    rw [hnil] at hmem
    cases hmem
  · rcases hfirst with hsome | hzero
    · exact hsome hnone
    · omega

/-- The first request is taken, and its registration begins. -/
theorem Told.of_request (hi : Invariant s') (hnil : s'.tunnels ++ s'.lost = [])
    (hbeat : ∀ tunnel rest, s'.beat ≠ .notifying tunnel rest)
    (hunspoken : ∀ status, status ∉ s'.connection.edge.statuses) : Told s' := by
  have hlost : s'.lost = [] := (List.append_eq_nil_iff.mp hnil).2
  refine ⟨hi, fun status hs => absurd hs (hunspoken status), fun _ tunnel hm => ?_,
    fun _ tunnel hm => ?_, fun tunnel rest hb => absurd hb (hbeat tunnel rest)⟩
  · rw [hnil] at hm
    cases hm
  · rw [hlost] at hm
    cases hm

/-- The first request is answered. -/
theorem Told.of_answer {status : TunnelStatus} (hi : Invariant s') (hlost : s'.lost = [])
    (hbeat : ∀ tunnel rest, s'.beat ≠ .notifying tunnel rest)
    (honly : ∀ other ∈ s'.connection.edge.statuses, other = status)
    (hsaid : s'.connection.edge.Intact → status ∈ s'.connection.edge.statuses)
    (hmeans : (∃ tunnel, s'.tunnels = [tunnel] ∧ status.Announces tunnel) ∨
      status.accepted = false ∧ s'.tunnels = [] ∧ s'.registering = none ∧
        0 < s'.connection.requests) : Told s' := by
  refine ⟨hi, fun other hs => ?_, fun hx tunnel hm => ?_, fun _ tunnel hm => ?_,
    fun tunnel rest hb => absurd hb (hbeat tunnel rest)⟩
  · obtain rfl := honly other hs
    rcases hmeans with ⟨tunnel, htunnels, ha⟩ | ⟨hno, hnil, hnone, hpos⟩
    · exact .inl ⟨tunnel, by simp [htunnels], ha⟩
    · exact .inr (.inr ⟨hno, by simp [hnil, hlost], hnone, hpos⟩)
  · rcases hmeans with ⟨other, htunnels, ha⟩ | ⟨-, hnil, -⟩
    · obtain rfl : tunnel = other := by simpa [htunnels, hlost] using hm
      exact ⟨status, hsaid hx, ha⟩
    · simp [hnil, hlost] at hm
  · rw [hlost] at hm
    cases hm

end Preservation

section Steps

variable {s s' : Tenancy}

/-- Taking a request counts it. -/
theorem requests_of_recvUp {request : OpenTunnel} {rest : List ClientFrame}
    {as : List ConnectionAction} {connection : Connection} (hi : Invariant s)
    (hq : s.connection.up.queue = .openTunnel request :: rest)
    (has : ∀ a ∈ as, a.welcomes = false)
    (h : exec Connection.step s.connection (.recvUp :: as) = some connection) :
    s.connection.requests = 0 ∧ 0 < connection.requests := by
  rw [exec_cons, Option.bind_eq_some_iff] at h
  obtain ⟨mid, hmid, hrest⟩ := h
  have hcount := Connection.requests_step hmid
  rw [if_pos rfl, hq] at hcount
  obtain ⟨hg, hle⟩ := (hi.greeted.step rfl hmid).exec has hrest
  have hone := hg.requests_le_one
  simp only [List.take_succ_cons, List.take_zero, List.countP_cons, List.countP_nil,
    ClientFrame.isRequest, if_true] at hcount
  omega

/-- A registration that is refused before its claim. -/
theorem accepted_of_prepareTunnel_error {node : NodeConfig} {principal : Principal}
    {sessionId randomSubdomain tunnelId : Text} {count : Nat} {request : OpenTunnel}
    {status : TunnelStatus}
    (h : prepareTunnel node principal sessionId count request randomSubdomain tunnelId =
      .error status) : status.accepted = false := by
  unfold prepareTunnel at h
  split at h
  · obtain rfl := Except.error.inj h
    rfl
  split at h
  · obtain rfl := Except.error.inj h
    rfl
  · cases h

/-- Without requests there are no tunnels. -/
theorem Invariant.append_eq_nil (hi : Invariant s) (h : s.connection.requests = 0) :
    s.tunnels ++ s.lost = [] := by
  have hspent := hi.spent
  rw [List.append_eq_nil_iff, ← List.length_eq_zero_iff, ← List.length_eq_zero_iff]
  omega

/-- A registration under way has no tunnels beside it. -/
theorem Invariant.append_eq_nil_of_registering (hi : Invariant s)
    {registration : Text × RouteRecord × Text} (hr : s.registering = some registration) :
    s.tunnels ++ s.lost = [] ∧ 0 < s.connection.requests := by
  have hspent := hi.spent
  have hone := hi.tunnels_le
  rw [hr, Option.toList_some, List.length_singleton] at hspent hone
  rw [List.append_eq_nil_iff, ← List.length_eq_zero_iff, ← List.length_eq_zero_iff]
  omega

theorem Told.handleTunnel {randomSubdomain tunnelId : Text} (ht : Told s)
    (h : s.step (.handleTunnel randomSubdomain tunnelId) = some s') : Told s' := by
  have hi := ht.invariant.step h
  simp only [step] at h
  split at h
  · rename_i request rest hq
    split at h
    · -- The request goes to the routing table.
      obtain ⟨connection, hc, rfl⟩ := Option.map_eq_some_iff.mp h
      obtain ⟨hzero, -⟩ := requests_of_recvUp ht.invariant hq (by simp) hc
      have hnil := ht.invariant.append_eq_nil hzero
      refine .of_request hi hnil (ht.not_notifying (List.append_eq_nil_iff.mp hnil).2) ?_
      intro status hs
      rcases (Connection.conveys_exec hc).origin status hs with hs | ⟨a, ha, hs⟩
      · exact ht.unspoken hnil (.inr hzero) status hs
      · obtain rfl := List.mem_singleton.mp ha
        cases hs
    · -- It is refused at once.
      rename_i refusal hrefusal
      obtain ⟨connection, hc, rfl⟩ := Option.map_eq_some_iff.mp h
      obtain ⟨hzero, hpos⟩ := requests_of_recvUp ht.invariant hq
        (by simp [ConnectionAction.welcomes]) hc
      have hnil := ht.invariant.append_eq_nil hzero
      obtain ⟨htunnels, hlost⟩ := List.append_eq_nil_iff.mp hnil
      have hregistering : s.registering = none := by
        have hspent := ht.invariant.spent
        rw [hzero] at hspent
        cases hr : s.registering with
        | none => rfl
        | some registration => simp [hr] at hspent
      have hconveys := Connection.conveys_exec hc
      have hsaid : connection.edge.Intact → refusal ∈ connection.edge.statuses :=
        fun hx => hconveys.kept hx refusal
          (.inr ⟨.edge (.registryDone (some refusal)), by simp, rfl⟩)
      refine .of_answer hi hlost (ht.not_notifying hlost) (fun other hs => ?_) hsaid
        (.inr ⟨accepted_of_prepareTunnel_error hrefusal, htunnels, hregistering, hpos⟩)
      rcases hconveys.origin other hs with hs | ⟨a, ha, hs⟩
      · exact absurd hs (ht.unspoken hnil (.inr hzero) other)
      · simp only [List.mem_cons, List.not_mem_nil, or_false] at ha
        rcases ha with rfl | rfl
        · cases hs
        · exact (Option.some.inj hs).symm
  · rename_i closed rest hq
    exact absurd (hq ▸ List.mem_cons_self) (ht.invariant.greeted.not_closing closed)
  · cases h

/-- The claim of a registration is answered. -/
theorem Told.claimed {answer : Except Error Claim} (ht : Told s)
    (h : s.step (.claimed answer) = some s') : Told s' := by
  have hi := ht.invariant.step h
  simp only [step] at h
  split at h
  swap
  · cases h
  rename_i requestId record publicUrl hr
  obtain ⟨hnil, hpos⟩ := ht.invariant.append_eq_nil_of_registering hr
  obtain ⟨htunnels, hlost⟩ := List.append_eq_nil_iff.mp hnil
  obtain ⟨connection, hc, rfl⟩ := Option.map_eq_some_iff.mp h
  have hconveys := Connection.conveys_exec hc
  obtain ⟨-, hle⟩ := ht.invariant.greeted.exec (by simp [ConnectionAction.welcomes]) hc
  refine .of_answer hi hlost (ht.not_notifying hlost) (fun other hs => ?_)
    (fun hx => hconveys.kept hx _ (.inr ⟨_, List.mem_singleton_self _, rfl⟩)) ?_
  · rcases hconveys.origin other hs with hs | ⟨a, ha, hs⟩
    · exact absurd hs (ht.unspoken hnil (.inl (by simp [hr])) other)
    · obtain rfl := List.mem_singleton.mp ha
      exact (Option.some.inj hs).symm
  · cases answer with
    | error e => exact .inr ⟨rfl, htunnels, rfl, hpos.trans_le hle⟩
    | ok claim =>
      cases claim with
      | acquired =>
        refine .inl ⟨⟨record.tunnelId, record.routingKey, publicUrl⟩, ?_, ⟨rfl, rfl, rfl, rfl⟩⟩
        simp [finishTunnel, htunnels, insertTunnel, removeTunnel]
      | taken owner => exact .inr ⟨rfl, htunnels, rfl, hpos.trans_le hle⟩

/-- A renewal is refused: the tunnel goes from one list to the other. -/
theorem Told.lose (ht : Told s) {tunnel : Tunnel} {rest : List Tunnel}
    (hb : s.beat = .renewing (tunnel :: rest)) :
    Told { s with
      tunnels := removeTunnel tunnel.tunnelId s.tunnels
      lost := s.lost ++ [tunnel]
      beat := .notifying tunnel rest } := by
  obtain ⟨htunnels, rfl⟩ := ht.invariant.tunnels_of_renewing hb
  have hlost : s.lost = [] := by
    have hone := ht.invariant.tunnels_le
    rw [htunnels, List.length_singleton] at hone
    apply List.length_eq_zero_iff.mp
    omega
  have hremoved : removeTunnel tunnel.tunnelId s.tunnels = [] := by simp [htunnels, removeTunnel]
  have hsame : removeTunnel tunnel.tunnelId s.tunnels ++ (s.lost ++ [tunnel]) =
      s.tunnels ++ s.lost := by
    rw [hremoved, htunnels, hlost]
    rfl
  refine ⟨ht.invariant.lose hb, fun status hs => ?_, fun hx => ?_, fun _ other hm => ?_,
    fun other rest' hb' => ?_⟩
  · rcases ht.status status hs with hannounces | ⟨other, hm, -⟩ | ⟨-, hnil, -⟩
    · exact .inl (hsame ▸ hannounces)
    · rw [hlost] at hm
      cases hm
    · simp [htunnels] at hnil
  · rw [hsame]
    exact ht.announced hx
  · obtain rfl : other = tunnel := by simpa [hlost] using hm
    exact .inr ⟨[], rfl⟩
  · obtain ⟨rfl, -⟩ := Beat.notifying.inj hb'
    simp

/-- The notice of a loss is queued, unless nobody takes it. -/
theorem Told.notify (ht : Told s) {tunnel : Tunnel} {rest : List Tunnel} (hi : Invariant s')
    (hb : s.beat = .notifying tunnel rest)
    (h : s.send (tunnelLost tunnel) (.renewing rest) (.renewing rest) = some s') : Told s' := by
  have hlost := ht.notifying tunnel rest hb
  unfold Tenancy.send at h
  split at h
  · obtain ⟨connection, hc, rfl⟩ := Option.map_eq_some_iff.mp h
    have hconveys := Connection.conveys_exec hc
    obtain ⟨-, hle⟩ := ht.invariant.greeted.exec (by simp [ConnectionAction.welcomes, tunnelLost,
      ServerFrame.isWelcome]) hc
    refine ⟨hi, fun status hs => ?_, fun hx other hm => ?_, fun hx other hm => ?_, ?_⟩
    · rcases hconveys.origin status hs with hs | ⟨a, ha, hs⟩
      · rcases ht.status status hs with hs | hs | ⟨hno, hnil, hnone, hpos⟩
        · exact .inl hs
        · exact .inr (.inl hs)
        · exact .inr (.inr ⟨hno, hnil, hnone, hpos.trans_le hle⟩)
      · obtain rfl := List.mem_singleton.mp ha
        obtain rfl := Option.some.inj hs
        exact .inr (.inl ⟨tunnel, hlost, rfl⟩)
    · obtain ⟨status, hs, ha⟩ := ht.announced (hconveys.intact hx) other hm
      exact ⟨status, hconveys.kept hx status (.inl hs), ha⟩
    · left
      rcases ht.noticed (hconveys.intact hx) other hm with ⟨status, hs, ha⟩ | ⟨rest', hb'⟩
      · exact ⟨status, hconveys.kept hx status (.inl hs), ha⟩
      · obtain ⟨rfl, -⟩ := Beat.notifying.inj (hb.symm.trans hb')
        exact ⟨_, hconveys.kept hx _ (.inr ⟨_, List.mem_singleton_self _, rfl⟩), rfl⟩
    · intro other rest' hb'
      cases hb'
  · rename_i hclosed
    obtain rfl := Option.some.inj h
    have hshut : ¬ s.connection.edge.Intact := by
      rintro ⟨hopen, -⟩
      rw [Channel.poll_eq_closed.mp hclosed] at hopen
      cases hopen
    refine ⟨hi, ht.status, fun hx => absurd hx hshut, fun hx => absurd hx hshut, ?_⟩
    intro other rest' hb'
    cases hb'
  · cases h

/-- Moves of the connection that concern no tunnel. -/
theorem Told.move (ht : Told s) {as : List ConnectionAction} {beat : Beat} (hi : Invariant s')
    (has : ∀ a ∈ as, a.welcomes = false ∧ a.status = none)
    (hbeat : ∀ tunnel rest, beat = .notifying tunnel rest ↔ s.beat = .notifying tunnel rest)
    (h : { s with beat := beat }.move as = some s') : Told s' := by
  obtain ⟨connection, hc, rfl⟩ := Option.map_eq_some_iff.mp h
  have hconveys := Connection.conveys_exec hc
  have hgiven (status : TunnelStatus) : ¬ ∃ a ∈ as, a.status = some status := by
    rintro ⟨a, ha, hs⟩
    rw [(has a ha).2] at hs
    cases hs
  obtain ⟨-, hle⟩ := ht.invariant.greeted.exec (fun a ha => (has a ha).1) hc
  refine ht.of_silent hi ⟨fun status hs => ?_, hconveys.intact, fun hx status hs => ?_⟩ hle
    ⟨rfl, rfl, rfl⟩ (fun tunnel rest hb => (hbeat tunnel rest).mp hb)
    fun _ tunnel rest hb => (hbeat tunnel rest).mpr hb
  · exact .inl ((hconveys.origin status hs).resolve_right (hgiven status))
  · exact hconveys.kept hx status (.inl (hs.resolve_right not_false))

/-- A change of the heartbeat alone. -/
theorem Told.beat (ht : Told s) {beat : Beat} (hi : Invariant { s with beat := beat })
    (hbeat : ∀ tunnel rest, beat ≠ .notifying tunnel rest)
    (hbefore : s.connection.edge.Intact → ∀ tunnel rest, s.beat ≠ .notifying tunnel rest) :
    Told { s with beat := beat } :=
  ht.of_silent hi ⟨fun _ => .inl, id, fun _ _ hs => hs.resolve_right not_false⟩ le_rfl
    ⟨rfl, rfl, rfl⟩ (fun tunnel rest hb => absurd hb (hbeat tunnel rest))
    fun hx tunnel rest hb => absurd hb (hbefore hx tunnel rest)

theorem isPlain_status {action : ConnectionAction} (h : s.isPlain action = true) :
    action.status = none := by
  cases action with
  | edge a => cases a <;> first | rfl | cases h
  | _ => rfl

/-- Every move keeps what has been said to the agent in step with the tunnels. -/
theorem Told.step {a : TenancyAction} (ht : Told s) (h : s.step a = some s') : Told s' := by
  have hi := ht.invariant.step h
  cases step_cases h with
  | connection ha hm =>
    refine ht.move hi ?_ (fun _ _ => Iff.rfl) hm
    simpa using ⟨isPlain_welcomes ha, isPlain_status ha⟩
  | request | refuse | close | closeUnknown => exact ht.handleTunnel h
  | acquired | unclaimed => exact ht.claimed h
  | released hm =>
    exact ht.move hi (by simp [ConnectionAction.welcomes, ConnectionAction.status,
      EdgeAction.status]) (fun _ _ => Iff.rfl) hm
  | tick =>
    have hb : s.beat = .sleeping := by
      simp only [Tenancy.step] at h
      split at h
      · assumption
      · cases h
    exact ht.beat hi (by simp) fun _ _ _ => by simp [hb]
  | pinged hp hm =>
    have hb : s.beat = .pinging := by
      simp only [Tenancy.step] at h
      split at h
      · rename_i hok
        simp only [Bool.and_eq_true, decide_eq_true_eq] at hok
        exact hok.1
      · cases h
    unfold Tenancy.send at hm
    split at hm
    · refine ht.move hi ?_ (fun _ _ => by simp [hb]) hm
      simp [ConnectionAction.welcomes, ConnectionAction.status, EdgeAction.status,
        ServerFrame.isWelcome, ServerFrame.status]
    · obtain rfl := Option.some.inj hm
      exact ht.beat hi (by simp) fun _ _ _ => by simp [hb]
    · cases hm
  | lost hb => exact ht.lose hb
  | renewed hb _ => exact ht.beat hi (by simp) fun _ _ _ => by simp [hb]
  | notified hb hm => exact ht.notify hi hb hm
  | rest =>
    have hb : s.beat = .renewing [] := by
      simp only [Tenancy.step] at h
      split at h
      · assumption
      · cases h
    exact ht.beat hi (by simp) fun _ _ _ => by simp [hb]
  | abort =>
    refine ht.beat hi (by simp) fun hx => ?_
    have hover := hx.2
    simp only [Tenancy.step] at h
    split at h <;> simp_all [ReadLoop.isOver]

end Steps

section Runs

variable {node : NodeConfig} {principal : Principal} {sessionId : Text} {window : Nat}
  {options : AgentOptions} {downCapacity upCapacity : Nat}

theorem Told.init :
    Told (init node principal sessionId window options downCapacity upCapacity) :=
  .of_request .init rfl nofun fun status hs => by cases hs

/-- When everything has been delivered, the agent has received what was said. -/
theorem Quiescent.mem_statuses {s : Tenancy} (hq : s.Quiescent) (hw : s.connection.Wired)
    {status : TunnelStatus} : status ∈ s.connection.edge.statuses ↔
      .tunnelStatus status ∈ s.connection.agent.received := by
  have hlog : s.connection.edge.log = s.connection.agent.received := by
    rw [Edge.log, ← hw.down, hq.down, hq.edgeQueue, List.append_nil, List.append_nil]
  rw [Edge.statuses, hlog, hq.edgeLoop]
  simp only [ReadLoop.status, Option.toList_none, List.append_nil, List.mem_filterMap]
  constructor
  · rintro ⟨frame, hm, hs⟩
    cases frame <;> cases hs
    exact hm
  · exact fun hm => ⟨_, hm, rfl⟩

/-- In a session that is in place, with nothing under way, the edge lists a tunnel exactly if the
agent has received its announcement and no notice of its loss; and it has lost none without a
notice. -/
theorem agent_told {s : Tenancy}
    (h : Reachable step (init node principal sessionId window options downCapacity upCapacity) s)
    (he : s.Established) (hq : s.Quiescent) (tunnel : Tunnel) :
    (tunnel ∈ s.tunnels ↔
      (∃ status, .tunnelStatus status ∈ s.connection.agent.received ∧ status.Announces tunnel) ∧
        tunnelLost tunnel ∉ s.connection.agent.received) ∧
    (tunnel ∈ s.lost → tunnelLost tunnel ∈ s.connection.agent.received) := by
  have ht : Told s := h.invariant .init fun _ _ _ ht _ hs => ht.step hs
  have hwired := ht.invariant.greeted.wired
  have hintact : s.connection.edge.Intact := ⟨he.2.2.1, by rw [hq.edgeLoop]; rfl⟩
  have hlost : tunnel ∈ s.lost → tunnelLost tunnel ∈ s.connection.agent.received := by
    intro hm
    rcases ht.noticed hintact tunnel hm with ⟨status, hs, hl⟩ | ⟨rest, hb⟩
    · exact hl ▸ (hq.mem_statuses hwired).mp hs
    · rw [hq.beat] at hb
      cases hb
  refine ⟨⟨fun hm => ⟨?_, fun hn => ?_⟩, ?_⟩, hlost⟩
  · obtain ⟨status, hs, ha⟩ := ht.announced hintact tunnel (List.mem_append_left _ hm)
    exact ⟨status, (hq.mem_statuses hwired).mp hs, ha⟩
  · -- The only tunnel of a session is not listed and lost at the same time.
    rcases ht.status _ ((hq.mem_statuses hwired).mpr hn) with ⟨_, -, ha⟩ | ⟨other, ho, -⟩ |
      ⟨-, hnil, -⟩
    · cases ha.accepted
    · have hone := ht.invariant.tunnels_le
      have hlisted := List.length_pos_of_mem hm
      have hmissing := List.length_pos_of_mem ho
      omega
    · rw [(List.append_eq_nil_iff.mp hnil).1] at hm
      cases hm
  · rintro ⟨⟨status, hs, ha⟩, hn⟩
    rcases ht.status status ((hq.mem_statuses hwired).mpr hs) with ⟨other, ho, hb⟩ | ⟨_, -, hl⟩ |
      ⟨hno, -⟩
    · obtain rfl : other = tunnel := ha.unique hb
      exact (List.mem_append.mp ho).resolve_right fun hm => hn (hlost hm)
    · have hno : status.accepted = false := by
        rw [tunnelLost, ServerFrame.tunnelStatus.injEq] at hl
        rw [hl]
      rw [ha.accepted] at hno
      cases hno
    · rw [ha.accepted] at hno
      cases hno

end Runs

/-- The heartbeat loses the tunnel before the read loop has queued its announcement: the agent
receives the notice first, and the announcement is the last that it hears. -/
def overtaken : List TenancyAction :=
  [.connection .sendDown, .connection (.recvDown 0), .connection (.agent .notified),
    .connection (.agent .reply), .connection .sendUp, .handleTunnel [] "tun_1".toList,
    .claimed (.ok .acquired), .tick, .pinged 7 [myApp], .renewed (.ok false), .notified, .rest,
    .connection (.edge .reply), .connection .sendDown, .connection (.recvDown 0),
    .connection (.agent .reply), .connection .sendUp, .connection .recvUp, .connection .sendDown,
    .connection (.recvDown 0), .connection (.agent .notified), .connection .sendDown,
    .connection (.recvDown 0), .connection (.agent .notified)]

theorem agent_told_overtaken : ∃ s, exec step fresh overtaken = some s ∧ s.Established ∧
    s.Quiescent ∧ s.connection.agent.received.getLast? = some (.tunnelStatus
      ⟨"req_0".toList, "tun_1".toList, true, [], "https://my-app.tunnel.com".toList,
        "my-app.tunnel.com".toList⟩) ∧
    (myApp ∈ s.tunnels ↔
      (∃ status, .tunnelStatus status ∈ s.connection.agent.received ∧ status.Announces myApp) ∧
        tunnelLost myApp ∉ s.connection.agent.received) ∧
    (myApp ∈ s.lost → tunnelLost myApp ∈ s.connection.agent.received) := by
  obtain ⟨s, hs, hq, hedge, hagent, hlast⟩ : ∃ s, exec step fresh overtaken = some s ∧
      s.Quiescent ∧ s.connection.edge.session.outbound.rxOpen = true ∧
      s.connection.agent.outbound.rxOpen = true ∧
      s.connection.agent.received.getLast? = some (.tunnelStatus
        ⟨"req_0".toList, "tun_1".toList, true, [], "https://my-app.tunnel.com".toList,
          "my-app.tunnel.com".toList⟩) :=
    ⟨_, rfl, ⟨rfl, rfl, rfl, rfl, rfl, rfl, rfl⟩, rfl, rfl, rfl⟩
  have he := hq.established hedge hagent
  exact ⟨s, hs, he, hq, hlast, agent_told (.of_exec .nil hs) he hq myApp⟩

end Tenancy

end Norupo
