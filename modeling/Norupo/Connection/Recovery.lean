import Norupo.Connection.Tenancy

/-!
# What a lost claim leaves behind

The agent asks for a tunnel in answer to a `Welcome` only, and a session is welcomed once. So a
session registers at most one tunnel in its life, and when a renewal finds its claim lost there will
not be another: neither end tears the session down, and the agent does not ask again.
-/

namespace Norupo

open Async Transition

/-- The frame that makes the agent ask for its tunnel. -/
def ServerFrame.isWelcome : ServerFrame → Bool
  | .welcome _ _ => true
  | _ => false

/-- The frame that asks for a tunnel. -/
def ClientFrame.isRequest : ClientFrame → Bool
  | .openTunnel _ => true
  | _ => false

namespace Agent

/-- The requests for a tunnel that the agent has sent or is about to send. -/
def requests (s : Agent) : Nat :=
  s.log.countP ClientFrame.isRequest + s.readLoop.reply.toList.countP ClientFrame.isRequest

/-- The welcomes that the agent has received. -/
def welcomes (s : Agent) : Nat := s.received.countP ServerFrame.isWelcome

variable {s s' : Agent} {a : AgentAction}

/-- A request is sent for a welcome. -/
theorem Step.requests_le (h : Step s a s') (hs : s.requests ≤ s.welcomes) :
    s'.requests ≤ s'.welcomes := by
  unfold requests welcomes at *
  cases h
  case reply frame held hl hp =>
    simp only [hl, AgentLoop.reply, Option.toList_some] at hs
    simpa [log, AgentLoop.reply, ← List.append_assoc] using hs
  all_goals
    simp_all [log, openStream, AgentLoop.reply, ClientFrame.isRequest, ServerFrame.isWelcome]
  all_goals omega

/-- The agent never closes a tunnel. -/
theorem Step.closes (hw : WellFormed s) (h : Step s a s') {tunnelId : Text}
    (hn : .closeTunnel tunnelId ∉ s.log) : .closeTunnel tunnelId ∉ s'.log := by
  cases h
  case reply frame held hl hp =>
    have hr := hw.replying frame (by rw [hl]; rfl)
    have hne : frame ≠ .closeTunnel tunnelId := by
      rintro rfl
      cases hr
    simpa [log, hne.symm] using hn
  all_goals simp_all [log, openStream]

end Agent

namespace Edge

/-- The welcomes that the edge has sent. -/
def welcomes (s : Edge) : Nat := s.log.countP ServerFrame.isWelcome

variable {s s' : Edge} {a : EdgeAction}

/-- Only the handshake welcomes. -/
theorem Step.welcomes_eq (hw : WellFormed s) (h : Step s a s')
    (ha : ∀ frame, a = .control frame → frame.isWelcome = false) : s'.welcomes = s.welcomes := by
  unfold welcomes
  cases h
  case reply frame hl hp =>
    have hr := hw.replying frame hl
    have hn : frame.isWelcome = false := by
      cases frame <;> first | rfl | cases hr
    simp [log, hn]
  case control frame hf hp => simp [log, ha frame rfl]
  case transmit frame rest hx hq => simp [log, hq]
  all_goals simp [log, Session.insertStream, ServerFrame.isWelcome]

end Edge

/-- The move welcomes the agent. -/
def ConnectionAction.welcomes : ConnectionAction → Bool
  | .edge (.control frame) => frame.isWelcome
  | _ => false

namespace Connection

/-- The requests for a tunnel that the edge has received. -/
def requests (s : Connection) : Nat := s.edge.received.countP ClientFrame.isRequest

/-- A connection over which the agent is welcomed once. -/
structure Greeted (s : Connection) : Prop where
  edge : s.edge.WellFormed
  agent : s.agent.WellFormed
  wired : s.Wired
  once : s.edge.welcomes ≤ 1
  requests : s.agent.requests ≤ s.agent.welcomes
  closes : ∀ tunnelId, .closeTunnel tunnelId ∉ s.agent.log

variable {s s' : Connection} {a : ConnectionAction}

theorem Greeted.edge_step (hg : Greeted s) (ha : a.welcomes = false) (h : Step s a s') :
    s'.edge.WellFormed ∧ s'.edge.welcomes = s.edge.welcomes := by
  have hmove {b : EdgeAction} {edge : Edge} (hs : s.edge.step b = some edge)
      (hb : ∀ frame, b = .control frame → frame.isWelcome = false) :
      edge.WellFormed ∧ edge.welcomes = s.edge.welcomes :=
    ⟨hg.edge.step hs, (Edge.step_cases hs).welcomes_eq hg.edge hb⟩
  cases h with
  | edge hb hs =>
    refine hmove hs ?_
    rintro frame rfl
    exact ha
  | sendDown _ _ hs => exact hmove hs (by simp)
  | recvUp _ hs => exact hmove hs (by simp)
  | agent | recvDown | sendUp => exact ⟨hg.edge, rfl⟩

theorem Greeted.agent_step (hg : Greeted s) (h : Step s a s') :
    s'.agent.WellFormed ∧ s'.agent.requests ≤ s'.agent.welcomes ∧
      ∀ tunnelId, .closeTunnel tunnelId ∉ s'.agent.log := by
  rcases h.agent_cases with he | ⟨b, hb, -⟩
  · rw [he]
    exact ⟨hg.agent, hg.requests, hg.closes⟩
  · have hc := Agent.step_cases hb
    exact ⟨hg.agent.step hb, hc.requests_le hg.requests,
      fun tunnelId => hc.closes hg.agent (hg.closes tunnelId)⟩

theorem Greeted.step (hg : Greeted s) (ha : a.welcomes = false) (h : s.step a = some s') :
    Greeted s' := by
  obtain ⟨hedge, honce⟩ := hg.edge_step ha (step_cases h)
  obtain ⟨hagent, hrequests, hcloses⟩ := hg.agent_step (step_cases h)
  exact ⟨hedge, hagent, hg.wired.step h, honce ▸ hg.once, hrequests, hcloses⟩

/-- The edge receives at most one request. -/
theorem Greeted.requests_le_one (hg : Greeted s) : s.requests ≤ 1 := by
  calc s.requests
      ≤ s.agent.log.countP ClientFrame.isRequest :=
        hg.wired.up_isPrefix.sublist.countP_le
    _ ≤ s.agent.requests := Nat.le_add_right _ _
    _ ≤ s.agent.welcomes := hg.requests
    _ ≤ s.edge.welcomes := hg.wired.down_isPrefix.sublist.countP_le
    _ ≤ 1 := hg.once

/-- No `CloseTunnel` is in flight. -/
theorem Greeted.not_closing (hg : Greeted s) (tunnelId : Text) :
    .closeTunnel tunnelId ∉ s.up.queue := by
  intro hm
  apply hg.closes tunnelId
  apply List.mem_append_left
  rw [← hg.wired.up]
  exact List.mem_append_right _ hm

/-- The move takes in a request for a tunnel. -/
theorem requests_step (h : s.step a = some s') :
    s'.requests = s.requests +
      (if a = .recvUp then (s.up.queue.take 1).countP ClientFrame.isRequest else 0) := by
  unfold requests
  cases step_cases h with
  | edge ha hs => simp [((Edge.step_cases hs).local_log ha).1]
  | sendDown _ _ hs => simp [(Edge.transmit_log hs).1]
  | recvUp hq hs => simp [(Edge.recv_log hs).1, hq]
  | agent | recvDown | sendUp => simp

/-- Moves without a welcome keep what is known of a connection, and receive requests at most. -/
theorem Greeted.exec {as : List ConnectionAction} (hg : Greeted s)
    (has : ∀ a ∈ as, a.welcomes = false) (h : Transition.exec Connection.step s as = some s') :
    Greeted s' ∧ s.requests ≤ s'.requests := by
  induction as generalizing s with
  | nil =>
    obtain rfl := Option.some.inj h
    exact ⟨hg, le_rfl⟩
  | cons a as ih =>
    rw [exec_cons, Option.bind_eq_some_iff] at h
    obtain ⟨mid, hmid, h⟩ := h
    have hle : s.requests ≤ mid.requests := by
      rw [requests_step hmid]
      exact Nat.le_add_right _ _
    obtain ⟨hg', hle'⟩ := ih (hg.step (has a List.mem_cons_self) hmid)
      (fun b hb => has b (List.mem_cons_of_mem _ hb)) h
    exact ⟨hg', hle.trans hle'⟩

end Connection

namespace Tenancy

/-- What a session has made of the requests it received. -/
structure Invariant (s : Tenancy) : Prop where
  greeted : s.connection.Greeted
  /-- A request becomes a registration, a tunnel and possibly a loss. -/
  spent : s.tunnels.length + s.registering.toList.length + s.lost.length ≤ s.connection.requests
  /-- The heartbeat has nothing in hand, or the tunnels that are listed. -/
  inHand : s.beat.rest = [] ∨ s.beat.rest = s.tunnels

section Step

variable {s s' : Tenancy} {a : TenancyAction}

theorem Invariant.tunnels_le (hi : Invariant s) :
    s.tunnels.length + s.registering.toList.length + s.lost.length ≤ 1 :=
  hi.spent.trans hi.greeted.requests_le_one

/-- Moving the connection without a welcome. -/
theorem move_eq_some {as : List ConnectionAction} (hg : s.connection.Greeted)
    (has : ∀ a ∈ as, a.welcomes = false) (h : s.move as = some s') :
    s'.connection.Greeted ∧ s.connection.requests ≤ s'.connection.requests ∧
      s' = { s with connection := s'.connection } := by
  obtain ⟨connection, hc, rfl⟩ := Option.map_eq_some_iff.mp h
  obtain ⟨hg', hle⟩ := hg.exec has hc
  exact ⟨hg', hle, rfl⟩

/-- A move of the connection that changes no more than the heartbeat. -/
theorem Invariant.move (hi : Invariant s) {as : List ConnectionAction}
    (has : ∀ a ∈ as, a.welcomes = false) {beat : Beat}
    (hbeat : beat.rest = [] ∨ beat.rest = s.tunnels)
    (h : { s with beat := beat }.move as = some s') : Invariant s' := by
  obtain ⟨hg, hle, he⟩ := move_eq_some (s := { s with beat := beat }) hi.greeted has h
  rw [he]
  exact ⟨hg, hi.spent.trans hle, hbeat⟩

theorem isPlain_welcomes {action : ConnectionAction} (h : s.isPlain action = true) :
    action.welcomes = false := by
  unfold isPlain at h
  unfold ConnectionAction.welcomes
  split
  · cases h
  · rfl

theorem Invariant.send (hi : Invariant s) {frame : ServerFrame} (hf : frame.isWelcome = false)
    {sent failed : Beat} (hsent : sent.rest = [] ∨ sent.rest = s.tunnels)
    (hfailed : failed.rest = [] ∨ failed.rest = s.tunnels)
    (h : s.send frame sent failed = some s') : Invariant s' := by
  unfold Tenancy.send at h
  split at h
  · exact hi.move (by simpa [ConnectionAction.welcomes] using hf) hsent h
  · obtain rfl := Option.some.inj h
    exact ⟨hi.greeted, hi.spent, hfailed⟩
  · cases h

/-- A request is turned into a registration. -/
theorem Invariant.request (hi : Invariant s) {request : OpenTunnel} {rest : List ClientFrame}
    {registration : Text × RouteRecord × Text}
    (hq : s.connection.up.queue = .openTunnel request :: rest)
    (h : { s with registering := some registration }.move [.recvUp] = some s') : Invariant s' := by
  obtain ⟨connection, hc, rfl⟩ := Option.map_eq_some_iff.mp h
  obtain ⟨hg, -⟩ := hi.greeted.exec (by simp [ConnectionAction.welcomes]) hc
  have hrequests : connection.requests = s.connection.requests + 1 := by
    have hrecv : s.connection.step .recvUp = some connection := by simpa using hc
    rw [Connection.requests_step hrecv]
    simp [hq, ClientFrame.isRequest]
  have hspent := hi.spent
  refine ⟨hg, ?_, hi.inHand⟩
  simp only [Option.toList_some, List.length_singleton, hrequests]
  omega

/-- While a registration is under way no tunnel is listed: the request is spent on it. -/
theorem Invariant.tunnels_of_registering (hi : Invariant s)
    {registration : Text × RouteRecord × Text} (hr : s.registering = some registration) :
    s.tunnels = [] := by
  have hone := hi.tunnels_le
  rw [hr, Option.toList_some, List.length_singleton] at hone
  apply List.length_eq_zero_iff.mp
  omega

/-- An answered claim ends its registration, and lists a tunnel at most. -/
theorem Invariant.register (hi : Invariant s) {registration : Text × RouteRecord × Text}
    {tunnels : List Tunnel} {status : TunnelStatus} (hr : s.registering = some registration)
    (hlen : tunnels.length ≤ 1)
    (h : { s with registering := none, tunnels := tunnels }.move
      [.edge (.registryDone (some status))] = some s') : Invariant s' := by
  obtain ⟨connection, hc, rfl⟩ := Option.map_eq_some_iff.mp h
  obtain ⟨hg, hle⟩ := hi.greeted.exec (by simp [ConnectionAction.welcomes]) hc
  have hnone := hi.tunnels_of_registering hr
  have hspent := hi.spent
  rw [hr, Option.toList_some, List.length_singleton] at hspent
  refine ⟨hg, ?_, .inl ?_⟩
  · simp only [Option.toList_none, List.length_nil]
    omega
  · rcases hi.inHand with hin | hin
    · exact hin
    · exact hin.trans hnone

/-- The heartbeat renews the only tunnel there is. -/
theorem Invariant.tunnels_of_renewing (hi : Invariant s) {tunnel : Tunnel} {rest : List Tunnel}
    (hb : s.beat = .renewing (tunnel :: rest)) : s.tunnels = [tunnel] ∧ rest = [] := by
  have htunnels : s.tunnels = tunnel :: rest := by
    rcases hi.inHand with hin | hin
    · simp [hb, Beat.rest] at hin
    · simpa [hb, Beat.rest] using hin.symm
  have hone := hi.tunnels_le
  rw [htunnels, List.length_cons] at hone
  obtain rfl : rest = [] := by
    apply List.length_eq_zero_iff.mp
    omega
  exact ⟨htunnels, rfl⟩

/-- A refused renewal spends the tunnel for good. -/
theorem Invariant.lose (hi : Invariant s) {tunnel : Tunnel} {rest : List Tunnel}
    (hb : s.beat = .renewing (tunnel :: rest)) :
    Invariant { s with
      tunnels := removeTunnel tunnel.tunnelId s.tunnels
      lost := s.lost ++ [tunnel]
      beat := .notifying tunnel rest } := by
  obtain ⟨htunnels, rfl⟩ := hi.tunnels_of_renewing hb
  have hremoved : removeTunnel tunnel.tunnelId s.tunnels = [] := by simp [htunnels, removeTunnel]
  have hspent := hi.spent
  rw [htunnels, List.length_singleton] at hspent
  refine ⟨hi.greeted, ?_, .inl rfl⟩
  simp only [hremoved, List.length_nil, List.length_append, List.length_singleton]
  omega

/-- A list of the tunnels is the list that the session keeps. -/
theorem Invariant.eq_of_perm (hi : Invariant s) {tunnels : List Tunnel}
    (hp : tunnels.Perm s.tunnels) : tunnels = s.tunnels := by
  have hone := hi.tunnels_le
  cases ht : s.tunnels with
  | nil =>
    rw [ht] at hp
    exact hp.eq_nil
  | cons tunnel rest =>
    rw [ht, List.length_cons] at hone
    obtain rfl : rest = [] := by
      apply List.length_eq_zero_iff.mp
      omega
    rw [ht] at hp
    exact List.perm_singleton.mp hp

theorem Invariant.step (hi : Invariant s) (h : s.step a = some s') : Invariant s' := by
  cases step_cases h with
  | connection ha hm => exact hi.move (by simpa using isPlain_welcomes ha) hi.inHand hm
  | request hq hm => exact hi.request hq hm
  | refuse hm => exact hi.move (by simp [ConnectionAction.welcomes]) hi.inHand hm
  | @close _ _ closed _ _ hq hm =>
    exact absurd (hq ▸ List.mem_cons_self) (hi.greeted.not_closing closed)
  | closeUnknown hm => exact hi.move (by simp [ConnectionAction.welcomes]) hi.inHand hm
  | acquired hr hm =>
    refine hi.register hr ?_ hm
    simp [hi.tunnels_of_registering hr, insertTunnel, removeTunnel]
  | unclaimed hr hm =>
    refine hi.register hr ?_ hm
    simp [hi.tunnels_of_registering hr]
  | released hm => exact hi.move (by simp [ConnectionAction.welcomes]) hi.inHand hm
  | tick => exact ⟨hi.greeted, hi.spent, .inl rfl⟩
  | pinged hp hm =>
    refine hi.send rfl ?_ ?_ hm
    · exact .inr (hi.eq_of_perm hp)
    · exact .inl rfl
  | lost hb => exact hi.lose hb
  | renewed hb _ => exact ⟨hi.greeted, hi.spent, .inl (hi.tunnels_of_renewing hb).2⟩
  | @notified tunnel rest _ hb hm =>
    have hrest : rest = [] ∨ rest = s.tunnels := by simpa [hb, Beat.rest] using hi.inHand
    refine hi.send rfl ?_ ?_ hm
    · exact hrest
    · exact hrest
  | rest => exact ⟨hi.greeted, hi.spent, .inl rfl⟩
  | abort => exact ⟨hi.greeted, hi.spent, .inl rfl⟩

theorem move_lost {as : List ConnectionAction} (h : s.move as = some s') : s'.lost = s.lost := by
  obtain ⟨connection, -, rfl⟩ := Option.map_eq_some_iff.mp h
  rfl

theorem send_lost {frame : ServerFrame} {sent failed : Beat}
    (h : s.send frame sent failed = some s') : s'.lost = s.lost := by
  unfold Tenancy.send at h
  split at h
  · exact (move_lost h :)
  · obtain rfl := Option.some.inj h
    rfl
  · cases h

/-- A tunnel is lost when its renewal is refused. -/
theorem lost_cases (h : s.step a = some s') :
    (a = .renewed (.ok false) ∧ ∃ tunnel, s'.lost = s.lost ++ [tunnel]) ∨
      (a ≠ .renewed (.ok false) ∧ s'.lost = s.lost) := by
  cases step_cases h with
  | @lost tunnel _ _ => exact .inl ⟨rfl, tunnel, rfl⟩
  | renewed _ hne => exact .inr ⟨fun he => hne (TenancyAction.renewed.inj he), rfl⟩
  | connection _ hm | request _ hm | refuse hm | close _ hm | closeUnknown hm | acquired _ hm
  | unclaimed _ hm | released hm => exact .inr ⟨nofun, (move_lost hm :)⟩
  | pinged _ hm | notified _ hm => exact .inr ⟨nofun, send_lost hm⟩
  | tick | rest | abort => exact .inr ⟨nofun, rfl⟩

end Step

section Runs

variable {node : NodeConfig} {principal : Principal} {sessionId : Text} {window : Nat}
  {options : AgentOptions} {downCapacity upCapacity : Nat}

theorem Invariant.init :
    Invariant (init node principal sessionId window options downCapacity upCapacity) where
  greeted :=
    { edge := (Edge.WellFormed.init _ window).step
        (a := .control (.welcome sessionId node.nodeId)) rfl
      agent := .init options
      wired := ⟨rfl, rfl⟩
      once := le_rfl
      requests := le_rfl
      closes := fun _ h => by cases h }
  spent := le_rfl
  inHand := .inl rfl

/-- Something has been lost exactly if a renewal was refused. -/
theorem lost_eq_nil_iff {as : List TenancyAction} {s : Tenancy}
    (h : exec step (init node principal sessionId window options downCapacity upCapacity) as =
      some s) : s.lost = [] ↔ ∀ a ∈ as, a ≠ .renewed (.ok false) := by
  refine exec_history (P := fun as s => s.lost = [] ↔ ∀ a ∈ as, a ≠ .renewed (.ok false)) ?_ ?_ h
  · exact ⟨fun _ a ha => absurd ha List.not_mem_nil, fun _ => rfl⟩
  · intro as s a s' ih hs
    simp only [List.mem_append, List.mem_singleton, or_imp, forall_and, forall_eq]
    rcases lost_cases hs with ⟨ha, tunnel, hl⟩ | ⟨ha, hl⟩
    · simp [ha, hl]
    · rw [hl, ih]
      exact ⟨fun hall => ⟨hall, ha⟩, fun hall => hall.1⟩

/-- A session that is established and quiescent has left no lost tunnel behind exactly if none of
its renewals was refused. -/
theorem not_stranded_iff {as : List TenancyAction} {s : Tenancy}
    (h : exec step (init node principal sessionId window options downCapacity upCapacity) as =
      some s) :
    (∀ tunnel, ¬ s.Stranded tunnel) ↔
      (s.Established → s.Quiescent → ∀ a ∈ as, a ≠ .renewed (.ok false)) := by
  have hi : Invariant s :=
    (Reachable.of_exec .nil h).invariant .init fun _ _ _ hi _ hs => hi.step hs
  rw [← lost_eq_nil_iff h]
  constructor
  · intro hn he hq
    by_contra hlost
    obtain ⟨tunnel, ht⟩ := List.exists_mem_of_ne_nil _ hlost
    -- The one request of the session has been spent on the tunnel that was lost.
    have hnone : s.tunnels = [] := by
      have hone := hi.tunnels_le
      have hpos := List.length_pos_of_mem ht
      apply List.length_eq_zero_iff.mp
      omega
    apply hn tunnel
    refine ⟨ht, he, hq, ?_⟩
    intro other ho
    rw [hnone] at ho
    cases ho
  · rintro hn tunnel ⟨ht, he, hq, -⟩
    rw [hn he hq] at ht
    cases ht

end Runs

/-- Both loops of a quiescent session are in place. -/
theorem Quiescent.established {s : Tenancy} (hq : s.Quiescent)
    (hedge : s.connection.edge.session.outbound.rxOpen = true)
    (hagent : s.connection.agent.outbound.rxOpen = true) : s.Established := by
  refine ⟨⟨?_, fun ids => ?_, ?_, ?_⟩, ⟨?_, ?_⟩, hedge, hagent⟩
  all_goals simp [hq.edgeLoop, hq.agentLoop]

/-- A session of an agent that registers `my-app.tunnel.com`. -/
def fresh : Tenancy :=
  init testNode ⟨"acct".toList, [], [], Limits.default⟩ "ses_1".toList 262144 testOptions 8 8

/-- The tunnel that it registers. -/
def myApp : Tunnel :=
  ⟨"tun_1".toList, "my-app.tunnel.com".toList, "https://my-app.tunnel.com".toList⟩

/-- The agent is welcomed, asks for its tunnel and gets it, and the next beat of the heartbeat
renews the claim; the routing table answers the renewal. -/
def firstBeat (answer : Except Error Bool) : List TenancyAction :=
  [.connection .sendDown, .connection (.recvDown 0), .connection (.agent .notified),
    .connection (.agent .reply), .connection .sendUp, .handleTunnel [] "tun_1".toList,
    .claimed (.ok .acquired), .connection (.edge .reply), .connection .sendDown,
    .connection (.recvDown 0), .connection (.agent .notified), .tick, .pinged 7 [myApp],
    .connection .sendDown, .connection (.recvDown 0), .connection (.agent .reply),
    .connection .sendUp, .connection .recvUp, .renewed answer]

/-- A claim that is renewed stays with its tunnel. -/
theorem not_stranded_renewed :
    ∃ s, exec step fresh (firstBeat (.ok true) ++ [.rest]) = some s ∧ s.Established ∧
      s.Quiescent ∧ ∀ tunnel, ¬ s.Stranded tunnel := by
  obtain ⟨s, hs, hq, hedge, hagent⟩ : ∃ s,
      exec step fresh (firstBeat (.ok true) ++ [.rest]) = some s ∧ s.Quiescent ∧
      s.connection.edge.session.outbound.rxOpen = true ∧
      s.connection.agent.outbound.rxOpen = true :=
    ⟨_, rfl, ⟨rfl, rfl, rfl, rfl, rfl, rfl, rfl⟩, rfl, rfl⟩
  refine ⟨s, hs, hq.established hedge hagent, hq, (not_stranded_iff hs).mpr fun _ _ => ?_⟩
  simp [firstBeat]

/-- A refused renewal: the agent is told and reports the rejection, and both ends go on without a
tunnel. -/
theorem stranded_refused :
    ¬ ∀ node principal sessionId window options downCapacity upCapacity as s,
      exec step (init node principal sessionId window options downCapacity upCapacity) as = some s →
      ∀ tunnel, ¬ s.Stranded tunnel := by
  intro h
  obtain ⟨s, hs, hq, hedge, hagent, hlost, htunnels⟩ : ∃ s,
      exec step fresh (firstBeat (.ok false) ++ [.notified, .rest, .connection .sendDown,
        .connection (.recvDown 0), .connection (.agent .notified)]) = some s ∧ s.Quiescent ∧
      s.connection.edge.session.outbound.rxOpen = true ∧
      s.connection.agent.outbound.rxOpen = true ∧ s.lost = [myApp] ∧ s.tunnels = [] :=
    ⟨_, rfl, ⟨rfl, rfl, rfl, rfl, rfl, rfl, rfl⟩, rfl, rfl, rfl, rfl⟩
  refine h _ _ _ _ _ _ _ _ s hs myApp ⟨?_, hq.established hedge hagent, hq, ?_⟩
  · rw [hlost]
    exact List.mem_singleton_self _
  · rw [htunnels]
    exact fun other ho => absurd ho List.not_mem_nil

end Tenancy

end Norupo
