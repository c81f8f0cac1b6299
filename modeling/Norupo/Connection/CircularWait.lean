import Norupo.Connection.System

/-!
# Both read loops waiting to write

Each read loop answers data with a `WindowUpdate` that goes into the same bounded queue as the data
of all streams, and reads nothing while that queue is full. When the transport is full in both
directions as well, the two loops wait for each other: neither takes the frames whose removal the
other waits for. That is the only way for a session to come to a halt, and it is reached exactly
when one end's last slot is taken, or its reply is due, while the other end is already waiting.
-/

namespace Norupo

open Async Transition

/-- Moves by which a task other than the read loop queues a frame. -/
def EdgeAction.queues : EdgeAction → Bool
  | .queueOpen _ | .queueTimeoutReset _ | .pumpQueue _ | .pumpQueueEnd _ | .pumpQueueReset _
  | .dropBody _ | .control _ => true
  | _ => false

/-- Moves by which a task other than the read loop queues a frame. -/
def AgentAction.queues : AgentAction → Bool
  | .sendHead _ | .sendData _ | .sendEnd _ | .sendReset _ => true
  | _ => false

/-- Moves of the read loop between two frames. -/
def EdgeAction.isLoop : EdgeAction → Bool
  | .deliver | .reply | .registryDone _ | .snapshot _ | .closeNext => true
  | _ => false

/-- Moves of the read loop between two frames. -/
def AgentAction.isLoop : AgentAction → Bool
  | .deliver | .reply | .notified => true
  | _ => false

/-- The read loop has a frame to queue. -/
def ReadLoop.isReplying : ReadLoop → Bool
  | .replying _ => true
  | _ => false

/-- The read loop has a frame to queue. -/
def AgentLoop.isReplying : AgentLoop → Bool
  | .replying _ _ => true
  | _ => false

namespace Edge

/-- The read loop waits for a slot in the outbound queue. -/
def blocked (s : Edge) : Bool := s.readLoop.isReplying && s.session.outbound.poll = .pending

/-- The read loop goes on to queue a frame. -/
def answers (s : Edge) : EdgeAction → Bool
  | .deliver => match s.readLoop with
    | .delivering i (.data payload) =>
      0 < payload.length && (s.session.stream i).body.poll = .ready
    | _ => false
  | .registryDone status => status.isSome
  | _ => false

/-- The step makes the read loop wait: a reply is due and the queue is full, or a reply is waiting
and another task takes the last slot. -/
def blocks (s : Edge) (a : EdgeAction) : Bool :=
  s.answers a && s.session.outbound.poll = .pending ||
    a.queues && s.readLoop.isReplying && s.session.outbound.rxOpen &&
      s.session.outbound.queue.length + 1 = s.session.outbound.capacity

variable {s s' : Edge} {a : EdgeAction}

/-- A reply that is due makes the read loop wait exactly when the queue is full. -/
theorem blocked_answer (ha : s.answers a = true) (hq : a.queues = false)
    (hl : s'.readLoop.isReplying = true) (ho : s'.session.outbound = s.session.outbound) :
    s'.blocked = s.blocks a := by
  simp [blocked, blocks, ha, hq, hl, ho]

/-- A send by another task makes the read loop wait exactly when it takes the last slot. -/
theorem blocked_push {frame : ServerFrame} (hq : a.queues = true)
    (hn : s.answers a = false) (hp : s.session.outbound.poll = .ready)
    (hl : s'.readLoop = s.readLoop)
    (ho : s'.session.outbound = s.session.outbound.push frame) : s'.blocked = s.blocks a := by
  have hx := (Channel.poll_eq_ready.mp hp).1
  have hpush := Channel.poll_push_eq_pending hp frame
  rw [Bool.eq_iff_iff]
  simp [blocked, blocks, hl, ho, hn, hq, hx, hpush]

/-- A step that does not answer and queues nothing makes no read loop wait. -/
theorem blocked_quiet (hn : s.blocked = false) (ha : s.answers a = false)
    (hq : a.queues = true → s.session.outbound.poll ≠ .ready)
    (hs : s'.readLoop.isReplying = true → s.readLoop.isReplying = true ∧
      (s.session.outbound.poll ≠ .pending → s'.session.outbound.poll ≠ .pending)) :
    s'.blocked = s.blocks a := by
  have hblocks : s.blocks a = false := by
    by_contra hb
    simp only [blocks, ha, Bool.false_and, Bool.false_or, Bool.not_eq_false, Bool.and_eq_true,
      decide_eq_true_eq] at hb
    obtain ⟨⟨⟨hqueues, -⟩, hx⟩, hlast⟩ := hb
    exact hq hqueues (Channel.poll_eq_ready.mpr ⟨hx, by omega⟩)
  simp only [hblocks, blocked, Bool.and_eq_false_imp, decide_eq_false_iff_not] at hn ⊢
  exact fun hr => (hs hr).2 (hn (hs hr).1)

/-- A read loop that does not wait is made to wait exactly by the steps that block it. -/
theorem Step.blocked_eq (h : Step s a s') (hn : s.blocked = false) : s'.blocked = s.blocks a := by
  cases h
  case deliverData i payload hl hlen hp =>
    have hans : s.answers .deliver = true := by simp [answers, hl, hlen, hp]
    exact blocked_answer hans rfl rfl rfl
  case registered status hl => exact blocked_answer rfl rfl rfl rfl
  case dropBody i _ _ hp =>
    have ho := Session.outbound_closeStream ((s.dropRx i).session) i
    exact blocked_push rfl rfl hp rfl (congrArg (Channel.push · _) ho)
  case queueOpen hp | queueTimeoutReset hp | pumpQueue hp | pumpQueueEnd hp | pumpQueueReset hp |
      control hp =>
    exact blocked_push rfl rfl hp rfl rfl
  case transmit =>
    exact blocked_quiet hn rfl (by simp [EdgeAction.queues]) fun hr => ⟨hr, Channel.poll_pop⟩
  case dropOutbound =>
    exact blocked_quiet hn rfl (by simp [EdgeAction.queues]) fun hr => ⟨hr, by simp⟩
  case deliverGone i chunk hl hp =>
    have hans : s.answers .deliver = false := by
      cases chunk <;> simp [answers, hl, hp]
    exact blocked_quiet hn hans (by simp [EdgeAction.queues]) fun hr => nomatch hr
  all_goals
    refine blocked_quiet hn (by simp_all [answers]) (by simp_all [EdgeAction.queues]) ?_
    intro hr
    first
      | exact ⟨hr, id⟩
      | (refine ⟨hr, ?_⟩; simp)
      | cases hr

/-- The outbound queue is never overfilled. -/
theorem Step.bounded (h : Step s a s') (hb : s.session.outbound.Bounded) :
    s'.session.outbound.Bounded := by
  cases h
  case transmit => exact hb.pop
  case dropOutbound => exact hb.dropRx
  case dropBody i _ _ hp => simpa using hb.push hp _
  case queueOpen hp | queueTimeoutReset hp | pumpQueue hp | pumpQueueEnd hp | pumpQueueReset hp |
      control hp | reply hp =>
    exact hb.push hp _
  all_goals first
    | exact hb
    | simpa using hb

/-- A read loop that is running goes on, waits for a frame, waits for a consumer, or waits for a
slot in the outbound queue. -/
theorem loop_cases (hstop : s.readLoop ≠ .stopped) (hcrash : s.readLoop ≠ .crashed)
    (hprompt : ∀ i, ¬ s.WaitsFor i) :
    s.readLoop = .idle ∨ s.blocked = true ∨
      ∃ a, a.isLoop = true ∧ (s.step a).isSome = true := by
  cases hl : s.readLoop with
  | idle => exact .inl rfl
  | delivering i chunk =>
    refine .inr (.inr ⟨.deliver, rfl, ?_⟩)
    have hne : (s.session.stream i).body.poll ≠ .pending := fun hp => hprompt i ⟨chunk, hl, hp⟩
    cases hp : (s.session.stream i).body.poll with
    | pending => exact absurd hp hne
    | _ => simp [step, hl, hp]
  | replying frame =>
    cases hp : s.session.outbound.poll with
    | pending => exact .inr (.inl (by simp [blocked, hl, hp, ReadLoop.isReplying]))
    | _ => exact .inr (.inr ⟨.reply, rfl, by simp [step, hl, hp]⟩)
  | awaitingRegistry => exact .inr (.inr ⟨.registryDone none, rfl, by simp [step, hl]⟩)
  | tearingDown =>
    refine .inr (.inr ⟨.snapshot s.session.streams.toList, rfl, ?_⟩)
    simp [step, hl, Session.isSnapshot, Finset.nodup_toList]
  | closing ids =>
    refine .inr (.inr ⟨.closeNext, rfl, ?_⟩)
    cases ids <;> simp [step, hl]
  | stopped => exact absurd hl hstop
  | crashed => exact absurd hl hcrash

/-- A read loop that waits for a slot can do nothing else. -/
theorem loop_stuck (h : s.blocked = true) {a : EdgeAction} (ha : a.isLoop = true) :
    s.step a = none := by
  simp only [blocked, Bool.and_eq_true, decide_eq_true_eq] at h
  cases hl : s.readLoop with
  | replying frame => cases a <;> simp_all [EdgeAction.isLoop, step]
  | _ => simp [hl, ReadLoop.isReplying] at h

/-- After the transport has taken a frame the read loop does not wait. -/
theorem unblocked_of_transmit (hb : s.session.outbound.Bounded)
    (h : s.step .transmit = some s') : s'.blocked = false := by
  cases step_cases h with
  | transmit _ hq => simp [blocked, hb.poll_pop (by simp [hq])]

end Edge

namespace Agent

/-- The read loop waits for a slot in the outbound queue. -/
def blocked (s : Agent) : Bool := s.readLoop.isReplying && s.outbound.poll = .pending

/-- The read loop goes on to queue a frame. -/
def answers (s : Agent) : AgentAction → Bool
  | .deliver => match s.readLoop with
    | .delivering _ (some t) _ => (s.task t).body.poll = .ready
    | _ => false
  | .notified => match s.readLoop with
    | .notifying next => next.isSome
    | _ => false
  | .recv (.ping _) _ => true
  | _ => false

/-- The step makes the read loop wait: a reply is due and the queue is full, or a reply is waiting
and another task takes the last slot. -/
def blocks (s : Agent) (a : AgentAction) : Bool :=
  s.answers a && s.outbound.poll = .pending ||
    a.queues && s.readLoop.isReplying && s.outbound.rxOpen &&
      s.outbound.queue.length + 1 = s.outbound.capacity

variable {s s' : Agent} {a : AgentAction}

/-- A reply that is due makes the read loop wait exactly when the queue is full. -/
theorem blocked_answer (ha : s.answers a = true) (hq : a.queues = false)
    (hl : s'.readLoop.isReplying = true) (ho : s'.outbound = s.outbound) :
    s'.blocked = s.blocks a := by
  simp [blocked, blocks, ha, hq, hl, ho]

/-- A send by another task makes the read loop wait exactly when it takes the last slot. -/
theorem blocked_push {frame : ClientFrame} (hq : a.queues = true)
    (hn : s.answers a = false) (hp : s.outbound.poll = .ready)
    (hl : s'.readLoop = s.readLoop)
    (ho : s'.outbound = s.outbound.push frame) : s'.blocked = s.blocks a := by
  have hx := (Channel.poll_eq_ready.mp hp).1
  have hpush := Channel.poll_push_eq_pending hp frame
  rw [Bool.eq_iff_iff]
  simp [blocked, blocks, hl, ho, hn, hq, hx, hpush]

/-- A step that does not answer and queues nothing makes no read loop wait. -/
theorem blocked_quiet (hn : s.blocked = false) (ha : s.answers a = false)
    (hq : a.queues = true → s.outbound.poll ≠ .ready)
    (hs : s'.readLoop.isReplying = true → s.readLoop.isReplying = true ∧
      (s.outbound.poll ≠ .pending → s'.outbound.poll ≠ .pending)) :
    s'.blocked = s.blocks a := by
  have hblocks : s.blocks a = false := by
    by_contra hb
    simp only [blocks, ha, Bool.false_and, Bool.false_or, Bool.not_eq_false, Bool.and_eq_true,
      decide_eq_true_eq] at hb
    obtain ⟨⟨⟨hqueues, -⟩, hx⟩, hlast⟩ := hb
    exact hq hqueues (Channel.poll_eq_ready.mpr ⟨hx, by omega⟩)
  simp only [hblocks, blocked, Bool.and_eq_false_imp, decide_eq_false_iff_not] at hn ⊢
  exact fun hr => (hs hr).2 (hn (hs hr).1)

/-- A read loop that does not wait is made to wait exactly by the steps that block it. -/
theorem Step.blocked_eq (h : Step s a s') (hn : s.blocked = false) : s'.blocked = s.blocks a := by
  cases h
  case deliver i t payload hl hp =>
    exact blocked_answer (by simp [answers, hl, hp]) rfl rfl rfl
  case notifiedReply frame hl => exact blocked_answer (by simp [answers, hl]) rfl rfl rfl
  case recvPing => exact blocked_answer rfl rfl rfl rfl
  case sendHead hp | sendData hp | sendEnd hp | sendReset hp =>
    exact blocked_push rfl rfl hp rfl rfl
  case transmit =>
    exact blocked_quiet hn rfl (by simp [AgentAction.queues]) fun hr => ⟨hr, Channel.poll_pop⟩
  case dropOutbound =>
    exact blocked_quiet hn rfl (by simp [AgentAction.queues]) fun hr => ⟨hr, by simp⟩
  all_goals
    refine blocked_quiet hn (by simp_all [answers]) (by simp_all [AgentAction.queues]) ?_
    intro hr
    first
      | exact ⟨hr, id⟩
      | cases hr
      | exact ⟨by simpa using hr, by simp⟩

/-- The outbound queue is never overfilled. -/
theorem Step.bounded (h : Step s a s') (hb : s.outbound.Bounded) : s'.outbound.Bounded := by
  cases h
  case transmit => exact hb.pop
  case dropOutbound => exact hb.dropRx
  case sendHead hp | sendData hp | sendEnd hp | sendReset hp | reply hp => exact hb.push hp _
  all_goals first
    | exact hb
    | simpa using hb

/-- A read loop that is running goes on, waits for a frame, waits for a consumer, or waits for a
slot in the outbound queue. -/
theorem loop_cases (hstop : s.readLoop ≠ .stopped) (hcrash : s.readLoop ≠ .crashed)
    (hprompt : ∀ t, ¬ s.WaitsFor t) :
    s.readLoop = .idle ∨ s.blocked = true ∨
      ∃ a, a.isLoop = true ∧ (s.step a).isSome = true := by
  cases hl : s.readLoop with
  | idle => exact .inl rfl
  | delivering i target payload =>
    refine .inr (.inr ⟨.deliver, rfl, ?_⟩)
    cases target with
    | none => simp [step, hl]
    | some t =>
      have hne : (s.task t).body.poll ≠ .pending := fun hp => hprompt t ⟨i, payload, hl, hp⟩
      cases hp : (s.task t).body.poll with
      | pending => exact absurd hp hne
      | _ => simp [step, hl, hp]
  | replying frame held =>
    cases hp : s.outbound.poll with
    | pending => exact .inr (.inl (by simp [blocked, hl, hp, AgentLoop.isReplying]))
    | _ => exact .inr (.inr ⟨.reply, rfl, by simp [step, hl, hp]⟩)
  | notifying next =>
    refine .inr (.inr ⟨.notified, rfl, ?_⟩)
    cases next <;> simp [step, hl]
  | stopped => exact absurd hl hstop
  | crashed => exact absurd hl hcrash

/-- A read loop that waits for a slot can do nothing else. -/
theorem loop_stuck (h : s.blocked = true) {a : AgentAction} (ha : a.isLoop = true) :
    s.step a = none := by
  simp only [blocked, Bool.and_eq_true, decide_eq_true_eq] at h
  cases hl : s.readLoop with
  | replying frame held => cases a <;> simp_all [AgentAction.isLoop, step]
  | _ => simp [hl, AgentLoop.isReplying] at h

/-- After the transport has taken a frame the read loop does not wait. -/
theorem unblocked_of_transmit (hb : s.outbound.Bounded) (h : s.step .transmit = some s') :
    s'.blocked = false := by
  cases step_cases h with
  | transmit _ hq => simp [blocked, hb.poll_pop (by simp [hq])]

end Agent

/-- Moves of the transport and of the read loops. -/
def ConnectionAction.isProgress : ConnectionAction → Bool
  | .edge a => a.isLoop
  | .agent a => a.isLoop
  | _ => true

namespace Connection

/-- The transport takes no frame in either direction. -/
def full (s : Connection) : Bool := s.down.poll = .pending && s.up.poll = .pending

/-- Each read loop waits for the frames that the other does not take. -/
def circularWait (s : Connection) : Bool := s.edge.blocked && s.agent.blocked && s.full

/-- While one end's read loop waits and the transport is full, the other end's is not made to
wait. -/
def keepsRoom (s : Connection) : ConnectionAction → Bool
  | .edge a => !(s.agent.blocked && s.full && s.edge.blocks a)
  | .agent a => !(s.edge.blocked && s.full && s.agent.blocks a)
  | _ => true

/-- Both read loops run and both connections are up. -/
structure Running (s : Connection) : Prop where
  edgeStop : s.edge.readLoop ≠ .stopped
  edgeCrash : s.edge.readLoop ≠ .crashed
  agentStop : s.agent.readLoop ≠ .stopped
  agentCrash : s.agent.readLoop ≠ .crashed
  edgeOut : s.edge.session.outbound.rxOpen = true
  agentOut : s.agent.outbound.rxOpen = true

/-- Every public client and every local service has taken enough for the read loops to go on. -/
def Prompt (s : Connection) : Prop := (∀ i, ¬ s.edge.WaitsFor i) ∧ ∀ t, ¬ s.agent.WaitsFor t

/-- A frame is queued at an end or in flight. -/
def Queued (s : Connection) : Prop :=
  s.edge.session.outbound.queue ≠ [] ∨ s.down.queue ≠ [] ∨ s.agent.outbound.queue ≠ [] ∨
    s.up.queue ≠ []

/-- There is no circular wait, and while frames are queued the transport or a read loop can move. -/
def Flowing (s : Connection) : Prop :=
  s.circularWait = false ∧ (s.Running → s.Prompt → s.Queued →
    ∃ a, a.isProgress = true ∧ (s.step a).isSome = true)

/-- The four queues of a session have slots and are not overfilled. -/
structure Roomy (s : Connection) : Prop where
  edgeOut : s.edge.session.outbound.Bounded
  agentOut : s.agent.outbound.Bounded
  down : s.down.Bounded
  up : s.up.Bounded
  downOpen : s.down.rxOpen = true
  upOpen : s.up.rxOpen = true

variable {s s' : Connection} {a : ConnectionAction}

theorem Roomy.init (limit window : Nat) (options : AgentOptions) {downCapacity upCapacity : Nat}
    (hdown : 0 < downCapacity) (hup : 0 < upCapacity) :
    Roomy (init limit window options downCapacity upCapacity) where
  edgeOut := .new (by decide)
  agentOut := .new (by decide)
  down := .new hdown
  up := .new hup
  downOpen := rfl
  upOpen := rfl

theorem Roomy.step (hr : Roomy s) (h : s.step a = some s') : Roomy s' := by
  obtain ⟨he, ha, hd, hu, hdx, hux⟩ := hr
  cases step_cases h with
  | edge _ hs => exact ⟨(Edge.step_cases hs).bounded he, ha, hd, hu, hdx, hux⟩
  | agent _ hs => exact ⟨he, (Agent.step_cases hs).bounded ha, hd, hu, hdx, hux⟩
  | sendDown _ hp hs =>
    exact ⟨(Edge.step_cases hs).bounded he, ha, hd.push hp _, hu, hdx, hux⟩
  | recvDown _ hs => exact ⟨he, (Agent.step_cases hs).bounded ha, hd.pop, hu, hdx, hux⟩
  | sendUp _ hp hs => exact ⟨he, (Agent.step_cases hs).bounded ha, hd, hu.push hp _, hdx, hux⟩
  | recvUp _ hs => exact ⟨(Edge.step_cases hs).bounded he, ha, hd, hu.pop, hdx, hux⟩

/-- A channel with a receiver that makes no sender wait is ready. -/
theorem ready_of_not_pending {α : Type} {c : Channel α} (hx : c.rxOpen = true)
    (hp : c.poll ≠ .pending) : c.poll = .ready := by
  cases h : c.poll with
  | ready => rfl
  | pending => exact absurd h hp
  | closed => simp [Channel.poll_eq_closed.mp h] at hx

section Moves

/-- A frame queued at the edge moves when the transport has room. -/
theorem sendDown_enabled (hx : s.edge.session.outbound.rxOpen = true)
    (hq : s.edge.session.outbound.queue ≠ []) (hp : s.down.poll = .ready) :
    (s.step .sendDown).isSome = true := by
  obtain ⟨frame, rest, hq⟩ := List.exists_cons_of_ne_nil hq
  simp [step, Edge.step, hq, hp, hx]

/-- A frame queued at the agent moves when the transport has room. -/
theorem sendUp_enabled (hx : s.agent.outbound.rxOpen = true)
    (hq : s.agent.outbound.queue ≠ []) (hp : s.up.poll = .ready) :
    (s.step .sendUp).isSome = true := by
  obtain ⟨frame, rest, hq⟩ := List.exists_cons_of_ne_nil hq
  simp [step, Agent.step, hq, hp, hx]

theorem recvDown_enabled (hl : s.agent.readLoop = .idle) (hq : s.down.queue ≠ []) :
    (s.step (.recvDown 0)).isSome = true := by
  obtain ⟨frame, rest, hq⟩ := List.exists_cons_of_ne_nil hq
  simp [step, Agent.step, hq, hl]

theorem recvUp_enabled (hl : s.edge.readLoop = .idle) (hq : s.up.queue ≠ []) :
    (s.step .recvUp).isSome = true := by
  obtain ⟨frame, rest, hq⟩ := List.exists_cons_of_ne_nil hq
  simp [step, Edge.step, hq, hl]

theorem edge_loop_enabled {a : EdgeAction} (ha : a.isLoop = true)
    (h : (s.edge.step a).isSome = true) : (s.step (.edge a)).isSome = true := by
  have hlocal : a.isLocal = true := by cases a <;> simp_all [EdgeAction.isLoop, EdgeAction.isLocal]
  simpa [step, hlocal] using h

theorem agent_loop_enabled {a : AgentAction} (ha : a.isLoop = true)
    (h : (s.agent.step a).isSome = true) : (s.step (.agent a)).isSome = true := by
  have hlocal : a.isLocal = true := by
    cases a <;> simp_all [AgentAction.isLoop, AgentAction.isLocal]
  simpa [step, hlocal] using h

end Moves

/-- A read loop that waits has frames in its outbound queue. -/
theorem pending_of_blocked (h : s.edge.blocked = true) :
    s.edge.session.outbound.poll = .pending := by
  simp only [Edge.blocked, Bool.and_eq_true, decide_eq_true_eq] at h
  exact h.2

theorem pending_of_agent_blocked (h : s.agent.blocked = true) :
    s.agent.outbound.poll = .pending := by
  simp only [Agent.blocked, Bool.and_eq_true, decide_eq_true_eq] at h
  exact h.2

/-- Without a circular wait something moves. -/
theorem progress_of_no_circularWait (hr : Roomy s) (hc : s.circularWait = false)
    (hrun : s.Running) (hprompt : s.Prompt) (hq : s.Queued) :
    ∃ a, a.isProgress = true ∧ (s.step a).isSome = true := by
  by_contra hnone
  simp only [not_exists, not_and] at hnone
  -- Neither loop goes on by itself, and the transport does not take from a full queue.
  have hdown : s.edge.session.outbound.queue ≠ [] → s.down.poll = .pending := fun hne => by
    by_contra hp
    exact hnone .sendDown rfl
      (sendDown_enabled hrun.edgeOut hne (ready_of_not_pending hr.downOpen hp))
  have hup : s.agent.outbound.queue ≠ [] → s.up.poll = .pending := fun hne => by
    by_contra hp
    exact hnone .sendUp rfl (sendUp_enabled hrun.agentOut hne (ready_of_not_pending hr.upOpen hp))
  have hedge : s.edge.readLoop = .idle ∨ s.edge.blocked = true := by
    rcases Edge.loop_cases hrun.edgeStop hrun.edgeCrash hprompt.1 with h | h | ⟨b, hb, hs⟩
    · exact .inl h
    · exact .inr h
    · exact absurd (edge_loop_enabled hb hs) (hnone (.edge b) hb)
  have hagent : s.agent.readLoop = .idle ∨ s.agent.blocked = true := by
    rcases Agent.loop_cases hrun.agentStop hrun.agentCrash hprompt.2 with h | h | ⟨b, hb, hs⟩
    · exact .inl h
    · exact .inr h
    · exact absurd (agent_loop_enabled hb hs) (hnone (.agent b) hb)
  -- So a queued frame makes the next queue full, around the whole circle.
  have hdownq : s.down.queue ≠ [] → s.agent.blocked = true := fun hne =>
    hagent.resolve_left fun hl => hnone (.recvDown 0) rfl (recvDown_enabled hl hne)
  have hupq : s.up.queue ≠ [] → s.edge.blocked = true := fun hne =>
    hedge.resolve_left fun hl => hnone .recvUp rfl (recvUp_enabled hl hne)
  have hout : s.edge.blocked = true → s.down.poll = .pending := fun hb =>
    hdown (hr.edgeOut.ne_nil_of_pending (pending_of_blocked hb))
  have hout' : s.agent.blocked = true → s.up.poll = .pending := fun hb =>
    hup (hr.agentOut.ne_nil_of_pending (pending_of_agent_blocked hb))
  have hround : s.edge.blocked = true ∨ s.agent.blocked = true := by
    rcases hq with h | h | h | h
    · exact .inr (hdownq (hr.down.ne_nil_of_pending (hdown h)))
    · exact .inr (hdownq h)
    · exact .inl (hupq (hr.up.ne_nil_of_pending (hup h)))
    · exact .inl (hupq h)
  have hboth : s.edge.blocked = true ∧ s.agent.blocked = true := by
    rcases hround with h | h
    · exact ⟨h, hdownq (hr.down.ne_nil_of_pending (hout h))⟩
    · exact ⟨hupq (hr.up.ne_nil_of_pending (hout' h)), h⟩
  simp [circularWait, full, hboth, hout hboth.1, hout' hboth.2] at hc

/-- A session flows exactly when there is no circular wait. -/
theorem flowing_iff (hr : Roomy s) : s.Flowing ↔ s.circularWait = false :=
  ⟨And.left, fun hc => ⟨hc, progress_of_no_circularWait hr hc⟩⟩

/-- One step leads into a circular wait exactly when it does not keep room. -/
theorem circularWait_step (hr : Roomy s) (hc : s.circularWait = false)
    (h : s.step a = some s') : s'.circularWait = false ↔ s.keepsRoom a = true := by
  cases step_cases h with
  | @edge a edge _ hs =>
    change (edge.blocked && s.agent.blocked && s.full) = false ↔
      (!(s.agent.blocked && s.full && s.edge.blocks a)) = true
    cases hb : s.edge.blocked with
    | true => cases ha : s.agent.blocked <;> cases hf : s.full <;> simp_all [circularWait]
    | false =>
      rw [(Edge.step_cases hs).blocked_eq hb]
      cases s.edge.blocks a <;> cases s.agent.blocked <;> cases s.full <;> simp
  | @agent a agent _ hs =>
    change (s.edge.blocked && agent.blocked && s.full) = false ↔
      (!(s.edge.blocked && s.full && s.agent.blocks a)) = true
    cases hb : s.agent.blocked with
    | true => cases he : s.edge.blocked <;> cases hf : s.full <;> simp_all [circularWait]
    | false =>
      rw [(Agent.step_cases hs).blocked_eq hb]
      cases s.agent.blocks a <;> cases s.edge.blocked <;> cases s.full <;> simp
  | sendDown hq _ hs => simp [circularWait, keepsRoom, Edge.unblocked_of_transmit hr.edgeOut hs]
  | sendUp hq _ hs => simp [circularWait, keepsRoom, Agent.unblocked_of_transmit hr.agentOut hs]
  | recvDown hq hs => simp [circularWait, keepsRoom, full, hr.down.poll_pop (by simp [hq])]
  | recvUp hq hs => simp [circularWait, keepsRoom, full, hr.up.poll_pop (by simp [hq])]

/-- A session flows at every moment of an execution exactly when all its steps keep room. -/
theorem always_flowing_iff (limit window : Nat) (options : AgentOptions)
    {downCapacity upCapacity : Nat} (hdown : 0 < downCapacity) (hup : 0 < upCapacity)
    (actions : List ConnectionAction) :
    Always step Flowing (init limit window options downCapacity upCapacity) actions ↔
      Throughout step (fun s a => s.keepsRoom a = true)
        (init limit window options downCapacity upCapacity) actions := by
  have hinit := Roomy.init limit window options hdown hup
  refine always_iff_throughout (I := Roomy) (fun _ _ _ hr hs => hr.step hs) ?_ hinit
    ((flowing_iff hinit).mpr rfl) actions
  intro s a s' hr hf hs
  rw [flowing_iff (hr.step hs)]
  exact circularWait_step hr ((flowing_iff hr).mp hf) hs

/-- A circular wait is a halt: frames are queued, everyone else is willing, and nothing moves. -/
theorem halted_of_circularWait (hr : Roomy s) (hc : s.circularWait = true) :
    s.Queued ∧ ∀ a, a.isProgress = true → s.step a = none := by
  simp only [circularWait, full, Bool.and_eq_true, decide_eq_true_eq] at hc
  obtain ⟨⟨he, ha⟩, hdown, hup⟩ := hc
  refine ⟨.inl (hr.edgeOut.ne_nil_of_pending (pending_of_blocked he)), fun a hp => ?_⟩
  cases hs : s.step a with
  | none => rfl
  | some s' =>
    exfalso
    cases step_cases hs with
    | edge _ h => simp [Edge.loop_stuck he hp] at h
    | agent _ h => simp [Agent.loop_stuck ha hp] at h
    | sendDown _ h _ => simp [hdown] at h
    | sendUp _ h _ => simp [hup] at h
    | recvDown _ h =>
      simp only [Agent.blocked, Bool.and_eq_true] at ha
      cases hl : s.agent.readLoop <;> simp_all [Agent.step, AgentLoop.isReplying]
    | recvUp _ h =>
      simp only [Edge.blocked, Bool.and_eq_true] at he
      cases hl : s.edge.readLoop <;> simp_all [Edge.step, ReadLoop.isReplying]

end Connection

section Filling

/-- The pump of a stream can queue this many one-byte frames. -/
def Edge.canUpload (s : Edge) (i n : Nat) : Bool :=
  (s.request i).pump = .reading && i ∈ s.session.streams &&
    !(s.session.stream i).sendCredit.isClosed && n ≤ (s.session.stream i).sendCredit.permits &&
    s.session.outbound.rxOpen && s.session.outbound.queue.length + n ≤ s.session.outbound.capacity

/-- A task can queue this many one-byte frames. -/
def Agent.canProduce (s : Agent) (t n : Nat) : Bool :=
  (s.task t).serve = .reading && !(s.task t).sendCredit.isClosed &&
    n ≤ (s.task t).sendCredit.permits && s.outbound.rxOpen &&
    s.outbound.queue.length + n ≤ s.outbound.capacity

/-- One byte of a request body is queued as a frame. -/
theorem Edge.upload_byte {s : Edge} {i n : Nat} (h : s.canUpload i (n + 1) = true) :
    ∃ s', exec Edge.step s [.pumpData i [0], .pumpAcquire i, .pumpQueue i] = some s' ∧
      s'.canUpload i n = true ∧ s'.readLoop = s.readLoop ∧
      s'.session.outbound = s.session.outbound.push (.streamData i [0]) := by
  simp only [canUpload, Bool.and_eq_true, Bool.not_eq_true', decide_eq_true_eq] at h
  obtain ⟨⟨⟨⟨⟨hp, hi⟩, hc⟩, hn⟩, hx⟩, hroom⟩ := h
  have hready : s.session.outbound.poll = .ready := Channel.poll_eq_ready.mpr ⟨hx, by omega⟩
  have hcredit : (s.session.stream i).sendCredit.poll 1 = .ready := by
    simp only [Semaphore.poll, hc, Bool.false_eq_true, if_false]
    exact if_pos (by omega)
  have hsplit : splitChunks [0] = [[0]] := rfl
  have hlen : toU32 1 = 1 := rfl
  refine ⟨({ s with session := s.session.takeCredit i 1 }.push (.streamData i [0])).setRequest i
    { s.request i with supplied := (s.request i).supplied ++ [0], pump := .reading }, ?_, ?_, rfl,
    rfl⟩
  · simp [step, hp, hi, hsplit, hlen, hcredit, hready, Pump.next]
  · simp only [canUpload, setRequest, push, Session.push, Session.takeCredit, Function.update_self,
      Semaphore.take, hi, hc, Channel.rxOpen_push, hx, Channel.queue_push, Channel.capacity_push,
      List.length_append, List.length_singleton, decide_true, Bool.not_false, Bool.and_true,
      Bool.true_and, Bool.and_eq_true, decide_eq_true_eq]
    omega

/-- One byte of a response body is queued as a frame. -/
theorem Agent.produce_byte {s : Agent} {t n : Nat} (h : s.canProduce t (n + 1) = true) :
    ∃ s', exec Agent.step s [.produce t [0], .acquire t, .sendData t] = some s' ∧
      s'.canProduce t n = true ∧ s'.readLoop = s.readLoop ∧
      s'.outbound = s.outbound.push (.streamData (s.task t).streamId [0]) := by
  simp only [canProduce, Bool.and_eq_true, Bool.not_eq_true', decide_eq_true_eq] at h
  obtain ⟨⟨⟨⟨hp, hc⟩, hn⟩, hx⟩, hroom⟩ := h
  have hready : s.outbound.poll = .ready := Channel.poll_eq_ready.mpr ⟨hx, by omega⟩
  have hcredit : (s.task t).sendCredit.poll 1 = .ready := by
    simp only [Semaphore.poll, hc, Bool.false_eq_true, if_false]
    exact if_pos (by omega)
  have hlen : toU32 (min maxChunk 1) = 1 := rfl
  have htake : ([0] : Bytes).take maxChunk = [0] := rfl
  have hdrop : ([0] : Bytes).drop maxChunk = [] := rfl
  refine ⟨(s.push (.streamData (s.task t).streamId [0])).setTask t { s.task t with
    produced := (s.task t).produced ++ [0], serve := .reading
    sendCredit := (s.task t).sendCredit.take 1 }, ?_, ?_, rfl, rfl⟩
  · simp [step, hp, Serve.next, htake, hdrop, hlen, hcredit, hready]
  · simp only [canProduce, setTask, push, Function.update_self, Semaphore.take, hc,
      Channel.rxOpen_push, hx, Channel.queue_push, Channel.capacity_push, List.length_append,
      List.length_singleton, decide_true, Bool.not_false, Bool.and_true, Bool.true_and,
      Bool.and_eq_true, decide_eq_true_eq]
    omega

/-- The pump of a stream fills the outbound queue while the read loop stays where it is. -/
theorem Edge.fill {s : Edge} {i n : Nat} (h : s.canUpload i n = true) :
    ∃ actions s', (∀ a ∈ actions, EdgeAction.isLocal a = true) ∧
      exec Edge.step s actions = some s' ∧ s'.readLoop = s.readLoop ∧
      s'.session.outbound.rxOpen = s.session.outbound.rxOpen ∧
      s'.session.outbound.capacity = s.session.outbound.capacity ∧
      s'.session.outbound.queue.length = s.session.outbound.queue.length + n := by
  induction n generalizing s with
  | zero => exact ⟨[], s, by simp, rfl, rfl, rfl, rfl, rfl⟩
  | succ n ih =>
    obtain ⟨mid, hmid, hcan, hl, ho⟩ := Edge.upload_byte h
    obtain ⟨actions, s', hlocal, hs, hl', hx, hc, hq⟩ := ih hcan
    refine ⟨[.pumpData i [0], .pumpAcquire i, .pumpQueue i] ++ actions, s', ?_, ?_, hl'.trans hl,
      by simp [hx, ho], by simp [hc, ho], ?_⟩
    · simpa [EdgeAction.isLocal] using hlocal
    · rw [exec_append, hmid]
      exact hs
    · rw [hq, ho]
      simp only [Channel.queue_push, List.length_append, List.length_singleton]
      omega

/-- A task fills the outbound queue while the read loop stays where it is. -/
theorem Agent.fill {s : Agent} {t n : Nat} (h : s.canProduce t n = true) :
    ∃ actions s', (∀ a ∈ actions, AgentAction.isLocal a = true) ∧
      exec Agent.step s actions = some s' ∧ s'.readLoop = s.readLoop ∧
      s'.outbound.rxOpen = s.outbound.rxOpen ∧ s'.outbound.capacity = s.outbound.capacity ∧
      s'.outbound.queue.length = s.outbound.queue.length + n := by
  induction n generalizing s with
  | zero => exact ⟨[], s, by simp, rfl, rfl, rfl, rfl, rfl⟩
  | succ n ih =>
    obtain ⟨mid, hmid, hcan, hl, ho⟩ := Agent.produce_byte h
    obtain ⟨actions, s', hlocal, hs, hl', hx, hc, hq⟩ := ih hcan
    refine ⟨[.produce t [0], .acquire t, .sendData t] ++ actions, s', ?_, ?_, hl'.trans hl,
      by simp [hx, ho], by simp [hc, ho], ?_⟩
    · simpa [AgentAction.isLocal] using hlocal
    · rw [exec_append, hmid]
      exact hs
    · rw [hq, ho]
      simp only [Channel.queue_push, List.length_append, List.length_singleton]
      omega

end Filling

namespace Connection

/-- What the edge can do by itself it can do in the connection. -/
theorem exec_edge {s : Connection} {edge : Edge} {actions : List EdgeAction}
    (hlocal : ∀ a ∈ actions, a.isLocal = true) (h : exec Edge.step s.edge actions = some edge) :
    exec step s (actions.map .edge) = some { s with edge := edge } := by
  induction actions generalizing s with
  | nil =>
    obtain rfl : s.edge = edge := by simpa using h
    rfl
  | cons a actions ih =>
    rw [List.forall_mem_cons] at hlocal
    cases hs : s.edge.step a with
    | none => simp [hs] at h
    | some mid =>
      simp only [exec_cons, hs, Option.bind_some] at h
      simpa [step, hlocal.1, hs] using ih (s := { s with edge := mid }) hlocal.2 h

/-- What the agent can do by itself it can do in the connection. -/
theorem exec_agent {s : Connection} {agent : Agent} {actions : List AgentAction}
    (hlocal : ∀ a ∈ actions, a.isLocal = true) (h : exec Agent.step s.agent actions = some agent) :
    exec step s (actions.map .agent) = some { s with agent := agent } := by
  induction actions generalizing s with
  | nil =>
    obtain rfl : s.agent = agent := by simpa using h
    rfl
  | cons a actions ih =>
    rw [List.forall_mem_cons] at hlocal
    cases hs : s.agent.step a with
    | none => simp [hs] at h
    | some mid =>
      simp only [exec_cons, hs, Option.bind_some] at h
      simpa [step, hlocal.1, hs] using ih (s := { s with agent := mid }) hlocal.2 h

/-- One request with a byte each way taken by its consumer, both read loops about to return credit,
and one more frame each way in the transport. -/
def bothWays : List ConnectionAction :=
  [.edge .passLimit, .edge (.insert "tun".toList ⟨"POST".toList, "/".toList,
      "a.tunnel.com".toList, [], "HTTP/1.1".toList, []⟩ "198.51.100.7:40000".toList),
    .edge (.queueOpen 1), .sendDown, .recvDown 0, .agent (.start 0), .agent (.respond 0 200 []),
    .agent (.sendHead 0), .sendUp, .recvUp, .edge (.takeHead 1),
    .edge (.pumpData 1 [0]), .edge (.pumpAcquire 1), .edge (.pumpQueue 1), .sendDown, .recvDown 0,
    .agent .deliver, .agent (.takeBody 0),
    .agent (.produce 0 [0]), .agent (.acquire 0), .agent (.sendData 0), .sendUp, .recvUp,
    .edge .deliver, .edge (.takeItem 1),
    .edge (.pumpData 1 [0]), .edge (.pumpAcquire 1), .edge (.pumpQueue 1), .sendDown,
    .agent (.produce 0 [0]), .agent (.acquire 0), .agent (.sendData 0), .sendUp]

/-- Up to that point all steps keep room, so the session flows. -/
theorem always_flowing_bothWays :
    Always step Flowing (init 512 262144 testOptions 1 1) bothWays := by
  refine (always_flowing_iff 512 262144 testOptions (by decide) (by decide) bothWays).mpr
    (Throughout.of_meets ?_)
  decide

/-- The body of one request and its response fill both outbound queues before either read loop has
queued its `WindowUpdate`: the session halts, though every body byte has been taken. -/
theorem reaches_circularWait :
    ¬ ∀ limit window options downCapacity upCapacity s, 0 < downCapacity → 0 < upCapacity →
      Reachable step (init limit window options downCapacity upCapacity) s → s.Flowing := by
  intro h
  obtain ⟨s, hs, hupload, hproduce, hedge, hagent, heout, haout, hdown, hup⟩ : ∃ s,
      exec step (init 512 262144 testOptions 1 1) bothWays = some s ∧
      s.edge.canUpload 1 1024 = true ∧ s.agent.canProduce 0 1024 = true ∧
      s.edge.readLoop = .replying (.windowUpdate 1 1) ∧
      s.agent.readLoop = .replying (.windowUpdate 1 1) (some 0) ∧
      s.edge.session.outbound = Channel.new 1024 ∧ s.agent.outbound = Channel.new 1024 ∧
      s.down.poll = .pending ∧ s.up.poll = .pending :=
    ⟨_, rfl, by decide +kernel, by decide +kernel, rfl, rfl, rfl, rfl, rfl, rfl⟩
  obtain ⟨eactions, edge, helocal, heexec, hel, hex, hec, heq⟩ := Edge.fill hupload
  obtain ⟨aactions, agent, halocal, haexec, hal, hax, hac, haq⟩ := Agent.fill hproduce
  have hreach : Reachable step (init 512 262144 testOptions 1 1)
      { s with edge := edge, agent := agent } :=
    Reachable.of_exec (Reachable.of_exec (Reachable.of_exec .nil hs) (exec_edge helocal heexec))
      (exec_agent halocal haexec)
  have hblocked : edge.blocked = true := by
    have hp : edge.session.outbound.poll = .pending :=
      Channel.poll_eq_pending.mpr ⟨by simp [hex, heout], by simp [heq, hec, heout]⟩
    simp [Edge.blocked, hel, hedge, hp, ReadLoop.isReplying]
  have hblocked' : agent.blocked = true := by
    have hp : agent.outbound.poll = .pending :=
      Channel.poll_eq_pending.mpr ⟨by simp [hax, haout], by simp [haq, hac, haout]⟩
    simp [Agent.blocked, hal, hagent, hp, AgentLoop.isReplying]
  have hflow := (h 512 262144 testOptions 1 1 _ (by decide) (by decide) hreach).1
  simp [circularWait, full, hblocked, hblocked', hdown, hup] at hflow

end Connection

end Norupo
