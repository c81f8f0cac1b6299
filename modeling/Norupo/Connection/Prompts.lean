import Norupo.Connection.System

/-!
# Prompts of the edge and answers of the agent

Two frames of the edge ask the agent for one frame in return: the `Welcome` for a registration, and
every `Ping` of the heartbeat for a `Pong` with its nonce. The read loop of
`norupo-client/src/agent.rs` queues the answers between window updates, and the tasks of the streams
queue their frames at the same time. The answers come back once each and in the order of the
prompts.
-/

namespace Norupo

open Async Transition

/-- What the edge asks the agent for. -/
inductive EdgePrompt
  | registration
  | echo (nonce : Nat)
  deriving DecidableEq, Repr

/-- What a frame of the edge asks for. -/
def ServerFrame.prompt : ServerFrame → Option EdgePrompt
  | .welcome _ _ => some .registration
  | .ping nonce => some (.echo nonce)
  | _ => none

/-- What a frame of the agent answers. -/
def ClientFrame.answer : ClientFrame → Option EdgePrompt
  | .openTunnel _ => some .registration
  | .pong nonce => some (.echo nonce)
  | _ => none

namespace Agent

/-- The prompts that the agent has received, in order. -/
def prompts (s : Agent) : List EdgePrompt := s.received.filterMap ServerFrame.prompt

/-- The prompts that the agent has answered, in order. -/
def replied (s : Agent) : List EdgePrompt := s.log.filterMap ClientFrame.answer

/-- The prompt that the read loop is about to answer. -/
def answering (s : Agent) : List EdgePrompt := (s.readLoop.reply.bind ClientFrame.answer).toList

/-- While its frames are taken the agent has answered every prompt but the one it is at. -/
structure Responsive (s : Agent) : Prop where
  taken : s.outbound.rxOpen = true → s.replied ++ s.answering = s.prompts
  isPrefix : s.replied <+: s.prompts

section Preservation

variable {s s' : Agent} {a : AgentAction}

/-- A step takes a prompt, moves it on, or leaves prompts and answers alone. -/
theorem Step.prompt_cases (h : Step s a s') : ∃ asked, s'.prompts = s.prompts ++ asked ∧
    (s'.outbound.rxOpen = true → s.outbound.rxOpen = true ∧
      s'.replied ++ s'.answering = s.replied ++ s.answering ++ asked) ∧
    (s'.outbound.rxOpen = false → s'.replied = s.replied) := by
  cases h
  case recvWelcome hl =>
    exact ⟨[.registration], by simp [prompts, ServerFrame.prompt], fun hx => ⟨hx, by
      simp [replied, log, answering, hl, AgentLoop.reply, ClientFrame.answer]⟩, fun _ => rfl⟩
  case recvPing nonce _ hl =>
    exact ⟨[.echo nonce], by simp [prompts, ServerFrame.prompt], fun hx => ⟨hx, by
      simp [replied, log, answering, hl, AgentLoop.reply, ClientFrame.answer]⟩, fun _ => rfl⟩
  case notifiedReply frame hl =>
    exact ⟨[], by simp [prompts], fun hx => ⟨hx, by
      simp [replied, log, answering, hl, AgentLoop.reply]⟩, fun _ => rfl⟩
  case reply frame held hl hp =>
    refine ⟨[], by simp [prompts], fun hx => ⟨hx, ?_⟩, fun hx => ?_⟩
    · cases ha : frame.answer <;> simp [replied, log, answering, hl, AgentLoop.reply, ha]
    · simp [(Channel.poll_eq_ready.mp hp).1] at hx
  case replyGone frame held hl hp =>
    refine ⟨[], by simp [prompts], fun hx => ?_, fun _ => rfl⟩
    simp [Channel.poll_eq_closed.mp hp] at hx
  case dropOutbound => exact ⟨[], by simp [prompts], fun hx => by simp at hx, fun _ => rfl⟩
  -- The frames of the streams are no answers, and the other frames of the edge are no prompts.
  all_goals
    refine ⟨[], by simp [prompts, openStream, ServerFrame.prompt],
      fun hx => ⟨by simpa [openStream] using hx, ?_⟩, fun hx => ?_⟩
    · simp_all [replied, log, answering, openStream, AgentLoop.reply, ClientFrame.answer]
    · simp_all [replied, log, openStream, ClientFrame.answer]

theorem Responsive.step (hr : Responsive s) (h : Step s a s') : Responsive s' := by
  obtain ⟨asked, hprompts, hopen, hshut⟩ := h.prompt_cases
  have htaken : s'.outbound.rxOpen = true → s'.replied ++ s'.answering = s'.prompts := by
    intro hx
    obtain ⟨hs, heq⟩ := hopen hx
    rw [heq, hr.taken hs, hprompts]
  refine ⟨htaken, ?_⟩
  cases hx : s'.outbound.rxOpen with
  | true => exact htaken hx ▸ List.prefix_append _ _
  | false =>
    rw [hshut hx, hprompts]
    exact hr.isPrefix.trans (List.prefix_append _ _)

end Preservation

theorem responsive_of_run {allowed : Agent → AgentAction → Prop} {options : AgentOptions}
    {s : Agent} (h : Run step allowed (Agent.init options) s) : Responsive s :=
  h.invariant ⟨fun _ => rfl, List.prefix_rfl⟩ fun _ _ _ hr _ hs => hr.step (step_cases hs)

end Agent

namespace Connection

/-- The prompts that are on their way to the agent. -/
def asking (s : Connection) : List EdgePrompt :=
  (s.down.queue ++ s.edge.session.outbound.queue).filterMap ServerFrame.prompt

/-- The answers that are on their way to the edge. -/
def returning (s : Connection) : List EdgePrompt :=
  (s.up.queue ++ s.agent.outbound.queue).filterMap ClientFrame.answer

/-- Whatever the streams of a session do, the edge receives the answers to its prompts once each and
in the order of the prompts. As long as the agent's frames are taken, every prompt is answered,
being answered or on its way. -/
theorem prompts_answered {limit window downCapacity upCapacity : Nat} {options : AgentOptions}
    {s : Connection} (h : Reachable step (init limit window options downCapacity upCapacity) s) :
    s.edge.received.filterMap ClientFrame.answer <+: s.edge.log.filterMap ServerFrame.prompt ∧
    (s.agent.outbound.rxOpen = true → s.edge.log.filterMap ServerFrame.prompt =
      s.edge.received.filterMap ClientFrame.answer ++ s.returning ++ s.agent.answering ++
        s.asking) := by
  have hw := wired_of_run h
  have hr := Agent.responsive_of_run (agent_reachable h)
  have hasked : s.edge.log.filterMap ServerFrame.prompt = s.agent.prompts ++ s.asking := by
    rw [Edge.log, ← hw.down, List.append_assoc, List.filterMap_append]
    rfl
  have hanswers : s.agent.replied =
      s.edge.received.filterMap ClientFrame.answer ++ s.returning := by
    rw [Agent.replied, Agent.log, ← hw.up, List.append_assoc, List.filterMap_append]
    rfl
  refine ⟨?_, fun hx => ?_⟩
  · calc s.edge.received.filterMap ClientFrame.answer
        <+: s.agent.replied := hanswers ▸ List.prefix_append _ _
      _ <+: s.agent.prompts := hr.isPrefix
      _ <+: s.edge.log.filterMap ServerFrame.prompt := hasked ▸ List.prefix_append _ _
  · rw [hasked, ← hr.taken hx, hanswers]

/-- Two heartbeats: the first is answered, the second is being answered. -/
theorem prompts_answered_second : ∃ s : Connection,
    exec step (init 0 65536 testOptions 4 4)
      [.edge (.control (.ping 7)), .edge (.control (.ping 8)), .sendDown, .sendDown, .recvDown 0,
        .agent .reply, .sendUp, .recvUp, .recvDown 0] = some s ∧
    s.edge.received.filterMap ClientFrame.answer = [.echo 7] ∧ s.agent.answering = [.echo 8] ∧
    s.edge.log.filterMap ServerFrame.prompt =
      s.edge.received.filterMap ClientFrame.answer ++ s.returning ++ s.agent.answering ++
        s.asking := by
  obtain ⟨s, hs, hreceived, hanswering, hopen⟩ : ∃ s : Connection,
      exec step (init 0 65536 testOptions 4 4)
        [.edge (.control (.ping 7)), .edge (.control (.ping 8)), .sendDown, .sendDown, .recvDown 0,
          .agent .reply, .sendUp, .recvUp, .recvDown 0] = some s ∧
      s.edge.received.filterMap ClientFrame.answer = [.echo 7] ∧ s.agent.answering = [.echo 8] ∧
      s.agent.outbound.rxOpen = true := ⟨_, rfl, rfl, rfl, rfl⟩
  exact ⟨s, hs, hreceived, hanswering, (prompts_answered (.of_exec .nil hs)).2 hopen⟩

end Connection

end Norupo
