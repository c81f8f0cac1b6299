import Norupo.Edge.Upload
import Norupo.Edge.Delivery
import Norupo.Agent.Download
import Norupo.Agent.Delivery

/-!
# An edge session and its agent

The two ends of one session, joined by a transport that is a bounded queue in each direction: it
delivers every frame once and in order, and makes the end that sends wait when it is full. Either
end moves on its own as before, except that what it receives is what the transport delivers and what
it transmits goes into the transport.
-/

namespace Norupo

open Async Transition

/-- Moves of the edge that do not involve the transport. -/
def EdgeAction.isLocal : EdgeAction → Bool
  | .recv _ | .transmit => false
  | _ => true

/-- Moves of the agent that do not involve the transport. -/
def AgentAction.isLocal : AgentAction → Bool
  | .recv _ _ | .transmit => false
  | _ => true

/-- Both ends of a session and the frames in flight between them. -/
structure Connection where
  edge : Edge
  agent : Agent
  /-- Frames in flight to the agent. -/
  down : Channel ServerFrame
  /-- Frames in flight to the edge. -/
  up : Channel ClientFrame

inductive ConnectionAction
  | edge (a : EdgeAction)
  | agent (a : AgentAction)
  /-- The transport takes a frame from the edge. -/
  | sendDown
  /-- The agent's read loop takes a frame from the transport, at a clock reading. -/
  | recvDown (nowMs : Nat)
  /-- The transport takes a frame from the agent. -/
  | sendUp
  /-- The edge's read loop takes a frame from the transport. -/
  | recvUp
  deriving DecidableEq, Repr

namespace Connection

/-- A session after its handshake, over a transport with these capacities. -/
def init (maxConcurrentStreams initialWindow : Nat) (options : AgentOptions)
    (downCapacity upCapacity : Nat) : Connection where
  edge := Edge.init maxConcurrentStreams initialWindow
  agent := Agent.init options
  down := Channel.new downCapacity
  up := Channel.new upCapacity

/-- One move; `none` when it is not enabled. -/
def step (s : Connection) : ConnectionAction → Option Connection
  | .edge a =>
    if a.isLocal then (s.edge.step a).map fun edge => { s with edge := edge } else none
  | .agent a =>
    if a.isLocal then (s.agent.step a).map fun agent => { s with agent := agent } else none
  | .sendDown =>
    match s.edge.session.outbound.queue, s.down.poll with
    | frame :: _, .ready => (s.edge.step .transmit).map fun edge =>
      { s with edge := edge, down := s.down.push frame }
    | _, _ => none
  | .recvDown nowMs =>
    match s.down.queue with
    | frame :: _ => (s.agent.step (.recv frame nowMs)).map fun agent =>
      { s with agent := agent, down := s.down.pop }
    | [] => none
  | .sendUp =>
    match s.agent.outbound.queue, s.up.poll with
    | frame :: _, .ready => (s.agent.step .transmit).map fun agent =>
      { s with agent := agent, up := s.up.push frame }
    | _, _ => none
  | .recvUp =>
    match s.up.queue with
    | frame :: _ => (s.edge.step (.recv frame)).map fun edge =>
      { s with edge := edge, up := s.up.pop }
    | [] => none

/-- The moves by what they require and what they do. -/
inductive Step (s : Connection) : ConnectionAction → Connection → Prop
  | edge {a edge} : a.isLocal = true → s.edge.step a = some edge →
      Step s (.edge a) { s with edge := edge }
  | agent {a agent} : a.isLocal = true → s.agent.step a = some agent →
      Step s (.agent a) { s with agent := agent }
  | sendDown {frame rest edge} : s.edge.session.outbound.queue = frame :: rest →
      s.down.poll = .ready → s.edge.step .transmit = some edge →
      Step s .sendDown { s with edge := edge, down := s.down.push frame }
  | recvDown {frame rest agent nowMs} : s.down.queue = frame :: rest →
      s.agent.step (.recv frame nowMs) = some agent →
      Step s (.recvDown nowMs) { s with agent := agent, down := s.down.pop }
  | sendUp {frame rest agent} : s.agent.outbound.queue = frame :: rest →
      s.up.poll = .ready → s.agent.step .transmit = some agent →
      Step s .sendUp { s with agent := agent, up := s.up.push frame }
  | recvUp {frame rest edge} : s.up.queue = frame :: rest →
      s.edge.step (.recv frame) = some edge →
      Step s .recvUp { s with edge := edge, up := s.up.pop }

/-- An enabled move is one of the cases of `Step`. -/
theorem step_cases {s s' : Connection} {a : ConnectionAction} (h : s.step a = some s') :
    Step s a s' := by
  cases a <;> simp only [step] at h <;> split at h
  all_goals first
    | cases h
    | obtain ⟨end', hs, rfl⟩ := Option.map_eq_some_iff.mp h
  · exact .edge ‹_› hs
  · exact .agent ‹_› hs
  · exact .sendDown ‹_› ‹_› hs
  · exact .recvDown ‹_› hs
  · exact .sendUp ‹_› ‹_› hs
  · exact .recvUp ‹_› hs

section Ends

variable {s s' : Connection} {a : ConnectionAction}

/-- What a connection does is, at the edge, nothing or a move of the edge, which receives what the
transport delivers. -/
theorem Step.edge_cases (h : Step s a s') :
    s'.edge = s.edge ∨ ∃ b, s.edge.step b = some s'.edge ∧
      ∀ frame, b = .recv frame → ∃ rest, s.up.queue = frame :: rest := by
  cases h with
  | edge ha hs => exact .inr ⟨_, hs, by rintro frame rfl; cases ha⟩
  | sendDown _ _ hs => exact .inr ⟨_, hs, by simp⟩
  | recvUp hq hs => exact .inr ⟨_, hs, by rintro frame ⟨⟩; exact ⟨_, hq⟩⟩
  | _ => exact .inl rfl

/-- What a connection does is, at the agent, nothing or a move of the agent, which receives what the
transport delivers. -/
theorem Step.agent_cases (h : Step s a s') :
    s'.agent = s.agent ∨ ∃ b, s.agent.step b = some s'.agent ∧
      ∀ frame nowMs, b = .recv frame nowMs → ∃ rest, s.down.queue = frame :: rest := by
  cases h with
  | agent ha hs => exact .inr ⟨_, hs, by rintro frame nowMs rfl; cases ha⟩
  | recvDown hq hs => exact .inr ⟨_, hs, by rintro frame nowMs ⟨⟩; exact ⟨_, hq⟩⟩
  | sendUp _ _ hs => exact .inr ⟨_, hs, by simp⟩
  | _ => exact .inl rfl

variable {allowed : Connection → ConnectionAction → Prop}
  {limit window downCapacity upCapacity : Nat} {options : AgentOptions}

/-- The edge of a reachable connection is reachable on its own. -/
theorem edge_reachable
    (h : Run step allowed (init limit window options downCapacity upCapacity) s) :
    Reachable Edge.step (Edge.init limit window) s.edge := by
  refine h.invariant (P := fun s => Reachable Edge.step (Edge.init limit window) s.edge) .nil
    fun s a s' hr _ hs => ?_
  rcases (step_cases hs).edge_cases with he | ⟨b, hb, -⟩
  · exact he ▸ hr
  · exact .snoc hr trivial hb

/-- The agent of a reachable connection is reachable on its own. -/
theorem agent_reachable
    (h : Run step allowed (init limit window options downCapacity upCapacity) s) :
    Reachable Agent.step (Agent.init options) s.agent := by
  refine h.invariant (P := fun s => Reachable Agent.step (Agent.init options) s.agent) .nil
    fun s a s' hr _ hs => ?_
  rcases (step_cases hs).agent_cases with he | ⟨b, hb, -⟩
  · exact he ▸ hr
  · exact .snoc hr trivial hb

end Ends

end Connection

namespace Edge

variable {s s' : Edge} {a : EdgeAction}

/-- Moves of the edge apart from the transport receive and transmit nothing. -/
theorem Step.local_log (h : Step s a s') (ha : a.isLocal = true) :
    s'.received = s.received ∧ s'.transmitted = s.transmitted := by
  cases h <;> first | exact ⟨rfl, rfl⟩ | cases ha

theorem recv_log {frame : ClientFrame} (h : s.step (.recv frame) = some s') :
    s'.received = s.received ++ [frame] ∧ s'.transmitted = s.transmitted := by
  cases step_cases h <;> exact ⟨rfl, rfl⟩

theorem transmit_log (h : s.step .transmit = some s') :
    s'.received = s.received ∧ ∃ frame rest, s.session.outbound.queue = frame :: rest ∧
      s'.session.outbound.queue = rest ∧ s'.transmitted = s.transmitted ++ [frame] := by
  cases step_cases h with
  | transmit hx hq => exact ⟨rfl, _, _, hq, by simp [hq], rfl⟩

end Edge

namespace Agent

variable {s s' : Agent} {a : AgentAction}

/-- Moves of the agent apart from the transport receive and transmit nothing. -/
theorem Step.local_log (h : Step s a s') (ha : a.isLocal = true) :
    s'.received = s.received ∧ s'.transmitted = s.transmitted := by
  cases h <;> first | exact ⟨rfl, rfl⟩ | cases ha; done | simp

theorem recv_log {frame : ServerFrame} {nowMs : Nat}
    (h : s.step (.recv frame nowMs) = some s') :
    s'.received = s.received ++ [frame] ∧ s'.transmitted = s.transmitted := by
  cases step_cases h <;> first | exact ⟨rfl, rfl⟩ | simp

theorem transmit_log (h : s.step .transmit = some s') :
    s'.received = s.received ∧ ∃ frame rest, s.outbound.queue = frame :: rest ∧
      s'.outbound.queue = rest ∧ s'.transmitted = s.transmitted ++ [frame] := by
  cases step_cases h with
  | transmit hx hq => exact ⟨rfl, _, _, hq, by simp [hq], rfl⟩

end Agent

namespace Connection

/-- The transport neither loses nor reorders frames. -/
structure Wired (s : Connection) : Prop where
  down : s.agent.received ++ s.down.queue = s.edge.transmitted
  up : s.edge.received ++ s.up.queue = s.agent.transmitted

theorem Wired.step {s s' : Connection} {a : ConnectionAction} (hw : Wired s)
    (h : s.step a = some s') : Wired s' := by
  obtain ⟨hdown, hup⟩ := hw
  cases step_cases h with
  | edge ha hs =>
    obtain ⟨hr, ht⟩ := (Edge.step_cases hs).local_log ha
    exact ⟨ht ▸ hdown, hr ▸ hup⟩
  | agent ha hs =>
    obtain ⟨hr, ht⟩ := (Agent.step_cases hs).local_log ha
    exact ⟨hr ▸ hdown, ht ▸ hup⟩
  | sendDown hq _ hs =>
    obtain ⟨hr, frame, rest, hq', -, ht⟩ := Edge.transmit_log hs
    obtain ⟨rfl, rfl⟩ := List.cons_eq_cons.mp (hq.symm.trans hq')
    exact ⟨by simp [ht, ← hdown], hr ▸ hup⟩
  | recvDown hq hs =>
    obtain ⟨hr, ht⟩ := Agent.recv_log hs
    exact ⟨by simp [hr, ← hdown, hq], ht ▸ hup⟩
  | sendUp hq _ hs =>
    obtain ⟨hr, frame, rest, hq', -, ht⟩ := Agent.transmit_log hs
    obtain ⟨rfl, rfl⟩ := List.cons_eq_cons.mp (hq.symm.trans hq')
    exact ⟨hr ▸ hdown, by simp [ht, ← hup]⟩
  | recvUp hq hs =>
    obtain ⟨hr, ht⟩ := Edge.recv_log hs
    exact ⟨ht ▸ hdown, by simp [hr, ← hup, hq]⟩

/-- What an end has received is a prefix of what the other has put in its log. -/
theorem Wired.down_isPrefix {s : Connection} (hw : Wired s) : s.agent.received <+: s.edge.log :=
  (hw.down ▸ List.prefix_append _ _ : s.agent.received <+: s.edge.transmitted).trans
    (List.prefix_append _ _)

theorem Wired.up_isPrefix {s : Connection} (hw : Wired s) : s.edge.received <+: s.agent.log :=
  (hw.up ▸ List.prefix_append _ _ : s.edge.received <+: s.agent.transmitted).trans
    (List.prefix_append _ _)

theorem wired_of_run {allowed : Connection → ConnectionAction → Prop}
    {limit window downCapacity upCapacity : Nat} {options : AgentOptions} {s : Connection}
    (h : Run step allowed (init limit window options downCapacity upCapacity) s) : Wired s :=
  h.invariant ⟨rfl, rfl⟩ fun _ _ _ hw _ hs => hw.step hs

end Connection

end Norupo
