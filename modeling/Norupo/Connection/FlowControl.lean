import Norupo.Edge.Window
import Norupo.Agent.Window

/-!
# Flow control at both ends

A window is meant to bound what a stream buffers, and a slow consumer is meant to slow down its own
stream only. Both depend on when credit is returned. Each end returns it as soon as a chunk is in
the stream's queue, so a sender that keeps to its credit can go on sending to a consumer that takes
nothing: until the queue is full, and the read loop, with every other stream behind it, waits.
-/

namespace Norupo

open Async Transition

/-- When both ends return credit for taken bytes only, and the other keeps to it, the body queues
hold at most a window. -/
theorem held_le_window (window : Nat) :
    (∀ limit s, Run Edge.step (fun s a => s.withinCredit window a && s.grantsTaken a)
      (Edge.init limit window) s → ∀ i, (s.held i).length ≤ window) ∧
    (∀ options s, Run Agent.step (fun s a => s.withinCredit window a && s.grantsTaken a)
      (Agent.init options) s → ∀ t, (s.held t).length ≤ window) :=
  ⟨fun _ _ h i => Edge.held_le_of_run h i, fun _ _ h t => Agent.held_le_of_run h t⟩

/-- A request whose response head has been passed on. -/
def respondingEdge : List EdgeAction :=
  [.passLimit, .insert "tun".toList ⟨"POST".toList, "/".toList, "a.tunnel.com".toList, [],
      "HTTP/1.1".toList, []⟩ "198.51.100.7:40000".toList,
    .queueOpen 1, .transmit, .recv (.responseHead ⟨1, 200, []⟩), .takeHead 1]

/-- A request that has been handed to the local service. -/
def requestingAgent : List AgentAction :=
  [.recv (.streamOpen ⟨1, "tun".toList, .http, some ⟨"POST".toList, "/".toList,
      "a.tunnel.com".toList, [], "HTTP/1.1".toList, []⟩, "198.51.100.7:40000".toList, 262144⟩) 0,
    .start 0]

/-- A window of four bytes, and consumers that take a frame before credit is returned for it. -/
theorem held_le_window_four :
    (∃ s, Run Edge.step (fun s a => s.withinCredit 4 a && s.grantsTaken a) (Edge.init 512 4) s ∧
      s.held 1 = [5, 6, 7, 8] ∧ (s.held 1).length ≤ 4) ∧
    (∃ s, Run Agent.step (fun s a => s.withinCredit 4 a && s.grantsTaken a)
      (Agent.init testOptions) s ∧ s.held 0 = [5, 6, 7, 8] ∧ (s.held 0).length ≤ 4) := by
  obtain ⟨s, hs, hheld⟩ : ∃ s, exec Edge.step (Edge.init 512 4) (respondingEdge ++
      [.recv (.streamData 1 [1, 2, 3, 4]), .deliver, .takeItem 1, .reply, .transmit,
        .recv (.streamData 1 [5, 6, 7, 8]), .deliver]) = some s ∧ s.held 1 = [5, 6, 7, 8] :=
    ⟨_, rfl, rfl⟩
  obtain ⟨t, ht, hheld'⟩ : ∃ t, exec Agent.step (Agent.init testOptions) (requestingAgent ++
      [.recv (.streamData 1 [1, 2, 3, 4]) 0, .deliver, .takeBody 0, .reply, .transmit,
        .recv (.streamData 1 [5, 6, 7, 8]) 0, .deliver]) = some t ∧ t.held 0 = [5, 6, 7, 8] :=
    ⟨_, rfl, rfl⟩
  have hedge : Run Edge.step (fun s a => s.withinCredit 4 a && s.grantsTaken a)
      (Edge.init 512 4) s := Run.of_exec .nil hs (by decide)
  have hagent : Run Agent.step (fun s a => s.withinCredit 4 a && s.grantsTaken a)
      (Agent.init testOptions) t := Run.of_exec .nil ht (by decide)
  exact ⟨⟨s, hedge, hheld, (held_le_window 4).1 512 s hedge 1⟩,
    ⟨t, hagent, hheld', (held_le_window 4).2 testOptions t hagent 0⟩⟩

/-- Credit is returned while the bytes are still in the queue: with a window of four bytes and a
consumer that takes nothing, a sender within its credit fills either queue with eight. -/
theorem held_exceeds_window :
    (¬ ∀ window limit s, Run Edge.step (fun s a => s.withinCredit window a)
      (Edge.init limit window) s → ∀ i, (s.held i).length ≤ window) ∧
    (¬ ∀ window options s, Run Agent.step (fun s a => s.withinCredit window a)
      (Agent.init options) s → ∀ t, (s.held t).length ≤ window) := by
  constructor
  · intro h
    obtain ⟨s, hs, hheld⟩ : ∃ s, exec Edge.step (Edge.init 512 4) (respondingEdge ++
        [.recv (.streamData 1 [1, 2, 3, 4]), .deliver, .reply, .transmit,
          .recv (.streamData 1 [5, 6, 7, 8]), .deliver]) = some s ∧ (s.held 1).length = 8 :=
      ⟨_, rfl, rfl⟩
    have hle := h 4 512 s (Run.of_exec .nil hs (by decide)) 1
    omega
  · intro h
    obtain ⟨s, hs, hheld⟩ : ∃ s, exec Agent.step (Agent.init testOptions) (requestingAgent ++
        [.recv (.streamData 1 [1, 2, 3, 4]) 0, .deliver, .reply, .transmit,
          .recv (.streamData 1 [5, 6, 7, 8]) 0, .deliver]) = some s ∧ (s.held 0).length = 8 :=
      ⟨_, rfl, rfl⟩
    have hle := h 4 testOptions s (Run.of_exec .nil hs (by decide)) 0
    omega

/-- In every reachable state of either end, the read loop is free of a stream exactly when the
stream's consumer keeps up. -/
theorem free_iff_keepsUp (limit window : Nat) (options : AgentOptions) :
    (∀ s, Reachable Edge.step (Edge.init limit window) s →
      ∀ i, ¬ s.WaitsFor i ↔ s.KeepsUp i) ∧
    (∀ s, Reachable Agent.step (Agent.init options) s →
      ∀ t, ¬ s.WaitsFor t ↔ s.KeepsUp t) := by
  constructor
  · intro s h i
    rw [Edge.waitsFor_iff_behind h i, Classical.not_not]
  · intro s h t
    rw [Agent.waitsFor_iff_behind h t, Classical.not_not]

/-- One-byte frames of a stream, each read and its credit returned. -/
def pourEdge (n : Nat) : List EdgeAction :=
  (List.replicate n [.recv (.streamData 1 [0]), .deliver, .reply]).flatten

/-- One-byte frames of a stream, each read and its credit returned. -/
def pourAgent (n : Nat) : List AgentAction :=
  (List.replicate n [.recv (.streamData 1 [0]) 0, .deliver, .reply]).flatten

/-- A queue's worth of frames leaves both read loops free, though nothing has been taken. -/
theorem free_after_sixteen :
    (∃ s, Reachable Edge.step (Edge.init 512 262144) s ∧ (s.request 1).offered = 16 ∧
      (s.request 1).taken = [] ∧ ¬ s.WaitsFor 1) ∧
    (∃ s, Reachable Agent.step (Agent.init testOptions) s ∧ (s.task 0).offered = 16 ∧
      (s.task 0).items = [] ∧ ¬ s.WaitsFor 0) := by
  obtain ⟨s, hs, hoffered, htaken⟩ : ∃ s, exec Edge.step (Edge.init 512 262144)
      (respondingEdge ++ pourEdge 16) = some s ∧ (s.request 1).offered = 16 ∧
      (s.request 1).taken = [] := ⟨_, rfl, rfl, rfl⟩
  obtain ⟨t, ht, hoffered', hitems⟩ : ∃ t, exec Agent.step (Agent.init testOptions)
      (requestingAgent ++ pourAgent 16) = some t ∧ (t.task 0).offered = 16 ∧
      (t.task 0).items = [] := ⟨_, rfl, rfl, rfl⟩
  have hedge := Reachable.of_exec .nil hs
  have hagent := Reachable.of_exec .nil ht
  have hfree := free_iff_keepsUp 512 262144 testOptions
  refine ⟨⟨s, hedge, hoffered, htaken, (hfree.1 s hedge 1).mpr ?_⟩,
    ⟨t, hagent, hoffered', hitems, (hfree.2 t hagent 0).mpr ?_⟩⟩
  · intro _
    simp [hoffered, htaken, streamBufferFrames]
  · intro _
    simp [hoffered', hitems, bodyQueue]

/-- Credit counts bytes and the queues count frames: seventeen bytes in as many frames, far within
the window, make either read loop wait for a consumer that takes nothing. -/
theorem stalled_by_small_frames :
    (¬ ∀ window limit s, Run Edge.step (fun s a => s.withinCredit window a)
      (Edge.init limit window) s → ∀ i, ¬ s.WaitsFor i) ∧
    (¬ ∀ window options s, Run Agent.step (fun s a => s.withinCredit window a)
      (Agent.init options) s → ∀ t, ¬ s.WaitsFor t) := by
  constructor
  · intro h
    obtain ⟨s, hs, hloop, hpoll⟩ : ∃ s, exec Edge.step (Edge.init 512 262144)
        (respondingEdge ++ pourEdge 16 ++ [.recv (.streamData 1 [0])]) = some s ∧
        s.readLoop = .delivering 1 (.data [0]) ∧ (s.session.stream 1).body.poll = .pending :=
      ⟨_, rfl, rfl, rfl⟩
    exact h 262144 512 s (Run.of_exec .nil hs (by decide)) 1 ⟨_, hloop, hpoll⟩
  · intro h
    obtain ⟨s, hs, hloop, hpoll⟩ : ∃ s, exec Agent.step (Agent.init testOptions)
        (requestingAgent ++ pourAgent 16 ++ [.recv (.streamData 1 [0]) 0]) = some s ∧
        s.readLoop = .delivering 1 (some 0) [0] ∧ (s.task 0).body.poll = .pending :=
      ⟨_, rfl, rfl, rfl⟩
    exact h 262144 testOptions s (Run.of_exec .nil hs (by decide)) 0 ⟨1, _, hloop, hpoll⟩

end Norupo
