import Norupo.Agent.Step
import Mathlib.Data.List.Range

/-!
# Bookkeeping of the agent's table and tasks

What the tasks of an agent keep in step whatever the edge sends: an entry refers to a task spawned
for its id, the tasks are the `Open` frames received, in order, and the stream whose chunk the read
loop holds has kept its entry or lost it.
-/

namespace Norupo

open Async Transition

/-- Frames the read loop queues. -/
def ClientFrame.isReply : ClientFrame → Bool
  | .openTunnel _ | .windowUpdate _ _ | .pong _ => true
  | _ => false

/-- The frame the read loop waits to queue, now or after an event. -/
def AgentLoop.reply : AgentLoop → Option ClientFrame
  | .replying frame _ => some frame
  | .notifying next => next
  | _ => none

namespace Agent

/-- The ids of the `Open` frames received, in order. -/
def opened (s : Agent) : List Nat := s.received.filterMap ServerFrame.opens

/-- The stream that a step drops: after a `Reset`, at the end of its task, or after a failed
send. -/
def drops (s : Agent) : AgentAction → Option Nat
  | .recv (.streamReset i _ _) _ => some i
  | .drop t => some (s.task t).streamId
  | .deliver => match s.readLoop with
    | .delivering i _ _ => some i
    | _ => none
  | _ => none

/-- What holds of the table and the tasks in every reachable state. -/
structure WellFormed (s : Agent) : Prop where
  /-- An entry refers to a task that was spawned for its id. -/
  entry : ∀ i state, s.streams i = some state →
    state.task < s.nextTask ∧ (s.task state.task).streamId = i
  /-- Task numbers that have not been used are unused. -/
  fresh : ∀ t, s.nextTask ≤ t → s.task t = Task.unused
  /-- A task was spawned after a prefix of the frames received. -/
  openedAt : ∀ t, (s.task t).openedAt ≤ s.received.length
  /-- One task was spawned for each `Open` frame. -/
  spawned : s.opened = (List.range s.nextTask).map fun t => (s.task t).streamId
  /-- The read loop holds a live sender for a task whose entry has not been replaced. -/
  live : ∀ i t payload, s.readLoop = .delivering i (some t) payload →
    t < s.nextTask ∧ (s.task t).streamId = i ∧
      (s.streams i = none ∨ s.streams i = some ⟨t, true⟩)
  /-- The read loop holds a dead sender for an entry whose body was closed. -/
  dead : ∀ i payload, s.readLoop = .delivering i none payload →
    s.streams i = none ∨ ∃ t, s.streams i = some ⟨t, false⟩
  /-- The read loop queues window updates, pongs and the registration only. -/
  replying : ∀ frame, s.readLoop.reply = some frame → frame.isReply = true
  /-- A task was spawned by an `Open` of its stream. -/
  openFrame : ∀ t, t < s.nextTask → ∃ frames request,
    s.received.take (s.task t).openedAt = frames ++ [.streamOpen request] ∧
      request.streamId = (s.task t).streamId

theorem WellFormed.init (options : AgentOptions) : WellFormed (Agent.init options) where
  entry _ _ h := by simp [Agent.init] at h
  fresh _ _ := rfl
  openedAt _ := le_rfl
  spawned := rfl
  live _ _ _ h := by simp [Agent.init] at h
  dead _ _ h := by simp [Agent.init] at h
  replying _ h := by simp [Agent.init, AgentLoop.reply] at h
  openFrame _ h := absurd h (Nat.not_lt_zero _)

section Preservation

variable {s s' : Agent} {a : AgentAction}

/-- The task of an entry keeps its stream, and tasks are only added. -/
theorem Step.streamId_eq (h : Step s a s') {t : Nat} (ht : t < s.nextTask) :
    (s'.task t).streamId = (s.task t).streamId ∧ s.nextTask ≤ s'.nextTask := by
  cases h
  case recvOpen => simp [openStream, Nat.ne_of_lt ht]
  all_goals first
    | exact ⟨rfl, le_rfl⟩
    | (simp only [setTask, setServe, setBody, push, Task.finish, task_dropStream,
        nextTask_dropStream, Function.update_apply, le_refl, and_true]
       first | done | (split_ifs <;> simp_all))

/-- A task is spawned by an `Open`. -/
theorem Step.spawn_cases (h : Step s a s') {t : Nat} (ht : t < s'.nextTask)
    (hn : ¬ t < s.nextTask) : t = s.nextTask ∧ s.readLoop = .idle ∧ ∃ request nowMs,
      a = .recv (.streamOpen request) nowMs ∧ s' = ({ s with
        received := s.received ++ [ServerFrame.streamOpen request] }).openStream request := by
  cases h
  case recvOpen request nowMs hl =>
    have hlt : t < s.nextTask + 1 := ht
    exact ⟨by omega, hl, request, nowMs, rfl, rfl⟩
  all_goals exact absurd (by simpa using ht) hn

/-- A spawned task keeps the mark of its `Open`. -/
theorem Step.openedAt_eq (h : Step s a s') {t : Nat} (ht : t < s.nextTask) :
    (s'.task t).openedAt = (s.task t).openedAt := by
  cases h
  case recvOpen => simp [openStream, Nat.ne_of_lt ht]
  all_goals first
    | rfl
    | (simp only [setTask, setServe, setBody, push, Task.finish, task_dropStream,
        Function.update_apply] <;> split_ifs <;> simp_all)

/-- A step receives nothing, or it takes the next frame. -/
theorem Step.received_cases (h : Step s a s') :
    s'.received = s.received ∨
      ∃ frame nowMs, a = .recv frame nowMs ∧ s'.received = s.received ++ [frame] := by
  cases h <;> first
    | exact .inl rfl
    | exact .inr ⟨_, _, rfl, rfl⟩
    | exact .inr ⟨_, _, rfl, received_dropStream _ _⟩
    | exact .inl (received_dropStream _ _)

/-- Frames that were received stay received. -/
theorem Step.received_mono (h : Step s a s') : s.received <+: s'.received := by
  rcases h.received_cases with hs | ⟨frame, nowMs, -, hs⟩
  · exact hs ▸ List.prefix_rfl
  · exact hs ▸ List.prefix_append _ _

/-- A step leaves the entry of a stream alone, or it takes an `Open`, an `End` or drops it. -/
theorem Step.streams_cases (h : Step s a s') (i : Nat) :
    s'.streams i = s.streams i ∨
    (∃ request nowMs, a = .recv (.streamOpen request) nowMs ∧ request.streamId = i ∧
      s'.streams i = some ⟨s.nextTask, true⟩) ∨
    (∃ headers nowMs, a = .recv (.streamEnd i headers) nowMs ∧
      s'.streams i = (s.streams i).map fun state => { state with bodyTx := false }) ∨
    (s.drops a = some i ∧ s'.streams i = none) := by
  cases h
  case recvOpen request nowMs hl =>
    by_cases he : i = request.streamId
    · exact .inr (.inl ⟨request, nowMs, rfl, he.symm, by simp [openStream, he]⟩)
    · exact .inl (by simp [openStream, he])
  case recvEnd j headers nowMs hl =>
    by_cases he : i = j
    · subst he
      exact .inr (.inr (.inl ⟨headers, nowMs, rfl, by simp⟩))
    · exact .inl (by simp [he])
  case recvReset j code message nowMs hl =>
    by_cases he : i = j
    · exact .inr (.inr (.inr ⟨by simp [drops, he], by simp [he]⟩))
    · exact .inl (by simp [he])
  case drop t ht =>
    by_cases he : i = (s.task t).streamId
    · exact .inr (.inr (.inr ⟨by simp [drops, he], by simp [he]⟩))
    · exact .inl (by simp [he])
  case deliverGone j t payload hl hp =>
    by_cases he : i = j
    · exact .inr (.inr (.inr ⟨by simp [drops, hl, he], by simp [he]⟩))
    · exact .inl (by simp [he])
  case deliverDead j payload hl =>
    by_cases he : i = j
    · exact .inr (.inr (.inr ⟨by simp [drops, hl, he], by simp [he]⟩))
    · exact .inl (by simp [he])
  all_goals exact .inl rfl

theorem WellFormed.entry_step (hw : WellFormed s) (h : Step s a s') (i : Nat)
    (state : StreamState) (hi : s'.streams i = some state) :
    state.task < s'.nextTask ∧ (s'.task state.task).streamId = i := by
  have hold : ∀ state', s.streams i = some state' → state'.task = state.task →
      state.task < s'.nextTask ∧ (s'.task state.task).streamId = i := by
    intro state' hs he
    obtain ⟨hlt, hid⟩ := hw.entry i state' hs
    rw [he] at hlt hid
    obtain ⟨hsame, hle⟩ := h.streamId_eq hlt
    exact ⟨Nat.lt_of_lt_of_le hlt hle, hsame.trans hid⟩
  rcases h.streams_cases i with hs | ⟨request, nowMs, rfl, rfl, hs⟩ | ⟨headers, nowMs, rfl, hs⟩ |
    ⟨-, hs⟩
  · exact hold state (hs ▸ hi) rfl
  · obtain rfl : _ = state := Option.some.inj (hs.symm.trans hi)
    cases h
    simp [openStream, Task.spawn]
  · rw [hs, Option.map_eq_some_iff] at hi
    obtain ⟨state', hs', rfl⟩ := hi
    exact hold state' hs' rfl
  · rw [hs] at hi
    cases hi

/-- The credit of an unused task number is nobody's. -/
theorem WellFormed.entry_ne (hw : WellFormed s) {t : Nat} (ht : s.nextTask ≤ t) (i : Nat) :
    (s.streams i).map StreamState.task ≠ some t := by
  intro hs
  obtain ⟨state, hi, rfl⟩ := Option.map_eq_some_iff.mp hs
  exact Nat.not_lt.mpr ht (hw.entry i state hi).1

theorem WellFormed.fresh_step (hw : WellFormed s) (h : Step s a s') (t : Nat)
    (ht : s'.nextTask ≤ t) : s'.task t = Task.unused := by
  have hle : s.nextTask ≤ t := by
    cases h
    case recvOpen => exact Nat.le_of_succ_le ht
    all_goals simpa using ht
  have hf := hw.fresh t hle
  have hentry := hw.entry_ne hle
  cases h
  case recvOpen request nowMs hl =>
    have hne : t ≠ s.nextTask := Nat.ne_of_gt ht
    simpa [openStream, hne] using hf
  case recvData i payload u nowMs hl hs =>
    have hne : t ≠ u := by
      rintro rfl
      exact hentry i (by simp [hs])
    simpa [hne] using hf
  case recvCredit i increment state nowMs hl hs hm =>
    have hne : t ≠ state.task := by
      rintro rfl
      exact hentry i (by simp [hs])
    simpa [hne] using hf
  case deliver i u payload hl hp =>
    have hne : t ≠ u := Nat.ne_of_gt (Nat.lt_of_lt_of_le (hw.live i u payload hl).1 hle)
    simpa [hne] using hf
  -- Every other move of a task requires one that has been spawned.
  all_goals first
    | exact hf
    | (simp only [setTask, setServe, setBody, push, task_dropStream, hentry, if_false,
        Function.update_apply]
       first
         | exact hf
         | (split_ifs <;> simp_all [Task.unused]))

theorem WellFormed.openedAt_step (hw : WellFormed s) (h : Step s a s') (t : Nat) :
    (s'.task t).openedAt ≤ s'.received.length := by
  have ho := hw.openedAt t
  have hlen : s.received.length ≤ s'.received.length := by
    cases h <;> simp [openStream]
  have hopen : (s'.task t).openedAt = (s.task t).openedAt ∨
      (s'.task t).openedAt = s'.received.length := by
    cases h
    all_goals first
      | exact .inl rfl
      | (simp only [openStream, Task.spawn, setTask, setServe, setBody, push, Task.finish,
          task_dropStream, Function.update_apply]
         first | exact .inl trivial | (split_ifs <;> simp_all))
  omega

/-- A frame that opens nothing spawns nothing. -/
theorem WellFormed.spawned_step (hw : WellFormed s) (h : Step s a s') :
    s'.opened = (List.range s'.nextTask).map fun t => (s'.task t).streamId := by
  have hsame : (List.range s.nextTask).map (fun t => (s'.task t).streamId) = s.opened := by
    rw [hw.spawned]
    exact List.map_congr_left fun t ht => (h.streamId_eq (List.mem_range.mp ht)).1
  cases h
  case recvOpen request nowMs hl =>
    have hnew : ServerFrame.opens (.streamOpen request) = some request.streamId := rfl
    simp only [openStream] at hsame ⊢
    rw [List.range_succ, List.map_append, hsame]
    simp [opened, hnew, Task.spawn]
  all_goals
    simp only [nextTask_dropStream, push, setTask, setServe, setBody] at hsame ⊢
    rw [hsame]
    simp [opened, ServerFrame.opens]

theorem WellFormed.live_step (hw : WellFormed s) (h : Step s a s') (i t : Nat) (payload : Bytes)
    (hl : s'.readLoop = .delivering i (some t) payload) :
    t < s'.nextTask ∧ (s'.task t).streamId = i ∧
      (s'.streams i = none ∨ s'.streams i = some ⟨t, true⟩) := by
  by_cases hold : s.readLoop = .delivering i (some t) payload
  · obtain ⟨hlt, hid, hs⟩ := hw.live i t payload hold
    obtain ⟨hsame, hle⟩ := h.streamId_eq hlt
    refine ⟨Nat.lt_of_lt_of_le hlt hle, hsame.trans hid, ?_⟩
    rcases h.streams_cases i with he | ⟨request, nowMs, rfl, -⟩ | ⟨headers, nowMs, rfl, -⟩ | ⟨-, he⟩
    · rwa [he]
    · cases h; simp_all
    · cases h; simp_all
    · exact .inl he
  · cases h
    case recvData j payload' u nowMs hidle hs =>
      obtain ⟨rfl, rfl, rfl⟩ : j = i ∧ u = t ∧ payload' = payload := by simpa using hl
      obtain ⟨hlt, hid⟩ := hw.entry j _ hs
      exact ⟨hlt, by simpa using hid, .inr hs⟩
    all_goals first
      | exact absurd hl hold
      | cases hl
      | simp_all

theorem WellFormed.dead_step (hw : WellFormed s) (h : Step s a s') (i : Nat) (payload : Bytes)
    (hl : s'.readLoop = .delivering i none payload) :
    s'.streams i = none ∨ ∃ t, s'.streams i = some ⟨t, false⟩ := by
  by_cases hold : s.readLoop = .delivering i none payload
  · have hs := hw.dead i payload hold
    rcases h.streams_cases i with he | ⟨request, nowMs, rfl, -⟩ | ⟨headers, nowMs, rfl, -⟩ | ⟨-, he⟩
    · rwa [he]
    · cases h; simp_all
    · cases h; simp_all
    · exact .inl he
  · cases h
    case recvDeadData j payload' u nowMs hidle hs =>
      obtain ⟨rfl, rfl⟩ : j = i ∧ payload' = payload := by simpa using hl
      exact .inr ⟨u, hs⟩
    all_goals first
      | exact absurd hl hold
      | cases hl
      | simp_all

theorem WellFormed.replying_step (hw : WellFormed s) (h : Step s a s') (frame : ClientFrame)
    (hf : s'.readLoop.reply = some frame) : frame.isReply = true := by
  have hr := hw.replying frame
  cases h
  case recvWelcome | recvPing | deliver =>
    obtain rfl : _ = frame := by simpa [AgentLoop.reply] using hf
    rfl
  case notifiedReply hl => exact hr (by rw [hl]; exact hf)
  all_goals first
    | exact hr hf
    | cases hf
    | exact hr (by simpa using hf)

theorem WellFormed.openFrame_step (hw : WellFormed s) (h : Step s a s') (t : Nat)
    (ht : t < s'.nextTask) : ∃ frames request,
      s'.received.take (s'.task t).openedAt = frames ++ [.streamOpen request] ∧
        request.streamId = (s'.task t).streamId := by
  by_cases hnew : t < s.nextTask
  · obtain ⟨frames, request, hr, hid⟩ := hw.openFrame t hnew
    refine ⟨frames, request, ?_, hid.trans (h.streamId_eq hnew).1.symm⟩
    obtain ⟨later, hlater⟩ := h.received_mono
    rw [h.openedAt_eq hnew, ← hlater, List.take_append_of_le_length (hw.openedAt t), hr]
  · obtain ⟨rfl, -, request, nowMs, rfl, rfl⟩ := h.spawn_cases ht hnew
    refine ⟨s.received, request, ?_, by simp [openStream, Task.spawn]⟩
    simp only [openStream, Task.spawn, setTask, Function.update_self]
    exact List.take_length

end Preservation

theorem WellFormed.step {s s' : Agent} {a : AgentAction} (hw : WellFormed s)
    (h : s.step a = some s') : WellFormed s' where
  entry := hw.entry_step (step_cases h)
  fresh := hw.fresh_step (step_cases h)
  openedAt := hw.openedAt_step (step_cases h)
  spawned := hw.spawned_step (step_cases h)
  live := hw.live_step (step_cases h)
  dead := hw.dead_step (step_cases h)
  replying := hw.replying_step (step_cases h)
  openFrame := hw.openFrame_step (step_cases h)

/-- The bookkeeping holds in every reachable state. -/
theorem WellFormed.of_run {allowed : Agent → AgentAction → Prop} {options : AgentOptions}
    {s : Agent} (h : Run Agent.step allowed (Agent.init options) s) : WellFormed s :=
  h.invariant (.init options) fun _ _ _ hw _ hs => hw.step hs

end Agent

end Norupo
