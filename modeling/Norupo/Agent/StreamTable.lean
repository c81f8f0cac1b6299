import Norupo.Agent.Request

/-!
# The stream table of the agent

`SessionCtx` of `norupo-client/src/agent.rs` keeps an entry for every stream until something drops
it: a `Reset`, the end of its task, or a delivery that fails. An edge may open an id again while the
first task of it is still at work, and then the table leads to the second, and the end of the first
removes the entry. Even so no entry is left behind: it always leads to the last task of its id, and
this task is at work and its stream has not been reset.
-/

namespace Norupo

open Async Transition

namespace Agent

/-- What an entry of the table stands for. -/
structure Tended (s : Agent) (i t : Nat) : Prop where
  working : (s.task t).serve ≠ .done
  notReset : ∀ code message, ServerFrame.streamReset i code message ∉ s.heard t
  last : ∀ u, t < u → u < s.nextTask → (s.task u).streamId ≠ i

section Entries

variable {s s' : Agent} {a : AgentAction} {i t : Nat}

/-- A task comes to its end by dropping its stream. -/
theorem Step.done_cases (h : Step s a s') (ht : t < s.nextTask) (hd : (s'.task t).serve = .done) :
    (s.task t).serve = .done ∨ a = .drop t := by
  cases h
  case drop u hu =>
    by_cases he : t = u
    · exact .inr (he ▸ rfl)
    · exact .inl (by simpa [he] using hd)
  case recvOpen => exact .inl (by simpa [openStream, Nat.ne_of_lt ht] using hd)
  case produce u payload hu | sendData u _ payload hu hp =>
    left
    by_cases he : t = u
    · subst he
      cases payload <;> simp [Serve.next] at hd
    · simpa [he] using hd
  all_goals
    left
    first
      | exact hd
      | (simp only [setTask, setServe, setBody, push, task_dropStream, Function.update_apply] at hd
         first
           | exact hd
           | (split_ifs at hd <;> simp_all))

/-- A step that leaves an entry in the table leaves its task at work and does not reset its
stream. -/
theorem Tended.step (hw : WellFormed s) (ht : s.Tended i t) (h : Step s a s') (hlt : t < s.nextTask)
    (hid : (s.task t).streamId = i) (hkept : s'.streams i ≠ none)
    (hopen : ∀ request nowMs, a = .recv (.streamOpen request) nowMs → request.streamId ≠ i) :
    s'.Tended i t := by
  refine ⟨fun hd => ?_, fun code message hm => ?_, fun u hu hnext hi => ?_⟩
  · rcases h.done_cases hlt hd with hold | rfl
    · exact ht.working hold
    · cases h
      simp [hid] at hkept
  · rcases h.received_cases with hs | ⟨frame, nowMs, rfl, hs⟩
    · rw [heard, hs, h.openedAt_eq hlt, ← heard] at hm
      exact ht.notReset code message hm
    · rw [heard_recv hw hs (h.openedAt_eq hlt), List.mem_append, List.mem_singleton] at hm
      rcases hm with hm | rfl
      · exact ht.notReset code message hm
      · cases h
        simp at hkept
  · by_cases hold : u < s.nextTask
    · exact ht.last u hu hold ((h.streamId_eq hold).1.symm.trans hi)
    · obtain ⟨rfl, -, request, nowMs, rfl, rfl⟩ := h.spawn_cases hnext hold
      exact hopen request nowMs rfl (by simpa [openStream, Task.spawn] using hi)

/-- The task of an `Open` starts out as the last of its id. -/
theorem Tended.spawn (s : Agent) (request : StreamOpen) :
    (({ s with received := s.received ++ [ServerFrame.streamOpen request] }).openStream
      request).Tended request.streamId s.nextTask where
  working := by simp [openStream, Task.spawn]
  notReset code message := by simp [heard, openStream, Task.spawn]
  last u hu hnext := absurd (show u < s.nextTask + 1 from hnext) (by omega)

/-- An entry after a step is the one of an `Open`, or its task had an entry before. -/
theorem Step.entry_cases (h : Step s a s') {state : StreamState}
    (hi : s'.streams i = some state) :
    (state.task = s.nextTask ∧ ∃ request nowMs, a = .recv (.streamOpen request) nowMs ∧
      request.streamId = i ∧ s' = ({ s with
        received := s.received ++ [ServerFrame.streamOpen request] }).openStream request) ∨
    (∃ old, s.streams i = some old ∧ old.task = state.task ∧
      ∀ request nowMs, a = .recv (.streamOpen request) nowMs → request.streamId ≠ i) := by
  by_cases hopen : ∃ request nowMs, a = .recv (.streamOpen request) nowMs ∧ request.streamId = i
  · obtain ⟨request, nowMs, rfl, rfl⟩ := hopen
    cases h
    obtain rfl : ⟨s.nextTask, true⟩ = state := by simpa [openStream] using hi
    exact .inl ⟨rfl, request, nowMs, rfl, rfl, rfl⟩
  · simp only [not_exists, not_and] at hopen
    rcases h.streams_cases i with hsame | ⟨request, nowMs, ha, hid, -⟩ | ⟨headers, nowMs, -, hend⟩ |
      ⟨-, hgone⟩
    · exact .inr ⟨state, hsame ▸ hi, rfl, hopen⟩
    · exact absurd hid (hopen request nowMs ha)
    · rw [hend, Option.map_eq_some_iff] at hi
      obtain ⟨old, hold, rfl⟩ := hi
      exact .inr ⟨old, hold, rfl, hopen⟩
    · rw [hgone] at hi
      cases hi

end Entries

/-- No entry is left behind: in every run an entry leads to the last task of its id, which is at
work and has heard no `Reset`. -/
theorem entry_tended {allowed : Agent → AgentAction → Prop} {options : AgentOptions} {s : Agent}
    (h : Run Agent.step allowed (Agent.init options) s) {i : Nat} {state : StreamState}
    (hi : s.streams i = some state) :
    (s.task state.task).streamId = i ∧ s.Tended i state.task := by
  refine ⟨((WellFormed.of_run h).entry i state hi).2, ?_⟩
  induction h generalizing state with
  | nil => simp [Agent.init] at hi
  | snoc hr _ hs ih =>
    have hw := WellFormed.of_run hr
    have hc := step_cases hs
    rcases hc.entry_cases hi with ⟨htask, request, nowMs, -, rfl, rfl⟩ | ⟨old, hold, htask, hopen⟩
    · rw [htask]
      exact Tended.spawn _ request
    · obtain ⟨hlt, hid⟩ := hw.entry i old hold
      exact htask ▸ (ih hold).step hw hc hlt hid (by simp [hi]) hopen

/-- An edge opens stream 1 again before the first task of it has ended. -/
def reopened : List AgentAction :=
  let request : StreamOpen := ⟨1, "tun".toList, .http, some ⟨"GET".toList, "/".toList,
    "a.tunnel.com".toList, [], "HTTP/1.1".toList, []⟩, "198.51.100.7:40000".toList, 262144⟩
  [.recv (.streamOpen request) 0, .recv (.streamOpen request) 1]

/-- The table leads to the second task, and the first takes the entry away at its end. -/
theorem entry_tended_reopened : ∃ s s', exec Agent.step (Agent.init testOptions) reopened = some s ∧
    s.streams 1 = some ⟨1, true⟩ ∧ (s.task 1).streamId = 1 ∧ s.Tended 1 1 ∧
    exec Agent.step s [.startFailed 0 [], .sendReset 0, .drop 0] = some s' ∧
    s'.streams 1 = none := by
  obtain ⟨s, s', hs, hi, hs', hgone⟩ : ∃ s s',
      exec Agent.step (Agent.init testOptions) reopened = some s ∧
      s.streams 1 = some ⟨1, true⟩ ∧
      exec Agent.step s [.startFailed 0 [], .sendReset 0, .drop 0] = some s' ∧
      s'.streams 1 = none :=
    ⟨_, _, rfl, rfl, rfl, rfl⟩
  obtain ⟨hid, htended⟩ := entry_tended (Reachable.of_exec .nil hs) hi
  exact ⟨s, s', hs, hi, hid, htended, hs', hgone⟩

end Agent

end Norupo
