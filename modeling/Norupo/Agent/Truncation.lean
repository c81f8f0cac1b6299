import Norupo.Agent.Delivery

/-!
# How a request body ends

The request body handed to the local HTTP client ends when no sender of its queue is left and the
queue is empty. `close_request_body` drops the sender after an `End`; but a `Reset`, the end of
`serve_stream` and a second `Open` for the same id drop it too, with nothing in the queue that tells
the local service the difference.
-/

namespace Norupo

open Async Transition

namespace Agent

/-- The edge has ended the request body since the `Open` of the task. -/
def EndHeard (s : Agent) (t : Nat) : Prop :=
  ∃ trailers, ServerFrame.streamEnd (s.task t).streamId trailers ∈ s.heard t

/-- The request body has yielded an error. -/
def Errored (s : Agent) (t : Nat) : Prop := ∃ message, BodyItem.error message ∈ (s.task t).items

/-- A request body that ends without having yielded an error is complete. -/
def NoSilentTruncation (s : Agent) : Prop :=
  ∀ t, (s.task t).ended = true → ¬ s.Errored t → s.EndHeard t

/-- The request body is being read by the local service, or may still be handed to it. -/
def Readable (s : Agent) (t : Nat) : Prop :=
  (s.task t).body.rxOpen = true ∧ ((s.task t).handed = true ∨
    ∃ request, (s.task t).serve = .starting request ∧ request.http.isSome = true)

/-- The stream whose entry a step removes or replaces, with the body sender in it: after a `Reset`,
at the end of its task, and by another `Open`. -/
def cutsBody (s : Agent) : AgentAction → Option Nat
  | .recv (.streamReset i _ _) _ => some i
  | .recv (.streamOpen request) _ => some request.streamId
  | .drop t => some (s.task t).streamId
  | _ => none

/-- The step does not remove the live sender of a request body that may still be read. -/
def KeepsBody (s : Agent) (a : AgentAction) : Prop :=
  ∀ t, s.cutsBody a = some (s.task t).streamId → s.Live t → ¬ s.Readable t

section Monotonicity

variable {s s' : Agent} {a : AgentAction} {t : Nat}

/-- Frames heard for a spawned task stay heard. -/
theorem Step.heard_mono (hw : WellFormed s) (h : Step s a s') (ht : t < s.nextTask) :
    s.heard t <+: s'.heard t := by
  have hle := hw.openedAt t
  obtain ⟨frames, hrec⟩ := h.received_mono
  simp [heard, h.openedAt_eq ht, ← hrec, List.drop_append_of_le_length hle]

theorem Step.endHeard_mono (hw : WellFormed s) (h : Step s a s') (ht : t < s.nextTask)
    (he : s.EndHeard t) : s'.EndHeard t := by
  obtain ⟨trailers, hm⟩ := he
  refine ⟨trailers, ?_⟩
  rw [(h.streamId_eq ht).1]
  exact (h.heard_mono hw ht).subset hm

/-- A body that may be read could be read before the step, or its task has just been spawned. -/
theorem Step.readable_of (h : Step s a s') (hr : s'.Readable t) : s.Readable t ∨ s'.Live t := by
  cases h
  case recvOpen request nowMs hl =>
    by_cases he : t = s.nextTask
    · subst he
      exact .inr (by simp [Live, openStream, Task.spawn])
    · exact .inl (by simpa [Readable, openStream, he] using hr)
  all_goals
    left
    first
      | exact hr
      | (simp only [Readable, setTask, setServe, setBody, push, Task.finish, task_dropStream,
          Function.update_apply] at hr ⊢
         first
           | exact hr
           | (split_ifs at hr <;> simp_all))

end Monotonicity

/-- What an agent keeps while no live sender of a readable body is removed. -/
structure Told (s : Agent) : Prop where
  ended : ∀ t, (s.task t).ended = true → s.EndHeard t
  readable : ∀ t, s.Readable t → s.Live t ∨ s.EndHeard t

theorem Told.init (options : AgentOptions) : Told (Agent.init options) where
  ended _ h := by simp [Agent.init, Task.unused] at h
  readable _ h := by simp [Readable, Agent.init, Task.unused] at h

section Preservation

variable {s s' : Agent} {a : AgentAction}

/-- A body that ends has been ended by the edge. -/
theorem Told.ended_step (hw : WellFormed s) (ht : Told s) (h : Step s a s') (t : Nat)
    (he : (s'.task t).ended = true) : s'.EndHeard t := by
  have hold : t < s.nextTask ∧ s.EndHeard t := by
    have hlt : s.task t ≠ Task.unused → t < s.nextTask :=
      fun hne => Nat.lt_of_not_le fun hle => hne (hw.fresh t hle)
    by_cases hold : (s.task t).ended = true
    · exact ⟨hlt fun hu => by simp [hu, Task.unused] at hold, ht.ended t hold⟩
    · cases h
      case takeEnd u hh hx hq hs =>
        obtain rfl : t = u := by
          by_contra hne
          simp [hne, hold] at he
        refine ⟨hlt fun hu => by simp [hu, Task.unused] at hh, ?_⟩
        simp only [sendersGone, Bool.and_eq_true, decide_eq_true_eq] at hs
        exact (ht.readable t ⟨hx, .inl hh⟩).resolve_left hs.1
      case recvOpen request nowMs hl =>
        by_cases hne : t = s.nextTask
        · simp [openStream, hne, Task.spawn, Task.unused] at he
        · exact absurd (by simpa [openStream, hne] using he) hold
      all_goals
        exfalso
        first
          | exact hold he
          | (simp only [setTask, setServe, setBody, push, Task.finish, task_dropStream,
              Function.update_apply] at he
             first
               | exact hold he
               | (split_ifs at he <;> simp_all))
  exact h.endHeard_mono hw hold.1 hold.2

/-- A live sender is lost only to an `End`, to a step that cuts the body, or with its receiver. -/
theorem Step.live_cases (hw : WellFormed s) (h : Step s a s') {t : Nat} (hl : s.Live t) :
    s'.Live t ∨ s'.EndHeard t ∨ s.cutsBody a = some (s.task t).streamId ∨
      (s.task t).body.rxOpen = false := by
  obtain ⟨hlt, -⟩ := hw.entry _ _ hl
  have hid := (h.streamId_eq hlt).1
  rcases h.streams_cases (s.task t).streamId with hs | ⟨request, nowMs, rfl, hr, -⟩ |
    ⟨headers, nowMs, rfl, -⟩ | ⟨hd, -⟩
  · exact .inl (by rw [Live, hid, hs]; exact hl)
  · exact .inr (.inr (.inl (by simp [cutsBody, hr])))
  · cases h with
    | recvEnd =>
      refine .inr (.inl ⟨headers, ?_⟩)
      simp [heard, List.drop_append_of_le_length (hw.openedAt t)]
  · cases h <;> simp only [drops, reduceCtorEq, Option.some.injEq] at hd
    case recvReset => exact .inr (.inr (.inl (by simp [cutsBody, hd])))
    case drop => exact .inr (.inr (.inl (by simp [cutsBody, hd])))
    case deliver i u payload hrl hp => exact .inl (by rw [Live, hid]; exact hl)
    case deliverGone i u payload hrl hp =>
      simp only [hrl, Option.some.injEq] at hd
      rcases (hw.live i u payload hrl).2.2 with hs | hs
      · simp [Live, ← hd, hs] at hl
      · obtain rfl : u = t := by simpa [Live, ← hd, hs] using hl
        exact .inr (.inr (.inr (Channel.poll_eq_closed.mp hp)))
    case deliverDead i payload hrl =>
      simp only [hrl, Option.some.injEq] at hd
      rcases hw.dead i payload hrl with hs | ⟨u, hs⟩ <;> simp [Live, ← hd, hs] at hl

theorem Told.readable_step (hw : WellFormed s) (ht : Told s) (hc : s.KeepsBody a)
    (h : Step s a s') (t : Nat) (hr : s'.Readable t) : s'.Live t ∨ s'.EndHeard t := by
  rcases h.readable_of hr with hold | hlive
  · rcases ht.readable t hold with hlive | hend
    · rcases h.live_cases hw hlive with h' | h' | hcut | hx
      · exact .inl h'
      · exact .inr h'
      · exact absurd hold (hc t hcut hlive)
      · simp [Readable, hx] at hold
    · have hlt : t < s.nextTask := by
        by_contra hn
        simp [Readable, hw.fresh t (Nat.le_of_not_lt hn), Task.unused] at hold
      exact .inr (h.endHeard_mono hw hlt hend)
  · exact .inl hlive

end Preservation

theorem Told.step {s s' : Agent} {a : AgentAction} (hw : WellFormed s) (ht : Told s)
    (hc : s.KeepsBody a) (h : s.step a = some s') : Told s' where
  ended := ht.ended_step hw (step_cases h)
  readable := ht.readable_step hw hc (step_cases h)

/-- In every session that removes no live sender of a body that may still be read, a request body
that ends without an error is complete. -/
theorem complete_of_run {options : AgentOptions} {s : Agent}
    (h : Run Agent.step KeepsBody (Agent.init options) s) : s.NoSilentTruncation := by
  have hi := h.invariant (P := fun s => WellFormed s ∧ Told s) ⟨.init options, .init options⟩
    fun _ _ _ hi hc hs => ⟨hi.1.step hs, hi.2.step hi.1 hc hs⟩
  intro t he _
  exact hi.2.ended t he

/-- A `POST` for a local service, with the first two bytes of its body handed on. -/
def halfRequest : List AgentAction :=
  [.recv (.streamOpen ⟨1, "tun".toList, .http, some ⟨"POST".toList, "/".toList,
      "a.tunnel.com".toList, [], "HTTP/1.1".toList, []⟩, "198.51.100.7:40000".toList, 262144⟩) 0,
    .start 0, .recv (.streamData 1 [104, 105]) 0, .deliver, .reply, .takeBody 0]

/-- After an `End` from the edge the body ends, complete. -/
theorem complete_of_end :
    ∃ s, Run Agent.step KeepsBody (Agent.init testOptions) s ∧
      (s.task 0).ended = true ∧ ¬ s.Errored 0 ∧ s.EndHeard 0 := by
  obtain ⟨s, hs, hended, hitems⟩ : ∃ s, exec Agent.step (Agent.init testOptions)
      (halfRequest ++ [.recv (.streamEnd 1 []) 0, .takeEnd 0]) = some s ∧
      (s.task 0).ended = true ∧ (s.task 0).items = [.data [104, 105]] := ⟨_, rfl, rfl, rfl⟩
  have hquiet : Run Agent.step (fun s a => (s.cutsBody a).all fun i => (s.streams i).isNone)
      (Agent.init testOptions) s :=
    Run.of_exec .nil hs (by decide)
  have hrun : Run Agent.step KeepsBody (Agent.init testOptions) s := by
    refine hquiet.mono fun s a hn t hcut hlive => ?_
    simp [hcut, show s.streams _ = _ from hlive] at hn
  have herr : ¬ s.Errored 0 := by
    rintro ⟨message, hm⟩
    simp [hitems] at hm
  exact ⟨s, hrun, hended, herr, complete_of_run hrun 0 hended herr⟩

/-- The public client aborts its upload, and the edge sends a `Reset`: the local service is given
half of the body and then its end, as if the request were complete. -/
theorem truncated_by_reset :
    ¬ ∀ options s, Reachable Agent.step (Agent.init options) s → s.NoSilentTruncation := by
  intro h
  obtain ⟨s, hs, hended, hitems, hheard⟩ : ∃ s, exec Agent.step (Agent.init testOptions)
      (halfRequest ++ [.recv (.streamReset 1 .peerClosed "client body error".toList) 0,
        .takeEnd 0]) = some s ∧
      (s.task 0).ended = true ∧ (s.task 0).items = [.data [104, 105]] ∧
      s.heard 0 = [.streamData 1 [104, 105],
        .streamReset 1 .peerClosed "client body error".toList] := ⟨_, rfl, rfl, rfl, rfl⟩
  have herr : ¬ s.Errored 0 := by
    rintro ⟨message, hm⟩
    simp [hitems] at hm
  obtain ⟨trailers, hm⟩ := h _ s (Reachable.of_exec .nil hs) 0 hended herr
  simp [hheard] at hm

end Agent

end Norupo
