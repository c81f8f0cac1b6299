import Norupo.Agent.Terminal

/-!
# Answers under interference

The answer to a stream when nothing is asked of the environment: the edge may reset the stream at
any moment and the outbound queue may be closed. A task may then stop before its answer is over, but
what it has sent is still the beginning of an answer, and an answer that is over is the last thing
sent for its stream. A closed queue takes no more frames, so from there on an answer stays as it is.
-/

namespace Norupo

open Async Transition

namespace Agent

/-- No terminal frame has been sent for the stream. -/
def Unfinished (s : Agent) (i : Nat) : Prop := s.answer i = [] ∨ Talking i (s.answer i)

/-- What holds of the answer to a stream in every session that opens the stream once. -/
structure Answering (i : Nat) (s : Agent) : Prop where
  headed : ∀ t head, (s.task t).serve = .sendingHead head → head.streamId = (s.task t).streamId
  unopened : i ∉ s.opened → s.answer i = []
  serving : s.outbound.rxOpen = true → Serving i s
  answered : ∀ t < s.nextTask, (s.task t).streamId = i →
    s.Unfinished i ∨ (s.task t).serve.sends = false ∧ s.Answered t

theorem Answering.init (i : Nat) (options : AgentOptions) : Answering i (Agent.init options) where
  headed t head h := by simp [Agent.init, Task.unused] at h
  unopened _ := rfl
  serving _ := .init i options
  answered t ht := absurd ht (Nat.not_lt_zero t)

section Preservation

variable {s s' : Agent} {a : AgentAction} {i t : Nat}

/-- A closed queue takes no frame. -/
theorem Step.log_eq_of_closed (h : Step s a s') (hx : s.outbound.rxOpen = false) :
    s'.log = s.log := by
  have hready : s.outbound.poll ≠ .ready := by simp [Channel.poll_eq_ready, hx]
  cases h
  case reply hp | sendHead hp | sendData hp | sendEnd hp | sendReset hp => exact absurd hp hready
  case transmit hx' hq => simp [hx] at hx'
  all_goals first
    | rfl
    | simp [log]

/-- A task that sends no more does not begin again. -/
theorem Step.sends_eq_false (h : Step s a s') (ht : t < s.nextTask)
    (hs : (s.task t).serve.sends = false) : (s'.task t).serve.sends = false := by
  cases h
  case recvOpen => simpa [openStream, Nat.ne_of_lt ht] using hs
  all_goals first
    | exact hs
    | (simp only [setTask, setServe, setBody, push, Task.finish, task_dropStream,
        Function.update_apply]
       first | exact hs | (split_ifs <;> simp_all [Serve.sends]))

/-- The queue stays open behind a step that leaves it open. -/
theorem Step.rxOpen_of (h : Step s a s') (hx : s'.outbound.rxOpen = true) :
    s.outbound.rxOpen = true := by
  cases h
  case dropOutbound => cases hx
  all_goals first
    | exact hx
    | simpa using hx

/-- An edge that opens every id once keeps what holds of an answer while the queue is open, also
when it resets the stream. -/
theorem Serving.step_of_nodup (hw : WellFormed s) (hf : Feeding s) (hs : Serving i s)
    (hd : s'.opened.Nodup) (hx : s'.outbound.rxOpen = true) (h : s.step a = some s') :
    Serving i s' := by
  have hc := step_cases h
  have hd' : s.opened.Nodup := hd.sublist (hc.received_mono.filterMap ServerFrame.opens).sublist
  have htask : ∀ t < s'.nextTask, (s'.task t).streamId = i →
      (s'.feed t).Faithful ∧ (s'.task t).serve.Stage i (s'.answer i) := by
    intro t ht hi
    by_cases hold : t < s.nextTask
    · have hid : (s.task t).streamId = i := (hc.streamId_eq hold).1.symm.trans hi
      exact ⟨(hs.faithful t hold hid).step (hc.feed hw (hw.sole hd' hold) hold),
        hc.stage hw hs hold hid⟩
    · obtain ⟨rfl, -, request, nowMs, rfl, hs'⟩ := hc.spawn_cases ht hold
      obtain rfl : request.streamId = i := by simpa [hs', openStream, Task.spawn] using hi
      exact (hs.spawn hw hf (hc.unopened_of_open hd) hs').2
  exact ⟨hc.headed hs.headed, hc.answer_unopened hw hs.headed hs.unopened, hx,
    fun t ht _ => (hw.step h).sole hd ht, fun t ht hi => (htask t ht hi).1,
    fun t ht hi => (htask t ht hi).2⟩

/-- A task that is still sending has not sent a terminal frame. -/
theorem Serving.unfinished (hs : Serving i s) (ht : t < s.nextTask)
    (hid : (s.task t).streamId = i) (hsends : (s.task t).serve.sends = true) :
    s.Unfinished i := by
  have hstage := hs.stage t ht hid
  cases hserve : (s.task t).serve <;> rw [hserve] at hstage hsends
  case starting | requesting | sendingHead => exact .inl hstage
  case reading | sending | acquired | ending => exact .inr hstage
  case resetting => exact hstage
  case dropping | done => cases hsends

/-- What one step does to the answer of a task that was there before it. -/
theorem Answering.answered_step (hw : WellFormed s) (hs : Answering i s) (hd : s.opened.Nodup)
    (h : Step s a s') (ht : t < s.nextTask) (hid : (s.task t).streamId = i)
    (hserving : s'.outbound.rxOpen = true → Serving i s') (ht' : t < s'.nextTask) :
    s'.Unfinished i ∨ (s'.task t).serve.sends = false ∧ s'.Answered t := by
  have hid' : (s'.task t).streamId = i := (h.streamId_eq ht).1.trans hid
  -- An answer that the step leaves alone is as far as it was.
  have hsame : s'.answer i = s.answer i →
      s'.Unfinished i ∨ (s'.task t).serve.sends = false ∧ s'.Answered t := by
    intro hans
    rcases hs.answered t ht hid with hopen | ⟨hsends, hanswered⟩
    · exact .inl (by rwa [Unfinished, hans])
    · obtain ⟨hproduced, htrailers⟩ := h.response_eq ht hsends
      exact .inr ⟨h.sends_eq_false ht hsends, hanswered.of_eq (h.streamId_eq ht).1
        (by rw [hid, hans]) hproduced htrailers⟩
  cases hx : s.outbound.rxOpen with
  | false => exact hsame (by rw [answer, h.log_eq_of_closed hx, ← answer])
  | true =>
    by_cases hans : a.answering = some t
    · have hsends := (h.spawned_of_answering hw hans).2
      cases hsends' : (s'.task t).serve.sends with
      | true =>
        have hx' : s'.outbound.rxOpen = true := by
          cases h <;> first | exact hx | simp [AgentAction.answering] at hans
        exact .inl ((hserving hx').unfinished ht' hid' hsends')
      | false =>
        refine .inr ⟨rfl, h.answered (hs.serving hx) ht hid hsends hsends' ?_⟩
        cases a <;> first | rfl | cases hans
    · exact hsame (hid ▸ h.answer_same hw hs.headed (hw.sole hd ht) hans)

theorem Answering.step (hw : WellFormed s) (hf : Feeding s) (hs : Answering i s)
    (hd : s'.opened.Nodup) (h : s.step a = some s') : Answering i s' := by
  have hc := step_cases h
  have hd' : s.opened.Nodup := hd.sublist (hc.received_mono.filterMap ServerFrame.opens).sublist
  have hserving : s'.outbound.rxOpen = true → Serving i s' :=
    fun hx => (hs.serving (hc.rxOpen_of hx)).step_of_nodup hw hf hd hx h
  refine ⟨hc.headed hs.headed, hc.answer_unopened hw hs.headed hs.unopened, hserving, ?_⟩
  intro t ht hi
  by_cases hold : t < s.nextTask
  · exact hs.answered_step hw hd' hc hold ((hc.streamId_eq hold).1.symm.trans hi) hserving ht
  · -- The task has just been spawned, for an id that nothing has been sent for.
    obtain ⟨rfl, -, request, nowMs, rfl, hs'⟩ := hc.spawn_cases ht hold
    obtain rfl : request.streamId = i := by simpa [hs', openStream, Task.spawn] using hi
    have hnone := hs.unopened (hc.unopened_of_open hd)
    subst hs'
    exact .inl (.inl hnone)

end Preservation

/-- Whatever the environment does, the answers of a session that opens every id once are orderly. -/
theorem answering_of_run {allowed : Agent → AgentAction → Prop} {options : AgentOptions}
    {s : Agent} (h : Run Agent.step allowed (Agent.init options) s) (hd : s.opened.Nodup)
    (i : Nat) : Answering i s := by
  induction h with
  | nil => exact .init i options
  | snoc hr _ hs ih =>
    have hmono := (step_cases hs).received_mono.filterMap ServerFrame.opens
    exact (ih (hd.sublist hmono.sublist)).step (.of_run hr) (feeding_of_run hr) hd hs

end Agent

end Norupo
