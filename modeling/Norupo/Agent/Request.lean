import Norupo.Agent.Download
import Norupo.Agent.Truncation

/-!
# Request bodies up to their end

The request body of a task, as long as the task is at work and the edge has not reset the stream.
The table then keeps its sender until the `End` of the body, and by that time every item before the
`End` has been accepted; so a body that ends under these conditions is the whole of it. Frames after
the `End` make no difference, whatever they are.
-/

namespace Norupo

open Async Transition

namespace Agent

/-- The edge has reset the stream of the task. -/
def ResetHeard (s : Agent) (t : Nat) : Prop :=
  ∃ code message, ServerFrame.streamReset (s.task t).streamId code message ∈ s.received

/-- The items are those that the edge has sent up to an `End`. -/
def UpToEnd (s : Agent) (t : Nat) (items : List BodyItem) : Prop :=
  ∃ before trailers after,
    s.heard t = before ++ ServerFrame.streamEnd (s.task t).streamId trailers :: after ∧
      items = before.filterMap (ServerFrame.itemFor (s.task t).streamId)

/-- What holds of the request body of a task that is at work, while nothing has reset its stream. -/
structure Uploading (s : Agent) (t : Nat) : Prop where
  accepted : ¬ s.ResetHeard t → (s.task t).serve ≠ .done → (s.task t).body.rxOpen = true →
    ¬ s.Live t → s.UpToEnd t (s.relay t).accepted
  ended : ¬ s.ResetHeard t → (s.task t).serve ≠ .done → (s.task t).ended = true →
    ¬ s.Live t ∧ (s.relay t).waiting = [] ∧ s.UpToEnd t (s.task t).items

section Preservation

variable {s s' : Agent} {a : AgentAction} {t : Nat}

theorem Step.resetHeard_mono (h : Step s a s') (ht : t < s.nextTask) (hr : s.ResetHeard t) :
    s'.ResetHeard t := by
  obtain ⟨code, message, hm⟩ := hr
  refine ⟨code, message, ?_⟩
  rw [(h.streamId_eq ht).1]
  exact h.received_mono.subset hm

/-- A task that is done stays so. -/
theorem Step.serve_done (h : Step s a s') (ht : t < s.nextTask) (hd : (s.task t).serve = .done) :
    (s'.task t).serve = .done := by
  cases h
  case recvOpen => simpa [openStream, Nat.ne_of_lt ht] using hd
  all_goals first
    | exact hd
    | (simp only [setTask, setServe, setBody, push, Task.finish, task_dropStream,
        Function.update_apply]
       first | exact hd | (split_ifs <;> simp_all))

/-- Items up to an `End` stay what they are. -/
theorem UpToEnd.step (hw : WellFormed s) (h : Step s a s') (ht : t < s.nextTask)
    {items : List BodyItem} (hu : s.UpToEnd t items) : s'.UpToEnd t items := by
  obtain ⟨before, trailers, after, hheard, hitems⟩ := hu
  obtain ⟨later, hlater⟩ := h.heard_mono hw ht
  refine ⟨before, trailers, after ++ later, ?_, ?_⟩
  · rw [← hlater, hheard, (h.streamId_eq ht).1]
    simp
  · rw [(h.streamId_eq ht).1, hitems]

/-- A task at work loses its live sender to the `End` of its body, when every item before it has
been accepted. -/
theorem Step.closed_at_end (hw : WellFormed s) (hsole : s.Sole t) (hf : (s.relay t).Faithful)
    (h : Step s a s') (ht : t < s.nextTask) (hd : s'.opened.Nodup) (hr : ¬ s'.ResetHeard t)
    (hs : (s'.task t).serve ≠ .done) (hx : (s'.task t).body.rxOpen = true) (hl : s.Live t)
    (hl' : ¬ s'.Live t) : s'.UpToEnd t (s'.relay t).accepted := by
  have hrelay := h.relay hw t
  have hnew : ¬ s.nextTask ≤ t := Nat.not_le.mpr ht
  have hid := (h.streamId_eq ht).1
  rcases h.streams_cases (s.task t).streamId with hsame | ⟨request, nowMs, rfl, hreq, -⟩ |
    ⟨headers, nowMs, rfl, -⟩ | ⟨hdrop, -⟩
  · exact absurd (by rw [Live, hid, hsame]; exact hl) hl'
  · have hopened := hw.mem_opened.mpr ⟨t, ht, rfl⟩
    exact absurd (hreq ▸ hopened) (h.unopened_of_open hd)
  · -- The `End` is the last frame heard, and what was heard before has been accepted.
    have hheard : s'.heard t = s.heard t ++ [.streamEnd (s.task t).streamId headers] := by
      cases h with
      | recvEnd => exact heard_recv hw rfl rfl
    refine ⟨s.heard t, headers, [], by rw [hheard, hid], ?_⟩
    have hall := hf.open_eq hl
    rw [hid]
    rcases hrelay.accepted_cases with ⟨hacc, -⟩ | ⟨item, -, hacc, hsent⟩ | ⟨hc, -⟩ | ⟨hn, -⟩
    · rw [hacc, hall, Agent.relay]
    · have hsame : (s'.relay t).sent = (s.relay t).sent := by
        rw [Agent.relay, Agent.relay, hheard, hid, List.filterMap_append]
        exact List.append_nil _
      rw [hsame] at hsent
      simp at hsent
    · simp [Agent.relay, hx] at hc
    · exact absurd hn hnew
  · -- Whatever drops the stream ends its task, resets it, or finds its receiver gone.
    exfalso
    cases h <;> simp only [drops, reduceCtorEq, Option.some.injEq] at hdrop
    case recvReset i code message nowMs hidle =>
      refine hr ⟨code, message, ?_⟩
      simp [hdrop]
    case drop u hu =>
      have hlt : u < s.nextTask := hw.spawned_of_serve (by simp [hu])
      obtain rfl := hsole u hlt hdrop
      simp [Task.finish] at hs
    case deliver i u payload hrl hp =>
      refine hl' ?_
      rw [Live, hid]
      exact hl
    case deliverGone i u payload hrl hp =>
      simp only [hrl, Option.some.injEq] at hdrop
      obtain ⟨hlt, hu, -⟩ := hw.live i u payload hrl
      obtain rfl := hsole u hlt (hu.trans hdrop)
      simp [Channel.poll_eq_closed.mp hp] at hx
    case deliverDead i payload hrl =>
      simp only [hrl, Option.some.injEq] at hdrop
      rcases hw.dead i payload hrl with hn | ⟨u, hu⟩
      · simp [Live, ← hdrop, hn] at hl
      · simp [Live, ← hdrop, hu] at hl

/-- What one step does to the request body of a task that was there before it. -/
theorem Uploading.step_old (hw : WellFormed s) (hsole : s.Sole t) (hf : (s.relay t).Faithful)
    (hu : Uploading s t) (h : Step s a s') (ht : t < s.nextTask) (hd : s'.opened.Nodup) :
    Uploading s' t := by
  have hrelay := h.relay hw t
  have hnew : ¬ s.nextTask ≤ t := Nat.not_le.mpr ht
  have hreset : ¬ s'.ResetHeard t → ¬ s.ResetHeard t := fun hr hm => hr (h.resetHeard_mono ht hm)
  have hserve : (s'.task t).serve ≠ .done → (s.task t).serve ≠ .done :=
    fun hs hdone => hs (h.serve_done ht hdone)
  refine ⟨fun hr hs hx hl' => ?_, fun hr hs he => ?_⟩
  · by_cases hl : s.Live t
    · exact h.closed_at_end hw hsole hf ht hd hr hs hx hl hl'
    · have hold := hu.accepted (hreset hr) (hserve hs) (hrelay.rxOpen_of hnew hx) hl
      rcases hrelay.accepted_cases with ⟨hacc, -⟩ | ⟨item, ho, -⟩ | ⟨hc, -⟩ | ⟨hn, -⟩
      · exact hacc ▸ hold.step hw h ht
      · exact absurd ho hl
      · simp [Agent.relay, hx] at hc
      · exact absurd hn hnew
  · by_cases hold : (s.task t).ended = true
    · obtain ⟨hl, hwait, hup⟩ := hu.ended (hreset hr) (hserve hs) hold
      obtain ⟨hwait', htaken⟩ := hrelay.idle hnew hl hwait
      have hitems : (s'.task t).items = (s.task t).items := htaken
      exact ⟨fun hl' => hl (hrelay.isOpen_of hnew hl'), hwait', hitems ▸ hup.step hw h ht⟩
    · cases h
      case takeEnd u hh hx hq hg =>
        obtain rfl : t = u := by
          by_contra hne
          simp [hne, hold] at he
        simp only [sendersGone, Bool.and_eq_true, decide_eq_true_eq] at hg
        have hwait : (s.relay t).waiting = [] := by
          have hhand : s.readLoop.holding t = none := by
            cases hl : s.readLoop with
            | delivering i target payload =>
              cases target with
              | none => rfl
              | some u =>
                have hne : u ≠ t := by simpa [hl, AgentLoop.sender] using hg.2
                simp [AgentLoop.holding, hne]
            | _ => rfl
          simp [Relay.waiting, Agent.relay, hq, hhand]
        have hup := hu.accepted (hreset hr) (hserve hs) hx hg.1
        rw [Relay.accepted, hwait, List.append_nil] at hup
        refine ⟨?_, ?_, ?_⟩
        · simpa [Live] using hg.1
        · simpa [Relay.waiting, Agent.relay] using hwait
        · simpa [UpToEnd, heard, Agent.relay] using hup
      case recvOpen => exact absurd (by simpa [openStream, Nat.ne_of_lt ht] using he) hold
      all_goals
        exfalso
        first
          | exact hold he
          | (simp only [setTask, setServe, setBody, push, Task.finish, task_dropStream,
              Function.update_apply] at he
             first
               | exact hold he
               | (split_ifs at he <;> simp_all))

theorem Uploading.step (hw : WellFormed s) (hf : ∀ t, (s.relay t).Faithful)
    (hu : ∀ t < s.nextTask, Uploading s t) (h : s.step a = some s') (hd : s'.opened.Nodup) :
    ∀ t < s'.nextTask, Uploading s' t := by
  intro t ht
  have hc := step_cases h
  by_cases hold : t < s.nextTask
  · have hd' := hd.sublist (hc.received_mono.filterMap ServerFrame.opens).sublist
    exact (hu t hold).step_old hw (hw.sole hd' hold) (hf t) hc hold hd
  · obtain ⟨rfl, -, request, nowMs, rfl, rfl⟩ := hc.spawn_cases ht hold
    refine ⟨fun _ _ _ hl => absurd ?_ hl, fun _ _ he => ?_⟩
    · simp [Live, openStream, Task.spawn]
    · simp [openStream, Task.spawn, Task.unused] at he

end Preservation

/-- While the edge opens every id once, request bodies are orderly up to their end. -/
theorem uploading_of_run {allowed : Agent → AgentAction → Prop} {options : AgentOptions}
    {s : Agent} (h : Run Agent.step allowed (Agent.init options) s) (hd : s.opened.Nodup) :
    ∀ t < s.nextTask, Uploading s t := by
  induction h with
  | nil => exact fun t ht => absurd ht (Nat.not_lt_zero t)
  | snoc hr _ hs ih =>
    have hmono := (step_cases hs).received_mono.filterMap ServerFrame.opens
    exact Uploading.step (.of_run hr) (fun t => (relay_of_run hr t).1)
      (ih (hd.sublist hmono.sublist)) hs hd

end Agent

end Norupo
