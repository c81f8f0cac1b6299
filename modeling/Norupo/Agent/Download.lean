import Norupo.Agent.Bookkeeping
import Norupo.Foundation.Feed
import Mathlib.Data.List.Nodup

/-!
# What the agent sends

The frames that have left the agent or are queued to leave form one log, to which every task
appends. A `serve_stream` task feeds the local response body into it under the id of its stream. As
long as the edge opens every id once, no two tasks feed the same id, and no data is sent for an id
that has not been opened.
-/

namespace Norupo

open Async Transition

/-- What a task has read of the local response body and not yet queued. -/
def Serve.rest : Serve → Bytes
  | .sending payload => payload
  | .acquired chunk rest => chunk ++ rest
  | _ => []

/-- The task may still send. -/
def Serve.sends : Serve → Bool
  | .dropping | .done => false
  | _ => true

@[simp] theorem Serve.rest_next (payload : Bytes) : (Serve.next payload).rest = payload := by
  cases payload <;> rfl

@[simp] theorem Serve.sends_next (payload : Bytes) : (Serve.next payload).sends = true := by
  cases payload <;> rfl

namespace Agent

/-- The tasks spawned for a stream. -/
def tasksFor (s : Agent) (i : Nat) : List Nat :=
  (List.range s.nextTask).filter fun t => (s.task t).streamId = i

/-- Frames that have left the agent or are queued to leave, oldest first. -/
def log (s : Agent) : List ClientFrame := s.transmitted ++ s.outbound.queue

/-- Where the frames that carry data or credit come from. -/
def Emits (s : Agent) (a : AgentAction) : ClientFrame → Prop
  | .streamData i chunk => ∃ t, a = .sendData t ∧ (s.task t).streamId = i ∧
      ∃ rest, (s.task t).serve = .acquired chunk rest
  | .windowUpdate i increment => a = .reply ∧
      ∃ held, s.readLoop = .replying (.windowUpdate i increment) held
  | _ => True

section Log

variable {s s' : Agent} {a : AgentAction}

/-- A step queues at most one frame, and takes none back. -/
theorem Step.log_cases (hw : WellFormed s) (h : Step s a s') :
    s'.log = s.log ∨ ∃ frame, s'.log = s.log ++ [frame] ∧ s.Emits a frame := by
  cases h
  case sendData t chunk rest ht hp =>
    exact .inr ⟨.streamData (s.task t).streamId chunk, by simp [log], t, rfl, rfl, rest, ht⟩
  case reply frame held hl hp =>
    have hr := hw.replying frame (by rw [hl]; rfl)
    refine .inr ⟨frame, by simp [log], ?_⟩
    cases frame <;> simp_all [ClientFrame.isReply, Emits]
  case sendHead t head _ _ => exact .inr ⟨.responseHead head, by simp [log], trivial⟩
  case sendEnd t _ _ =>
    exact .inr ⟨.streamEnd (s.task t).streamId (s.task t).trailers, by simp [log], trivial⟩
  case sendReset t code message _ _ =>
    exact .inr ⟨.streamReset (s.task t).streamId code message, by simp [log], trivial⟩
  case transmit frame rest hx hq => exact .inl (by simp [log, hq])
  all_goals first
    | exact .inl rfl
    | exact .inl (by simp [log])

/-- A task that moves has been spawned. -/
theorem WellFormed.spawned_of_serve (hw : WellFormed s) {t : Nat} (h : (s.task t).serve ≠ .done) :
    t < s.nextTask := by
  by_contra hn
  exact h (by simp [hw.fresh t (Nat.le_of_not_lt hn), Task.unused])

/-- The ids of spawned tasks are those that have been opened. -/
theorem WellFormed.mem_opened (hw : WellFormed s) {i : Nat} :
    i ∈ s.opened ↔ ∃ t < s.nextTask, (s.task t).streamId = i := by
  simp [hw.spawned]

/-- An edge that opens every id once opens one that has not been opened. -/
theorem Step.unopened_of_open {request : StreamOpen} {nowMs : Nat}
    (h : Step s (.recv (.streamOpen request) nowMs) s') (hd : s'.opened.Nodup) :
    request.streamId ∉ s.opened := by
  cases h
  have hnd : (s.opened ++ [request.streamId]).Nodup := by
    simpa [opened, openStream, ServerFrame.opens] using hd
  exact fun hm => List.disjoint_of_nodup_append hnd hm (List.mem_singleton_self _)

/-- Tasks spawned for distinct ids are distinct. -/
theorem WellFormed.streamId_inj (hw : WellFormed s) (hd : s.opened.Nodup) {t u : Nat}
    (ht : t < s.nextTask) (hu : u < s.nextTask)
    (h : (s.task t).streamId = (s.task u).streamId) : t = u := by
  rw [hw.spawned] at hd
  exact List.inj_on_of_nodup_map hd (List.mem_range.mpr ht) (List.mem_range.mpr hu) h

/-- No other task has been spawned for the stream of this one. -/
def Sole (s : Agent) (t : Nat) : Prop :=
  ∀ u < s.nextTask, (s.task u).streamId = (s.task t).streamId → u = t

theorem WellFormed.sole (hw : WellFormed s) (hd : s.opened.Nodup) {t : Nat}
    (ht : t < s.nextTask) : s.Sole t :=
  fun _ hu h => hw.streamId_inj hd hu ht h

theorem mem_tasksFor {i t : Nat} :
    t ∈ s.tasksFor i ↔ t < s.nextTask ∧ (s.task t).streamId = i := by
  simp [tasksFor]

/-- A stream that has not been opened has no task. -/
theorem tasksFor_unopened (hw : WellFormed s) {i : Nat} (hi : i ∉ s.opened) :
    s.tasksFor i = [] := by
  refine List.filter_eq_nil_iff.mpr fun t ht => ?_
  simp only [decide_eq_true_eq]
  exact fun hid => hi (hw.mem_opened.mpr ⟨t, List.mem_range.mp ht, hid⟩)

/-- A stream that has been opened once has one task. -/
theorem tasksFor_opened (hw : WellFormed s) (hd : s.opened.Nodup) {t : Nat}
    (ht : t < s.nextTask) : s.tasksFor (s.task t).streamId = [t] := by
  have hsame : s.tasksFor (s.task t).streamId = (List.range s.nextTask).filter (· = t) := by
    refine List.filter_congr fun u hu => ?_
    have hlt := List.mem_range.mp hu
    simp only [decide_eq_decide]
    exact ⟨hw.streamId_inj hd hlt ht, fun he => by rw [he]⟩
  rw [hsame, List.filter_eq,
    List.count_eq_one_of_mem List.nodup_range (List.mem_range.mpr ht), List.replicate_one]

/-- The local response body of a task on its way into the log. -/
def feed (s : Agent) (t : Nat) : Feed UInt8 where
  emitted := s.log.flatMap (ClientFrame.dataFor (s.task t).streamId)
  pending := (s.task t).serve.rest
  supplied := (s.task t).produced
  isOpen := (s.task t).serve.sends = true

/-- Data of a stream is queued by a task of that stream only. -/
theorem Step.data_eq (hw : WellFormed s) (h : Step s a s') {i : Nat}
    (hn : ∀ t, a = .sendData t → (s.task t).streamId ≠ i) :
    s'.log.flatMap (ClientFrame.dataFor i) = s.log.flatMap (ClientFrame.dataFor i) := by
  rcases h.log_cases hw with hs | ⟨frame, hs, he⟩
  · rw [hs]
  · rw [hs, List.flatMap_append]
    cases frame with
    | streamData j payload =>
      obtain ⟨t, ha, hid, -⟩ := he
      simp [ClientFrame.dataFor, hid ▸ hn t ha]
    | _ => exact List.append_nil _

/-- No data is sent for an id that has not been opened. -/
theorem Step.data_unopened (hw : WellFormed s) (h : Step s a s')
    (hs : ∀ i, i ∉ s.opened → s.log.flatMap (ClientFrame.dataFor i) = []) (i : Nat)
    (hi : i ∉ s'.opened) : s'.log.flatMap (ClientFrame.dataFor i) = [] := by
  have hold : i ∉ s.opened :=
    fun hm => hi ((h.received_mono.filterMap ServerFrame.opens).subset hm)
  refine (h.data_eq hw fun t ha hid => ?_).trans (hs i hold)
  subst ha
  have ht : t < s.nextTask := by
    cases h <;> exact hw.spawned_of_serve (by simp [*])
  exact hold (hw.mem_opened.mpr ⟨t, ht, hid⟩)

section Feeds

variable {t : Nat} (hl : s'.log.flatMap (ClientFrame.dataFor (s.task t).streamId) =
  s.log.flatMap (ClientFrame.dataFor (s.task t).streamId))
  (hid : (s'.task t).streamId = (s.task t).streamId)
  (hs : (s'.task t).produced = (s.task t).produced)

include hl hid hs

/-- A step that queues no data of the task and leaves it with what it has. -/
theorem feed_quiet (hr : (s'.task t).serve.rest = (s.task t).serve.rest)
    (ho : (s'.task t).serve.sends = (s.task t).serve.sends) :
    Feed.Step (s.feed t) (s'.feed t) :=
  Feed.Step.quiet.of_eq (by simp only [feed, hl, hid, hs, hr, ho])

/-- A step after which the task sends no more. -/
theorem feed_stop (hr : (s'.task t).serve.rest = [])
    (ho : (s'.task t).serve.sends = false) : Feed.Step (s.feed t) (s'.feed t) :=
  (Feed.Step.stop []).of_eq (by simp [feed, hl, hid, hs, hr, ho])

end Feeds

/-- Every step of the agent is a step of the feed of every task that is the only one of its id. -/
theorem Step.feed (hw : WellFormed s) {t : Nat} (hsole : s.Sole t) (h : Step s a s')
    (ht : t < s.nextTask) : Feed.Step (s.feed t) (s'.feed t) := by
  have hid := (h.streamId_eq ht).1
  have hlog : a ≠ .sendData t →
      s'.log.flatMap (ClientFrame.dataFor (s.task t).streamId) =
        s.log.flatMap (ClientFrame.dataFor (s.task t).streamId) := by
    refine fun hne => h.data_eq hw fun u ha hu => hne ?_
    subst ha
    have hlt : u < s.nextTask := by
      cases h <;> exact hw.spawned_of_serve (by simp [*])
    rw [hsole u hlt hu]
  cases h
  case sendData u chunk rest hu hp =>
    by_cases he : t = u
    · subst he
      refine (Feed.Step.emit (f := s.feed t) chunk rest ?_ ?_).of_eq ?_
      · simp [Agent.feed, hu, Serve.sends]
      · simp [Agent.feed, hu, Serve.rest]
      · have hsends : (s.task t).serve.sends = true := by simp [hu, Serve.sends]
        simp [Agent.feed, hsends, log, ClientFrame.dataFor]
    · exact feed_quiet (hlog (by simp [Ne.symm he])) hid (by simp [he]) (by simp [he])
        (by simp [he])
  case produce u payload hu =>
    by_cases he : t = u
    · subst he
      refine (Feed.Step.supply (f := s.feed t) payload ?_ ?_).of_eq ?_
      · simp [Agent.feed, hu, Serve.sends]
      · simp [Agent.feed, hu, Serve.rest]
      · have hsends : (s.task t).serve.sends = true := by simp [hu, Serve.sends]
        simp [Agent.feed, hsends, log]
    · exact feed_quiet rfl hid (by simp [he]) (by simp [he]) (by simp [he])
  case acquire u payload hu hp =>
    by_cases he : t = u
    · subst he
      exact feed_quiet rfl hid (by simp) (by simp [hu, Serve.rest]) (by simp [hu, Serve.sends])
    · exact feed_quiet rfl hid (by simp [he]) (by simp [he]) (by simp [he])
  case sendHeadGone u _ _ _ | acquireClosed u _ _ _ | sendDataGone u _ _ _ _ | sendEnd u _ _ |
      sendEndGone u _ _ | sendReset u _ _ _ _ | sendResetGone u _ _ _ _ | drop u _ =>
    by_cases he : t = u
    · subst he
      refine feed_stop ?_ hid ?_ ?_ ?_ <;>
        simp [log, ClientFrame.dataFor, Task.finish, Serve.rest, Serve.sends]
    · refine feed_quiet (hlog (by simp [Ne.symm he])) hid ?_ ?_ ?_ <;> simp [he]
  case recvOpen request nowMs hl =>
    have hne : t ≠ s.nextTask := Nat.ne_of_lt ht
    refine feed_quiet rfl hid ?_ ?_ ?_ <;> simp [openStream, hne]
  all_goals
    refine feed_quiet (hlog (by simp)) hid ?_ ?_ ?_ <;>
      simp only [setTask, setServe, setBody, push, task_dropStream, Function.update_apply] <;>
      split_ifs <;> simp_all [Serve.rest, Serve.sends]

end Log

/-- A task that is spawned for an id that nothing has been sent for feeds the log faithfully. -/
theorem feed_spawn {s : Agent} {request : StreamOpen}
    (hnone : s.log.flatMap (ClientFrame.dataFor request.streamId) = []) :
    (feed (({ s with
      received := s.received ++ [ServerFrame.streamOpen request] }).openStream request)
      s.nextTask).Faithful := by
  have hfeed : feed (({ s with
      received := s.received ++ [ServerFrame.streamOpen request] }).openStream request)
      s.nextTask = ⟨[], [], [], True⟩ := by
    simpa [feed, log, openStream, Task.spawn, Task.unused, Serve.rest, Serve.sends] using hnone
  rw [hfeed]
  exact ⟨fun _ => rfl, List.prefix_rfl⟩

/-- While the edge opens every id once, the tasks feed the log faithfully. -/
structure Feeding (s : Agent) : Prop where
  unopened : ∀ i, i ∉ s.opened → s.log.flatMap (ClientFrame.dataFor i) = []
  faithful : s.opened.Nodup → ∀ t, t < s.nextTask → (s.feed t).Faithful

theorem Feeding.step {s s' : Agent} {a : AgentAction} (hw : WellFormed s) (hf : Feeding s)
    (h : s.step a = some s') : Feeding s' := by
  have hc := step_cases h
  refine ⟨hc.data_unopened hw hf.unopened, fun hd t ht => ?_⟩
  have hsub := hc.received_mono.filterMap ServerFrame.opens
  have hd' : s.opened.Nodup := hd.sublist hsub.sublist
  by_cases hold : t < s.nextTask
  · exact (hf.faithful hd' t hold).step (hc.feed hw (hw.sole hd' hold) hold)
  · -- The task has just been spawned, for an id that nothing has been sent for.
    obtain ⟨rfl, -, request, nowMs, rfl, rfl⟩ := hc.spawn_cases ht hold
    have hnone := hf.unopened _ (hc.unopened_of_open hd)
    exact feed_spawn hnone

theorem feeding_of_run {allowed : Agent → AgentAction → Prop} {options : AgentOptions} {s : Agent}
    (h : Run Agent.step allowed (Agent.init options) s) : Feeding s := by
  refine (h.invariant (P := fun s => WellFormed s ∧ Feeding s)
    ⟨.init options, fun _ _ => rfl, fun _ t ht => absurd ht (Nat.not_lt_zero t)⟩ ?_).2
  rintro s a s' ⟨hw, hf⟩ - hs
  exact ⟨hw.step hs, hf.step hw hs⟩

end Agent

end Norupo
