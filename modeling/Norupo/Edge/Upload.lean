import Norupo.Edge.Bookkeeping
import Norupo.Foundation.Feed

/-!
# What the edge sends

The frames that have left the edge or are queued to leave form one log, to which every task of the
session appends. The request pump of a stream feeds the public body of that stream into it; ids are
opened once, and no data is sent for an id before it is opened.
-/

namespace Norupo

open Async Transition

/-- Splitting a payload into frames loses nothing. -/
theorem splitLoop_flatten (payload : Bytes) : (splitLoop payload).flatten = payload := by
  fun_induction splitLoop payload with
  | case1 payload _ ih => rw [List.flatten_cons, ih, List.take_append_drop]
  | case2 payload _ => simp

theorem splitChunks_flatten (payload : Bytes) : (splitChunks payload).flatten = payload := by
  unfold splitChunks
  split
  · simp
  · exact splitLoop_flatten payload

/-- What a pump has read of the public body and not yet queued. -/
def Pump.rest : Pump → Bytes
  | .sending chunks => chunks.flatten
  | .acquired chunk rest => chunk ++ rest.flatten
  | _ => []

@[simp] theorem Pump.rest_next (chunks : List Bytes) :
    (Pump.next chunks).rest = chunks.flatten := by
  cases chunks <;> rfl

@[simp] theorem Pump.next_ne_done (chunks : List Bytes) : Pump.next chunks ≠ .done := by
  cases chunks <;> simp [Pump.next]

@[simp] theorem Pump.next_ne_absent (chunks : List Bytes) : Pump.next chunks ≠ .absent := by
  cases chunks <;> simp [Pump.next]

namespace Edge

/-- Frames that have left the edge or are queued to leave, oldest first. -/
def log (s : Edge) : List ServerFrame := s.transmitted ++ s.session.outbound.queue

/-- Where the frames that matter to a stream come from. -/
def Emits (s : Edge) (a : EdgeAction) : ServerFrame → Prop
  | .streamOpen request => a = .queueOpen request.streamId ∧
      (s.request request.streamId).ingress = .opening request
  | .streamData i chunk => a = .pumpQueue i ∧ ∃ rest, (s.request i).pump = .acquired chunk rest
  | .windowUpdate i increment => a = .reply ∧ s.readLoop = .replying (.windowUpdate i increment)
  | _ => True

section Log

variable {s s' : Edge} {a : EdgeAction}

/-- A step queues at most one frame, and takes none back. -/
theorem Step.log_cases (hw : WellFormed s) (h : Step s a s') :
    s'.log = s.log ∨ ∃ frame, s'.log = s.log ++ [frame] ∧ s.Emits a frame := by
  cases h
  case queueOpen i request hi hp =>
    obtain ⟨rfl, -⟩ := hw.opening i request hi
    exact .inr ⟨.streamOpen request, by simp [log], rfl, hi⟩
  case pumpQueue i chunk rest hi hp =>
    exact .inr ⟨.streamData i chunk, by simp [log], rfl, rest, hi⟩
  case reply frame hl hp =>
    have hr := hw.replying frame hl
    refine .inr ⟨frame, by simp [log], ?_⟩
    cases frame <;> simp_all [ServerFrame.isReply, Emits]
  case control frame hf hp =>
    refine .inr ⟨frame, by simp [log], ?_⟩
    cases frame <;> simp_all [ServerFrame.isControl, Emits]
  case transmit frame rest hx hq => exact .inl (by simp [log, hq])
  case queueTimeoutReset i _ _ =>
    exact .inr ⟨.streamReset i .timeout "edge response timeout".toList, by simp [log], trivial⟩
  case pumpQueueEnd i _ _ => exact .inr ⟨.streamEnd i [], by simp [log], trivial⟩
  case pumpQueueReset i _ _ =>
    exact .inr ⟨.streamReset i .peerClosed "client body error".toList, by simp [log], trivial⟩
  case dropBody i _ _ _ =>
    exact .inr ⟨.streamReset i .peerClosed "public client finished".toList, by simp [log], trivial⟩
  all_goals first
    | exact .inl rfl
    | exact .inl (by simp [log])

/-- Data of a stream is queued by its pump only. -/
theorem Step.data_eq (hw : WellFormed s) (h : Step s a s') {i : Nat}
    (hn : ∀ chunk, ¬ s.Emits a (.streamData i chunk)) :
    s'.log.flatMap (ServerFrame.dataFor i) = s.log.flatMap (ServerFrame.dataFor i) := by
  rcases h.log_cases hw with hs | ⟨frame, hs, he⟩
  · rw [hs]
  · rw [hs, List.flatMap_append]
    have hd : frame.dataFor i = [] := by
      refine ServerFrame.dataFor_eq_nil ?_
      rintro payload rfl
      exact hn payload he
    simp [hd]

/-- The public body of a stream on its way into the log. -/
def feed (s : Edge) (i : Nat) : Feed UInt8 where
  emitted := s.log.flatMap (ServerFrame.dataFor i)
  pending := (s.request i).pump.rest
  supplied := (s.request i).supplied
  isOpen := (s.request i).pump ≠ .done

section Feeds

variable {i : Nat} (hl : s'.log.flatMap (ServerFrame.dataFor i) =
  s.log.flatMap (ServerFrame.dataFor i)) (hs : (s'.request i).supplied = (s.request i).supplied)

include hl hs

/-- A step that queues no data of the stream and leaves its pump with what it has. -/
theorem feed_quiet (hp : (s'.request i).pump.rest = (s.request i).pump.rest ∧
      ((s'.request i).pump = .done ↔ (s.request i).pump = .done)) :
    Feed.Step (s.feed i) (s'.feed i) :=
  Feed.Step.quiet.of_eq (by simp only [feed, hl, hs, hp.1, hp.2, ne_eq])

/-- A step that ends the pump. -/
theorem feed_stop (hp : (s'.request i).pump = .done) : Feed.Step (s.feed i) (s'.feed i) :=
  (Feed.Step.stop []).of_eq (by simp [feed, hl, hs, hp, Pump.rest])

end Feeds

/-- Every step of the edge is a step of every stream's feed. -/
theorem Step.feed (hw : WellFormed s) (h : Step s a s') (i : Nat) :
    Feed.Step (s.feed i) (s'.feed i) := by
  have hlog := h.data_eq hw (i := i)
  cases h
  case pumpQueue j chunk rest hj hp =>
    by_cases he : i = j
    · subst he
      refine (Feed.Step.emit (f := s.feed i) chunk rest.flatten ?_ ?_).of_eq ?_
      · simp [Edge.feed, hj]
      · simp [Edge.feed, hj, Pump.rest]
      · simp [Edge.feed, hj, log, ServerFrame.dataFor]
    · exact feed_quiet (hlog (by simp [Emits, Ne.symm he])) (by simp [he]) (by simp [he])
  case pumpData j payload hj hn hm =>
    by_cases he : i = j
    · subst he
      refine (Feed.Step.supply (f := s.feed i) payload ?_ ?_).of_eq ?_
      · simp [Edge.feed, hj]
      · simp [Edge.feed, hj, Pump.rest]
      · simp [Edge.feed, hj, log, Pump.rest, splitChunks_flatten]
    · exact feed_quiet rfl (by simp [he]) (by simp [he])
  case pumpDataGone j payload hj hn hm =>
    by_cases he : i = j
    · subst he
      exact (Feed.Step.stop (f := s.feed i) payload).of_eq (by simp [Edge.feed, log, Pump.rest])
    · exact feed_quiet rfl (by simp [he]) (by simp [he])
  case pumpAcquire j chunk rest hj hp =>
    by_cases he : i = j
    · subst he
      exact feed_quiet rfl (by simp) (by simp [hj, Pump.rest])
    · exact feed_quiet rfl (by simp [he]) (by simp [he])
  case insert =>
    by_cases he : i = s.session.nextStreamId
    · subst he
      have hnew := (hw.fresh _ le_rfl).2
      exact feed_quiet rfl (by simp [hnew, Request.new]) (by simp [hnew, Request.new])
    · exact feed_quiet rfl (by simp [he]) (by simp [he])
  case queueOpen j request hj hp =>
    have habs := (hw.opening j request hj).2
    by_cases he : i = j
    · subst he
      exact feed_quiet (hlog (by simp [Emits])) (by simp) (by simp [habs, Pump.rest])
    · exact feed_quiet (hlog (by simp [Emits])) (by simp [he]) (by simp [he])
  case pumpEof j hj | pumpFail j hj =>
    by_cases he : i = j
    · subst he
      exact feed_quiet (hlog (by simp [Emits])) (by simp) (by simp [hj, Pump.rest])
    · exact feed_quiet (hlog (by simp [Emits])) (by simp [he]) (by simp [he])
  case pumpAcquireClosed j _ _ _ _ | pumpQueueGone j _ _ _ _ | pumpQueueEnd j _ _ |
      pumpQueueEndGone j _ _ | pumpQueueReset j _ _ | pumpQueueResetGone j _ _ =>
    by_cases he : i = j
    · subst he
      refine feed_stop ?_ (by simp) (by simp)
      simp [log, ServerFrame.dataFor]
    · refine feed_quiet ?_ (by simp [he]) (by simp [he])
      simp [log, ServerFrame.dataFor]
  all_goals
    refine feed_quiet (hlog (by simp [Emits])) ?_ ?_ <;>
      simp only [closeStream, push, setRequest, setIngress, dropRx, settle,
        Function.update_apply] <;>
      first | (split_ifs <;> simp_all) | simp

/-- A step opens no stream, or one whose pump does not exist yet and is started by it. -/
theorem Step.opens_cases (hw : WellFormed s) (h : Step s a s') :
    (s'.log.filterMap ServerFrame.opens = s.log.filterMap ServerFrame.opens ∧
      ∀ i, (s'.request i).pump = .absent ↔ (s.request i).pump = .absent) ∨
    (∃ j, (s.request j).pump = .absent ∧
      s'.log.filterMap ServerFrame.opens = s.log.filterMap ServerFrame.opens ++ [j] ∧
      ∀ i, (s'.request i).pump = .absent ↔ (s.request i).pump = .absent ∧ i ≠ j) := by
  have hlog : (∀ request, ¬ s.Emits a (.streamOpen request)) →
      s'.log.filterMap ServerFrame.opens = s.log.filterMap ServerFrame.opens := by
    intro hn
    rcases h.log_cases hw with hs | ⟨frame, hs, he⟩
    · rw [hs]
    · rw [hs, List.filterMap_append]
      cases frame with
      | streamOpen request => exact absurd he (hn request)
      | _ => exact List.append_nil _
  cases h
  case queueOpen j request hj hp =>
    obtain ⟨hid, habs⟩ := hw.opening j request hj
    refine .inr ⟨j, habs, ?_, fun i => ?_⟩
    · simp [log, ServerFrame.opens, hid]
    · by_cases hi : i = j <;> simp [hi]
  case insert =>
    refine .inl ⟨rfl, fun i => ?_⟩
    by_cases hi : i = s.session.nextStreamId
    · subst hi
      simp [(hw.fresh _ le_rfl).2, Request.new]
    · simp [hi]
  case queueOpenGone j request hj hp =>
    refine .inl ⟨by simp [log], fun i => ?_⟩
    by_cases hi : i = j <;> simp [hi]
  all_goals
    refine .inl ⟨hlog (by simp [Emits]), fun i => ?_⟩
    first
      | rfl
      | (simp only [closeStream, push, setRequest, setIngress, setPump, dropRx, settle,
          Function.update_apply]
         split_ifs <;> simp_all)

end Log

/-- The log opens every id once, and carries no data for an id before it is opened. -/
structure Ordered (s : Edge) : Prop where
  nodup : (s.log.filterMap ServerFrame.opens).Nodup
  opened : ∀ i, i ∈ s.log.filterMap ServerFrame.opens ↔ (s.request i).pump ≠ .absent
  order : ∀ i frames, frames <+: s.log → i ∉ frames.filterMap ServerFrame.opens →
    frames.flatMap (ServerFrame.dataFor i) = []

theorem Ordered.init (limit window : Nat) : Ordered (Edge.init limit window) where
  nodup := List.nodup_nil
  opened i := by simp [log, Edge.init, Session.new, Request.new]
  order i frames hp _ := by
    obtain rfl : frames = [] := List.prefix_nil.mp hp
    rfl

section Order

variable {s s' : Edge} {a : EdgeAction}

theorem Ordered.order_step (hw : WellFormed s) (ho : Ordered s) (h : Step s a s') (i : Nat)
    (frames : List ServerFrame) (hp : frames <+: s'.log)
    (hi : i ∉ frames.filterMap ServerFrame.opens) :
    frames.flatMap (ServerFrame.dataFor i) = [] := by
  rcases h.log_cases hw with hs | ⟨frame, hs, he⟩
  · exact ho.order i frames (hs ▸ hp) hi
  · rw [hs, List.prefix_concat_iff] at hp
    rcases hp with rfl | hp
    · rw [List.filterMap_append, List.mem_append, not_or] at hi
      rw [List.flatMap_append, ho.order i s.log List.prefix_rfl hi.1, List.nil_append]
      -- A data frame is queued by a pump, and a pump runs only once its stream is in the log.
      cases frame with
      | streamData j chunk =>
        obtain ⟨-, rest, hj⟩ := he
        have hne : j ≠ i := by
          rintro rfl
          exact hi.1 ((ho.opened j).mpr (by simp [hj]))
        simp [ServerFrame.dataFor, hne]
      | _ => rfl
    · exact ho.order i frames hp hi

theorem Ordered.step (hw : WellFormed s) (ho : Ordered s) (h : s.step a = some s') :
    Ordered s' := by
  refine ⟨?_, fun i => ?_, ho.order_step hw (step_cases h)⟩
  · rcases (step_cases h).opens_cases hw with ⟨hs, -⟩ | ⟨j, habs, hs, -⟩
    · exact hs ▸ ho.nodup
    · rw [hs, List.nodup_append]
      refine ⟨ho.nodup, List.nodup_singleton j, fun k hk l hl => ?_⟩
      obtain rfl := List.mem_singleton.mp hl
      rintro rfl
      exact (ho.opened k).mp hk habs
  · rcases (step_cases h).opens_cases hw with ⟨hs, hp⟩ | ⟨j, -, hs, hp⟩
    · rw [hs, ho.opened i, ne_eq, ne_eq, hp i]
    · rw [hs, List.mem_append, ho.opened i, List.mem_singleton, ne_eq, ne_eq, hp i]
      tauto

end Order

/-- In every reachable state the pumps feed the log faithfully, and its streams are opened first. -/
theorem upload_of_run {allowed : Edge → EdgeAction → Prop} {limit window : Nat} {s : Edge}
    (h : Run Edge.step allowed (Edge.init limit window) s) :
    Ordered s ∧ ∀ i, (s.feed i).Faithful := by
  refine (h.invariant (P := fun s => WellFormed s ∧ Ordered s ∧ ∀ i, (s.feed i).Faithful)
    ⟨.init limit window, .init limit window, fun i => ⟨fun _ => rfl, List.prefix_rfl⟩⟩ ?_).2
  rintro s a s' ⟨hw, ho, hf⟩ - hs
  exact ⟨hw.step hs, ho.step hw hs, fun i => (hf i).step ((step_cases hs).feed hw i)⟩

/-- An id that the log opens has been allocated. -/
theorem Ordered.allocated {s : Edge} (hw : WellFormed s) (ho : Ordered s) {i : Nat}
    (hi : i ∈ s.log.filterMap ServerFrame.opens) : i < s.session.nextStreamId := by
  exact hw.allocated_of_pump ((ho.opened i).mp hi)

end Edge

end Norupo
