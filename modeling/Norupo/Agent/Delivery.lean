import Norupo.Agent.Bookkeeping
import Norupo.Foundation.Relay

/-!
# Request bodies on the agent

The way of a request body through the agent is a relay like that of a response body through the
edge: the read loop holds a payload while the queue of its task is full, and the local service takes
payloads off the queue. The relay of a task is open while the table has a live sender for it, and
what it is sent are the data frames for its id received since its `Open`.
-/

namespace Norupo

open Async Transition

/-- The body bytes of an item. -/
def BodyItem.bytes : BodyItem → Bytes
  | .data payload => payload
  | .error _ => []

/-- The item that a frame carries for one stream. -/
def ServerFrame.itemFor (i : Nat) : ServerFrame → Option BodyItem
  | .streamData j payload => if j = i then some (.data payload) else none
  | _ => none

/-- The bytes of a log for a stream are those of its items. -/
theorem ServerFrame.dataFor_eq (i : Nat) (frames : List ServerFrame) :
    (frames.filterMap (itemFor i)).flatMap BodyItem.bytes = frames.flatMap (dataFor i) := by
  induction frames with
  | nil => rfl
  | cons frame frames ih =>
    rw [List.flatMap_cons, ← ih]
    cases frame with
    | streamData j payload => by_cases hj : j = i <;> simp [itemFor, dataFor, BodyItem.bytes, hj]
    | _ =>
      rw [List.filterMap_cons_none rfl]
      simp [dataFor]

/-- The item the read loop holds for a task. -/
def AgentLoop.holding (t : Nat) : AgentLoop → Option BodyItem
  | .delivering _ (some u) payload => if u = t then some (.data payload) else none
  | _ => none

namespace Agent

/-- The table has a live body sender for this task. -/
def Live (s : Agent) (t : Nat) : Prop := s.streams (s.task t).streamId = some ⟨t, true⟩

/-- Frames received since the `Open` of a task. -/
def heard (s : Agent) (t : Nat) : List ServerFrame := s.received.drop (s.task t).openedAt

/-- The request body of a task on its way through the agent. -/
def relay (s : Agent) (t : Nat) : Relay BodyItem where
  channel := (s.task t).body
  hand := s.readLoop.holding t
  taken := (s.task t).items
  offered := (s.task t).offered
  isOpen := s.Live t
  sent := (s.heard t).filterMap (ServerFrame.itemFor (s.task t).streamId)

/-- A step of the relay of a task. -/
abbrev RelayStep (s s' : Agent) (t : Nat) : Prop :=
  Relay.Step bodyQueue (s.nextTask ≤ t) (s.relay t) (s'.relay t)

section Relays

variable {s s' : Agent} {a : AgentAction} {t : Nat}

theorem relay_hand {i : Nat} {payload : Bytes}
    (hl : s.readLoop = .delivering i (some t) payload) :
    (s.relay t).hand = some (.data payload) := by
  simp [relay, hl, AgentLoop.holding]

/-- Taking a frame extends what is heard of every task. -/
theorem heard_recv {frame : ServerFrame} (hw : WellFormed s)
    (hr : s'.received = s.received ++ [frame])
    (ho : (s'.task t).openedAt = (s.task t).openedAt) :
    s'.heard t = s.heard t ++ [frame] := by
  simp [heard, hr, ho, List.drop_append_of_le_length (hw.openedAt t)]

/-- A step that leaves the stages of a task alone is a quiet step of its relay. -/
theorem relay_quiet (hb : (s'.task t).body = (s.task t).body)
    (hh : s'.readLoop.holding t = s.readLoop.holding t)
    (hi : (s'.task t).items = (s.task t).items)
    (hn : (s'.task t).offered = (s.task t).offered)
    (hs : (s'.relay t).sent = (s.relay t).sent) (hm : s'.Live t → s.Live t) :
    s.RelayStep s' t :=
  .of_quiet hb hh hi hn hs hm

/-- So is the arrival of a frame that carries nothing for the task. -/
theorem relay_recv {frame : ServerFrame} (hw : WellFormed s)
    (hr : s'.received = s.received ++ [frame])
    (hf : frame.itemFor (s.task t).streamId = none)
    (ht : (s'.task t).streamId = (s.task t).streamId ∧
      (s'.task t).openedAt = (s.task t).openedAt)
    (hb : (s'.task t).body = (s.task t).body)
    (hh : s'.readLoop.holding t = s.readLoop.holding t)
    (hi : (s'.task t).items = (s.task t).items)
    (hn : (s'.task t).offered = (s.task t).offered) (hm : s'.Live t → s.Live t) :
    s.RelayStep s' t :=
  relay_quiet hb hh hi hn (by simp [relay, heard_recv hw hr ht.2, ht.1, hf]) hm

/-- A step that drops the receiver of a task. -/
theorem relay_hangUp (hb : (s'.task t).body = (s.task t).body.dropRx)
    (hh : s'.readLoop.holding t = s.readLoop.holding t)
    (hi : (s'.task t).items = (s.task t).items)
    (hn : (s'.task t).offered = (s.task t).offered)
    (hs : (s'.relay t).sent = (s.relay t).sent) (hm : s'.Live t → s.Live t) :
    s.RelayStep s' t :=
  .of_hangUp hb hh hi hn hs hm

/-- A data frame for a task without a live sender is ignored. -/
theorem relay_ignore {payload : Bytes} (hw : WellFormed s) (hn : ¬ s.Live t)
    (hr : s'.received = s.received ++ [.streamData (s.task t).streamId payload])
    (ht : s'.task t = s.task t) (hh : s'.readLoop.holding t = s.readLoop.holding t)
    (hs : s'.streams = s.streams) : s.RelayStep s' t := by
  refine (Relay.Step.ignore (r := s.relay t) [.data payload] hn).of_eq
    (Relay.ext ?_ hh ?_ ?_ ?_ ?_)
  · simp only [relay, ht]
  · simp only [relay, ht]
  · simp only [relay, ht]
  · simp only [relay, Live, ht, hs]
  · simp only [relay, ht, heard_recv hw hr (by rw [ht]), List.filterMap_append]
    exact congrArg _ (List.filterMap_cons_some (if_pos rfl))

/-- Dropping a stream makes no task live. -/
theorem live_of_dropStream {i : Nat} (h : (s.dropStream i).Live t) : s.Live t := by
  by_cases he : (s.task t).streamId = i
  · simp [Live, he] at h
  · simpa [Live, he] using h

/-- Every step of the agent is a step of every task's relay. -/
theorem Step.relay (hw : WellFormed s) (h : Step s a s') (t : Nat) : s.RelayStep s' t := by
  cases h
  case recvOpen request nowMs hl =>
    by_cases he : t = s.nextTask
    · subst he
      refine (Relay.Step.restart le_rfl).of_eq ?_
      simp [Agent.relay, openStream, Task.spawn, Task.unused, heard, Relay.new, Live, hl,
        AgentLoop.holding]
    · refine relay_recv hw rfl rfl ?_ ?_ rfl ?_ ?_ ?_
      any_goals simp [openStream, he]
      intro hlive
      by_cases hi : (s.task t).streamId = request.streamId
      · simp [Live, he, hi, Ne.symm he] at hlive
      · simpa [Live, openStream, he, hi] using hlive
  case recvData i payload u nowMs hl hs =>
    obtain ⟨-, hid⟩ := hw.entry i _ hs
    by_cases he : t = u
    · subst he
      refine (Relay.Step.accept (r := s.relay t) (.data payload)
        (by simpa [Agent.relay, Live, hid] using hs)
        (by simp [Agent.relay, hl, AgentLoop.holding])).of_eq ?_
      simp [Agent.relay, AgentLoop.holding, heard, Live, ServerFrame.itemFor, hid,
        List.drop_append_of_le_length (hw.openedAt t)]
    · have hhold : AgentLoop.holding t (.delivering i (some u) payload) =
          AgentLoop.holding t s.readLoop := by
        simp [hl, AgentLoop.holding, Ne.symm he]
      by_cases hi : (s.task t).streamId = i
      · subst hi
        exact relay_ignore hw (by simp [Live, hs, Ne.symm he]) rfl (by simp [he]) hhold rfl
      · refine relay_recv hw rfl (by simp [ServerFrame.itemFor, Ne.symm hi]) ?_ ?_ hhold
          ?_ ?_ ?_ <;> simp [he, Live]
  case recvDeadData i payload u nowMs hl hs =>
    by_cases he : (s.task t).streamId = i
    · subst he
      exact relay_ignore hw (by simp [Live, hs]) rfl rfl (by simp [hl, AgentLoop.holding]) rfl
    · exact relay_recv hw rfl (by simp [ServerFrame.itemFor, Ne.symm he]) ⟨rfl, rfl⟩ rfl
        (by simp [hl, AgentLoop.holding]) rfl rfl id
  case recvLateData i payload nowMs hl hs =>
    by_cases he : (s.task t).streamId = i
    · subst he
      exact relay_ignore hw (by simp [Live, hs]) rfl rfl rfl rfl
    · exact relay_recv hw rfl (by simp [ServerFrame.itemFor, Ne.symm he]) ⟨rfl, rfl⟩ rfl rfl rfl
        rfl id
  case recvEnd i headers nowMs hl =>
    refine relay_recv hw rfl rfl ⟨rfl, rfl⟩ rfl rfl rfl rfl fun hlive => ?_
    by_cases he : (s.task t).streamId = i
    · simp [Live, he] at hlive
    · simpa [Live, he] using hlive
  case recvReset i code message nowMs hl =>
    refine relay_recv hw (by simp; rfl) rfl ?_ ?_ ?_ ?_ ?_ live_of_dropStream <;> simp
  case deliver i u payload hl hp =>
    by_cases he : t = u
    · subst he
      refine (Relay.Step.push (relay_hand hl) hp id).of_eq ?_
      simp [Agent.relay, heard, AgentLoop.holding, Live]
    · refine relay_quiet ?_ ?_ ?_ ?_ ?_ ?_ <;>
        simp [Agent.relay, heard, Live, he, Ne.symm he, hl, AgentLoop.holding]
  case deliverGone i u payload hl hp =>
    obtain ⟨-, hid, -⟩ := hw.live i u payload hl
    by_cases he : t = u
    · subst he
      refine (Relay.Step.lose (relay_hand hl) hp).of_eq ?_
      simp [Agent.relay, heard, AgentLoop.holding, Live, hid]
    · refine relay_quiet ?_ ?_ ?_ ?_ ?_ (live_of_dropStream (i := i)) <;>
        simp [Agent.relay, heard, Ne.symm he, hl, AgentLoop.holding]
  case deliverDead i payload hl =>
    refine relay_quiet ?_ ?_ ?_ ?_ ?_ (live_of_dropStream (i := i)) <;>
      simp [Agent.relay, heard, hl, AgentLoop.holding]
  case startFailed u request error hu hh =>
    by_cases he : t = u
    · subst he
      refine relay_hangUp ?_ rfl ?_ ?_ ?_ ?_ <;> simp [Agent.relay, heard, Live]
    · refine relay_quiet ?_ rfl ?_ ?_ ?_ ?_ <;> simp [Agent.relay, heard, Live, he]
  case drop u hu =>
    by_cases he : t = u
    · subst he
      cases hh : (s.task t).handed with
      | true =>
        refine relay_quiet ?_ ?_ ?_ ?_ ?_ ?_ <;>
          simp [Agent.relay, heard, Task.finish, hh, Live]
      | false =>
        refine relay_hangUp ?_ ?_ ?_ ?_ ?_ ?_ <;>
          simp [Agent.relay, heard, Task.finish, hh, Live]
    · have hlive : ((s.dropStream (s.task u).streamId).setTask u
          ((s.dropStream (s.task u).streamId).task u).finish).Live t → s.Live t := by
        intro h
        exact live_of_dropStream (i := (s.task u).streamId) (by simpa [Live, he] using h)
      refine relay_quiet ?_ ?_ ?_ ?_ ?_ hlive <;> simp [Agent.relay, heard, he]
  case takeBody u item rest hh hx hq =>
    by_cases he : t = u
    · subst he
      refine (Relay.Step.take (r := s.relay t) hq).of_eq ?_
      simp [Agent.relay, heard, Live]
    · refine relay_quiet ?_ rfl ?_ ?_ ?_ ?_ <;> simp [Agent.relay, heard, Live, he]
  case dropBody u hh hx =>
    by_cases he : t = u
    · subst he
      refine relay_hangUp ?_ rfl ?_ ?_ ?_ ?_ <;> simp [Agent.relay, heard, Live]
    · refine relay_quiet ?_ rfl ?_ ?_ ?_ ?_ <;> simp [Agent.relay, heard, Live, he]
  case recvWelcome | recvStatus | recvCredit | recvCreditLate | recvPanic | recvPing |
      recvShutdown | recvHead =>
    refine relay_recv hw rfl rfl ?_ ?_ ?_ ?_ ?_ ?_ <;>
      simp_all [AgentLoop.holding, Function.update_apply, Live] <;> split_ifs <;> simp_all
  all_goals
    refine relay_quiet ?_ ?_ ?_ ?_ ?_ ?_ <;>
      simp only [Live, Agent.relay, heard, setTask, setServe, push, Function.update_apply] <;>
      first
        | rfl
        | exact id
        | (split_ifs <;> simp_all)
        | simp_all [AgentLoop.holding]

end Relays

/-- Request bodies pass the agent in order, without gaps, and every item is accounted for. -/
theorem relay_of_run {allowed : Agent → AgentAction → Prop} {options : AgentOptions} {s : Agent}
    (h : Run Agent.step allowed (Agent.init options) s) (t : Nat) :
    (s.relay t).Faithful ∧ (s.relay t).Counted bodyQueue := by
  refine (h.invariant (P := fun s => WellFormed s ∧ (s.relay t).Faithful ∧
    (s.relay t).Counted bodyQueue) ⟨.init options, ?_, ?_⟩ ?_).2
  · exact ⟨fun _ => rfl, List.prefix_rfl⟩
  · exact ⟨rfl, Nat.zero_le _, fun _ => rfl⟩
  · rintro s a s' ⟨hw, hf, hc⟩ - hs
    have hr := (step_cases hs).relay hw t
    exact ⟨hw.step hs, hf.step hr, hc.step hr⟩

/-- Body bytes the local service has been given for a task. -/
def taken (s : Agent) (t : Nat) : Bytes := (s.task t).items.flatMap BodyItem.bytes

/-- Body bytes in the queue of a task. -/
def held (s : Agent) (t : Nat) : Bytes := (s.task t).body.queue.flatMap BodyItem.bytes

/-- Body bytes the edge has sent for a task since its `Open`. -/
def carried (s : Agent) (t : Nat) : Bytes :=
  (s.heard t).flatMap (ServerFrame.dataFor (s.task t).streamId)

/-- What is taken and held of a request body is a prefix of what the edge sent. -/
theorem taken_append_held_isPrefix {s : Agent} {t : Nat} (h : (s.relay t).Faithful) :
    s.taken t ++ s.held t <+: s.carried t := by
  have hp := h.flatMap_isPrefix BodyItem.bytes
  simp only [relay, ServerFrame.dataFor_eq] at hp
  exact hp

/-- The read loop waits for a slot in the queue of this task. -/
def WaitsFor (s : Agent) (t : Nat) : Prop :=
  ∃ i payload, s.readLoop = .delivering i (some t) payload ∧ (s.task t).body.poll = .pending

theorem waitsFor_iff_stuck {s : Agent} {t : Nat} : s.WaitsFor t ↔ (s.relay t).Stuck := by
  cases hl : s.readLoop with
  | delivering i target payload =>
    cases target with
    | none => simp [WaitsFor, Relay.Stuck, relay, AgentLoop.holding, hl]
    | some u =>
      by_cases hu : u = t <;> simp [WaitsFor, Relay.Stuck, relay, AgentLoop.holding, hl, hu]
  | _ => simp [WaitsFor, Relay.Stuck, relay, AgentLoop.holding, hl]

/-- A data frame for a stream without a live sender gives no task a byte: it is dropped at once, or
after the send on the dead sender has failed. -/
theorem recv_data_unknown {s s' : Agent} {i nowMs : Nat} {payload : Bytes}
    (hs : ∀ t, s.streams i ≠ some ⟨t, true⟩)
    (h : s.step (.recv (.streamData i payload) nowMs) = some s') :
    s'.task = s.task ∧ s'.readLoop.sender = none := by
  cases step_cases h with
  | recvData _ hi => exact absurd hi (hs _)
  | recvDeadData _ _ => exact ⟨rfl, rfl⟩
  | recvLateData hl _ => exact ⟨rfl, by rw [hl]; rfl⟩

end Agent

end Norupo
