import Norupo.Edge.Overflow
import Norupo.Foundation.Sender

/-!
# The pump as a sender

For each chunk in turn, `send_stream_data` takes as many permits as the chunk has bytes and then
queues it. The pump of a stream is a sender of the chunks of what the public body hands to it,
whatever the other pumps, the read loop and the agent do in the meantime.
-/

namespace Norupo

open Async Transition

/-- The chunks that a pump has not taken credit for yet. -/
def Pump.unpaid : Pump → List Bytes
  | .sending chunks => chunks
  | .acquired _ rest => rest
  | _ => []

/-- The chunk that a pump has taken credit for and not queued yet. -/
def Pump.held : Pump → List Bytes
  | .acquired chunk _ => [chunk]
  | _ => []

@[simp] theorem Pump.unpaid_next (chunks : List Bytes) : (Pump.next chunks).unpaid = chunks := by
  cases chunks <;> rfl

@[simp] theorem Pump.held_next (chunks : List Bytes) : (Pump.next chunks).held = [] := by
  cases chunks <;> rfl

namespace Edge

/-- The payloads that the public body of a stream hands to `send_stream_data`. -/
def supplies (i : Nat) (_ : Edge) : EdgeAction → List Bytes
  | .pumpData j payload => if j = i ∧ payload ≠ [] then [payload] else []
  | _ => []

/-- The chunks of a stream that a move queues. -/
def queues (i : Nat) (s : Edge) : EdgeAction → List Bytes
  | .pumpQueue j => if j = i ∧ s.session.outbound.poll = .ready then (s.request i).pump.held else []
  | _ => []

/-- The pump as a sender, with what it was supplied with, has queued and has used so far. -/
def sender (s : Edge) (i : Nat) (supplied queued : List Bytes) (used : Nat) : Sender Bytes where
  supplied := supplied.flatMap splitChunks
  unpaid := (s.request i).pump.unpaid
  held := (s.request i).pump.held
  emitted := queued
  paid := used
  isOpen := (s.request i).pump ≠ .done

section Sending

variable {s s' : Edge} {a : EdgeAction}

/-- Only the pump itself takes up, pays for and queues what it sends. -/
theorem supplies_eq_nil {i : Nat} (h : ∀ payload, a ≠ .pumpData i payload) :
    supplies i s a = [] := by
  unfold supplies
  split
  · rename_i j payload
    exact if_neg fun he => h payload (by rw [he.1])
  · rfl

theorem queues_eq_nil {i : Nat} (h : a ≠ .pumpQueue i) : queues i s a = [] := by
  unfold queues
  split
  · exact if_neg fun he => h (by rw [he.1])
  · rfl

/-- A step that is none of these leaves a pump with what it has to send. -/
theorem Step.unpaid_held_eq (hw : WellFormed s) (h : Step s a s') {i : Nat}
    (hnew : ∀ payload, a ≠ .pumpData i payload) (hqueue : a ≠ .pumpQueue i)
    (hspend : a ≠ .pumpAcquire i) :
    (s'.request i).pump.unpaid = (s.request i).pump.unpaid ∧
      (s'.request i).pump.held = (s.request i).pump.held := by
  cases h
  case pumpData j payload hj hn hm | pumpDataGone j payload hj hn hm =>
    have he : i ≠ j := fun he => hnew payload (by rw [he])
    simp [he]
  case pumpQueue j chunk rest hj hp | pumpQueueGone j chunk rest hj hp =>
    have he : i ≠ j := fun he => hqueue (by rw [he])
    simp [he]
  case pumpAcquire j chunk rest hj hp | pumpAcquireClosed j chunk rest hj hp =>
    have he : i ≠ j := fun he => hspend (by rw [he])
    simp [he]
  case insert =>
    by_cases he : i = s.session.nextStreamId
    · subst he
      simp [(hw.fresh _ le_rfl).2, Request.new]
    · simp [he]
  case queueOpen j request hj hp =>
    have habs := (hw.opening j request hj).2
    by_cases he : i = j
    · subst he
      simp [habs, Pump.unpaid, Pump.held]
    · simp [he]
  all_goals first
    | exact ⟨rfl, rfl⟩
    | (simp only [closeStream, push, setRequest, setIngress, setPump, dropRx, settle,
        Function.update_apply]
       first | done | (split_ifs <;> simp_all [Pump.unpaid, Pump.held]))

/-- No step starts a pump again. -/
theorem Step.pump_ne_done (hw : WellFormed s) (h : Step s a s') {i : Nat}
    (hs : (s'.request i).pump ≠ .done) : (s.request i).pump ≠ .done := by
  intro hdone
  exact hs (h.pump_done hw (hw.allocated_of_pump (by simp [hdone])) hdone)

section Steps

variable {i : Nat} {supplied queued : List Bytes} {used : Nat}

/-- A step that ends the pump. -/
theorem sender_stop (hs : (s'.request i).pump = .done) (hqueue : queues i s a = [])
    (hspend : spend i s a = 0) :
    Sender.Step permits (s.sender i supplied queued used) (s'.sender i (supplied ++ supplies i s a)
      (queued ++ queues i s a) (used + spend i s a)) := by
  refine (Sender.Step.stop ((supplies i s a).flatMap splitChunks)).of_eq ?_
  simp [sender, hqueue, hspend, hs, Pump.unpaid, Pump.held]

/-- A step that is none of those that take up, pay for and queue. -/
theorem Step.sender_other (hw : WellFormed s) (h : Step s a s')
    (hnew : ∀ payload, a ≠ .pumpData i payload) (hqueue : a ≠ .pumpQueue i)
    (hspend : a ≠ .pumpAcquire i) :
    Sender.Step permits (s.sender i supplied queued used) (s'.sender i (supplied ++ supplies i s a)
      (queued ++ queues i s a) (used + spend i s a)) := by
  have hzero : spend i s a = 0 := spend_eq_zero fun _ _ he _ => absurd he hspend
  by_cases hs : (s'.request i).pump = .done
  · exact sender_stop hs (queues_eq_nil hqueue) hzero
  · obtain ⟨hunpaid, hheld⟩ := h.unpaid_held_eq hw hnew hqueue hspend
    refine Sender.Step.quiet.of_eq ?_
    simp only [sender, supplies_eq_nil hnew, queues_eq_nil hqueue, hzero, hunpaid, hheld, ne_eq, hs,
      h.pump_ne_done hw hs, List.append_nil, Nat.add_zero]

/-- Every step of the edge is a step of every pump as a sender. -/
theorem Step.sender (hw : WellFormed s) (h : Step s a s') :
    Sender.Step permits (s.sender i supplied queued used) (s'.sender i (supplied ++ supplies i s a)
      (queued ++ queues i s a) (used + spend i s a)) := by
  by_cases hnew : ∃ payload, a = .pumpData i payload
  · obtain ⟨payload, rfl⟩ := hnew
    cases h with
    | pumpEmpty hpump =>
      refine Sender.Step.quiet.of_eq ?_
      simp [Edge.sender, supplies, queues, spend]
    | pumpData hpump hne hm =>
      refine (Sender.Step.supply (splitChunks payload) ?_ ?_ ?_).of_eq ?_
      · simp [Edge.sender, hpump]
      · simp [Edge.sender, hpump, Pump.unpaid]
      · simp [Edge.sender, hpump, Pump.held]
      · simp [Edge.sender, supplies, queues, spend, hpump, hne, Pump.unpaid, Pump.held]
    | pumpDataGone hpump hne hm => exact sender_stop (by simp) rfl rfl
  by_cases hspend : a = .pumpAcquire i
  · subst hspend
    cases h with
    | pumpAcquire hpump hp =>
      rename_i chunk rest
      have hopen := (Semaphore.poll_eq_ready.mp hp).1
      refine (Sender.Step.pay chunk rest ?_ ?_ ?_).of_eq ?_
      · simp [Edge.sender, hpump]
      · simp [Edge.sender, hpump, Pump.unpaid]
      · simp [Edge.sender, hpump, Pump.held]
      · simp [Edge.sender, supplies, queues, spend, permits, hpump, hopen, Pump.unpaid, Pump.held]
    | pumpAcquireClosed hpump hp =>
      refine sender_stop (by simp) rfl (spend_eq_zero fun _ _ _ _ => ?_)
      exact Semaphore.poll_eq_closed.mp hp
  by_cases hqueue : a = .pumpQueue i
  · subst hqueue
    cases h with
    | pumpQueue hpump hp =>
      rename_i chunk rest
      have hunpaid : (s.request i).pump.unpaid = rest := by rw [hpump]; rfl
      have hheld : (s.request i).pump.held = [chunk] := by rw [hpump]; rfl
      have hopen : (s.request i).pump ≠ .done := by simp [hpump]
      refine (Sender.Step.emit chunk hopen hheld).of_eq ?_
      simp [Edge.sender, supplies, queues, spend, hp, hunpaid, hheld, hopen]
    | pumpQueueGone hpump hp => exact sender_stop (by simp) (by simp [queues, hp]) rfl
  · exact h.sender_other hw (not_exists.mp hnew) hqueue hspend

end Steps

end Sending

/-- Along every execution, every pump is an exact sender of the chunks of what it was supplied
with. -/
theorem exact_of_exec {limit window : Nat} {as : List EdgeAction} {s : Edge}
    (h : exec Edge.step (Edge.init limit window) as = some s) (i : Nat) :
    (s.sender i (trace Edge.step (supplies i) (Edge.init limit window) as)
      (trace Edge.step (queues i) (Edge.init limit window) as)
      (tally Edge.step (spend i) (Edge.init limit window) as)).Exact permits := by
  induction as using List.reverseRecOn generalizing s with
  | nil =>
    obtain rfl : Edge.init limit window = s := by simpa using h
    exact .new
  | append_singleton as a ih =>
    obtain ⟨mid, hmid, hstep⟩ := exec_concat_eq_some.mp h
    have hreach : Reachable Edge.step (Edge.init limit window) mid := .of_exec .nil hmid
    rw [trace_concat hmid hstep, trace_concat hmid hstep, tally_concat hmid hstep]
    exact (ih hmid).step ((step_cases hstep).sender (.of_run hreach))

/-- Between two reads of the public body, the pump queues the chunks of what it was handed, and
takes the permits for them. -/
theorem sends_of_exec {limit window : Nat} {as bs : List EdgeAction} {s s' : Edge} {i : Nat}
    {payloads : List Bytes} (has : exec Edge.step (Edge.init limit window) as = some s)
    (hs : (s.request i).pump = .reading) (hbs : exec Edge.step s bs = some s')
    (hs' : (s'.request i).pump = .reading)
    (hsupply : trace Edge.step (supplies i) s bs = payloads) :
    trace Edge.step (queues i) s bs = payloads.flatMap splitChunks ∧
      tally Edge.step (spend i) s bs = ((payloads.flatMap splitChunks).map permits).sum := by
  have hexec := exec_append_eq_some.mpr ⟨s, has, hbs⟩
  have hafter := exact_of_exec hexec i
  rw [trace_append has, trace_append has, tally_append has, hsupply] at hafter
  simp only [sender, hs', Pump.unpaid, Pump.held, List.flatMap_append] at hafter
  refine (exact_of_exec has i).between ?_ ?_ ?_ hafter Pump.noConfusion
  all_goals simp [sender, hs, Pump.unpaid, Pump.held]

/-- With enough credit and enough room, the pump comes to the end of its chunks. -/
theorem exec_passes {s : Edge} {i : Nat} {chunks : List Bytes}
    (hpump : (s.request i).pump = Pump.next chunks)
    (hopen : (s.session.stream i).sendCredit.isClosed = false)
    (hcredit : (chunks.map permits).sum ≤ (s.session.stream i).sendCredit.permits)
    (hrx : s.session.outbound.rxOpen = true)
    (hroom : s.session.outbound.queue.length + chunks.length ≤ s.session.outbound.capacity) :
    ∃ s', exec Edge.step s (Sender.passes (.pumpAcquire i) (.pumpQueue i) chunks.length) = some s' ∧
      (s'.request i).pump = .reading := by
  induction chunks generalizing s with
  | nil => exact ⟨s, rfl, hpump⟩
  | cons chunk rest ih =>
    rw [List.map_cons, List.sum_cons] at hcredit
    rw [List.length_cons] at hroom
    have hready : (s.session.stream i).sendCredit.poll (toU32 chunk.length) = .ready :=
      Semaphore.poll_eq_ready.mpr ⟨hopen, (Nat.le_add_right _ _).trans hcredit⟩
    have hp : s.session.outbound.poll = .ready := Channel.poll_eq_ready.mpr ⟨hrx, by omega⟩
    obtain ⟨s', hexec, hs'⟩ := @ih ((({ s with
      session := s.session.takeCredit i (toU32 chunk.length) }.setPump i
        (.acquired chunk rest)).push (.streamData i chunk)).setPump i (Pump.next rest)) (by simp)
      (by simpa [Semaphore.take] using hopen)
      (by simp [Semaphore.take, permits] at hcredit ⊢; omega) (by simpa using hrx)
      (by simp; omega)
    refine ⟨s', ?_, hs'⟩
    simpa [Sender.passes, Edge.step, hpump, Pump.next, hready, hp] using hexec

end Edge

end Norupo
