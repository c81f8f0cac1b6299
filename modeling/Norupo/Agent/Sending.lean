import Norupo.Agent.Credit
import Norupo.Foundation.Sender

/-!
# The task as a sender

For each chunk in turn, the loop of `send_payload` takes as many permits as the chunk has bytes and
then queues it. A task that serves a stream is a sender of the chunks of what the local response
body hands to that loop, whatever the other tasks, the read loop and the edge do in the meantime.
-/

namespace Norupo

open Async Transition

/-- The loop of `send_payload`: what it takes off the payload until nothing is left. -/
def sendPayload (payload : Bytes) : List Bytes :=
  if payload.isEmpty then []
  else
    payload.take (min payload.length maxChunk) ::
      sendPayload (payload.drop (min payload.length maxChunk))
termination_by payload.length
decreasing_by
  rename_i hne
  rw [List.isEmpty_iff, ← ne_eq, ← List.length_pos_iff] at hne
  simp only [maxChunk, List.length_drop]
  omega

@[simp] theorem sendPayload_nil : sendPayload [] = [] := by
  rw [sendPayload]
  rfl

/-- One pass of the loop. -/
theorem sendPayload_of_ne_nil {payload : Bytes} (hne : payload ≠ []) :
    sendPayload payload = payload.take maxChunk :: sendPayload (payload.drop maxChunk) := by
  have hempty : payload.isEmpty = false := List.isEmpty_eq_false_iff.mpr hne
  rw [sendPayload, hempty, if_neg Bool.false_ne_true, Nat.min_comm, ← List.take_eq_take_min,
    ← List.drop_eq_drop_min]

theorem sendPayload_eq_nil_iff {payload : Bytes} : sendPayload payload = [] ↔ payload = [] := by
  constructor
  · intro h
    by_contra hne
    rw [sendPayload_of_ne_nil hne] at h
    cases h
  · rintro rfl
    exact sendPayload_nil

/-- The chunk that a task has taken credit for and not queued yet. -/
def Serve.held : Serve → List Bytes
  | .acquired chunk _ => [chunk]
  | _ => []

@[simp] theorem Serve.held_next (payload : Bytes) : (Serve.next payload).held = [] := by
  cases payload <;> rfl

/-- A task that sends no more has nothing left to send. -/
theorem Serve.nothing_of_not_sends {serve : Serve} (h : ¬ serve.sends = true) :
    serve.unpaid = [] ∧ serve.held = [] := by
  cases serve <;> simp_all [Serve.sends, Serve.unpaid, Serve.held]

/-- The loop of `send_payload` is entered with something to send. -/
theorem Serve.next_of_ne_nil {payload : Bytes} (hne : payload ≠ []) :
    Serve.next payload = .sending payload := by
  cases payload with
  | nil => exact absurd rfl hne
  | cons c payload => rfl

@[simp] theorem Serve.next_ne_sending_nil (payload : Bytes) : Serve.next payload ≠ .sending [] := by
  cases payload <;> simp [Serve.next]

namespace Agent

/-- The payloads that the local response body of a task hands to `send_payload`. -/
def supplies (t : Nat) (_ : Agent) : AgentAction → List Bytes
  | .produce u payload => if u = t then [payload] else []
  | _ => []

/-- The chunks of a task that a move queues. -/
def queues (t : Nat) (s : Agent) : AgentAction → List Bytes
  | .sendData u => if u = t ∧ s.outbound.poll = .ready then (s.task t).serve.held else []
  | _ => []

/-- The credit of a task that a move uses. -/
def spend (t : Nat) (s : Agent) : AgentAction → Nat
  | .acquire u => match (s.task t).serve with
    | .sending payload =>
      if u = t ∧ (s.task t).sendCredit.isClosed = false then toU32 (payload.take maxChunk).length
      else 0
    | _ => 0
  | _ => 0

/-- The task as a sender, with what it was supplied with, has queued and has used so far. -/
def sender (s : Agent) (t : Nat) (supplied queued : List Bytes) (used : Nat) : Sender Bytes where
  supplied := supplied.flatMap sendPayload
  unpaid := sendPayload (s.task t).serve.unpaid
  held := (s.task t).serve.held
  emitted := queued
  paid := used
  isOpen := s.nextTask ≤ t ∨ (s.task t).serve.sends = true

section Sending

variable {s s' : Agent} {a : AgentAction}

/-- The loop of `send_payload` is not entered with nothing to send. -/
theorem Step.sending_ne_nil (h : Step s a s') (hs : ∀ t, (s.task t).serve ≠ .sending []) (t : Nat) :
    (s'.task t).serve ≠ .sending [] := by
  have hold := hs t
  cases h
  all_goals first
    | exact hold
    | simpa using hold
    | (simp only [openStream, Task.spawn, setTask, setServe, setBody, push, Task.finish,
        task_dropStream, Function.update_apply]
       split_ifs <;> simp_all)

/-- Only the task itself takes up, pays for and queues what it sends. -/
theorem supplies_eq_nil {t : Nat} (h : ∀ payload, a ≠ .produce t payload) :
    supplies t s a = [] := by
  unfold supplies
  split
  · rename_i u payload
    exact if_neg fun he => h payload (by rw [he])
  · rfl

theorem queues_eq_nil {t : Nat} (h : a ≠ .sendData t) : queues t s a = [] := by
  unfold queues
  split
  · exact if_neg fun he => h (by rw [he.1])
  · rfl

theorem spend_eq_zero {t : Nat} (h : a ≠ .acquire t) : spend t s a = 0 := by
  unfold spend
  split
  · split
    · exact if_neg fun he => h (by rw [he.1])
    · rfl
  · rfl

/-- A step that is none of these leaves a task with what it has to send. -/
theorem Step.unpaid_held_eq (hw : WellFormed s) (h : Step s a s') {t : Nat}
    (hnew : ∀ payload, a ≠ .produce t payload) (hqueue : a ≠ .sendData t)
    (hspend : a ≠ .acquire t) :
    (s'.task t).serve.unpaid = (s.task t).serve.unpaid ∧
      (s'.task t).serve.held = (s.task t).serve.held := by
  cases h
  case produce u payload hu =>
    have he : t ≠ u := fun he => hnew payload (by rw [he])
    simp [he]
  case sendData u chunk rest hu hp | sendDataGone u chunk rest hu hp =>
    have he : t ≠ u := fun he => hqueue (by rw [he])
    simp [he]
  case acquire u payload hu hp | acquireClosed u payload hu hp =>
    have he : t ≠ u := fun he => hspend (by rw [he])
    simp [he]
  case recvOpen request nowMs hl =>
    by_cases he : t = s.nextTask
    · subst he
      simp [hw.fresh s.nextTask le_rfl, openStream, Task.spawn, Task.unused, Serve.unpaid,
        Serve.held]
    · simp [he, openStream]
  all_goals first
    | exact ⟨rfl, rfl⟩
    | (simp only [setTask, setServe, setBody, push, Task.finish, task_dropStream,
        Function.update_apply, and_self]
       first | done | (split_ifs <;> simp_all [Serve.unpaid, Serve.held]))

/-- No step opens a sender again. -/
theorem Step.open_anti (h : Step s a s') {t : Nat}
    (ho : s'.nextTask ≤ t ∨ (s'.task t).serve.sends = true) :
    s.nextTask ≤ t ∨ (s.task t).serve.sends = true := by
  by_cases ht : t < s.nextTask
  · have hmono := (h.streamId_eq ht).2
    exact .inr (h.sends_anti ht (ho.resolve_left (by omega)))
  · exact .inl (Nat.le_of_not_lt ht)

section Steps

variable {t : Nat} {supplied queued : List Bytes} {used : Nat}

/-- A step after which the task sends no more. -/
theorem sender_stop (hs : ¬ (s'.nextTask ≤ t ∨ (s'.task t).serve.sends = true))
    (hqueue : queues t s a = []) (hspend : spend t s a = 0) :
    Sender.Step permits (s.sender t supplied queued used) (s'.sender t (supplied ++ supplies t s a)
      (queued ++ queues t s a) (used + spend t s a)) := by
  obtain ⟨hunpaid, hheld⟩ := Serve.nothing_of_not_sends fun hsends => hs (.inr hsends)
  refine (Sender.Step.stop ((supplies t s a).flatMap sendPayload)).of_eq ?_
  simp only [sender, hqueue, hspend, hunpaid, hheld, hs, sendPayload_nil, List.flatMap_append,
    List.append_nil, Nat.add_zero]

/-- A step that is none of those that take up, pay for and queue. -/
theorem Step.sender_other (hw : WellFormed s) (h : Step s a s')
    (hnew : ∀ payload, a ≠ .produce t payload) (hqueue : a ≠ .sendData t)
    (hspend : a ≠ .acquire t) :
    Sender.Step permits (s.sender t supplied queued used) (s'.sender t (supplied ++ supplies t s a)
      (queued ++ queues t s a) (used + spend t s a)) := by
  by_cases hs : s'.nextTask ≤ t ∨ (s'.task t).serve.sends = true
  · obtain ⟨hunpaid, hheld⟩ := h.unpaid_held_eq hw hnew hqueue hspend
    refine Sender.Step.quiet.of_eq ?_
    simp only [sender, supplies_eq_nil hnew, queues_eq_nil hqueue, spend_eq_zero hspend, hunpaid,
      hheld, hs, h.open_anti hs, List.append_nil, Nat.add_zero]
  · exact sender_stop hs (queues_eq_nil hqueue) (spend_eq_zero hspend)

/-- Every step of the agent is a step of every task as a sender. -/
theorem Step.sender (hw : WellFormed s) (hs : ∀ t, (s.task t).serve ≠ .sending [])
    (h : Step s a s') :
    Sender.Step permits (s.sender t supplied queued used) (s'.sender t (supplied ++ supplies t s a)
      (queued ++ queues t s a) (used + spend t s a)) := by
  by_cases hnew : ∃ payload, a = .produce t payload
  · obtain ⟨payload, rfl⟩ := hnew
    cases h with
    | produce hserve =>
      have hunpaid : (s.task t).serve.unpaid = [] := by rw [hserve]; rfl
      have hheld : (s.task t).serve.held = [] := by rw [hserve]; rfl
      have hsends : (s.task t).serve.sends = true := by rw [hserve]; rfl
      refine (Sender.Step.supply (sendPayload payload) (Or.inr hsends) ?_ hheld).of_eq ?_
      · simp [Agent.sender, hunpaid]
      · simp [Agent.sender, supplies, queues, spend, hheld, hsends]
  by_cases hspend : a = .acquire t
  · subst hspend
    cases h with
    | acquire hserve hp =>
      rename_i payload
      have hne : payload ≠ [] := fun hnil => hs t (by rw [hserve, hnil])
      have hheld : (s.task t).serve.held = [] := by rw [hserve]; rfl
      have hsends : (s.task t).serve.sends = true := by rw [hserve]; rfl
      have hopen := (Semaphore.poll_eq_ready.mp hp).1
      refine (Sender.Step.pay (payload.take maxChunk) (sendPayload (payload.drop maxChunk))
        (Or.inr hsends) ?_ hheld).of_eq ?_
      · simp only [Agent.sender, hserve, Serve.unpaid]
        exact sendPayload_of_ne_nil hne
      · simp [Agent.sender, supplies, queues, spend, permits, hserve, hopen, Serve.unpaid,
          Serve.held, Serve.sends]
    | acquireClosed hserve hp =>
      have ht : t < s.nextTask := hw.spawned_of_serve (by simp [hserve])
      refine sender_stop (by simp [ht, Serve.sends]) rfl ?_
      simp [spend, hserve, Semaphore.poll_eq_closed.mp hp]
  by_cases hqueue : a = .sendData t
  · subst hqueue
    cases h with
    | sendData hserve hp =>
      rename_i chunk rest
      have hunpaid : (s.task t).serve.unpaid = rest := by rw [hserve]; rfl
      have hheld : (s.task t).serve.held = [chunk] := by rw [hserve]; rfl
      have hsends : (s.task t).serve.sends = true := by rw [hserve]; rfl
      refine (Sender.Step.emit chunk (Or.inr hsends) hheld).of_eq ?_
      simp [Agent.sender, supplies, queues, spend, hp, hunpaid, hheld, hsends]
    | sendDataGone hserve hp =>
      have ht : t < s.nextTask := hw.spawned_of_serve (by simp [hserve])
      exact sender_stop (by simp [ht, Serve.sends]) (by simp [queues, hp]) rfl
  · exact h.sender_other hw (not_exists.mp hnew) hqueue hspend

end Steps

end Sending

/-- Along every execution, every task is an exact sender of the chunks of what it was supplied
with. -/
theorem exact_of_exec {options : AgentOptions} {as : List AgentAction} {s : Agent}
    (h : exec Agent.step (Agent.init options) as = some s) (t : Nat) :
    (s.sender t (trace Agent.step (supplies t) (Agent.init options) as)
      (trace Agent.step (queues t) (Agent.init options) as)
      (tally Agent.step (spend t) (Agent.init options) as)).Exact permits := by
  induction as using List.reverseRecOn generalizing s with
  | nil =>
    obtain rfl : Agent.init options = s := by simpa using h
    simp only [trace_nil, tally_nil, sender, Agent.init, Task.unused, Serve.unpaid, Serve.held,
      sendPayload_nil, List.flatMap_nil]
    exact .new
  | append_singleton as a ih =>
    obtain ⟨mid, hmid, hstep⟩ := exec_concat_eq_some.mp h
    have hreach : Reachable Agent.step (Agent.init options) mid := .of_exec .nil hmid
    have hs : ∀ t, (mid.task t).serve ≠ .sending [] := by
      refine hreach.invariant (P := fun s => ∀ t, (s.task t).serve ≠ .sending [])
        (fun t => by simp [Agent.init, Task.unused]) ?_
      exact fun s a s' hs _ hstep => (step_cases hstep).sending_ne_nil hs
    rw [trace_concat hmid hstep, trace_concat hmid hstep, tally_concat hmid hstep]
    exact (ih hmid).step ((step_cases hstep).sender (.of_run hreach) hs)

/-- Between two reads of the local response body, the task queues the chunks of what it was handed,
and takes the permits for them. -/
theorem sends_of_exec {options : AgentOptions} {as bs : List AgentAction} {s s' : Agent} {t : Nat}
    {payloads : List Bytes} (has : exec Agent.step (Agent.init options) as = some s)
    (hs : (s.task t).serve = .reading) (hbs : exec Agent.step s bs = some s')
    (hs' : (s'.task t).serve = .reading) (hsupply : trace Agent.step (supplies t) s bs = payloads) :
    trace Agent.step (queues t) s bs = payloads.flatMap sendPayload ∧
      tally Agent.step (spend t) s bs = ((payloads.flatMap sendPayload).map permits).sum := by
  have hexec := exec_append_eq_some.mpr ⟨s, has, hbs⟩
  have hafter := exact_of_exec hexec t
  rw [trace_append has, trace_append has, tally_append has, hsupply] at hafter
  simp only [sender, hs', Serve.unpaid, Serve.held, sendPayload_nil, List.flatMap_append] at hafter
  refine (exact_of_exec has t).between ?_ ?_ ?_ hafter (.inr rfl)
  all_goals simp [sender, hs, Serve.unpaid, Serve.held, Serve.sends]

/-- With enough credit and enough room, the task comes to the end of its payload. -/
theorem exec_passes {s : Agent} {t : Nat} {payload : Bytes}
    (hserve : (s.task t).serve = Serve.next payload)
    (hopen : (s.task t).sendCredit.isClosed = false)
    (hcredit : payload.length ≤ (s.task t).sendCredit.permits) (hrx : s.outbound.rxOpen = true)
    (hroom : s.outbound.queue.length + (sendPayload payload).length ≤ s.outbound.capacity) :
    ∃ s', exec Agent.step s
        (Sender.passes (.acquire t) (.sendData t) (sendPayload payload).length) = some s' ∧
      (s'.task t).serve = .reading := by
  induction hchunks : sendPayload payload generalizing s payload with
  | nil =>
    obtain rfl : payload = [] := sendPayload_eq_nil_iff.mp hchunks
    exact ⟨s, rfl, hserve⟩
  | cons chunk rest ih =>
    have hne : payload ≠ [] := fun hnil => by simp [hnil] at hchunks
    rw [sendPayload_of_ne_nil hne] at hchunks
    obtain ⟨rfl, hrest⟩ := List.cons.inj hchunks
    rw [sendPayload_of_ne_nil hne, List.length_cons, hrest] at hroom
    have hserve' := hserve.trans (Serve.next_of_ne_nil hne)
    have hlen : toU32 (payload.take maxChunk).length = (payload.take maxChunk).length :=
      toU32_of_le (List.length_take_le _ _)
    have hready : (s.task t).sendCredit.poll (toU32 (payload.take maxChunk).length) = .ready := by
      rw [Semaphore.poll_eq_ready, hlen, List.length_take]
      exact ⟨hopen, by omega⟩
    have hp : s.outbound.poll = .ready := Channel.poll_eq_ready.mpr ⟨hrx, by omega⟩
    have hleft : payload.length - maxChunk ≤
        (s.task t).sendCredit.permits - (payload.take maxChunk).length := by
      rw [List.length_take]
      omega
    obtain ⟨s', hexec, hs'⟩ := @ih (((s.setTask t { s.task t with
      sendCredit := (s.task t).sendCredit.take (toU32 (payload.take maxChunk).length)
      serve := .acquired (payload.take maxChunk) (payload.drop maxChunk) }).push
        (.streamData (s.task t).streamId (payload.take maxChunk))).setServe t
          (Serve.next (payload.drop maxChunk))) (payload.drop maxChunk) (by simp)
      (by simpa [Semaphore.take] using hopen)
      (by simpa [Semaphore.take, hlen, -List.length_take] using hleft) (by simpa using hrx)
      (by simp [hrest]; omega) hrest
    refine ⟨s', ?_, hs'⟩
    simpa [Sender.passes, Agent.step, hserve', hready, hp, -List.length_take] using hexec

end Agent

end Norupo
