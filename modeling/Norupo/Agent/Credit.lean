import Norupo.Agent.Window
import Norupo.Edge.Credit

/-!
# The credit of the agent

The counterpart of the edge's accounts. As a sender a task pays with its credit for the response
data it sends; as a receiver the agent returns credit for the request data that has arrived. The
edge opens every id once, so a stream has one task, and the table leads to it for as long as the
stream is open.
-/

namespace Norupo

open Async Transition

/-- The bytes a task has taken credit for and not queued yet. -/
def Serve.hand : Serve → Nat
  | .acquired chunk _ => chunk.length
  | _ => 0

@[simp] theorem Serve.hand_next (payload : Bytes) : (Serve.next payload).hand = 0 := by
  cases payload <;> rfl

/-- What a task has not taken credit for yet. -/
def Serve.unpaid : Serve → Bytes
  | .sending payload => payload
  | .acquired _ rest => rest
  | _ => []

@[simp] theorem Serve.unpaid_next (payload : Bytes) : (Serve.next payload).unpaid = payload := by
  cases payload <;> rfl

/-- The bytes of a stream that the read loop is handling. -/
def AgentLoop.dataFor (i : Nat) : AgentLoop → Nat
  | .delivering j _ payload => if j = i then payload.length else 0
  | _ => 0

/-- The credit of a stream that the read loop is about to return. -/
def AgentLoop.creditFor (i : Nat) (loop : AgentLoop) : Nat :=
  (loop.reply.map (ClientFrame.creditFor i)).getD 0

namespace Agent

/-- Bytes of a stream that have been sent or queued. -/
def sent (s : Agent) (i : Nat) : Nat := (s.log.flatMap (ClientFrame.dataFor i)).length

/-- Credit that has arrived for a stream. -/
def credited (s : Agent) (i : Nat) : Nat := (s.received.map (ServerFrame.creditFor i)).sum

/-- The table leads to this task. -/
def Entered (s : Agent) (t : Nat) : Prop :=
  (s.streams (s.task t).streamId).map StreamState.task = some t

/-- The account of a task's response body: credit against data. It is intact while the stream is
open and no chunk has been lost with the outbound queue. -/
def payer (s : Agent) (t : Nat) : Account where
  spent := (s.task t).sendCredit.permits + (s.task t).serve.hand + s.sent (s.task t).streamId
  earned := s.credited (s.task t).streamId
  intact := s.Entered t ∧ s.readLoop ≠ .crashed ∧
    (s.outbound.rxOpen = true ∨ (s.task t).serve.sends = true)

/-- The account of a task's request body: data against credit. It is intact while the stream is
open and credit can be queued. -/
def payee (s : Agent) (t : Nat) : Account where
  spent := s.promised (s.task t).streamId + s.readLoop.creditFor (s.task t).streamId +
    s.readLoop.dataFor (s.task t).streamId
  earned := s.arrived (s.task t).streamId
  intact := s.Entered t ∧ s.outbound.rxOpen = true

/-- Chunks are at most a frame long. -/
structure Sized (s : Agent) : Prop where
  hand : ∀ t, (s.task t).serve.hand ≤ maxChunk
  log : ∀ i payload, ClientFrame.streamData i payload ∈ s.log → payload.length ≤ maxChunk

/-- Credit is returned for opened streams only. -/
structure Billed (s : Agent) : Prop where
  replying : ∀ i increment, s.readLoop.reply = some (.windowUpdate i increment) → i ∈ s.opened
  promised : ∀ i, i ∉ s.opened → s.promised i = 0

/-- A task that has lost its entry waits for no credit. -/
def Released (s : Agent) : Prop :=
  ∀ t < s.nextTask, ¬ s.Entered t → (s.task t).sendCredit.isClosed = true

section Preservation

variable {s s' : Agent} {a : AgentAction}

theorem Billed.step (hw : WellFormed s) (hb : Billed s) (h : s.step a = some s') : Billed s' where
  replying := (step_cases h).replying_opened hw hb.replying
  promised := (step_cases h).promised_unopened hw hb.replying hb.promised

theorem Sized.hand_step (hz : Sized s) (h : Step s a s') (t : Nat) :
    (s'.task t).serve.hand ≤ maxChunk := by
  have hold := hz.hand t
  cases h
  case acquire u payload hu hp =>
    by_cases he : t = u
    · subst he
      simp [Serve.hand]
    · simpa [he] using hold
  case produce u payload hu | sendData u _ payload hu hp =>
    by_cases he : t = u
    · subst he
      simp
    · simpa [he] using hold
  all_goals first
    | exact hold
    | simpa using hold
    | (simp only [openStream, Task.spawn, setTask, setServe, setBody, push, Task.finish,
        task_dropStream, Function.update_apply]
       split_ifs <;> simp_all [Serve.hand])

theorem Sized.step (hw : WellFormed s) (hz : Sized s) (h : s.step a = some s') : Sized s' := by
  have hs := step_cases h
  refine ⟨hz.hand_step hs, fun i payload hm => ?_⟩
  rcases hs.log_cases hw with hl | ⟨frame, hl, he⟩
  · exact hz.log i payload (hl ▸ hm)
  · rw [hl, List.mem_append, List.mem_singleton] at hm
    rcases hm with hold | rfl
    · exact hz.log i payload hold
    · obtain ⟨t, -, -, rest, ht⟩ := he
      have hle := hz.hand t
      rwa [ht] at hle

/-- No step leads the table to a spawned task again. -/
theorem Step.entered_anti (h : Step s a s') {t : Nat} (ht : t < s.nextTask)
    (he : s'.Entered t) : s.Entered t := by
  rw [Entered, (h.streamId_eq ht).1] at he
  rw [Entered]
  rcases h.streams_cases (s.task t).streamId with hs | ⟨request, nowMs, rfl, -, hs⟩ |
    ⟨headers, nowMs, rfl, hs⟩ | ⟨-, hs⟩
  · rwa [hs] at he
  · rw [hs, Option.map_some, Option.some.injEq] at he
    exact absurd he (Nat.ne_of_gt ht)
  · rw [hs, Option.map_map] at he
    exact he
  · rw [hs] at he
    cases he

/-- A read loop that has panicked stays so. -/
theorem Step.crashed (h : Step s a s') (hc : s.readLoop = .crashed) : s'.readLoop = .crashed := by
  cases h <;> first | exact hc | simp_all

/-- A queue without a receiver stays so. -/
theorem Step.rxOpen_anti (h : Step s a s') (hx : s'.outbound.rxOpen = true) :
    s.outbound.rxOpen = true := by
  cases h
  case dropOutbound => simp at hx
  all_goals first | exact hx | simpa using hx

/-- A task that sends no more stays so. -/
theorem Step.sends_anti (h : Step s a s') {t : Nat} (ht : t < s.nextTask)
    (hs : (s'.task t).serve.sends = true) : (s.task t).serve.sends = true := by
  cases h
  case recvOpen => simpa [openStream, Nat.ne_of_lt ht] using hs
  all_goals first
    | exact hs
    | simpa using hs
    | (simp only [setTask, setServe, setBody, push, Task.finish, task_dropStream,
        Function.update_apply] at hs
       split_ifs at hs <;> simp_all [Serve.sends])

/-- Credit arrives with its frame only. -/
theorem Step.credited_eq (h : Step s a s') {i : Nat}
    (hn : ∀ increment nowMs, a ≠ .recv (.windowUpdate i increment) nowMs) :
    s'.credited i = s.credited i := by
  rcases h.received_cases with hr | ⟨frame, nowMs, rfl, hr⟩
  · rw [credited, hr, credited]
  · have hzero : frame.creditFor i = 0 := by
      refine ServerFrame.creditFor_eq_zero ?_
      rintro increment rfl
      exact hn increment nowMs rfl
    simp [credited, hr, hzero]

/-- Data arrives with its frame only. -/
theorem Step.arrived_eq (h : Step s a s') {i : Nat}
    (hn : ∀ payload nowMs, a ≠ .recv (.streamData i payload) nowMs) :
    s'.arrived i = s.arrived i := by
  rcases h.received_cases with hr | ⟨frame, nowMs, rfl, hr⟩
  · rw [arrived, hr, arrived]
  · have hd : frame.dataFor i = [] := by
      refine ServerFrame.dataFor_eq_nil ?_
      rintro payload rfl
      exact hn payload nowMs rfl
    simp [arrived, hr, hd]

theorem Step.promised_eq (hw : WellFormed s) (h : Step s a s') {i : Nat} (hn : a ≠ .reply) :
    s'.promised i = s.promised i := by
  rcases h.promised_cases hw i with hp | ⟨increment, held, ha, -⟩
  · exact hp
  · exact absurd ha hn

/-- Data of a stream is queued by its task only. -/
theorem Step.sent_eq (hw : WellFormed s) (hd : s.opened.Nodup) (h : Step s a s') {t : Nat}
    (ht : t < s.nextTask) (hn : a ≠ .sendData t) :
    s'.sent (s.task t).streamId = s.sent (s.task t).streamId := by
  rw [sent, h.data_eq hw, sent]
  rintro u rfl hid
  have hu : u < s.nextTask := by
    cases h <;> exact hw.spawned_of_serve (by simp [*])
  exact hn (by rw [hw.streamId_inj hd hu ht hid])

/-- An account that is intact has been intact. -/
theorem Step.payer_intact (h : Step s a s') {t : Nat} (ht : t < s.nextTask)
    (hin : (s'.payer t).intact) : (s.payer t).intact := by
  obtain ⟨he, hc, hx⟩ := hin
  refine ⟨h.entered_anti ht he, fun hold => hc (h.crashed hold), ?_⟩
  rcases hx with hx | hs
  · exact .inl (h.rxOpen_anti hx)
  · exact .inr (h.sends_anti ht hs)

/-- A step that leaves the credit and the data of a task alone. -/
theorem payer_quiet {t : Nat} (hid : (s'.task t).streamId = (s.task t).streamId)
    (hp : (s'.task t).sendCredit.permits = (s.task t).sendCredit.permits)
    (hh : (s'.task t).serve.hand = (s.task t).serve.hand)
    (hs : s'.sent (s.task t).streamId = s.sent (s.task t).streamId)
    (hc : s'.credited (s.task t).streamId = s.credited (s.task t).streamId)
    (hin : (s'.payer t).intact → (s.payer t).intact) :
    Account.Step (s.payer t) (s'.payer t) :=
  .quiet (by simp only [payer, hid, hp, hh, hs]) (by simp only [payer, hid, hc]) hin

/-- Every step of the agent is a step of the account of a task's response body. -/
theorem Step.payer (hw : WellFormed s) (hd : s.opened.Nodup) (h : Step s a s') {t : Nat}
    (ht : t < s.nextTask) : Account.Step (s.payer t) (s'.payer t) := by
  have hin := h.payer_intact ht
  have hid := (h.streamId_eq ht).1
  have hsent := h.sent_eq hw hd ht
  have hcredit := h.credited_eq (i := (s.task t).streamId)
  cases h
  case acquire u payload hu hp =>
    by_cases he : t = u
    · subst he
      have hlen : toU32 (payload.take maxChunk).length = (payload.take maxChunk).length :=
        toU32_of_le (List.length_take_le _ _)
      have hle := (Semaphore.poll_eq_ready.mp hp).2
      rw [hlen] at hle
      refine .quiet ?_ (by simp [Agent.payer, credited]) hin
      rw [Agent.payer, Agent.payer, hid, hsent (by simp)]
      simp only [hu, hlen, Serve.hand, Semaphore.take, setTask, Function.update_self]
      omega
    · exact payer_quiet hid (by simp [he]) (by simp [he]) (hsent (by simp)) rfl hin
  case sendData u chunk rest hu hp =>
    by_cases he : t = u
    · subst he
      have hlog : sent ((s.push (.streamData (s.task t).streamId chunk)).setServe t
          (Serve.next rest)) (s.task t).streamId = s.sent (s.task t).streamId + chunk.length := by
        simp [sent, log, ClientFrame.dataFor, Nat.add_assoc]
      refine .quiet ?_ (by simp [Agent.payer, credited]) hin
      rw [Agent.payer, Agent.payer, hid, hlog]
      simp only [hu, setServe, setTask, push, Function.update_self, Serve.hand_next]
      simp only [Serve.hand]
      omega
    · exact payer_quiet hid (by simp [he]) (by simp [he]) (hsent (by simpa using Ne.symm he)) rfl
        hin
  case sendDataGone u chunk rest hu hp =>
    by_cases he : t = u
    · subst he
      refine .lose ?_ (by simp [Agent.payer, credited]) ?_
      · simp [Agent.payer, hu, Serve.hand, sent, log]
      · simp [Agent.payer, Serve.sends, Channel.poll_eq_closed.mp hp]
    · exact payer_quiet hid (by simp [he]) (by simp [he]) rfl rfl hin
  case recvCredit i increment state nowMs hl hs hmax =>
    obtain ⟨hlt, howner⟩ := hw.entry i state hs
    by_cases he : i = (s.task t).streamId
    · obtain rfl : state.task = t := hw.streamId_inj hd hlt ht (howner.trans he)
      subst he
      refine .enter increment ?_ ?_ hin
      · simp [Agent.payer, Semaphore.add, sent, log]
        omega
      · simp [Agent.payer, credited, ServerFrame.creditFor]
    · have hne : t ≠ state.task := by
        rintro rfl
        exact he howner.symm
      exact payer_quiet hid (by simp [hne]) (by simp [hne]) rfl (hcredit (by simp [he])) hin
  case recvCreditLate i increment nowMs hl hs =>
    by_cases he : i = (s.task t).streamId
    · subst he
      exact .lose le_rfl (by simp [Agent.payer, credited]) (by simp [Agent.payer, Entered, hs])
    · exact payer_quiet rfl rfl rfl rfl (hcredit (by simp [he])) hin
  case recvPanic i increment state nowMs hl hs hmax =>
    exact .lose le_rfl (by simp [Agent.payer, credited]) (by simp [Agent.payer])
  case produce u payload hu =>
    by_cases he : t = u
    · subst he
      have hzero : (s.task t).serve.hand = 0 := by rw [hu]; rfl
      exact payer_quiet hid (by simp) (by simp [hzero]) rfl rfl hin
    · exact payer_quiet hid (by simp [he]) (by simp [he]) rfl rfl hin
  case recvOpen request nowMs hl =>
    have hne := Nat.ne_of_lt ht
    exact payer_quiet hid (by simp [openStream, hne]) (by simp [openStream, hne]) rfl
      (hcredit (by simp)) hin
  all_goals
    refine payer_quiet hid ?_ ?_ (hsent (by simp)) (hcredit (by simp)) hin
    · first
        | rfl
        | (simp only [setTask, setServe, setBody, push, Task.finish, task_dropStream,
            Function.update_apply]
           split_ifs <;> simp_all [Semaphore.close])
    · first
        | rfl
        | (simp only [setTask, setServe, setBody, push, Task.finish, task_dropStream,
            Function.update_apply] <;>
           split_ifs <;> simp_all [Serve.hand])

/-- A step that leaves what is owed for a task alone. -/
theorem payee_quiet {t : Nat} (hid : (s'.task t).streamId = (s.task t).streamId)
    (hp : s'.promised (s.task t).streamId = s.promised (s.task t).streamId)
    (hl : s'.readLoop.creditFor (s.task t).streamId + s'.readLoop.dataFor (s.task t).streamId =
      s.readLoop.creditFor (s.task t).streamId + s.readLoop.dataFor (s.task t).streamId)
    (ha : s'.arrived (s.task t).streamId = s.arrived (s.task t).streamId)
    (hin : (s'.payee t).intact → (s.payee t).intact) :
    Account.Step (s.payee t) (s'.payee t) :=
  .quiet (by simp only [payee, hid, Nat.add_assoc, hp, hl]) (by simp only [payee, hid, ha]) hin

/-- The read loop delivers what has arrived. -/
theorem received_of_delivering {i t : Nat} {payload : Bytes} (hr : (s.relay t).Faithful)
    (hl : s.readLoop = .delivering i (some t) payload) :
    .streamData (s.task t).streamId payload ∈ s.received := by
  have hacc : BodyItem.data payload ∈ (s.relay t).accepted := by
    simp [Relay.accepted, Relay.waiting, relay_hand hl]
  obtain ⟨frame, hm, hf⟩ := List.mem_filterMap.mp (hr.isPrefix.subset hacc)
  have hframe : frame = .streamData (s.task t).streamId payload := by
    cases frame <;> simp_all [ServerFrame.itemFor]
  exact hframe ▸ List.mem_of_mem_drop hm

/-- Every step of the agent is a step of the account of a task's request body, when the frames of
the edge have the length of frames. -/
theorem Step.payee (hw : WellFormed s) (hr : ∀ t, (s.relay t).Faithful)
    (hz : ∀ i payload, ServerFrame.streamData i payload ∈ s.received → payload.length ≤ maxChunk)
    (h : Step s a s') {t : Nat} (ht : t < s.nextTask) :
    Account.Step (s.payee t) (s'.payee t) := by
  have hin : (s'.payee t).intact → (s.payee t).intact :=
    fun hx => ⟨h.entered_anti ht hx.1, h.rxOpen_anti hx.2⟩
  have hid := (h.streamId_eq ht).1
  have hprom := h.promised_eq hw (i := (s.task t).streamId)
  have harr := h.arrived_eq (i := (s.task t).streamId)
  cases h
  case recvData i payload u nowMs hl hs | recvDeadData i payload u nowMs hl hs =>
    by_cases he : i = (s.task t).streamId
    · subst he
      refine .enter payload.length ?_ ?_ hin
      · rw [Agent.payee, Agent.payee, hid, hprom (by simp)]
        simp [hl, AgentLoop.creditFor, AgentLoop.reply, AgentLoop.dataFor]
      · rw [Agent.payee, Agent.payee, hid]
        simp [arrived, ServerFrame.dataFor]
    · refine payee_quiet hid (hprom (by simp)) ?_ (harr (by simp [he])) hin
      simp [hl, he, AgentLoop.creditFor, AgentLoop.reply, AgentLoop.dataFor]
  case recvLateData i payload nowMs hl hs =>
    by_cases he : i = (s.task t).streamId
    · subst he
      exact .lose le_rfl (by simp [Agent.payee, arrived]) (by simp [Agent.payee, Entered, hs])
    · exact payee_quiet rfl rfl rfl (harr (by simp [he])) hin
  case deliver i u payload hl hp =>
    have hlen := toU32_of_le (hz _ payload (received_of_delivering (hr u) hl))
    refine payee_quiet hid (hprom (by simp)) ?_ rfl hin
    simp [hl, hlen, AgentLoop.creditFor, AgentLoop.reply, AgentLoop.dataFor, ClientFrame.creditFor]
  case deliverGone i _ payload hl _ | deliverDead i payload hl =>
    by_cases he : i = (s.task t).streamId
    · subst he
      refine .lose ?_ (by simp [Agent.payee, arrived]) (by simp [Agent.payee, Entered])
      rw [Agent.payee, Agent.payee, hid, hprom (by simp)]
      simp [hl, AgentLoop.creditFor, AgentLoop.reply, AgentLoop.dataFor]
    · refine payee_quiet hid (hprom (by simp)) ?_ (harr (by simp)) hin
      simp [hl, he, AgentLoop.creditFor, AgentLoop.reply, AgentLoop.dataFor]
  case reply frame held hl hp =>
    refine .quiet ?_ rfl hin
    simp [Agent.payee, hl, promised, log, AgentLoop.creditFor, AgentLoop.reply, AgentLoop.dataFor,
      Nat.add_assoc]
  case replyGone frame held hl hp =>
    refine .lose ?_ le_rfl (by simp [Agent.payee, Channel.poll_eq_closed.mp hp])
    simp [Agent.payee, hl, promised, log, AgentLoop.creditFor, AgentLoop.reply, AgentLoop.dataFor]
  all_goals
    refine payee_quiet hid (hprom (by simp)) ?_ (harr (by simp)) hin
    first
      | rfl
      | simp_all [AgentLoop.creditFor, AgentLoop.reply, AgentLoop.dataFor, ClientFrame.creditFor]

/-- A closed send window stays closed. -/
theorem Step.isClosed_mono (h : Step s a s') {t : Nat} (ht : t < s.nextTask)
    (hc : (s.task t).sendCredit.isClosed = true) : (s'.task t).sendCredit.isClosed = true := by
  cases h
  case recvOpen => simpa [openStream, Nat.ne_of_lt ht] using hc
  all_goals first
    | exact hc
    | (simp only [setTask, setServe, setBody, push, Task.finish, task_dropStream,
        Function.update_apply]
       split_ifs <;> simp_all [Semaphore.close, Semaphore.add, Semaphore.take])

/-- Dropping a stream closes the send window of the task it leads to. -/
theorem Entered.isClosed_of_drop {i t : Nat} (he : s.Entered t)
    (hn : (s.dropStream i).streams (s.task t).streamId = none) :
    ((s.dropStream i).task t).sendCredit.isClosed = true := by
  rw [Entered] at he
  by_cases hi : (s.task t).streamId = i
  · simp [← hi, he, Semaphore.close]
  · simp [hi] at hn
    simp [hn] at he

/-- A step that takes an entry away closes the send window of its task. -/
theorem Step.isClosed_of_drop (h : Step s a s') {t : Nat} (he : s.Entered t)
    (hn : s'.streams (s.task t).streamId = none) : (s'.task t).sendCredit.isClosed = true := by
  have hdrop (i : Nat) := he.isClosed_of_drop (i := i)
  have hs : s.streams (s.task t).streamId ≠ none := by
    intro hs
    simp [Entered, hs] at he
  cases h
  case recvOpen request nowMs hl =>
    simp only [openStream, Function.update_apply] at hn
    split_ifs at hn
    exact absurd hn hs
  case recvEnd i headers nowMs hl =>
    simp only [Function.update_apply] at hn
    split_ifs at hn <;> simp_all
  case recvReset i code message nowMs hl => simpa using hdrop i (by simpa using hn)
  case deliverGone i _ payload hl _ | deliverDead i payload hl => exact hdrop i hn
  case drop u hu =>
    have hc := hdrop _ hn
    by_cases htu : t = u
    · subst htu
      simpa [Task.finish] using hc
    · simpa [htu] using hc
  all_goals exact absurd hn hs

/-- While the edge opens every id once, no task waits for credit that cannot reach it. -/
theorem Released.step (hw : WellFormed s) (hr : Released s) (hd : s'.opened.Nodup)
    (h : s.step a = some s') : Released s' := by
  have hs := step_cases h
  intro t ht hn
  by_cases hold : t < s.nextTask
  · by_cases he : s.Entered t
    · refine hs.isClosed_of_drop he ?_
      rw [Entered, (hs.streamId_eq hold).1] at hn
      rcases hs.streams_cases (s.task t).streamId with hst | ⟨request, nowMs, rfl, hid, -⟩ |
        ⟨headers, nowMs, rfl, hst⟩ | ⟨-, hst⟩
      · exact absurd (hst ▸ he) hn
      · -- The id of a spawned task has been opened before.
        exact absurd (hw.mem_opened.mpr ⟨t, hold, hid.symm⟩) (hs.unopened_of_open hd)
      · rw [hst, Option.map_map] at hn
        exact absurd he hn
      · exact hst
    · exact hs.isClosed_mono hold (hr t hold he)
  · obtain ⟨rfl, -, request, nowMs, -, rfl⟩ := hs.spawn_cases ht hold
    exact absurd (by simp [Entered, openStream, Task.spawn]) hn

/-- A task gets what it has to pay for from the local response body. -/
theorem Step.unpaid_cases (h : Step s a s') (t : Nat) :
    (s'.task t).serve.unpaid.length ≤ (s.task t).serve.unpaid.length ∨
      ∃ payload, a = .produce t payload ∧ (s'.task t).serve.unpaid.length ≤ payload.length := by
  cases h
  case produce u payload hu =>
    by_cases he : t = u
    · subst he
      exact .inr ⟨payload, rfl, by simp⟩
    · exact .inl (by simp [he])
  case acquire u payload hu hp =>
    left
    by_cases he : t = u
    · subst he
      simp [hu, Serve.unpaid]
    · simp [he]
  case sendData u chunk rest hu hp =>
    left
    by_cases he : t = u
    · subst he
      have hrest : (s.task t).serve.unpaid = rest := by rw [hu]; rfl
      simp [hrest]
    · simp [he]
  all_goals
    left
    first
      | exact le_rfl
      | (simp only [openStream, Task.spawn, setTask, setServe, setBody, push, Task.finish,
          task_dropStream, Function.update_apply]
         first | exact le_rfl | (split_ifs <;> simp_all [Serve.unpaid]))

/-- The read loop panics over credit that its semaphore cannot hold. -/
theorem Step.crash_cases (h : Step s a s') (hc : s'.readLoop = .crashed) :
    s.readLoop = .crashed ∨ ∃ i increment state nowMs, a = .recv (.windowUpdate i increment) nowMs ∧
      s.streams i = some state ∧
      maxPermits < (s.task state.task).sendCredit.permits + increment := by
  cases h
  case recvPanic i increment state nowMs hl hs hmax =>
    exact .inr ⟨i, increment, state, nowMs, rfl, hs, hmax⟩
  all_goals first
    | exact .inl hc
    | cases hc
    | exact .inl (by simpa using hc)

end Preservation

/-- What the accounts of a session rest on holds in every reachable state. -/
theorem credit_of_run {allowed : Agent → AgentAction → Prop} {options : AgentOptions} {s : Agent}
    (h : Run Agent.step allowed (Agent.init options) s) : Sized s ∧ Billed s := by
  refine (h.invariant (P := fun s => WellFormed s ∧ Sized s ∧ Billed s)
    ⟨.init options, ⟨fun _ => Nat.zero_le _, fun _ _ hm => ?_⟩, fun _ _ hl => ?_, fun _ _ => rfl⟩
    ?_).2
  · simp [log, Agent.init] at hm
  · simp [Agent.init, AgentLoop.reply] at hl
  · rintro s a s' ⟨hw, hz, hb⟩ - hs
    exact ⟨hw.step hs, hz.step hw hs, hb.step hw hs⟩

/-- While the edge opens every id once, a task that waits for credit has its entry. -/
theorem entered_of_waiting {allowed : Agent → AgentAction → Prop} {options : AgentOptions}
    {s : Agent} (h : Run Agent.step allowed (Agent.init options) s) (hd : s.opened.Nodup) {t : Nat}
    (ht : t < s.nextTask) (hc : (s.task t).sendCredit.isClosed = false) : s.Entered t := by
  have hinv : WellFormed s ∧ (s.opened.Nodup → Released s) := by
    refine h.invariant (P := fun s => WellFormed s ∧ (s.opened.Nodup → Released s))
      ⟨.init options, fun _ t ht => absurd ht (Nat.not_lt_zero t)⟩ ?_
    rintro s a s' ⟨hw, hr⟩ - hs
    refine ⟨hw.step hs, fun hd => ?_⟩
    have hd' : s.opened.Nodup := hd.sublist (step_cases hs).opened_mono.sublist
    exact (hr hd').step hw hd hs
  by_contra hn
  simp [hinv.2 hd t ht hn] at hc

end Agent

end Norupo
