import Norupo.Agent.Download

/-!
# The answer to a stream

A stream is answered by a `Reset`, or by a response head, data and one `End` or `Reset`. A task that
keeps its credit ends its answer on every exit. The exit that does not is the one where its send
window has been closed: the read loop closes it together with the entry of the stream when request
data cannot be delivered any more, although the response is still on its way.
-/

namespace Norupo

open Async Transition

/-- The frames that belong to the answer to a stream. -/
def ClientFrame.answersTo (i : Nat) : ClientFrame → Bool
  | .responseHead head => head.streamId = i
  | .streamData j _ | .streamEnd j _ | .streamReset j _ _ => j = i
  | _ => false

/-- The task that a move queues a frame of an answer for. -/
def AgentAction.answering : AgentAction → Option Nat
  | .sendHead t | .sendData t | .sendEnd t | .sendReset t => some t
  | _ => none

/-- A head and data have been sent, and no terminal frame. -/
def Talking (i : Nat) (frames : List ClientFrame) : Prop :=
  ∃ (head : HttpResponseHead) (chunks : List Bytes),
    frames = .responseHead head :: chunks.map (.streamData i)

/-- What has been sent of an answer while its task is at work. -/
def Serve.Stage (i : Nat) (frames : List ClientFrame) : Serve → Prop
  | .starting _ | .requesting | .sendingHead _ => frames = []
  | .resetting _ _ => frames = [] ∨ Talking i frames
  | .reading | .sending _ | .acquired _ _ | .ending => Talking i frames
  | .dropping | .done => True

theorem Serve.stage_next {i : Nat} {frames : List ClientFrame} (payload : Bytes) :
    (Serve.next payload).Stage i frames ↔ Talking i frames := by
  cases payload <;> exact Iff.rfl

namespace Agent

/-- The frames of the answer to a stream, oldest first. -/
def answer (s : Agent) (i : Nat) : List ClientFrame := s.log.filter (ClientFrame.answersTo i)

/-- The answer is over: refused before a head, cut short after one, or complete with everything that
the local service has produced. -/
inductive Answered (s : Agent) (t : Nat) : Prop
  | refused (code : ResetCode) (message : Text) : s.answer (s.task t).streamId =
      [.streamReset (s.task t).streamId code message] → Answered s t
  | failed (head : HttpResponseHead) (chunks : List Bytes) (code : ResetCode) (message : Text) :
      s.answer (s.task t).streamId = .responseHead head ::
        (chunks.map (.streamData (s.task t).streamId) ++
          [.streamReset (s.task t).streamId code message]) → Answered s t
  | complete (head : HttpResponseHead) (chunks : List Bytes) :
      s.answer (s.task t).streamId = .responseHead head ::
        (chunks.map (.streamData (s.task t).streamId) ++
          [.streamEnd (s.task t).streamId (s.task t).trailers]) →
      chunks.flatten = (s.task t).produced → Answered s t

/-- The outbound queue stays open, and the edge neither resets the stream nor opens it again. -/
def undisturbed (i : Nat) (s : Agent) : AgentAction → Bool
  | .recv (.streamReset j _ _) _ => j ≠ i
  | .recv (.streamOpen request) _ => request.streamId ≠ i || i ∉ s.opened
  | .dropOutbound => false
  | _ => true

/-- No task of the stream asks for credit after its send window has been closed. -/
def keepsCredit (i : Nat) (s : Agent) : AgentAction → Bool
  | .acquire t => (s.task t).streamId ≠ i || !(s.task t).sendCredit.isClosed
  | _ => true

/-- Every task of the stream that sends no more has answered it. -/
def AnswersAll (i : Nat) (s : Agent) : Prop :=
  ∀ t < s.nextTask, (s.task t).streamId = i → (s.task t).serve.sends = false → s.Answered t

/-- What holds of a stream in every undisturbed session. -/
structure Serving (i : Nat) (s : Agent) : Prop where
  headed : ∀ t head, (s.task t).serve = .sendingHead head → head.streamId = (s.task t).streamId
  unopened : i ∉ s.opened → s.answer i = []
  rxOpen : s.outbound.rxOpen = true
  sole : ∀ t < s.nextTask, (s.task t).streamId = i → s.Sole t
  faithful : ∀ t < s.nextTask, (s.task t).streamId = i → (s.feed t).Faithful
  stage : ∀ t < s.nextTask, (s.task t).streamId = i → (s.task t).serve.Stage i (s.answer i)

section Preservation

variable {s s' : Agent} {a : AgentAction}

/-- Frames of an answer are queued by a task of the stream. -/
theorem Step.answer_eq (hw : WellFormed s)
    (hh : ∀ t head, (s.task t).serve = .sendingHead head → head.streamId = (s.task t).streamId)
    (h : Step s a s') {i : Nat} (hn : ∀ t, a.answering = some t → (s.task t).streamId ≠ i) :
    s'.answer i = s.answer i := by
  cases h
  case sendHead t head ht hp =>
    have hne : head.streamId ≠ i := hh t head ht ▸ hn t rfl
    simp [answer, log, ClientFrame.answersTo, hne]
  case sendData t chunk rest ht hp =>
    simp [answer, log, ClientFrame.answersTo, hn t rfl]
  case sendEnd t ht hp => simp [answer, log, ClientFrame.answersTo, hn t rfl]
  case sendReset t code message ht hp => simp [answer, log, ClientFrame.answersTo, hn t rfl]
  case reply frame held hl hp =>
    have hr := hw.replying frame (by rw [hl]; rfl)
    cases frame <;> simp_all [answer, log, ClientFrame.isReply, ClientFrame.answersTo]
  case transmit frame rest hx hq => simp [answer, log, hq]
  all_goals first
    | rfl
    | simp [answer, log]

/-- The head that a task waits to queue is that of its stream. -/
theorem Step.headed (h : Step s a s')
    (hh : ∀ t head, (s.task t).serve = .sendingHead head → head.streamId = (s.task t).streamId)
    (t : Nat) (head : HttpResponseHead) (ht : (s'.task t).serve = .sendingHead head) :
    head.streamId = (s'.task t).streamId := by
  have hold := hh t head
  cases h
  case respond u status headers hu =>
    by_cases he : t = u
    · subst he
      obtain rfl : _ = head := by simpa using ht
      simp
    · simpa [he] using hold (by simpa [he] using ht)
  case produce u payload hu | sendData u _ payload hu hp =>
    by_cases he : t = u
    · subst he
      cases payload <;> simp [Serve.next] at ht
    · simpa [he] using hold (by simpa [he] using ht)
  all_goals
    simp only [openStream, Task.spawn, setTask, setServe, setBody, push, Task.finish,
      task_dropStream, Function.update_apply] at ht ⊢
    first
      | exact hold ht
      | (split_ifs at ht ⊢ <;> simp_all)

/-- A task that queues a frame has been spawned. -/
theorem Step.spawned_of_answering (hw : WellFormed s) (h : Step s a s') {t : Nat}
    (ha : a.answering = some t) : t < s.nextTask ∧ (s.task t).serve.sends = true := by
  have hsends : (s.task t).serve.sends = true := by
    cases h <;> simp_all [AgentAction.answering, Serve.sends]
  refine ⟨hw.spawned_of_serve fun hd => ?_, hsends⟩
  simp [hd, Serve.sends] at hsends

/-- The only task of a stream is the only one to answer it. -/
theorem Step.answer_same (hw : WellFormed s)
    (hh : ∀ t head, (s.task t).serve = .sendingHead head → head.streamId = (s.task t).streamId)
    {t : Nat} (hsole : s.Sole t) (h : Step s a s') (hne : a.answering ≠ some t) :
    s'.answer (s.task t).streamId = s.answer (s.task t).streamId := by
  refine h.answer_eq hw hh fun u hu hid => hne ?_
  rw [hu, hsole u (h.spawned_of_answering hw hu).1 hid]

/-- Queueing a frame of an answer. -/
theorem answer_push (s : Agent) {i : Nat} (frame : ClientFrame) (hf : frame.answersTo i = true) :
    (s.push frame).answer i = s.answer i ++ [frame] := by
  simp [answer, log, hf]

/-- The stages of an answer follow those of its task. -/
theorem Step.stage (hw : WellFormed s) {i t : Nat} (hs : Serving i s) (h : Step s a s')
    (ht : t < s.nextTask) (hid : (s.task t).streamId = i) :
    (s'.task t).serve.Stage i (s'.answer i) := by
  have hold := hs.stage t ht hid
  have hsame : a.answering ≠ some t → s'.answer i = s.answer i :=
    hid ▸ h.answer_same hw hs.headed (hs.sole t ht hid)
  have hquiet : a.answering ≠ some t → (s'.task t).serve = (s.task t).serve →
      (s'.task t).serve.Stage i (s'.answer i) := fun hne he => by
    rw [he, hsame hne]
    exact hold
  cases h
  case sendHead u head hu hp =>
    by_cases he : t = u
    · subst he
      have hans := answer_push s (i := i) (.responseHead head)
        (by simp [ClientFrame.answersTo, hs.headed t head hu, hid])
      rw [hu] at hold
      simp only [setServe, setTask, Function.update_self]
      exact ⟨head, [], hans.trans (by rw [hold]; rfl)⟩
    · exact hquiet (by simpa [AgentAction.answering] using Ne.symm he) (by simp [he])
  case sendData u chunk rest hu hp =>
    by_cases he : t = u
    · subst he
      have hans := answer_push s (i := i) (.streamData i chunk) (by simp [ClientFrame.answersTo])
      rw [hu] at hold
      obtain ⟨head, chunks, hframes⟩ := hold
      simp only [setServe, setTask, Function.update_self, hid]
      exact (Serve.stage_next rest).mpr
        ⟨head, chunks ++ [chunk], hans.trans (by simp [hframes])⟩
    · exact hquiet (by simpa [AgentAction.answering] using Ne.symm he) (by simp [he])
  case sendEnd u _ _ | sendReset u _ _ _ _ | sendHeadGone u _ _ _ | sendDataGone u _ _ _ _ |
      sendEndGone u _ _ | sendResetGone u _ _ _ _ =>
    by_cases he : t = u
    · subst he
      simp [Serve.Stage]
    · exact hquiet (by simpa [AgentAction.answering] using Ne.symm he) (by simp [he])
  case produce u payload hu =>
    by_cases he : t = u
    · subst he
      rw [hu] at hold
      rw [hsame (by simp [AgentAction.answering])]
      simpa using (Serve.stage_next payload).mpr hold
    · exact hquiet (by simp [AgentAction.answering]) (by simp [he])
  all_goals
    rw [hsame (by simp [AgentAction.answering])]
    first
      | exact hold
      | (simp only [openStream, setTask, setServe, setBody, Task.finish, task_dropStream,
          Function.update_apply]
         first | exact hold | (split_ifs <;> simp_all [Serve.Stage]))

/-- Nothing is sent for an id that has not been opened. -/
theorem Step.answer_unopened (hw : WellFormed s)
    (hh : ∀ t head, (s.task t).serve = .sendingHead head → head.streamId = (s.task t).streamId)
    {i : Nat} (hold : i ∉ s.opened → s.answer i = []) (h : Step s a s') (hi : i ∉ s'.opened) :
    s'.answer i = [] := by
  have hi' : i ∉ s.opened :=
    fun hm => hi ((h.received_mono.filterMap ServerFrame.opens).subset hm)
  refine (h.answer_eq hw hh fun t ha hid => ?_).trans (hold hi')
  exact hi' (hw.mem_opened.mpr ⟨t, (h.spawned_of_answering hw ha).1, hid⟩)

/-- A stream that is not opened again keeps its only task. -/
theorem Step.sole (hw : WellFormed s) {i t : Nat} (hs : s.Sole t) (h : Step s a s')
    (ht : t < s.nextTask) (hid : (s.task t).streamId = i) (ha : undisturbed i s a = true) :
    s'.Sole t := by
  intro u hu he
  rw [(h.streamId_eq ht).1] at he
  by_cases hold : u < s.nextTask
  · exact hs u hold ((h.streamId_eq hold).1 ▸ he)
  · obtain ⟨rfl, -, request, nowMs, rfl, rfl⟩ := h.spawn_cases hu hold
    have hreq : request.streamId = i := by simpa [openStream, Task.spawn, hid] using he
    have hnew : i ∉ s.opened := by simpa [undisturbed, hreq] using ha
    exact absurd (hw.mem_opened.mpr ⟨t, ht, hid⟩) hnew

/-- The task of a stream that has just been opened. -/
theorem Serving.spawn (hw : WellFormed s) (hf : Feeding s) {request : StreamOpen}
    (hs : Serving request.streamId s) (hnew : request.streamId ∉ s.opened)
    (hs' : s' = ({ s with
      received := s.received ++ [ServerFrame.streamOpen request] }).openStream request) :
    s'.Sole s.nextTask ∧ (s'.feed s.nextTask).Faithful ∧
      (s'.task s.nextTask).serve.Stage request.streamId (s'.answer request.streamId) := by
  subst hs'
  refine ⟨fun u hu he => ?_, feed_spawn (hf.unopened _ hnew), ?_⟩
  · by_contra hne
    have hlt : u < s.nextTask + 1 := hu
    have hid : (s.task u).streamId = request.streamId := by
      simpa [openStream, Task.spawn, hne] using he
    exact hnew (hw.mem_opened.mpr ⟨u, by omega, hid⟩)
  · have hstarting : Agent.answer (({ s with
        received := s.received ++ [ServerFrame.streamOpen request] }).openStream request)
        request.streamId = [] := hs.unopened hnew
    simpa [openStream, Task.spawn, Serve.Stage] using hstarting

theorem Serving.step (hw : WellFormed s) (hf : Feeding s) {i : Nat} (hs : Serving i s)
    (ha : undisturbed i s a = true) (h : s.step a = some s') : Serving i s' := by
  have hc := step_cases h
  have htask : ∀ t < s'.nextTask, (s'.task t).streamId = i →
      s'.Sole t ∧ (s'.feed t).Faithful ∧ (s'.task t).serve.Stage i (s'.answer i) := by
    intro t ht hi
    by_cases hold : t < s.nextTask
    · have hid : (s.task t).streamId = i := (hc.streamId_eq hold).1.symm.trans hi
      have hsole := hs.sole t hold hid
      exact ⟨hc.sole hw hsole hold hid ha, (hs.faithful t hold hid).step (hc.feed hw hsole hold),
        hc.stage hw hs hold hid⟩
    · obtain ⟨rfl, -, request, nowMs, rfl, hs'⟩ := hc.spawn_cases ht hold
      obtain rfl : request.streamId = i := by simpa [hs', openStream, Task.spawn] using hi
      exact hs.spawn hw hf (by simpa [undisturbed] using ha) hs'
  refine ⟨hc.headed hs.headed, hc.answer_unopened hw hs.headed hs.unopened, ?_,
    fun t ht hi => (htask t ht hi).1, fun t ht hi => (htask t ht hi).2.1,
    fun t ht hi => (htask t ht hi).2.2⟩
  have hx := hs.rxOpen
  cases hc
  case dropOutbound => cases ha
  all_goals first | exact hx | simpa using hx

/-- An answer without a terminal frame is not over. -/
theorem not_answered {t : Nat} (ht : Talking (s.task t).streamId (s.answer (s.task t).streamId)) :
    ¬ s.Answered t := by
  obtain ⟨head, chunks, hframes⟩ := ht
  have hdata : ∀ last ∈ s.answer (s.task t).streamId, last = .responseHead head ∨
      ∃ chunk, last = .streamData (s.task t).streamId chunk := by
    intro last hm
    rw [hframes, List.mem_cons, List.mem_map] at hm
    rcases hm with rfl | ⟨chunk, -, rfl⟩
    · exact .inl rfl
    · exact .inr ⟨chunk, rfl⟩
  rintro (⟨code, message, h⟩ | ⟨_, _, code, message, h⟩ | ⟨_, _, h, -⟩)
  · simpa using hdata (.streamReset (s.task t).streamId code message) (by simp [h])
  · simpa using hdata (.streamReset (s.task t).streamId code message) (by simp [h])
  · simpa using hdata (.streamEnd (s.task t).streamId (s.task t).trailers) (by simp [h])

/-- An answer that is over stays so. -/
theorem Answered.of_eq {t : Nat} (h : s.Answered t)
    (hid : (s'.task t).streamId = (s.task t).streamId)
    (ha : s'.answer (s.task t).streamId = s.answer (s.task t).streamId)
    (hp : (s'.task t).produced = (s.task t).produced)
    (ht : (s'.task t).trailers = (s.task t).trailers) : s'.Answered t := by
  rcases h with ⟨code, message, h⟩ | ⟨head, chunks, code, message, h⟩ | ⟨head, chunks, h, hc⟩
  · exact .refused code message (by rw [hid, ha, h])
  · exact .failed head chunks code message (by rw [hid, ha, h])
  · exact .complete head chunks (by rw [hid, ha, h, ht]) (by rw [hp, hc])

/-- A task that sends no more keeps the response it was given. -/
theorem Step.response_eq (h : Step s a s') {t : Nat} (ht : t < s.nextTask)
    (hs : (s.task t).serve.sends = false) :
    (s'.task t).produced = (s.task t).produced ∧ (s'.task t).trailers = (s.task t).trailers := by
  cases h
  case recvOpen => simp [openStream, Nat.ne_of_lt ht]
  all_goals first
    | exact ⟨rfl, rfl⟩
    | (simp only [setTask, setServe, setBody, push, Task.finish, task_dropStream,
        Function.update_apply]
       first | exact ⟨trivial, trivial⟩ | (split_ifs <;> simp_all [Serve.sends]))

/-- A task stops sending after a terminal frame, or without credit. -/
theorem Step.stop_cases (h : Step s a s') {t : Nat} (ht : t < s.nextTask)
    (hx : s.outbound.rxOpen = true) (hs : (s.task t).serve.sends = true)
    (hs' : (s'.task t).serve.sends = false) :
    ((s.task t).serve = .ending ∧ s' = (s.push (.streamEnd (s.task t).streamId
      (s.task t).trailers)).setServe t .dropping) ∨
    (∃ code message, (s.task t).serve = .resetting code message ∧
      s' = (s.push (.streamReset (s.task t).streamId code message)).setServe t .dropping) ∨
    a = .acquire t ∧ (s.task t).sendCredit.isClosed = true := by
  have hopen : s.outbound.poll ≠ .closed := by simp [Channel.poll_eq_closed, hx]
  by_cases hsame : (s'.task t).serve = (s.task t).serve
  · rw [hsame, hs] at hs'
    cases hs'
  cases h
  case sendEnd u hu hp =>
    obtain rfl : t = u := by
      by_contra he
      simp [he] at hsame
    exact .inl ⟨hu, rfl⟩
  case sendReset u code message hu hp =>
    obtain rfl : t = u := by
      by_contra he
      simp [he] at hsame
    exact .inr (.inl ⟨code, message, hu, rfl⟩)
  case acquireClosed u payload hu hp =>
    obtain rfl : t = u := by
      by_contra he
      simp [he] at hsame
    exact .inr (.inr ⟨rfl, Semaphore.poll_eq_closed.mp hp⟩)
  case produce u payload hu | sendData u _ payload hu hp =>
    by_cases he : t = u
    · subst he
      simp at hs'
    · simp [he] at hsame
  case recvOpen => simp [openStream, Nat.ne_of_lt ht] at hsame
  case sendHeadGone hp | sendDataGone hp | sendEndGone hp | sendResetGone hp =>
    exact absurd hp hopen
  all_goals first
    | exact absurd rfl hsame
    | (simp only [task_dropStream, not_true_eq_false] at hsame; done)
    | (simp only [setTask, setServe, setBody, push, Task.finish, task_dropStream,
        Function.update_apply] at hsame hs'
       split_ifs at hsame hs' <;> simp_all [Serve.sends])

/-- The data of an answer are its chunks. -/
theorem data_of_talking {i : Nat} {head : HttpResponseHead} {chunks : List Bytes}
    (h : s.answer i = .responseHead head :: chunks.map (.streamData i)) :
    s.log.flatMap (ClientFrame.dataFor i) = chunks.flatten := by
  have hfilter : s.log.flatMap (ClientFrame.dataFor i) =
      (s.answer i).flatMap (ClientFrame.dataFor i) := by
    rw [answer]
    induction s.log with
    | nil => rfl
    | cons frame frames ih =>
      rw [List.flatMap_cons, ih]
      cases hf : frame.answersTo i with
      | true => rw [List.filter_cons_of_pos hf, List.flatMap_cons]
      | false =>
        have hd : frame.dataFor i = [] := by
          cases frame <;> simp_all [ClientFrame.answersTo, ClientFrame.dataFor]
        rw [List.filter_cons_of_neg (by simp [hf]), hd, List.nil_append]
  rw [hfilter, h, List.flatMap_cons, List.flatMap_map]
  simp [ClientFrame.dataFor]

/-- A task that stops sending has answered its stream, unless it lacked credit. -/
theorem Step.answered {i t : Nat} (hs : Serving i s) (h : Step s a s')
    (ht : t < s.nextTask) (hid : (s.task t).streamId = i) (hsends : (s.task t).serve.sends = true)
    (hstop : (s'.task t).serve.sends = false) (hk : keepsCredit i s a = true) : s'.Answered t := by
  subst hid
  have hstage := hs.stage t ht rfl
  rcases h.stop_cases ht hs.rxOpen hsends hstop with ⟨hserve, rfl⟩ | ⟨code, message, hserve, rfl⟩ |
    ⟨rfl, hclosed⟩
  · rw [hserve] at hstage
    obtain ⟨head, chunks, hframes⟩ := hstage
    have hall := (hs.faithful t ht rfl).open_eq hsends
    simp only [Agent.feed, hserve, Serve.rest, List.append_nil] at hall
    have hans := answer_push s (i := (s.task t).streamId)
      (.streamEnd (s.task t).streamId (s.task t).trailers) (by simp [ClientFrame.answersTo])
    refine .complete head chunks ?_ ?_
    · simp only [setServe, setTask, push, Function.update_self]
      exact hans.trans (by rw [hframes, List.cons_append])
    · simp only [setServe, setTask, push, Function.update_self]
      rw [← data_of_talking hframes, hall]
  · rw [hserve] at hstage
    have hans := answer_push s (i := (s.task t).streamId)
      (.streamReset (s.task t).streamId code message) (by simp [ClientFrame.answersTo])
    rcases hstage with hnone | ⟨head, chunks, hframes⟩
    · refine .refused code message ?_
      simp only [setServe, setTask, push, Function.update_self]
      exact hans.trans (by rw [hnone, List.nil_append])
    · refine .failed head chunks code message ?_
      simp only [setServe, setTask, push, Function.update_self]
      exact hans.trans (by rw [hframes, List.cons_append])
  · simp [keepsCredit, hclosed] at hk

/-- A step answers a stream exactly when its tasks have the credit that they ask for. -/
theorem answersAll_step_iff (hw : WellFormed s) {i : Nat} (hs : Serving i s)
    (hp : AnswersAll i s) (h : s.step a = some s') :
    AnswersAll i s' ↔ keepsCredit i s a = true := by
  have hc := step_cases h
  constructor
  · intro hp'
    by_contra hlost
    obtain ⟨t, rfl, hid, hclosed⟩ : ∃ t, a = .acquire t ∧ (s.task t).streamId = i ∧
        (s.task t).sendCredit.isClosed = true := by
      cases a <;> simp_all [keepsCredit]
    cases hc with
    | acquire ht hpoll => simp [(Semaphore.poll_eq_ready.mp hpoll).1] at hclosed
    | acquireClosed ht hpoll =>
      have hlt : t < s.nextTask := hw.spawned_of_serve (by simp [ht])
      have hstage := hs.stage t hlt hid
      rw [ht] at hstage
      refine not_answered ?_ (hp' t hlt (by simpa using hid) (by simp [Serve.sends]))
      simp only [setServe, setTask, Function.update_self, hid]
      exact hstage
  · intro hk t ht hi hstop
    by_cases hold : t < s.nextTask
    · have hid : (s.task t).streamId = i := (hc.streamId_eq hold).1.symm.trans hi
      cases hsends : (s.task t).serve.sends with
      | true => exact hc.answered hs hold hid hsends hstop hk
      | false =>
        have hne : a.answering ≠ some t := fun ha => by
          simp [(hc.spawned_of_answering hw ha).2] at hsends
        obtain ⟨hproduced, htrailers⟩ := hc.response_eq hold hsends
        exact (hp t hold hid hsends).of_eq (hc.streamId_eq hold).1
          (hc.answer_same hw hs.headed (hs.sole t hold hid) hne) hproduced htrailers
    · obtain ⟨rfl, -, request, nowMs, rfl, rfl⟩ := hc.spawn_cases ht hold
      simp [openStream, Task.spawn, Serve.sends] at hstop

end Preservation

theorem Serving.init (i : Nat) (options : AgentOptions) : Serving i (Agent.init options) where
  headed t head h := by simp [Agent.init, Task.unused] at h
  unopened _ := rfl
  rxOpen := rfl
  sole t ht := absurd ht (Nat.not_lt_zero t)
  faithful t ht := absurd ht (Nat.not_lt_zero t)
  stage t ht := absurd ht (Nat.not_lt_zero t)

/-- As long as the outbound queue stays open and the edge neither resets the stream nor opens it
again, a stream is answered by every task that is done with it exactly when no task asks for credit
after its send window has been closed. -/
theorem always_answersAll_iff (options : AgentOptions) (i : Nat) (as : List AgentAction)
    (he : Throughout Agent.step (fun s a => undisturbed i s a = true) (Agent.init options) as) :
    Always Agent.step (AnswersAll i) (Agent.init options) as ↔
      Throughout Agent.step (fun s a => keepsCredit i s a = true) (Agent.init options) as := by
  refine he.always_iff (I := fun s => WellFormed s ∧ Feeding s ∧ Serving i s) ?_ ?_
    ⟨.init options, ⟨fun _ _ => rfl, fun _ t ht => absurd ht (Nat.not_lt_zero t)⟩,
      .init i options⟩ fun t ht => absurd ht (Nat.not_lt_zero t)
  · rintro s a s' ⟨hw, hf, hs⟩ ha h
    exact ⟨hw.step h, hf.step hw h, hs.step hw hf ha h⟩
  · rintro s a s' ⟨hw, -, hs⟩ hp - h
    exact answersAll_step_iff hw hs hp h

/-- The local service reads the request and answers it. -/
def servedRequest : List AgentAction :=
  [.recv (.streamOpen ⟨1, "tun".toList, .http, some ⟨"POST".toList, "/".toList,
      "a.tunnel.com".toList, [], "HTTP/1.1".toList, []⟩, "198.51.100.7:40000".toList, 262144⟩) 0,
    .start 0, .recv (.streamData 1 [1]) 0, .deliver, .reply, .takeBody 0, .respond 0 200 [],
    .sendHead 0, .recv (.streamEnd 1 []) 0, .produce 0 [8, 9], .acquire 0, .sendData 0, .finish 0,
    .sendEnd 0, .drop 0]

/-- A request that is read to its end gets its complete response. -/
theorem always_answersAll_served :
    Throughout Agent.step (fun s a => undisturbed 1 s a = true) (Agent.init testOptions)
      servedRequest ∧
    Always Agent.step (AnswersAll 1) (Agent.init testOptions) servedRequest := by
  have he : Throughout Agent.step (fun s a => undisturbed 1 s a = true) (Agent.init testOptions)
      servedRequest := .of_meets (by decide)
  exact ⟨he, (always_answersAll_iff testOptions 1 servedRequest he).mpr (.of_meets (by decide))⟩

/-- The local service answers without reading the request, and its client drops the rest of it. -/
def unreadRequest : List AgentAction :=
  [.recv (.streamOpen ⟨1, "tun".toList, .http, some ⟨"POST".toList, "/".toList,
      "a.tunnel.com".toList, [], "HTTP/1.1".toList, []⟩, "198.51.100.7:40000".toList, 262144⟩) 0,
    .start 0, .respond 0 200 [], .sendHead 0, .dropBody 0, .recv (.streamData 1 [1]) 0, .deliver,
    .produce 0 [8, 9], .acquire 0, .drop 0]

/-- The request data that arrives next closes the send window of the response, and the task returns
after the head. -/
theorem unanswered_after_head : ¬ ∀ options i as,
    Throughout Agent.step (fun s a => undisturbed i s a = true) (Agent.init options) as →
    Always Agent.step (AnswersAll i) (Agent.init options) as := by
  intro h
  obtain ⟨s, hs, hnext, hid, hserve, hanswer⟩ : ∃ s,
      exec Agent.step (Agent.init testOptions) unreadRequest = some s ∧ 0 < s.nextTask ∧
      (s.task 0).streamId = 1 ∧ (s.task 0).serve = .done ∧
      s.answer 1 = [.responseHead ⟨1, 200, []⟩] := ⟨_, rfl, by decide, rfl, rfl, rfl⟩
  have hall := (h testOptions 1 unreadRequest (.of_meets (by decide))).of_exec hs
  refine not_answered ?_ (hall 0 hnext hid (by rw [hserve]; rfl))
  exact ⟨⟨1, 200, []⟩, [], by rw [hid, hanswer]; rfl⟩

end Agent

end Norupo
