import Norupo.Connection.Request
import Norupo.Connection.Response

/-!
# What an error page stands for

`forward_local` of `norupo-server/src/ingress.rs` gives up on an opened stream with one of three
statuses. The `404` and the `504` are about the edge itself. The `502` says that the agent could not
reach the local service, but what the future sees is only that the sender of its response head is
gone. Here it is traced back through both ends of the session: the agent has refused the request,
its connection is over, or the public client has failed to supply its own body.
-/

namespace Norupo

open Async Transition

/-- The frame is a response head. -/
def ClientFrame.isHead : ClientFrame → Bool
  | .responseHead _ => true
  | _ => false

/-- The task passes the response body on. -/
def Serve.talking : Serve → Bool
  | .reading | .sending _ | .acquired _ _ | .ending => true
  | _ => false

namespace Edge

/-- What has been heard of the answer to a stream. -/
def response (s : Edge) (i : Nat) : List ClientFrame := (s.heard i).filter (ClientFrame.answersTo i)

/-- The answer to a stream began with something else than a head. -/
def Rebuffed (s : Edge) (i : Nat) : Prop :=
  ∃ first rest, s.response i = first :: rest ∧ first.isHead = false

/-- A stream whose answer has not begun, and whose head can still be delivered. -/
structure Expecting (s : Edge) (i : Nat) : Prop where
  silent : s.response i = []
  present : i ∈ s.session.streams
  sender : (s.session.stream i).headTx = true

section Waiting

variable {s s' : Edge} {a : EdgeAction} {i : Nat}

/-- What a step adds to the answer heard. -/
theorem Step.response_cases (hw : WellFormed s) (h : Step s a s')
    (hi : i < s.session.nextStreamId) : s'.response i = s.response i ∨
      ∃ frame, a = .recv frame ∧ frame.answersTo i = true ∧
        s'.response i = s.response i ++ [frame] := by
  have hopened : (s'.request i).openedAt = (s.request i).openedAt :=
    (h.openedAt_cases i).resolve_right fun hn => Nat.ne_of_lt hi hn.1
  rcases h.received_cases with hr | ⟨frame, ha, hr⟩
  · exact .inl (by rw [response, heard, hr, hopened, ← heard, ← response])
  · rw [response, heard_recv hw hr hopened, List.filter_append, ← response]
    by_cases hf : frame.answersTo i = true
    · exact .inr ⟨frame, ha, hf, by simp [hf]⟩
    · exact .inl (by simp [hf])

theorem Rebuffed.step (hw : WellFormed s) (h : Step s a s') (hi : i < s.session.nextStreamId)
    (hr : s.Rebuffed i) : s'.Rebuffed i := by
  obtain ⟨first, rest, hs, hf⟩ := hr
  rcases h.response_cases hw hi with he | ⟨frame, -, -, he⟩
  · exact ⟨first, rest, he.trans hs, hf⟩
  · exact ⟨first, rest ++ [frame], by rw [he, hs, List.cons_append], hf⟩

/-- What the read loop is about to deliver has been heard. -/
theorem response_ne_nil (hf : (s.relay i).Faithful) {chunk : Chunk}
    (hl : s.readLoop = .delivering i chunk) : s.response i ≠ [] := by
  intro hn
  have hsent : (s.relay i).sent = [] := by
    rw [relay, ← ClientFrame.filterMap_chunkFor, ← response, hn, List.filterMap_nil]
  have hpre := hf.isPrefix
  rw [hsent, List.prefix_nil] at hpre
  simp [Relay.accepted, Relay.waiting, relay_hand hl] at hpre

/-- A future that waits for its head has waited before. -/
theorem Step.listening_of (h : Step s a s') (hi : i < s.session.nextStreamId)
    (hl : (s'.request i).ingress.listening = true) (hn : (s'.request i).head = none) :
    (s.request i).ingress.listening = true ∧ (s.request i).head = none := by
  cases h
  case insert => simpa [Nat.ne_of_lt hi] using And.intro hl hn
  all_goals
    simp only [closeStream, push, setRequest, setIngress, setPump, dropRx, settle,
      Function.update_apply] at hl hn
    first
      | exact ⟨hl, hn⟩
      | (split_ifs at hl hn <;> simp_all [Ingress.listening])

/-- The head of a stream is lost to a failed body, to the end of the session, or with an answer. -/
theorem Step.present_kept (hw : WellFormed s) (h : Step s a s') (hp : i ∈ s.session.streams)
    (ht : (s.session.stream i).headTx = true) (hl : (s.request i).ingress.listening = true)
    (hl' : (s'.request i).ingress.listening = true) (hfail : a ≠ .pumpFail i)
    (hover : s.readLoop.isOver = false) (hd : ∀ chunk, s.readLoop ≠ .delivering i chunk)
    (hr : ∀ head, a = .recv (.responseHead head) → head.streamId ≠ i) :
    i ∈ s'.session.streams ∧ (s'.session.stream i).headTx = true := by
  cases h
  case insert => simp [Session.insertStream, hp, ht, Nat.ne_of_lt (hw.allocated_of_mem hp)]
  case queueOpenGone j request hj hq | headLost j hj hn hm | headTimeout j hj =>
    by_cases he : i = j
    · subst he
      simp [Ingress.listening] at hl'
    · simp [he, hp, ht]
  case dropBody j hj hb hq | dropBodySilent j hj hb hq =>
    have he : i ≠ j := by
      rintro rfl
      simp [hj, Ingress.listening] at hl
    simp [he, hp, ht]
  case deliverLast j chunk hj hn hq | deliverGone j chunk hj hq =>
    have he : i ≠ j := by
      rintro rfl
      exact hd chunk hj
    simp [he, hp, ht]
  case closeNext j ids hj => simp [hj, ReadLoop.isOver] at hover
  case recvHead head hi hm hx hg | recvHeadUnheard head hi hm hx =>
    have he : i ≠ head.streamId := (hr head rfl).symm
    simp [he, hp, ht]
  case recvLateEnd frame j chunk hi hc hn hs =>
    have he : i ≠ j := by
      rintro rfl
      simp [Session.streamBodySender, hp, hw.notClosed i hp] at hs
    simp [he, hp, ht]
  case pumpFail j hj =>
    have he : i ≠ j := by
      rintro rfl
      exact hfail rfl
    simp [he, hp, ht]
  all_goals
    simp only [push, setRequest, setIngress, setPump, dropRx, settle, Session.push,
      Session.setBody, Session.takeCredit, Session.addCredit, Function.update_apply]
    first
      | exact ⟨hp, ht⟩
      | (split_ifs <;> simp_all)

/-- A future whose head can be delivered gets it first, unless its stream is lost. -/
theorem Expecting.step (hw : WellFormed s) (hf : (s.relay i).Faithful) (h : Step s a s')
    (he : s.Expecting i) (hl : (s.request i).ingress.listening = true)
    (hl' : (s'.request i).ingress.listening = true) (hn : (s'.request i).head = none)
    (hfail : a ≠ .pumpFail i) (hover : s.readLoop.isOver = false) :
    s'.Expecting i ∨ s'.Rebuffed i := by
  have hnew : ∀ head, a = .recv (.responseHead head) → head.streamId ≠ i := by
    rintro head rfl rfl
    cases h
    case recvHead => simp at hn
    case recvHeadUnheard hx => simp [hx he.sender] at hl
    case recvHeadLate hm => exact hm he.present
    case recvIgnored hi | recvTunnel hi => cases hi
    case recvChunk hc | recvLateEnd hc => cases hc
  rcases h.response_cases hw (hw.allocated_of_mem he.present) with hr | ⟨frame, rfl, hans, hr⟩
  · have hkept := h.present_kept hw he.present he.sender hl hl' hfail hover
      (fun chunk hd => response_ne_nil hf hd he.silent) hnew
    exact .inl ⟨hr.trans he.silent, hkept.1, hkept.2⟩
  · refine .inr ⟨frame, [], by rw [hr, he.silent, List.nil_append], ?_⟩
    cases frame
    case responseHead head =>
      exact absurd (by simpa [ClientFrame.answersTo] using hans) (hnew head rfl)
    all_goals rfl

/-- How a future comes to an error page. -/
theorem Step.failed_cases (h : Step s a s') {status : Nat}
    (hf : (s'.request i).ingress = .failed status) :
    (s.request i).ingress = .failed status ∨
      status = 404 ∧ s.session.outbound.rxOpen = false ∨
      status = 502 ∧ (s.request i).ingress = .awaitingHead ∧ (s.request i).head = none ∧
        i ∉ s.session.streams ∨
      status = 504 ∧ (s.request i).ingress = .resetting := by
  cases h
  case insert =>
    by_cases he : i = s.session.nextStreamId
    · subst he
      simp at hf
    · exact .inl (by simpa [he] using hf)
  case queueOpenGone j request hj hq =>
    by_cases he : i = j
    · subst he
      exact .inr (.inl ⟨by simpa using hf.symm, Channel.poll_eq_closed.mp hq⟩)
    · exact .inl (by simpa [he] using hf)
  case headLost j hj hn hm =>
    by_cases he : i = j
    · subst he
      exact .inr (.inr (.inl ⟨by simpa using hf.symm, hj, hn, hm⟩))
    · exact .inl (by simpa [he] using hf)
  case queueTimeoutReset j hj hq | queueTimeoutResetGone j hj hq =>
    by_cases he : i = j
    · subst he
      exact .inr (.inr (.inr ⟨by simpa using hf.symm, hj⟩))
    · exact .inl (by simpa [he] using hf)
  all_goals
    left
    simp only [closeStream, push, setRequest, setIngress, setPump, dropRx, settle,
      Function.update_apply] at hf
    first
      | exact hf
      | (split_ifs at hf <;> simp_all)

/-- A read loop that is over was over, or the agent's stream has just ended. -/
theorem Step.isOver_of (h : Step s a s') (ho : s'.readLoop.isOver = true) :
    s.readLoop.isOver = true ∨ a = .disconnect := by
  cases h
  case disconnect => exact .inr rfl
  all_goals
    left
    first
      | exact ho
      | simp_all [ReadLoop.isOver]

/-- The queue for the agent is closed by the end of the call. -/
theorem Step.rxOpen_cases (h : Step s a s') (hx : s'.session.outbound.rxOpen = false) :
    s.session.outbound.rxOpen = false ∨ a = .dropOutbound := by
  cases h
  case dropOutbound => exact .inr rfl
  all_goals
    left
    first
      | exact hx
      | simpa [Session.insertStream] using hx

/-- A future that reports a timeout has timed out. -/
theorem Step.resetting_cases (h : Step s a s') (hr : (s'.request i).ingress = .resetting) :
    (s.request i).ingress = .resetting ∨ a = .headTimeout i := by
  cases h
  case headTimeout j hj =>
    by_cases he : i = j
    · exact .inr (he ▸ rfl)
    · exact .inl (by simpa [he] using hr)
  all_goals
    left
    simp only [closeStream, push, setRequest, setIngress, setPump, dropRx, settle,
      Function.update_apply] at hr
    first
      | exact hr
      | (split_ifs at hr <;> simp_all)

/-- A future begins to wait with its stream in the table and nothing heard. -/
theorem Step.expecting_of_fresh (hw : WellFormed s) (h : Step s a s')
    (hi : s.session.nextStreamId ≤ i) (hl : (s'.request i).ingress.listening = true) :
    s'.Expecting i := by
  have hold : (s.request i).ingress.listening = false := by rw [(hw.fresh i hi).2]; rfl
  have hpump : (s.request i).pump = .absent := by rw [(hw.fresh i hi).2]; rfl
  cases h
  case insert =>
    obtain rfl : i = s.session.nextStreamId := by
      by_contra he
      simp [he, hold] at hl
    exact ⟨by simp [response, heard], by simp [Session.insertStream],
      by simp [Session.insertStream, Stream.new]⟩
  all_goals
    simp only [closeStream, push, setRequest, setIngress, setPump, dropRx, settle,
      Function.update_apply] at hl
    first
      | (rw [hold] at hl; cases hl)
      | (split_ifs at hl <;> simp_all [Ingress.listening])

end Waiting

/-- Every `Open` carries the head of an HTTP request. -/
theorem http_of_run {allowed : Edge → EdgeAction → Prop} {limit window : Nat} {s : Edge}
    (h : Run Edge.step allowed (Edge.init limit window) s) :
    s.OpensAmong fun request => request.http ≠ none := by
  induction h with
  | nil =>
    rintro request (hm | ⟨i, hi⟩)
    · simp [Edge.init, log, Session.new] at hm
    · simp [Edge.init, Request.new] at hi
  | snoc hr _ hs ih => exact ih.step (.of_run hr) hs (by simp)

end Edge

namespace Agent

/-- The head of a response has been queued for the stream. -/
def HeadSent (s : Agent) (i : Nat) : Prop := ∃ head, .responseHead head ∈ s.log ∧ head.streamId = i

/-- Where the resets of an agent come from: a task that has been refused, or that had sent a
head. -/
structure Refusing (refused : Nat → Prop) (s : Agent) : Prop where
  talking : ∀ t, (s.task t).serve.talking = true → s.HeadSent (s.task t).streamId
  resetting : ∀ t code message, (s.task t).serve = .resetting code message →
    refused t ∨ s.HeadSent (s.task t).streamId
  sent : ∀ i code message, .streamReset i code message ∈ s.log →
    (∃ t < s.nextTask, (s.task t).streamId = i ∧ refused t) ∨ s.HeadSent i

section Resets

variable {s s' : Agent} {a : AgentAction} {t : Nat}

theorem Step.log_subset (hw : WellFormed s) (h : Step s a s') : s.log ⊆ s'.log := by
  rcases h.log_cases hw with hs | ⟨frame, hs, -⟩
  · exact hs ▸ List.Subset.refl _
  · exact hs ▸ List.subset_append_left _ _

theorem HeadSent.step (hw : WellFormed s) (h : Step s a s') {i : Nat} (hs : s.HeadSent i) :
    s'.HeadSent i := by
  obtain ⟨head, hm, hi⟩ := hs
  exact ⟨head, h.log_subset hw hm, hi⟩

/-- A task begins to read the response when it has queued the head. -/
theorem Step.talking_cases (h : Step s a s') (ht : (s'.task t).serve.talking = true) :
    (s.task t).serve.talking = true ∨
      ∃ head, (s.task t).serve = .sendingHead head ∧ .responseHead head ∈ s'.log := by
  cases h
  case sendHead u head hu hp =>
    by_cases he : t = u
    · subst he
      exact .inr ⟨head, hu, by simp [log]⟩
    · exact .inl (by simpa [he] using ht)
  case recvOpen request nowMs hl =>
    by_cases he : t = s.nextTask
    · subst he
      simp [openStream, Task.spawn, Serve.talking] at ht
    · exact .inl (by simpa [openStream, he] using ht)
  all_goals
    left
    simp only [setTask, setServe, setBody, push, Task.finish, task_dropStream,
      Function.update_apply] at ht
    first
      | exact ht
      | (split_ifs at ht <;> simp_all [Serve.talking])

/-- What makes a task reset its stream. -/
theorem Step.resetting_cases (h : Step s a s') {code : ResetCode} {message : Text}
    (ht : (s'.task t).serve = .resetting code message) :
    (s.task t).serve = .resetting code message ∨ (∃ error, a = .startFailed t error) ∨
      (∃ error, a = .unreachable t error) ∨
      (∃ request, (s.task t).serve = .starting request ∧ request.http = none) ∨
      (s.task t).serve = .reading := by
  cases h
  case recvOpen request nowMs hl =>
    by_cases he : t = s.nextTask
    · subst he
      simp [openStream, Task.spawn] at ht
    · exact .inl (by simpa [openStream, he] using ht)
  case produce u payload hu | sendData u _ payload hu hp =>
    left
    by_cases he : t = u
    · subst he
      cases payload <;> simp [Serve.next] at ht
    · simpa [he] using ht
  all_goals
    simp only [setTask, setServe, setBody, push, Task.finish, task_dropStream,
      Function.update_apply] at ht
    first
      | exact .inl ht
      | (split_ifs at ht <;> simp_all)

/-- A reset is queued by a task that waits to queue it. -/
theorem Step.queued_reset (hw : WellFormed s) (h : Step s a s') {i : Nat} {code : ResetCode}
    {message : Text} (hm : ClientFrame.streamReset i code message ∈ s'.log) :
    ClientFrame.streamReset i code message ∈ s.log ∨
      ∃ t, (s.task t).streamId = i ∧ (s.task t).serve = .resetting code message := by
  cases h
  case sendReset t other text ht hp =>
    have hm : ClientFrame.streamReset i code message ∈ s.log ∨
        i = (s.task t).streamId ∧ code = other ∧ message = text := by
      simpa [log, or_assoc] using hm
    rcases hm with hm | ⟨rfl, rfl, rfl⟩
    · exact .inl hm
    · exact .inr ⟨t, rfl, ht⟩
  case reply frame held hl hp =>
    have hr := hw.replying frame (by rw [hl]; rfl)
    have hm : ClientFrame.streamReset i code message ∈ s.log ∨
        .streamReset i code message = frame := by
      simpa [log, or_assoc] using hm
    refine .inl (hm.resolve_right fun he => ?_)
    rw [← he] at hr
    cases hr
  case transmit frame rest hx hq => exact .inl (by simpa [log, hq, or_assoc] using hm)
  all_goals
    left
    first
      | exact hm
      | simpa [log, or_assoc] using hm

theorem Refusing.step {refused refused' : Nat → Prop} (hr : Refusing refused s)
    (hw : WellFormed s) (hh : ∀ t head, (s.task t).serve = .sendingHead head →
      head.streamId = (s.task t).streamId)
    (ho : ∀ t request, (s.task t).serve = .starting request → request.http ≠ none)
    (h : Step s a s') (hmono : ∀ t, refused t → refused' t)
    (hnew : ∀ t error, a = .startFailed t error ∨ a = .unreachable t error → refused' t) :
    Refusing refused' s' := by
  have hid {t : Nat} (hs : (s.task t).serve ≠ .done) :
      (s'.task t).streamId = (s.task t).streamId := (h.streamId_eq (hw.spawned_of_serve hs)).1
  refine ⟨fun t ht => ?_, fun t code message ht => ?_, fun i code message hm => ?_⟩
  · rcases h.talking_cases ht with hold | ⟨head, hs, hm⟩
    · rw [hid (by rintro hd; simp [hd, Serve.talking] at hold)]
      exact (hr.talking t hold).step hw h
    · exact ⟨head, hm, by rw [hid (by simp [hs]), hh t head hs]⟩
  · rcases h.resetting_cases ht with hold | ⟨error, ha⟩ | ⟨error, ha⟩ | ⟨request, hs, hn⟩ | hs
    · rw [hid (by simp [hold])]
      exact (hr.resetting t code message hold).imp (hmono t) (.step hw h)
    · exact .inl (hnew t error (.inl ha))
    · exact .inl (hnew t error (.inr ha))
    · exact absurd hn (ho t request hs)
    · rw [hid (by simp [hs])]
      exact .inr ((hr.talking t (by rw [hs]; rfl)).step hw h)
  · rcases h.queued_reset hw hm with hold | ⟨t, rfl, ht⟩
    · refine (hr.sent i code message hold).imp ?_ (.step hw h)
      rintro ⟨t, hlt, hi, ht⟩
      obtain ⟨hsame, hle⟩ := h.streamId_eq hlt
      exact ⟨t, by omega, hsame.trans hi, hmono t ht⟩
    · have hlt : t < s.nextTask := hw.spawned_of_serve (by simp [ht])
      obtain ⟨hsame, hle⟩ := h.streamId_eq hlt
      refine (hr.resetting t code message ht).imp (fun hrefused => ?_) (.step hw h)
      exact ⟨t, by omega, hsame, hmono t hrefused⟩

end Resets

end Agent

namespace Connection

/-- A stream whose head is lost without the agent's doing: the public body has failed, or the
agent's connection is over. -/
def Excused (as : List ConnectionAction) (i : Nat) : Prop :=
  .edge (.pumpFail i) ∈ as ∨ .edge .disconnect ∈ as

/-- What the edge can account for after a list of moves. -/
structure Accounted (as : List ConnectionAction) (s : Connection) (i : Nat) : Prop where
  gone : s.edge.readLoop.isOver = true → .edge .disconnect ∈ as
  outbound : s.edge.session.outbound.rxOpen = false → .edge .dropOutbound ∈ as
  timeout : (s.edge.request i).ingress = .resetting → .edge (.headTimeout i) ∈ as
  waiting : ¬ Excused as i → (s.edge.request i).ingress.listening = true →
    (s.edge.request i).head = none → s.edge.Expecting i ∨ s.edge.Rebuffed i
  failed : ∀ status, (s.edge.request i).ingress = .failed status →
    status = 404 ∧ .edge .dropOutbound ∈ as ∨
    status = 502 ∧ (Excused as i ∨ s.edge.Rebuffed i) ∨
    status = 504 ∧ .edge (.headTimeout i) ∈ as

section Accounts

variable {s s' : Connection} {a : ConnectionAction} {as : List ConnectionAction} {i : Nat}

theorem Excused.concat (h : Excused as i) : Excused (as ++ [a]) i :=
  h.imp (List.mem_append_left _) (List.mem_append_left _)

/-- What a connection does is, at the edge, nothing or a move of the edge under its own name. -/
theorem Step.edge_label (h : Step s a s') :
    s'.edge = s.edge ∨ ∃ b, s.edge.step b = some s'.edge ∧ (b.isLocal = true → a = .edge b) := by
  cases h with
  | edge ha hs => exact .inr ⟨_, hs, fun _ => rfl⟩
  | sendDown _ _ hs => exact .inr ⟨_, hs, nofun⟩
  | recvUp hq hs => exact .inr ⟨_, hs, nofun⟩
  | _ => exact .inl rfl

/-- A move of the edge that has been performed is in the history. -/
theorem mem_concat {b : EdgeAction} (hb : b.isLocal = true → a = .edge b) (hl : b.isLocal = true) :
    ConnectionAction.edge b ∈ as ++ [a] :=
  List.mem_append_right _ (List.mem_singleton.mpr (hb hl).symm)

theorem Accounted.waiting_step (hc : Accounted as s i) (hw : s.edge.WellFormed)
    (hf : (s.edge.relay i).Faithful) {b : EdgeAction} (hs : Edge.Step s.edge b s'.edge)
    (hb : b.isLocal = true → a = .edge b) (hx : ¬ Excused (as ++ [a]) i)
    (hl : (s'.edge.request i).ingress.listening = true) (hn : (s'.edge.request i).head = none) :
    s'.edge.Expecting i ∨ s'.edge.Rebuffed i := by
  by_cases hi : i < s.edge.session.nextStreamId
  · obtain ⟨hl₀, hn₀⟩ := hs.listening_of hi hl hn
    have hx₀ : ¬ Excused as i := fun h => hx h.concat
    rcases hc.waiting hx₀ hl₀ hn₀ with he | hr
    · refine he.step hw hf hs hl₀ hl hn ?_ ?_
      · rintro rfl
        exact hx (.inl (mem_concat hb rfl))
      · exact Bool.eq_false_iff.mpr fun ho => hx₀ (.inr (hc.gone ho))
    · exact .inr (hr.step hw hs hi)
  · exact .inl (hs.expecting_of_fresh hw (Nat.le_of_not_lt hi) hl)

theorem Accounted.step (hc : Accounted as s i) (hw : s.edge.WellFormed)
    (hf : (s.edge.relay i).Faithful) (h : s.step a = some s') : Accounted (as ++ [a]) s' i := by
  have hmono {b : ConnectionAction} (hm : b ∈ as) : b ∈ as ++ [a] := List.mem_append_left _ hm
  rcases (step_cases h).edge_label with he | ⟨b, hs, hb⟩
  · refine ⟨?_, ?_, ?_, ?_, ?_⟩ <;> rw [he]
    · exact fun ho => hmono (hc.gone ho)
    · exact fun ho => hmono (hc.outbound ho)
    · exact fun ho => hmono (hc.timeout ho)
    · exact fun hx => hc.waiting fun h => hx h.concat
    · intro status hs
      refine (hc.failed status hs).imp (And.imp_right hmono) ?_
      exact .imp (And.imp_right (Or.imp_left Excused.concat)) (And.imp_right hmono)
  have hs := Edge.step_cases hs
  refine ⟨fun ho => ?_, fun ho => ?_, fun ho => ?_, fun hx hl hn => ?_, fun status ho => ?_⟩
  · rcases hs.isOver_of ho with ho | rfl
    · exact hmono (hc.gone ho)
    · exact mem_concat hb rfl
  · rcases hs.rxOpen_cases ho with ho | rfl
    · exact hmono (hc.outbound ho)
    · exact mem_concat hb rfl
  · rcases hs.resetting_cases ho with ho | rfl
    · exact hmono (hc.timeout ho)
    · exact mem_concat hb rfl
  · exact hc.waiting_step hw hf hs hb hx hl hn
  · have hi {ingress : Ingress} (hn : (s.edge.request i).ingress = ingress)
        (hne : ingress ≠ .unopened) : i < s.edge.session.nextStreamId := by
      by_contra hge
      rw [(hw.fresh i (Nat.le_of_not_lt hge)).2] at hn
      exact hne hn.symm
    rcases hs.failed_cases ho with hold | ⟨rfl, hx⟩ | ⟨rfl, hawait, hn, hm⟩ | ⟨rfl, hreset⟩
    · rcases hc.failed status hold with ⟨rfl, hx⟩ | ⟨rfl, hx | hr⟩ | ⟨rfl, hx⟩
      · exact .inl ⟨rfl, hmono hx⟩
      · exact .inr (.inl ⟨rfl, .inl hx.concat⟩)
      · exact .inr (.inl ⟨rfl, .inr (hr.step hw hs (hi hold nofun))⟩)
      · exact .inr (.inr ⟨rfl, hmono hx⟩)
    · exact .inl ⟨rfl, hmono (hc.outbound hx)⟩
    · refine .inr (.inl ⟨rfl, ?_⟩)
      by_cases hx : Excused as i
      · exact .inl hx.concat
      · -- The head was not delivered and cannot be any more, so the answer began otherwise.
        have hwait := hc.waiting hx (by rw [hawait]; rfl) hn
        exact .inr ((hwait.resolve_left fun he => hm he.present).step hw hs (hi hawait nofun))
    · exact .inr (.inr ⟨rfl, hmono (hc.timeout hreset)⟩)

/-- The agent could not build the request of a task, or could not reach the local service with
it. -/
def Refused (as : List ConnectionAction) (t : Nat) : Prop :=
  ∃ error, .agent (.startFailed t error) ∈ as ∨ .agent (.unreachable t error) ∈ as

/-- What a connection does is, at the agent, nothing or a move of the agent under its own name. -/
theorem Step.agent_label (h : Step s a s') :
    s'.agent = s.agent ∨
      ∃ b, s.agent.step b = some s'.agent ∧ (b.isLocal = true → a = .agent b) := by
  cases h with
  | agent ha hs => exact .inr ⟨_, hs, fun _ => rfl⟩
  | recvDown hq hs => exact .inr ⟨_, hs, nofun⟩
  | sendUp _ _ hs => exact .inr ⟨_, hs, nofun⟩
  | _ => exact .inl rfl

theorem refusing_step (hr : s.agent.Refusing (Refused as)) (hw : s.agent.WellFormed)
    (hh : ∀ t head, (s.agent.task t).serve = .sendingHead head →
      head.streamId = (s.agent.task t).streamId)
    (ho : ∀ t request, (s.agent.task t).serve = .starting request → request.http ≠ none)
    (h : s.step a = some s') : s'.agent.Refusing (Refused (as ++ [a])) := by
  have hmono : ∀ t, Refused as t → Refused (as ++ [a]) t := by
    rintro t ⟨error, hm⟩
    exact ⟨error, hm.imp (List.mem_append_left _) (List.mem_append_left _)⟩
  rcases (step_cases h).agent_label with he | ⟨b, hs, hb⟩
  · rw [he]
    refine ⟨hr.talking, fun t code message ht => ?_, fun i code message hm => ?_⟩
    · exact (hr.resetting t code message ht).imp_left (hmono t)
    · refine (hr.sent i code message hm).imp_left ?_
      rintro ⟨t, ht, hi, hrefused⟩
      exact ⟨t, ht, hi, hmono t hrefused⟩
  · refine hr.step hw hh ho (Agent.step_cases hs) hmono ?_
    rintro t error (rfl | rfl)
    · exact ⟨error, .inl (List.mem_append_right _ (List.mem_singleton.mpr (hb rfl).symm))⟩
    · exact ⟨error, .inr (List.mem_append_right _ (List.mem_singleton.mpr (hb rfl).symm))⟩

/-- An answer that begins with something else than a head is a refusal. -/
theorem refused_of_rebuffed (hw : Wired s) (ht : s.InTurn) (ha : s.agent.Answering i)
    (hf : s.agent.WellFormed) (hr : s.edge.Rebuffed i) :
    ∃ code message, s.agent.answer i = [.streamReset i code message] := by
  obtain ⟨first, rest, hs, hhead⟩ := hr
  -- Nothing of the answer was heard before the stream was opened.
  have hheard : s.edge.response i = s.edge.received.filter (ClientFrame.answersTo i) := by
    rw [Edge.response, Edge.heard, ← List.nil_append (List.filter _ _), ← ht i,
      ← List.filter_append, List.take_append_drop]
  have hpre : first :: rest <+: s.agent.answer i := by
    rw [← hs, hheard, Agent.answer]
    exact hw.up_isPrefix.filter _
  obtain ⟨more, hmore⟩ := hpre
  have hnil : s.agent.answer i ≠ [] := by rw [← hmore]; simp
  obtain ⟨t, hlt, rfl⟩ := hf.mem_opened.mp (by_contra fun hn => hnil (ha.unopened hn))
  -- Every other answer begins with its head.
  have hother {head : HttpResponseHead} {frames : List ClientFrame} :
      s.agent.answer (s.agent.task t).streamId ≠ .responseHead head :: frames := by
    intro he
    rw [he, List.cons_append] at hmore
    rw [(List.cons.inj hmore).1] at hhead
    cases hhead
  rcases ha.answered t hlt rfl with (hnone | ⟨head, chunks, htalk⟩) | ⟨-, ⟨code, message, hans⟩ |
    ⟨head, chunks, code, message, hans⟩ | ⟨head, chunks, hans, -⟩⟩
  · exact absurd hnone hnil
  · exact absurd htalk hother
  · exact ⟨code, message, hans⟩
  · exact absurd hans hother
  · exact absurd hans hother

end Accounts

section Runs

variable {limit window downCapacity upCapacity : Nat} {options : AgentOptions} {s : Connection}
  {as : List ConnectionAction}

theorem accounted_of_exec
    (h : exec step (init limit window options downCapacity upCapacity) as = some s) (i : Nat) :
    Accounted as s i := by
  refine (exec_history (P := fun as s =>
    Reachable step (init limit window options downCapacity upCapacity) s ∧ Accounted as s i)
    ⟨.nil, nofun, nofun, nofun, fun _ => nofun, fun _ => nofun⟩ ?_ h).2
  rintro as s a s' ⟨hr, hc⟩ hs
  have he := edge_reachable hr
  exact ⟨.snoc hr trivial hs, hc.step (.of_run he) (Edge.relay_of_run he i).1 hs⟩

theorem http_of_starting (h : Reachable step (init limit window options downCapacity upCapacity) s)
    {t : Nat} {request : StreamOpen} (ht : (s.agent.task t).serve = .starting request) :
    request.http ≠ none := by
  obtain ⟨-, hm⟩ := Agent.starting_of_run (agent_reachable h) ht
  exact Edge.http_of_run (edge_reachable h) request
    (.inl ((wired_of_run h).down_isPrefix.subset hm))

theorem refusing_of_exec
    (h : exec step (init limit window options downCapacity upCapacity) as = some s) :
    s.agent.Refusing (Refused as) := by
  refine (exec_history (P := fun as s =>
    Reachable step (init limit window options downCapacity upCapacity) s ∧
      s.agent.Refusing (Refused as)) ⟨.nil, nofun, nofun, ?_⟩ ?_ h).2
  · intro i code message hm
    simp [init, Agent.init, Agent.log] at hm
  · rintro as s a s' ⟨hr, hc⟩ hs
    exact ⟨.snoc hr trivial hs, refusing_step hc (.of_run (agent_reachable hr))
      (answering_of_run hr 0).headed (fun _ _ => http_of_starting hr) hs⟩

/-- The error page of an opened stream tells what has become of it. With a `404` the call of the
agent was over, with a `504` the response has timed out. With a `502` the agent has refused the
request of the stream, because it could not build it or could not reach the local service, and has
sent nothing else for it; or else the body of the public client has failed, or the connection of the
agent. -/
theorem failed_accounted
    (h : exec step (init limit window options downCapacity upCapacity) as = some s) {i status : Nat}
    (hf : (s.edge.request i).ingress = .failed status) :
    status = 404 ∧ .edge .dropOutbound ∈ as ∨
    status = 504 ∧ .edge (.headTimeout i) ∈ as ∨
    status = 502 ∧ (.edge (.pumpFail i) ∈ as ∨ .edge .disconnect ∈ as ∨
      (∃ code message, s.agent.answer i = [.streamReset i code message]) ∧
      ∃ t < s.agent.nextTask, (s.agent.task t).streamId = i ∧
        ∃ error, .agent (.startFailed t error) ∈ as ∨ .agent (.unreachable t error) ∈ as) := by
  have hrun := Reachable.of_exec .nil h
  rcases (accounted_of_exec h i).failed status hf with hgone | ⟨rfl, hx | hr⟩ | hlate
  · exact .inl hgone
  · exact .inr (.inr ⟨rfl, hx.imp_right .inl⟩)
  · obtain ⟨code, message, hans⟩ := refused_of_rebuffed (wired_of_run hrun) (inTurn_of_run hrun)
      (answering_of_run hrun i) (.of_run (agent_reachable hrun)) hr
    refine .inr (.inr ⟨rfl, .inr (.inr ⟨⟨code, message, hans⟩, ?_⟩)⟩)
    have hm : ClientFrame.streamReset i code message ∈ s.agent.log := by
      refine List.mem_of_mem_filter (p := ClientFrame.answersTo i) ?_
      rw [← Agent.answer, hans]
      exact List.mem_singleton_self _
    refine ((refusing_of_exec h).sent i code message hm).resolve_right ?_
    rintro ⟨head, hlog, hi⟩
    have hin : ClientFrame.responseHead head ∈ s.agent.answer i :=
      List.mem_filter.mpr ⟨hlog, by simp [ClientFrame.answersTo, hi]⟩
    rw [hans] at hin
    cases List.mem_singleton.mp hin
  · exact .inr (.inl hlate)

/-- One request that the local service is not there for. -/
def connectionRefused : List ConnectionAction :=
  [.edge .passLimit, .edge (.insert "tun_1".toList testHead "1.2.3.4:5".toList),
    .edge (.queueOpen 1), .sendDown, .recvDown 0, .agent (.start 0),
    .agent (.unreachable 0 "connection refused".toList), .agent (.sendReset 0), .sendUp, .recvUp,
    .edge .deliver, .edge (.headLost 1)]

/-- The page for a request that the agent has refused. -/
theorem failed_accounted_refused : ∃ s, exec step (init 512 262144 testOptions 8 8)
      connectionRefused = some s ∧ (s.edge.request 1).ingress = .failed 502 ∧
    ∃ t < s.agent.nextTask, (s.agent.task t).streamId = 1 ∧
      ∃ error, .agent (.unreachable t error) ∈ connectionRefused := by
  obtain ⟨s, hs, hf⟩ : ∃ s, exec step (init 512 262144 testOptions 8 8) connectionRefused = some s ∧
      (s.edge.request 1).ingress = .failed 502 := ⟨_, rfl, rfl⟩
  refine ⟨s, hs, hf, ?_⟩
  rcases failed_accounted hs hf with ⟨h, -⟩ | ⟨h, -⟩ | ⟨-, hm | hm | ⟨-, t, ht, hi, error, hm | hm⟩⟩
  · cases h
  · cases h
  · simp [connectionRefused] at hm
  · simp [connectionRefused] at hm
  · simp [connectionRefused] at hm
  · exact ⟨t, ht, hi, error, hm⟩

end Runs

end Connection

end Norupo
