import Norupo.Agent.Request
import Norupo.Edge.Credit
import Norupo.Connection.Multiplexing

/-!
# A request from end to end

What the local service sees of a request, against what the public client sent. The task of a stream
serves the request that the edge admitted under the id of the stream, with the head, the tunnel and
the address of that request; and a request body that the local service has read to its end is all
that the public client supplied, as long as the task is at work and the stream has not been reset.
-/

namespace Norupo

open Async Transition

namespace Edge

/-- An `End` in the log comes after all data that its stream was supplied with. -/
structure EndsWhole (s : Edge) : Prop where
  done : ∀ i trailers, ServerFrame.streamEnd i trailers ∈ s.log → (s.request i).pump = .done
  whole : ∀ i before trailers after, s.log = before ++ ServerFrame.streamEnd i trailers :: after →
    before.flatMap (ServerFrame.dataFor i) = (s.request i).supplied

theorem EndsWhole.init (limit window : Nat) : EndsWhole (Edge.init limit window) where
  done i trailers h := by simp [log, Edge.init, Session.new] at h
  whole i before trailers after h := by simp [log, Edge.init, Session.new] at h

section Ends

variable {s s' : Edge} {a : EdgeAction} {i : Nat}

/-- An `End` is queued by the pump of its stream, which has nothing left and is done. -/
theorem Step.queued_end (hw : WellFormed s) (h : Step s a s') {trailers : List Header}
    (hl : s'.log = s.log ++ [.streamEnd i trailers]) :
    (s.request i).pump = .ending ∧ (s'.request i).pump = .done ∧
      (s'.request i).supplied = (s.request i).supplied := by
  cases h
  case pumpQueueEnd j hj hp =>
    obtain ⟨rfl, -⟩ : j = i ∧ _ := by simpa [log] using hl
    simp [hj]
  case reply frame hr hp =>
    have hreply := hw.replying frame hr
    obtain rfl : frame = _ := by simpa [log] using hl
    cases hreply
  case control frame hf hp =>
    obtain rfl : frame = _ := by simpa [log] using hl
    cases hf
  case transmit frame rest hx hq => simp [log, hq] at hl
  all_goals simp [log, Session.insertStream] at hl

/-- A pump that is done is supplied with nothing more. -/
theorem Step.supplied_of_done (hw : WellFormed s) (h : Step s a s')
    (hp : (s.request i).pump = .done) :
    (s'.request i).pump = .done ∧ (s'.request i).supplied = (s.request i).supplied := by
  have hlt : i < s.session.nextStreamId := hw.allocated_of_pump (by simp [hp])
  refine ⟨h.pump_done hw hlt hp, ?_⟩
  cases h
  case insert => simp [Nat.ne_of_lt hlt]
  all_goals
    simp only [closeStream, push, setRequest, setIngress, setPump, dropRx, settle,
      Function.update_apply]
    first
      | done
      | (split_ifs <;> simp_all)

theorem EndsWhole.step (hw : WellFormed s) (hf : ∀ i, (s.feed i).Faithful) (he : EndsWhole s)
    (h : s.step a = some s') : EndsWhole s' := by
  have hc := step_cases h
  have hlog : s'.log = s.log ∨ ∃ frame, s'.log = s.log ++ [frame] :=
    (hc.log_cases hw).imp_right fun ⟨frame, hl, _⟩ => ⟨frame, hl⟩
  constructor
  · intro i trailers hm
    rcases hlog with hs | ⟨frame, hs⟩
    · exact (hc.supplied_of_done hw (he.done i trailers (hs ▸ hm))).1
    · rw [hs, List.mem_append, List.mem_singleton] at hm
      rcases hm with hm | rfl
      · exact (hc.supplied_of_done hw (he.done i trailers hm)).1
      · exact (hc.queued_end hw hs).2.1
  · intro i before trailers after hl
    -- An `End` that was there before, or the one that has just been queued.
    have hold : ∀ after', s.log = before ++ .streamEnd i trailers :: after' →
        before.flatMap (ServerFrame.dataFor i) = (s'.request i).supplied := by
      intro after' hl'
      have hdone := he.done i trailers (by simp [hl'])
      rw [(hc.supplied_of_done hw hdone).2]
      exact he.whole i before trailers after' hl'
    rcases hlog with hs | ⟨frame, hs⟩
    · exact hold after (hs ▸ hl)
    · cases after using List.reverseRecOn with
      | nil =>
        obtain ⟨rfl, hframe⟩ := List.append_inj' (hs.symm.trans hl) rfl
        obtain rfl : frame = _ := by simpa using hframe
        obtain ⟨hending, -, hsupplied⟩ := hc.queued_end hw hs
        have hall := (hf i).open_eq (by simp [feed, hending])
        rw [hsupplied]
        simpa [feed, hending, Pump.rest] using hall
      | append_singleton after last =>
        refine hold after ?_
        have heq : s.log ++ [frame] = (before ++ .streamEnd i trailers :: after) ++ [last] := by
          rw [← hs, hl]
          simp
        exact (List.append_inj' heq rfl).1

end Ends

theorem endsWhole_of_run {allowed : Edge → EdgeAction → Prop} {limit window : Nat} {s : Edge}
    (h : Run Edge.step allowed (Edge.init limit window) s) : EndsWhole s := by
  induction h with
  | nil => exact .init limit window
  | snoc hr _ hs ih => exact ih.step (.of_run hr) (upload_of_run hr).2 hs

/-- The requests that are open or on their way to the agent are among the given ones. -/
def OpensAmong (given : StreamOpen → Prop) (s : Edge) : Prop :=
  ∀ request, (ServerFrame.streamOpen request ∈ s.log ∨
    ∃ i, (s.request i).ingress = .opening request) → given request

section Opens

variable {s s' : Edge} {a : EdgeAction}

/-- A future waits to open the request that was admitted for it. -/
theorem Step.opening_cases (h : Step s a s') {i : Nat} {request : StreamOpen}
    (hi : (s'.request i).ingress = .opening request) :
    (s.request i).ingress = .opening request ∨
      ∃ tunnelId head remoteAddr, a = .insert tunnelId head remoteAddr ∧
        request = ⟨s.session.nextStreamId, tunnelId, .http, some head, remoteAddr,
          s.session.initialWindow⟩ := by
  cases h
  case insert tunnelId head remoteAddr hpos =>
    by_cases he : i = s.session.nextStreamId
    · subst he
      obtain rfl : _ = request := by simpa using hi
      exact .inr ⟨tunnelId, head, remoteAddr, rfl, rfl⟩
    · exact .inl (by simpa [he] using hi)
  all_goals
    left
    simp only [closeStream, push, setRequest, setIngress, setPump, dropRx, settle,
      Function.update_apply] at hi
    first
      | exact hi
      | (split_ifs at hi <;> simp_all)

theorem OpensAmong.step {given : StreamOpen → Prop} (hg : OpensAmong given s) (hw : WellFormed s)
    (h : s.step a = some s')
    (ha : ∀ tunnelId head remoteAddr, a = .insert tunnelId head remoteAddr →
      given ⟨s.session.nextStreamId, tunnelId, .http, some head, remoteAddr,
        s.session.initialWindow⟩) : OpensAmong given s' := by
  have hc := step_cases h
  rintro request (hm | ⟨i, hi⟩)
  · rcases hc.log_cases hw with hs | ⟨frame, hs, he⟩
    · exact hg request (.inl (hs ▸ hm))
    · rw [hs, List.mem_append, List.mem_singleton] at hm
      rcases hm with hm | rfl
      · exact hg request (.inl hm)
      · exact hg request (.inr ⟨_, he.2⟩)
  · rcases hc.opening_cases hi with hold | ⟨tunnelId, head, remoteAddr, rfl, rfl⟩
    · exact hg request (.inr ⟨i, hold⟩)
    · exact ha tunnelId head remoteAddr rfl

end Opens

end Edge

namespace Agent

/-- A task that has not begun has the request of the `Open` that spawned it. -/
theorem Step.starting_cases {s s' : Agent} {a : AgentAction} (h : Step s a s') {t : Nat}
    {request : StreamOpen} (ht : (s'.task t).serve = .starting request) :
    (s.task t).serve = .starting request ∧ (s'.task t).streamId = (s.task t).streamId ∨
      (s'.task t).streamId = request.streamId ∧ .streamOpen request ∈ s'.received := by
  cases h
  case recvOpen other nowMs hl =>
    by_cases he : t = s.nextTask
    · subst he
      obtain rfl : other = request := by simpa [openStream, Task.spawn] using ht
      exact .inr ⟨by simp [openStream, Task.spawn], by simp [openStream]⟩
    · exact .inl (by simpa [openStream, he] using ht)
  all_goals
    left
    simp only [setTask, setServe, setBody, push, Task.finish, task_dropStream,
      Function.update_apply] at ht ⊢
    first
      | exact ⟨ht, trivial⟩
      | (split_ifs at ht ⊢ <;> simp_all)

theorem starting_of_run {allowed : Agent → AgentAction → Prop} {options : AgentOptions}
    {s : Agent} (h : Run Agent.step allowed (Agent.init options) s) {t : Nat}
    {request : StreamOpen} (ht : (s.task t).serve = .starting request) :
    (s.task t).streamId = request.streamId ∧ .streamOpen request ∈ s.received := by
  induction h with
  | nil => simp [Agent.init, Task.unused] at ht
  | snoc hr _ hs ih =>
    rcases (step_cases hs).starting_cases ht with ⟨hold, hid⟩ | hnew
    · obtain ⟨hold, hm⟩ := ih hold
      exact ⟨hid.trans hold, (step_cases hs).received_mono.subset hm⟩
    · exact hnew

end Agent

/-- The public request that a move admits: its tunnel, its head and the address it came from. -/
def ConnectionAction.admits : ConnectionAction → Option (Text × HttpRequestHead × Text)
  | .edge (.insert tunnelId head remoteAddr) => some (tunnelId, head, remoteAddr)
  | _ => none

namespace Connection

/-- The public requests admitted in the course of the moves, in order. -/
def admitted (as : List ConnectionAction) : List (Text × HttpRequestHead × Text) :=
  as.filterMap ConnectionAction.admits

/-- The request of an `Open` is the one that was admitted under its id, with the window of the
session. -/
def Admitted (window : Nat) (as : List ConnectionAction) (request : StreamOpen) : Prop :=
  ∃ tunnelId head remoteAddr, 0 < request.streamId ∧
    (admitted as)[request.streamId - 1]? = some (tunnelId, head, remoteAddr) ∧
    request = ⟨request.streamId, tunnelId, .http, some head, remoteAddr, window⟩

section Requests

variable {s s' : Connection} {a : ConnectionAction} {window : Nat}

/-- Ids are allocated in the order of admission. -/
structure Numbered (window : Nat) (as : List ConnectionAction) (s : Connection) : Prop where
  next : s.edge.session.nextStreamId = (admitted as).length + 1
  window_eq : s.edge.session.initialWindow = window
  opens : s.edge.OpensAmong (Admitted window as)

/-- What has been admitted stays where it is. -/
theorem Admitted.mono {as : List ConnectionAction} {request : StreamOpen}
    (h : Admitted window as request) (a : ConnectionAction) :
    Admitted window (as ++ [a]) request := by
  obtain ⟨tunnelId, head, remoteAddr, hpos, hget, hreq⟩ := h
  refine ⟨tunnelId, head, remoteAddr, hpos, ?_, hreq⟩
  rw [admitted, List.filterMap_append]
  exact (List.getElem?_append_left (List.getElem?_eq_some_iff.mp hget).1).trans hget

/-- The id after a move: the next one if the move admits a request. -/
theorem Step.nextStreamId_eq (h : Step s a s') : s'.edge.session.nextStreamId =
    s.edge.session.nextStreamId + a.admits.toList.length := by
  have hother {b : EdgeAction} {edge : Edge} (hb : Edge.Step s.edge b edge)
      (hn : ∀ tunnelId head remoteAddr, b ≠ .insert tunnelId head remoteAddr) :
      edge.session.nextStreamId = s.edge.session.nextStreamId := by
    cases hb
    case insert => exact absurd rfl (hn _ _ _)
    all_goals first | rfl | simp
  cases h with
  | @edge b edge hb hs =>
    by_cases hi : ∃ tunnelId head remoteAddr, b = .insert tunnelId head remoteAddr
    · obtain ⟨tunnelId, head, remoteAddr, rfl⟩ := hi
      cases Edge.step_cases hs
      rfl
    · have hnone : ConnectionAction.admits (.edge b) = none := by
        cases b <;> first | rfl | exact absurd ⟨_, _, _, rfl⟩ hi
      rw [hnone]
      exact hother (Edge.step_cases hs) fun t head addr he => hi ⟨t, head, addr, he⟩
  | sendDown _ _ hs => exact hother (Edge.step_cases hs) (by simp)
  | recvUp _ hs => exact hother (Edge.step_cases hs) (by simp)
  | _ => rfl

theorem Numbered.step {as : List ConnectionAction} (hn : Numbered window as s)
    (hw : s.edge.WellFormed) (h : s.step a = some s') : Numbered window (as ++ [a]) s' := by
  have hc := step_cases h
  have hopens : s.edge.OpensAmong (Admitted window (as ++ [a])) :=
    fun request hm => (hn.opens request hm).mono a
  refine ⟨?_, ?_, ?_⟩
  · rw [hc.nextStreamId_eq, hn.next, admitted, admitted, List.filterMap_append, List.length_append]
    cases ha : a.admits <;> simp [ha]
  · rw [← hn.window_eq]
    rcases hc.edge_cases with hs | ⟨b, hb, -⟩
    · rw [hs]
    · exact (Edge.step_cases hb).initialWindow_eq
  · cases hc with
    | agent | recvDown | sendUp => exact hopens
    | sendDown _ _ hs => exact hopens.step hw hs (by simp)
    | recvUp _ hs => exact hopens.step hw hs (by simp)
    | edge hb hs =>
      refine hopens.step hw hs ?_
      rintro tunnelId head remoteAddr rfl
      refine ⟨tunnelId, head, remoteAddr, ?_, ?_, ?_⟩
      · simp [hn.next]
      · simp only [hn.next, Nat.add_sub_cancel, admitted, List.filterMap_append]
        exact List.getElem?_concat_length
      · simp [hn.window_eq]

/-- Nothing was sent for the stream of a task before the `Open` that spawned it. -/
theorem silent_before_open (hw : Wired s) (ha : s.agent.WellFormed) (ho : s.edge.Ordered) {t : Nat}
    (ht : t < s.agent.nextTask) :
    (s.agent.received.take (s.agent.task t).openedAt).flatMap
      (ServerFrame.dataFor (s.agent.task t).streamId) = [] := by
  obtain ⟨frames, request, htake, hid⟩ := ha.openFrame t ht
  have hpre : frames ++ [.streamOpen request] <+: s.edge.log :=
    htake ▸ (List.take_prefix _ _).trans hw.down_isPrefix
  have hnd : (frames.filterMap ServerFrame.opens ++ [request.streamId]).Nodup := by
    have hsub := (hpre.filterMap ServerFrame.opens).sublist
    rw [List.filterMap_append] at hsub
    exact ho.nodup.sublist hsub
  have hnew : request.streamId ∉ frames.filterMap ServerFrame.opens :=
    fun hm => List.disjoint_of_nodup_append hnd hm (List.mem_singleton_self _)
  rw [htake, List.flatMap_append, ← hid,
    ho.order _ frames ((List.prefix_append _ _).trans hpre) hnew]
  rfl

/-- The items up to an `End` that the agent has heard are all that the public client supplied. -/
theorem supplied_of_upToEnd (hw : Wired s) (ha : s.agent.WellFormed) (ho : s.edge.Ordered)
    (he : s.edge.EndsWhole) {t : Nat} (ht : t < s.agent.nextTask) {items : List BodyItem}
    (hu : s.agent.UpToEnd t items) :
    items.flatMap BodyItem.bytes = (s.edge.request (s.agent.task t).streamId).supplied ∧
      (s.edge.request (s.agent.task t).streamId).pump = .done := by
  obtain ⟨before, trailers, after, hheard, rfl⟩ := hu
  obtain ⟨rest, hrest⟩ := hw.down_isPrefix
  have hlog : s.edge.log = (s.agent.received.take (s.agent.task t).openedAt ++ before) ++
      .streamEnd (s.agent.task t).streamId trailers :: (after ++ rest) := by
    calc s.edge.log
        = (s.agent.received.take (s.agent.task t).openedAt ++ s.agent.heard t) ++ rest := by
          rw [Agent.heard, List.take_append_drop, hrest]
      _ = _ := by simp [hheard]
  refine ⟨?_, he.done _ trailers (by simp [hlog])⟩
  rw [← he.whole _ _ trailers _ hlog, List.flatMap_append, silent_before_open hw ha ho ht,
    List.nil_append, ServerFrame.dataFor_eq]

end Requests

section Runs

variable {limit window downCapacity upCapacity : Nat} {options : AgentOptions} {s : Connection}

/-- In every run, a task begins with the request that was admitted under the id of its stream: its
head, its tunnel and its address, as the edge took them from that public request. -/
theorem request_correlated {as : List ConnectionAction}
    (h : exec step (init limit window options downCapacity upCapacity) as = some s) {t : Nat}
    {request : StreamOpen} (ht : (s.agent.task t).serve = .starting request) :
    ∃ tunnelId head remoteAddr, 0 < (s.agent.task t).streamId ∧
      (admitted as)[(s.agent.task t).streamId - 1]? = some (tunnelId, head, remoteAddr) ∧
      request = ⟨(s.agent.task t).streamId, tunnelId, .http, some head, remoteAddr, window⟩ := by
  have hrun := Reachable.of_exec .nil h
  have hnumbered : Numbered window as s := by
    refine (exec_history (P := fun as s =>
      Reachable step (init limit window options downCapacity upCapacity) s ∧
        Numbered window as s) ⟨.nil, rfl, rfl, ?_⟩ ?_ h).2
    · rintro request (hm | ⟨i, hi⟩)
      · simp [init, Edge.init, Edge.log, Session.new] at hm
      · simp [init, Edge.init, Request.new] at hi
    · rintro as s a s' ⟨hr, hn⟩ hs
      exact ⟨.snoc hr trivial hs, hn.step (.of_run (edge_reachable hr)) hs⟩
  obtain ⟨hid, hm⟩ := Agent.starting_of_run (agent_reachable hrun) ht
  rw [hid]
  exact hnumbered.opens request (.inl ((wired_of_run hrun).down_isPrefix.subset hm))

/-- In every reachable state, a request body that the local service has read to its end is all that
the public client supplied, and the client's body has ended, as long as the task of the request is
at work and the agent has heard no `Reset` of its stream. -/
theorem request_whole
    (h : Reachable step (init limit window options downCapacity upCapacity) s) {t : Nat}
    (ht : t < s.agent.nextTask) (hend : (s.agent.task t).ended = true)
    (hserve : (s.agent.task t).serve ≠ .done) (hreset : ¬ s.agent.ResetHeard t) :
    s.requestBody (s.agent.task t).streamId =
        (s.edge.request (s.agent.task t).streamId).supplied ∧
      (s.edge.request (s.agent.task t).streamId).pump = .done := by
  have hw := wired_of_run h
  have he := edge_reachable h
  have ha := Agent.WellFormed.of_run (agent_reachable h)
  have ho := (Edge.upload_of_run he).1
  have hd := opened_nodup hw ho
  obtain ⟨-, -, hup⟩ :=
    (Agent.uploading_of_run (agent_reachable h) hd t ht).ended hreset hserve hend
  rw [requestBody, Agent.tasksFor_opened ha hd ht, List.flatMap_singleton]
  exact supplied_of_upToEnd hw ha ho (Edge.endsWhole_of_run he) ht hup

/-- One request with a body, which the local service reads to its end. -/
def readRequest : List ConnectionAction :=
  [.edge .passLimit, .edge (.insert "tun".toList testHead "198.51.100.7:40000".toList),
    .edge (.queueOpen 1), .edge (.pumpData 1 [1, 2]), .edge (.pumpAcquire 1),
    .edge (.pumpQueue 1), .edge (.pumpEof 1), .edge (.pumpQueueEnd 1),
    .sendDown, .recvDown 0, .agent (.start 0), .sendDown, .recvDown 0, .agent .deliver,
    .agent .reply, .sendDown, .recvDown 0, .agent (.takeBody 0), .agent (.takeEnd 0)]

/-- The task of the first request begins with its head. -/
theorem request_correlated_first : ∃ s tunnelId head remoteAddr,
    exec step (init 512 262144 testOptions 8 8) (readRequest.take 10) = some s ∧
    (admitted (readRequest.take 10))[0]? = some (tunnelId, head, remoteAddr) ∧
    (s.agent.task 0).serve = .starting ⟨1, tunnelId, .http, some head, remoteAddr, 262144⟩ := by
  obtain ⟨s, request, hs, hstart, hid⟩ : ∃ s request,
      exec step (init 512 262144 testOptions 8 8) (readRequest.take 10) = some s ∧
      (s.agent.task 0).serve = .starting request ∧ (s.agent.task 0).streamId = 1 :=
    ⟨_, _, rfl, rfl, rfl⟩
  obtain ⟨tunnelId, head, remoteAddr, -, hget, rfl⟩ := request_correlated hs hstart
  rw [hid] at hget hstart
  exact ⟨s, tunnelId, head, remoteAddr, hs, hget, hstart⟩

/-- The local service has read both bytes of the first request. -/
theorem request_whole_first : ∃ s, Reachable step (init 512 262144 testOptions 8 8) s ∧
    s.requestBody 1 = [1, 2] ∧ s.requestBody 1 = (s.edge.request 1).supplied := by
  obtain ⟨s, hs, hnext, hid, hend, hserve, hreceived, hbody⟩ : ∃ s,
      exec step (init 512 262144 testOptions 8 8) readRequest = some s ∧ 0 < s.agent.nextTask ∧
      (s.agent.task 0).streamId = 1 ∧ (s.agent.task 0).ended = true ∧
      (s.agent.task 0).serve = .requesting ∧ s.agent.received = [.streamOpen
        ⟨1, "tun".toList, .http, some testHead, "198.51.100.7:40000".toList, 262144⟩,
        .streamData 1 [1, 2], .streamEnd 1 []] ∧ s.requestBody 1 = [1, 2] :=
    ⟨_, rfl, by decide, rfl, rfl, rfl, rfl, rfl⟩
  have hrun := Reachable.of_exec .nil hs
  have hreset : ¬ s.agent.ResetHeard 0 := by
    rintro ⟨code, message, hm⟩
    simp [hreceived] at hm
  have hall := (request_whole hrun hnext hend (by simp [hserve]) hreset).1
  rw [hid] at hall
  exact ⟨s, hrun, hbody, hall⟩

end Runs

end Connection

end Norupo
