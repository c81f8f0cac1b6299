import Norupo.Agent.Answer
import Norupo.Connection.Multiplexing

/-!
# A response from end to end

What the public client sees of a response, against what the local service gave for it. The head that
the client gets is one that the local service answered with, through the only task of the stream;
and once the body has yielded the agent's `End`, the client has read everything that the local
service produced, with its trailers, and nothing else. The response may be cut short at many places
in between; none of them puts an `End` of the agent behind what it lets through. The body itself can
still end without one, when the session is torn down.
-/

namespace Norupo

open Async Transition

/-- A frame with a chunk for a stream belongs to its answer. -/
theorem ClientFrame.answersTo_of_chunkFor {frame : ClientFrame} {i : Nat} {chunk : Chunk}
    (h : frame.chunkFor i = some chunk) : frame.answersTo i = true := by
  cases frame <;> simp_all [chunkFor, ClientFrame.chunk, answersTo]

/-- The chunks of a log for a stream are those of its answer. -/
theorem ClientFrame.filterMap_chunkFor (i : Nat) (frames : List ClientFrame) :
    (frames.filter (answersTo i)).filterMap (chunkFor i) = frames.filterMap (chunkFor i) := by
  rw [List.filterMap_filter]
  refine List.filterMap_congr fun frame _ => ?_
  cases hc : frame.chunkFor i with
  | none => simp
  | some chunk => simp [answersTo_of_chunkFor hc]

theorem ClientFrame.filterMap_chunkFor_data (i : Nat) (chunks : List Bytes) :
    (chunks.map (ClientFrame.streamData i)).filterMap (chunkFor i) = chunks.map Chunk.data := by
  rw [List.filterMap_map, ← List.filterMap_eq_map]
  refine List.filterMap_congr fun chunk _ => ?_
  simp [chunkFor, ClientFrame.chunk]

namespace Edge

/-- Where the head of a response comes from. -/
structure Headed (s : Edge) : Prop where
  received : ∀ i head, (s.request i).head = some head →
    head.streamId = i ∧ ClientFrame.responseHead head ∈ s.received
  responded : ∀ i, (s.request i).ingress = .responded → (s.request i).head.isSome = true
  taken : ∀ i, (s.request i).taken ≠ [] → (s.request i).head.isSome = true

theorem Headed.init (limit window : Nat) : Headed (Edge.init limit window) where
  received i head h := by simp [Edge.init, Request.new] at h
  responded i h := by simp [Edge.init, Request.new] at h
  taken i h := by simp [Edge.init, Request.new] at h

section Preservation

variable {s s' : Edge} {a : EdgeAction}

/-- A head is kept, or it is the one just received for its stream. -/
theorem Step.head_cases (h : Step s a s') {i : Nat} {head : HttpResponseHead}
    (hh : (s'.request i).head = some head) :
    (s.request i).head = some head ∨ head.streamId = i ∧ a = .recv (.responseHead head) := by
  cases h
  case recvHead other hl hm ht hlisten =>
    by_cases he : i = other.streamId
    · subst he
      obtain rfl : other = head := by simpa using hh
      exact .inr ⟨rfl, rfl⟩
    · exact .inl (by simpa [he] using hh)
  all_goals
    left
    simp only [closeStream, push, setRequest, setIngress, setPump, dropRx, settle,
      Function.update_apply] at hh
    first
      | exact hh
      | (split_ifs at hh <;> simp_all [Request.new])

/-- A future that has responded, or a body that has been read, has had its head. -/
theorem Headed.kept (hs : Headed s) (h : Step s a s') (i : Nat) :
    ((s'.request i).ingress = .responded → (s'.request i).head.isSome = true) ∧
      ((s'.request i).taken ≠ [] → (s'.request i).head.isSome = true) := by
  have hr := hs.responded i
  have ht := hs.taken i
  cases h
  all_goals
    simp only [closeStream, push, setRequest, setIngress, setPump, dropRx, settle,
      Function.update_apply]
    first
      | exact ⟨hr, ht⟩
      | (split_ifs <;> simp_all [Request.new])

theorem Headed.step (hs : Headed s) (h : s.step a = some s') : Headed s' := by
  have hc := step_cases h
  refine ⟨fun i head hh => ?_, fun i => (hs.kept hc i).1, fun i => (hs.kept hc i).2⟩
  rcases hc.head_cases hh with hold | ⟨hid, rfl⟩
  · obtain ⟨hid, hm⟩ := hs.received i head hold
    exact ⟨hid, hc.received_mono.subset hm⟩
  · refine ⟨hid, ?_⟩
    rw [(recv_log h).1]
    exact List.mem_append_right _ (List.mem_singleton_self _)

end Preservation

theorem headed_of_run {allowed : Edge → EdgeAction → Prop} {limit window : Nat} {s : Edge}
    (h : Run Edge.step allowed (Edge.init limit window) s) : Headed s :=
  h.invariant (.init limit window) fun _ _ _ hs _ hstep => hs.step hstep

end Edge

namespace Agent

section Heads

variable {s s' : Agent} {a : AgentAction} {head : HttpResponseHead}

/-- A head is queued by a task that waits to queue it. -/
theorem Step.queued_head (hw : WellFormed s) (h : Step s a s')
    (hm : ClientFrame.responseHead head ∈ s'.log) :
    ClientFrame.responseHead head ∈ s.log ∨ ∃ t, (s.task t).serve = .sendingHead head := by
  cases h
  case sendHead t other ht hp =>
    have hm : ClientFrame.responseHead head ∈ s.log ∨ head = other := by
      simpa [log, or_assoc] using hm
    exact hm.imp_right fun (he : head = other) => ⟨t, he ▸ ht⟩
  case reply frame held hl hp =>
    have hr := hw.replying frame (by rw [hl]; rfl)
    have hm : ClientFrame.responseHead head ∈ s.log ∨ .responseHead head = frame := by
      simpa [log, or_assoc] using hm
    refine .inl (hm.resolve_right fun he => ?_)
    rw [← he] at hr
    cases hr
  case transmit frame rest hx hq => exact .inl (by simpa [log, hq, or_assoc] using hm)
  all_goals
    left
    first
      | exact hm
      | simpa [log, or_assoc] using hm

/-- A task waits to queue the head that the local service has answered with. -/
theorem Step.sending_head (hw : WellFormed s) (h : Step s a s') {t : Nat}
    (ht : (s'.task t).serve = .sendingHead head) :
    (s.task t).serve = .sendingHead head ∨
      t < s.nextTask ∧ (s.task t).streamId = head.streamId ∧
        a = .respond t head.status head.headers := by
  cases h
  case respond u status headers hu =>
    by_cases he : t = u
    · subst he
      obtain rfl : _ = head := by simpa using ht
      exact .inr ⟨hw.spawned_of_serve (by simp [hu]), rfl, rfl⟩
    · exact .inl (by simpa [he] using ht)
  case produce u payload hu | sendData u _ payload hu hp =>
    left
    by_cases he : t = u
    · subst he
      cases payload <;> simp [Serve.next] at ht
    · simpa [he] using ht
  all_goals
    left
    simp only [openStream, Task.spawn, setTask, setServe, setBody, push, Task.finish,
      task_dropStream, Function.update_apply] at ht
    first
      | exact ht
      | (split_ifs at ht <;> simp_all)

/-- The heads queued or about to be queued are among the given ones, each for the stream of its
task. -/
def HeadsAmong (given : Nat → HttpResponseHead → Prop) (s : Agent) : Prop :=
  ∀ head, (ClientFrame.responseHead head ∈ s.log ∨ ∃ t, (s.task t).serve = .sendingHead head) →
    ∃ t < s.nextTask, (s.task t).streamId = head.streamId ∧ given t head

theorem HeadsAmong.step {given : Nat → HttpResponseHead → Prop} (hg : HeadsAmong given s)
    (hw : WellFormed s) (h : s.step a = some s')
    (ha : ∀ t head, a = .respond t head.status head.headers → given t head) :
    HeadsAmong given s' := by
  have hc := step_cases h
  intro head hm
  suffices hold : ∃ t < s.nextTask, (s.task t).streamId = head.streamId ∧ given t head by
    obtain ⟨t, ht, hid, hgiven⟩ := hold
    obtain ⟨hsame, hle⟩ := hc.streamId_eq ht
    exact ⟨t, by omega, hsame.trans hid, hgiven⟩
  rcases hm with hm | ⟨t, ht⟩
  · exact hg head (hc.queued_head hw hm)
  · rcases hc.sending_head hw ht with hold | ⟨hlt, hid, rfl⟩
    · exact hg head (.inr ⟨t, hold⟩)
    · exact ⟨t, hlt, hid, ha t head rfl⟩

end Heads

end Agent

namespace Connection

section Answers

variable {s s' : Connection} {a : ConnectionAction}

/-- The local service has answered a task with this head in the course of the moves. -/
def Responded (as : List ConnectionAction) (t : Nat) (head : HttpResponseHead) : Prop :=
  .agent (.respond t head.status head.headers) ∈ as

theorem headsAmong_step {as : List ConnectionAction} (hg : s.agent.HeadsAmong (Responded as))
    (hw : s.agent.WellFormed) (h : s.step a = some s') :
    s'.agent.HeadsAmong (Responded (as ++ [a])) := by
  have hmono : s.agent.HeadsAmong (Responded (as ++ [a])) := by
    intro head hm
    obtain ⟨t, ht, hid, hin⟩ := hg head hm
    exact ⟨t, ht, hid, List.mem_append_left _ hin⟩
  cases step_cases h with
  | edge | sendDown | recvUp => exact hmono
  | agent ha hs =>
    refine hmono.step hw hs ?_
    rintro t head rfl
    exact List.mem_append_right _ (List.mem_singleton_self _)
  | recvDown hq hs => exact hmono.step hw hs (by simp)
  | sendUp hq hp hs => exact hmono.step hw hs (by simp)

/-- Nothing of an answer has reached the edge before its stream was opened. -/
def InTurn (s : Connection) : Prop :=
  ∀ i, (s.edge.received.take (s.edge.request i).openedAt).filter (ClientFrame.answersTo i) = []

/-- Nothing comes back for a stream that the edge has not allocated. -/
theorem answer_unallocated (hw : Wired s) (he : s.edge.WellFormed) (ho : s.edge.Ordered) {i : Nat}
    (ha : s.agent.Answering i) (hi : s.edge.session.nextStreamId ≤ i) :
    s.edge.received.filter (ClientFrame.answersTo i) = [] := by
  have hn : i ∉ s.agent.opened :=
    fun hm => Nat.not_lt.mpr hi (ho.allocated he ((opened_isPrefix hw).subset hm))
  have hpre := hw.up_isPrefix.filter (ClientFrame.answersTo i)
  rw [← Agent.answer, ha.unopened hn] at hpre
  exact List.prefix_nil.mp hpre

theorem InTurn.step (hp : InTurn s) (hw : Wired s) (he : s.edge.WellFormed)
    (ho : s.edge.Ordered) (ha : ∀ i, s.agent.Answering i) (h : s.step a = some s') :
    InTurn s' := by
  intro i
  rcases (step_cases h).edge_cases with hs | ⟨b, hs, -⟩
  · exact hs ▸ hp i
  · have hc := Edge.step_cases hs
    obtain ⟨later, hl⟩ := hc.received_mono
    rcases hc.openedAt_cases i with hm | ⟨rfl, hm⟩
    · rw [hm, ← hl, List.take_append_of_le_length (he.opened i)]
      exact hp i
    · rw [hm, ← hl, List.take_left]
      exact answer_unallocated hw he ho (ha _) le_rfl

/-- What the public client has read of a response are the first chunks of its answer. -/
theorem taken_prefix_answer (hw : Wired s) (hp : InTurn s) {i : Nat}
    (hr : (s.edge.relay i).Faithful) :
    (s.edge.request i).taken <+: (s.agent.answer i).filterMap (ClientFrame.chunkFor i) := by
  have hsent : (s.edge.relay i).sent = s.edge.received.filterMap (ClientFrame.chunkFor i) := by
    have hnone : (s.edge.received.take (s.edge.request i).openedAt).filterMap
        (ClientFrame.chunkFor i) = [] := by
      rw [← ClientFrame.filterMap_chunkFor, hp i, List.filterMap_nil]
    rw [Edge.relay, Edge.heard, ← List.nil_append (List.filterMap _ _), ← hnone,
      ← List.filterMap_append, List.take_append_drop]
  calc (s.edge.request i).taken
      <+: (s.edge.relay i).sent := (List.prefix_append _ _).trans hr.isPrefix
    _ <+: s.agent.log.filterMap (ClientFrame.chunkFor i) := by
      rw [hsent]
      exact hw.up_isPrefix.filterMap _
    _ = (s.agent.answer i).filterMap (ClientFrame.chunkFor i) := by
      rw [Agent.answer, ClientFrame.filterMap_chunkFor]

/-- An answer whose chunks hold an end is complete. -/
theorem complete_of_finish {i t : Nat} {trailers : List Header} {taken : List Chunk}
    (hi : (s.agent.task t).streamId = i)
    (ha : s.agent.Unfinished i ∨ (s.agent.task t).serve.sends = false ∧ s.agent.Answered t)
    (hp : taken <+: (s.agent.answer i).filterMap (ClientFrame.chunkFor i))
    (hm : Chunk.finish trailers ∈ taken) :
    ∃ (head : HttpResponseHead) (chunks : List Bytes), s.agent.answer i = .responseHead head ::
        (chunks.map (.streamData i) ++ [.streamEnd i trailers]) ∧
      trailers = (s.agent.task t).trailers ∧ chunks.flatten = (s.agent.task t).produced ∧
      taken = chunks.map .data ++ [.finish trailers] := by
  have hin := hp.subset hm
  rcases ha with (hnone | ⟨head, chunks, htalk⟩) | ⟨-, ⟨code, message, hans⟩ |
    ⟨head, chunks, code, message, hans⟩ | ⟨head, chunks, hans, hall⟩⟩
  · simp [hnone] at hin
  · rw [htalk, List.filterMap_cons_none rfl, ClientFrame.filterMap_chunkFor_data] at hin
    simp at hin
  · rw [hi] at hans
    simp [hans, ClientFrame.chunkFor, ClientFrame.chunk] at hin
  · rw [hi] at hans
    rw [hans, List.filterMap_cons_none rfl, List.filterMap_append,
      ClientFrame.filterMap_chunkFor_data] at hin
    simp [ClientFrame.chunkFor, ClientFrame.chunk] at hin
  · rw [hi] at hans
    have hchunks : (s.agent.answer i).filterMap (ClientFrame.chunkFor i) =
        chunks.map Chunk.data ++ [.finish (s.agent.task t).trailers] := by
      rw [hans, List.filterMap_cons_none rfl, List.filterMap_append,
        ClientFrame.filterMap_chunkFor_data]
      simp [ClientFrame.chunkFor, ClientFrame.chunk]
    rw [hchunks] at hin hp
    obtain rfl : trailers = (s.agent.task t).trailers := by simpa using hin
    refine ⟨head, chunks, hans, rfl, hall, (List.prefix_concat_iff.mp hp).resolve_right ?_⟩
    -- A shorter prefix is made of data only.
    intro hshort
    have := hshort.subset hm
    simp at this

end Answers

section Runs

variable {limit window downCapacity upCapacity : Nat} {options : AgentOptions} {s : Connection}

theorem answering_of_run
    (h : Reachable step (init limit window options downCapacity upCapacity) s) (i : Nat) :
    s.agent.Answering i :=
  Agent.answering_of_run (agent_reachable h)
    (opened_nodup (wired_of_run h) (Edge.upload_of_run (edge_reachable h)).1) i

theorem inTurn_of_run
    (h : Reachable step (init limit window options downCapacity upCapacity) s) : InTurn s := by
  induction h with
  | nil => exact fun _ => rfl
  | snoc hr _ hs ih =>
    have he := edge_reachable hr
    exact ih.step (wired_of_run hr) (.of_run he) (Edge.upload_of_run he).1 (answering_of_run hr) hs

theorem headsAmong_of_exec {as : List ConnectionAction}
    (h : exec step (init limit window options downCapacity upCapacity) as = some s) :
    s.agent.HeadsAmong (Responded as) := by
  refine (exec_history (P := fun as s =>
    Reachable step (init limit window options downCapacity upCapacity) s ∧
      s.agent.HeadsAmong (Responded as)) ⟨.nil, ?_⟩ ?_ h).2
  · rintro head (hm | ⟨t, ht⟩)
    · simp [init, Agent.init, Agent.log] at hm
    · simp [init, Agent.init, Task.unused] at ht
  · rintro as s a s' ⟨hr, hg⟩ hs
    exact ⟨.snoc hr trivial hs, headsAmong_step hg (.of_run (agent_reachable hr)) hs⟩

/-- In every run, a public client that has read a response up to the agent's `End` has read the
response of the only task of its stream: a head that the local service has answered this task with,
then all the data that the local service has produced for it, then its trailers, and nothing after
them. -/
theorem response_whole {as : List ConnectionAction}
    (h : exec step (init limit window options downCapacity upCapacity) as = some s) {i : Nat}
    {trailers : List Header} (hend : Chunk.finish trailers ∈ (s.edge.request i).taken) :
    ∃ t head, s.agent.tasksFor i = [t] ∧ (s.edge.request i).head = some head ∧
      .agent (.respond t head.status head.headers) ∈ as ∧
      trailers = (s.agent.task t).trailers ∧ s.edge.taken i = (s.agent.task t).produced ∧
      ∃ chunks : List Bytes,
        (s.edge.request i).taken = chunks.map .data ++ [.finish trailers] := by
  have hrun := Reachable.of_exec .nil h
  have hw := wired_of_run hrun
  have he := edge_reachable hrun
  have ha := Agent.WellFormed.of_run (agent_reachable hrun)
  have hd := opened_nodup hw (Edge.upload_of_run he).1
  have hans := answering_of_run hrun i
  have hpre := taken_prefix_answer hw (inTurn_of_run hrun) (Edge.relay_of_run he i).1
  have hopened : i ∈ s.agent.opened := by
    by_contra hn
    rw [hans.unopened hn] at hpre
    simp [List.prefix_nil.mp hpre] at hend
  obtain ⟨t, ht, hi⟩ := ha.mem_opened.mp hopened
  obtain ⟨first, chunks, hanswer, htrailers, hall, htaken⟩ :=
    complete_of_finish hi (hans.answered t ht hi) hpre hend
  have hheaded := Edge.headed_of_run he
  obtain ⟨head, hhead⟩ := Option.isSome_iff_exists.mp
    (hheaded.taken i (List.ne_nil_of_mem hend))
  obtain ⟨hid, hreceived⟩ := hheaded.received i head hhead
  have hlog : ClientFrame.responseHead head ∈ s.agent.log := hw.up_isPrefix.subset hreceived
  obtain ⟨u, hu, hstream, hresponded⟩ := headsAmong_of_exec h head (.inl hlog)
  obtain rfl : u = t := ha.streamId_inj hd hu ht (by rw [hstream, hid, hi])
  refine ⟨u, head, hi ▸ Agent.tasksFor_opened ha hd ht, hhead, hresponded, htrailers, ?_,
    chunks, htaken⟩
  rw [Edge.taken, htaken, ← hall, List.flatMap_append, List.flatMap_map]
  simp [Chunk.bytes]

/-- The second of two concurrent requests is answered up to the `End`. -/
def secondAnswered : List ConnectionAction :=
  twoStreams ++ [.edge .reply, .agent (.finish 0), .agent (.sendEnd 0), .sendUp, .recvUp,
    .edge .deliver, .edge (.takeItem 2)]

/-- The client of the second request has got the head and the two bytes that were meant for it. -/
theorem response_whole_second : ∃ s,
    exec step (init 512 262144 testOptions 8 8) secondAnswered = some s ∧
    s.edge.taken 2 = [4, 5] ∧ ∃ t head, s.agent.tasksFor 2 = [t] ∧
      (s.edge.request 2).head = some head ∧
      .agent (.respond t head.status head.headers) ∈ secondAnswered ∧
      s.edge.taken 2 = (s.agent.task t).produced := by
  obtain ⟨s, hs, htaken, hend⟩ : ∃ s,
      exec step (init 512 262144 testOptions 8 8) secondAnswered = some s ∧
      s.edge.taken 2 = [4, 5] ∧ Chunk.finish [] ∈ (s.edge.request 2).taken :=
    ⟨_, rfl, rfl, by decide⟩
  obtain ⟨t, head, htask, hhead, hresponded, -, hall, -⟩ := response_whole hs hend
  exact ⟨s, hs, htaken, t, head, htask, hhead, hresponded, hall⟩

end Runs

end Connection

end Norupo
