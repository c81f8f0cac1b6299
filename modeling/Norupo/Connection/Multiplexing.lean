import Norupo.Connection.System

/-!
# Streams do not mix

Any number of streams share the two queues and the transport of a session. The bytes of each cross
them in order and without gaps: what the local service has read of a request body is a prefix of
what the public client supplied, and what the public client has read of a response body is a prefix
of what the local service produced. Everything is counted over all tasks the agent ever spawned for
an id, so that no byte is delivered twice either.
-/

namespace Norupo

open Async Transition

namespace Connection

/-- Bytes the local service has been given as request body of a stream, by any task. -/
def requestBody (s : Connection) (i : Nat) : Bytes := (s.agent.tasksFor i).flatMap s.agent.taken

/-- Bytes the local service has produced as response body of a stream, to any task. -/
def produced (s : Connection) (i : Nat) : Bytes :=
  (s.agent.tasksFor i).flatMap fun t => (s.agent.task t).produced

/-- No data of a stream has reached the edge before the stream was opened. -/
def Punctual (s : Connection) : Prop :=
  ∀ i, (s.edge.received.take (s.edge.request i).openedAt).flatMap (ClientFrame.dataFor i) = []

section Streams

variable {s s' : Connection} {a : ConnectionAction}

/-- The agent opens the streams that the edge has opened. -/
theorem opened_isPrefix (hw : Wired s) :
    s.agent.opened <+: s.edge.log.filterMap ServerFrame.opens :=
  hw.down_isPrefix.filterMap ServerFrame.opens

theorem opened_nodup (hw : Wired s) (ho : s.edge.Ordered) : s.agent.opened.Nodup :=
  ho.nodup.sublist (opened_isPrefix hw).sublist

/-- Nothing comes back for a stream that the edge has not allocated. -/
theorem received_unallocated (hw : Wired s) (he : s.edge.WellFormed) (ho : s.edge.Ordered)
    (hf : s.agent.Feeding) {i : Nat} (hi : s.edge.session.nextStreamId ≤ i) :
    s.edge.received.flatMap (ClientFrame.dataFor i) = [] := by
  have hn : i ∉ s.agent.opened :=
    fun hm => Nat.not_lt.mpr hi (ho.allocated he ((opened_isPrefix hw).subset hm))
  obtain ⟨later, hl⟩ := hw.up_isPrefix
  have hnone := hf.unopened i hn
  rw [← hl, List.flatMap_append, List.append_eq_nil_iff] at hnone
  exact hnone.1

theorem Punctual.step (hp : Punctual s) (hw : Wired s) (he : s.edge.WellFormed)
    (ho : s.edge.Ordered) (hf : s.agent.Feeding) (h : s.step a = some s') : Punctual s' := by
  intro i
  rcases (step_cases h).edge_cases with hs | ⟨b, hs, -⟩
  · exact hs ▸ hp i
  · have hc := Edge.step_cases hs
    obtain ⟨later, hl⟩ := hc.received_mono
    rcases hc.openedAt_cases i with hm | ⟨rfl, hm⟩
    · rw [hm, ← hl, List.take_append_of_le_length (he.opened i)]
      exact hp i
    · rw [hm, ← hl, List.take_left]
      exact received_unallocated hw he ho hf le_rfl

/-- The request body of a task is a prefix of the bytes its public client supplied. -/
theorem taken_prefix_supplied (hw : Wired s) (ha : s.agent.WellFormed) (ho : s.edge.Ordered)
    {t : Nat} (ht : t < s.agent.nextTask) (hr : (s.agent.relay t).Faithful)
    (hf : (s.edge.feed (s.agent.task t).streamId).Faithful) :
    s.agent.taken t <+: (s.edge.request (s.agent.task t).streamId).supplied := by
  obtain ⟨frames, request, htake, hid⟩ := ha.openFrame t ht
  -- Before its `Open` nothing was sent for the stream, so all its data has been heard.
  have hbefore : (s.agent.received.take (s.agent.task t).openedAt).flatMap
      (ServerFrame.dataFor (s.agent.task t).streamId) = [] := by
    have hpre : frames ++ [.streamOpen request] <+: s.edge.log :=
      htake ▸ (List.take_prefix _ _).trans hw.down_isPrefix
    have hnd : (frames.filterMap ServerFrame.opens ++ [request.streamId]).Nodup := by
      have hsub := (hpre.filterMap ServerFrame.opens).sublist
      rw [List.filterMap_append] at hsub
      exact ho.nodup.sublist hsub
    have hnew : request.streamId ∉ frames.filterMap ServerFrame.opens :=
      fun hm => List.disjoint_of_nodup_append hnd hm (List.mem_singleton_self _)
    rw [htake, List.flatMap_append, ← hid,
      ho.order _ frames ((List.prefix_append _ _).trans hpre) hnew]
    rfl
  have hcarried : s.agent.carried t =
      s.agent.received.flatMap (ServerFrame.dataFor (s.agent.task t).streamId) := by
    rw [Agent.carried, Agent.heard, ← List.nil_append (List.flatMap _ _), ← hbefore,
      ← List.flatMap_append, List.take_append_drop]
  calc s.agent.taken t
      <+: s.agent.carried t := (List.prefix_append _ _).trans (Agent.taken_append_held_isPrefix hr)
    _ <+: s.edge.log.flatMap (ServerFrame.dataFor (s.agent.task t).streamId) := by
      rw [hcarried]
      exact hw.down_isPrefix.flatMap _
    _ <+: (s.edge.request (s.agent.task t).streamId).supplied := hf.isPrefix

/-- What the public client has read of a response is a prefix of the data the agent has sent. -/
theorem taken_prefix_log (hw : Wired s) (hp : Punctual s) {i : Nat}
    (hr : (s.edge.relay i).Faithful) :
    s.edge.taken i <+: s.agent.log.flatMap (ClientFrame.dataFor i) := by
  have hcarried : s.edge.carried i = s.edge.received.flatMap (ClientFrame.dataFor i) := by
    rw [Edge.carried, Edge.heard, ← List.nil_append (List.flatMap _ _), ← hp i,
      ← List.flatMap_append, List.take_append_drop]
  calc s.edge.taken i
      <+: s.edge.carried i := (List.prefix_append _ _).trans (Edge.taken_append_held_isPrefix hr)
    _ <+: s.agent.log.flatMap (ClientFrame.dataFor i) := by
      rw [hcarried]
      exact hw.up_isPrefix.flatMap _

end Streams

section Runs

variable {limit window downCapacity upCapacity : Nat} {options : AgentOptions} {s : Connection}

theorem punctual_of_run
    (h : Reachable step (init limit window options downCapacity upCapacity) s) : Punctual s := by
  induction h with
  | nil => exact fun _ => rfl
  | snoc hr _ hs ih =>
    have he := edge_reachable hr
    exact ih.step (wired_of_run hr) (.of_run he) (Edge.upload_of_run he).1
      (Agent.feeding_of_run (agent_reachable hr)) hs

/-- In every reachable state the bytes of every stream have crossed the session in order, without
gaps and once, in both directions; and a data frame for a stream that its receiver has closed or
does not know gives no stream a byte. -/
theorem streams_separate
    (h : Reachable step (init limit window options downCapacity upCapacity) s) :
    (∀ i, s.requestBody i <+: (s.edge.request i).supplied ∧ s.edge.taken i <+: s.produced i) ∧
    (∀ i payload rest s', s.up.queue = .streamData i payload :: rest →
      i ∉ s.edge.session.streams → s.step .recvUp = some s' →
      s' = { s with
        up := s.up.pop
        edge := { s.edge with received := s.edge.received ++ [.streamData i payload] } }) ∧
    (∀ i payload rest nowMs s', s.down.queue = .streamData i payload :: rest →
      (∀ t, s.agent.streams i ≠ some ⟨t, true⟩) → s.step (.recvDown nowMs) = some s' →
      s'.edge = s.edge ∧ s'.agent.task = s.agent.task ∧ s'.agent.readLoop.sender = none) := by
  have hw := wired_of_run h
  have he := edge_reachable h
  have hag := agent_reachable h
  have ha := Agent.WellFormed.of_run hag
  obtain ⟨ho, hfeed⟩ := Edge.upload_of_run he
  have hd := opened_nodup hw ho
  have hf := Agent.feeding_of_run hag
  refine ⟨fun i => ?_, ?_, ?_⟩
  · have hup := taken_prefix_log hw (punctual_of_run h) (Edge.relay_of_run he i).1
    by_cases hi : i ∈ s.agent.opened
    · obtain ⟨t, ht, rfl⟩ := ha.mem_opened.mp hi
      simp only [requestBody, produced, Agent.tasksFor_opened ha hd ht, List.flatMap_singleton]
      exact ⟨taken_prefix_supplied hw ha ho ht (Agent.relay_of_run hag t).1 (hfeed _),
        hup.trans (hf.faithful hd t ht).isPrefix⟩
    · rw [hf.unopened i hi] at hup
      simp only [requestBody, produced, Agent.tasksFor_unopened ha hi, List.flatMap_nil]
      exact ⟨List.nil_prefix, hup⟩
  · intro i payload rest s' hq hn hs
    cases step_cases hs with
    | recvUp hq' hs =>
      obtain ⟨rfl, rfl⟩ := List.cons_eq_cons.mp (hq.symm.trans hq')
      rw [Edge.recv_data_unknown (by simp [Session.streamBodySender, hn]) hs]
  · intro i payload rest nowMs s' hq hn hs
    cases step_cases hs with
    | recvDown hq' hs =>
      obtain ⟨rfl, rfl⟩ := List.cons_eq_cons.mp (hq.symm.trans hq')
      exact ⟨rfl, Agent.recv_data_unknown hn hs⟩

/-- Two concurrent requests; the body of the first is answered after that of the second. -/
def twoStreams : List ConnectionAction :=
  let head : HttpRequestHead := ⟨"POST".toList, "/".toList, "a.tunnel.com".toList, [],
    "HTTP/1.1".toList, []⟩
  [.edge .passLimit, .edge (.insert "tun".toList head "198.51.100.7:40000".toList),
    .edge .passLimit, .edge (.insert "tun".toList head "198.51.100.8:40000".toList),
    .edge (.queueOpen 2), .edge (.queueOpen 1), .edge (.pumpData 1 [1, 2]),
    .edge (.pumpAcquire 1), .edge (.pumpQueue 1), .edge (.pumpData 2 [3]),
    .edge (.pumpAcquire 2), .edge (.pumpQueue 2),
    .sendDown, .recvDown 0, .sendDown, .recvDown 0, .agent (.start 0), .agent (.start 1),
    .sendDown, .recvDown 0, .agent .deliver, .agent .reply,
    .sendDown, .recvDown 0, .agent .deliver, .agent .reply,
    .agent (.takeBody 0), .agent (.takeBody 1), .agent (.respond 0 200 []),
    .agent (.sendHead 0), .agent (.produce 0 [4, 5]), .agent (.acquire 0), .agent (.sendData 0),
    .sendUp, .recvUp, .sendUp, .recvUp, .sendUp, .recvUp, .edge (.takeHead 2), .sendUp, .recvUp,
    .edge .deliver, .edge (.takeItem 2)]

/-- Both request bodies and the response have arrived under their own streams. -/
theorem streams_separate_two : ∃ s, Reachable step (init 512 262144 testOptions 8 8) s ∧
    s.requestBody 1 = [1, 2] ∧ s.requestBody 2 = [3] ∧ s.edge.taken 2 = [4, 5] ∧
    s.edge.taken 2 <+: s.produced 2 := by
  obtain ⟨s, hs, hone, htwo, htaken⟩ : ∃ s,
      exec step (init 512 262144 testOptions 8 8) twoStreams = some s ∧
      s.requestBody 1 = [1, 2] ∧ s.requestBody 2 = [3] ∧ s.edge.taken 2 = [4, 5] :=
    ⟨_, rfl, rfl, rfl, rfl⟩
  have hr := Reachable.of_exec .nil hs
  exact ⟨s, hr, hone, htwo, htaken, ((streams_separate hr).1 2).2⟩

end Runs

end Connection

end Norupo
