import Norupo.Edge.Step

/-!
# Bookkeeping of the stream table

What the tasks of a session keep in step whatever the agent sends: the counter of open streams is
the size of the table, ids beyond the counter of allocated ids name nothing, a waiting future still
holds its receivers, and a timed-out stream has left the table.
-/

namespace Norupo

open Async Transition

/-- Closing a stream keeps the counter equal to the size of the table, without underflow. -/
theorem Session.openStreams_closeStream {s : Session} (h : s.openStreams = s.streams.card)
    (i : Nat) : (s.closeStream i).openStreams = (s.streams.erase i).card := by
  unfold closeStream
  split <;> rename_i hi
  · have hpos : 0 < s.streams.card := Finset.card_pos.mpr ⟨i, hi⟩
    simp only [Finset.card_erase_of_mem hi, wrappingPred, h]
    split <;> omega
  · rw [Finset.erase_eq_of_notMem hi, h]

namespace Edge

/-- What holds of the table in every reachable state. -/
structure WellFormed (s : Edge) : Prop where
  /-- `open_streams` counts the entries of the table. -/
  count : s.session.openStreams = s.session.streams.card
  /-- Ids that have not been allocated are unused. -/
  fresh : ∀ i, s.session.nextStreamId ≤ i → i ∉ s.session.streams ∧ s.request i = Request.new
  /-- A future that still waits holds the body receiver. -/
  receiver : ∀ i, (s.request i).ingress.live = true → (s.session.stream i).body.rxOpen = true
  /-- A future that reports a timeout has already closed its stream. -/
  resetting : ∀ i, (s.request i).ingress = .resetting → i ∉ s.session.streams
  /-- A stream in the table has not been torn down. -/
  notClosed : ∀ i ∈ s.session.streams, (s.session.stream i).closed = false
  /-- The read loop only delivers to streams that have been allocated. -/
  delivering : ∀ i chunk, s.readLoop = .delivering i chunk → i < s.session.nextStreamId
  /-- A stream was opened after a prefix of the frames received. -/
  opened : ∀ i, (s.request i).openedAt ≤ s.received.length
  /-- The read loop queues window updates and tunnel statuses only. -/
  replying : ∀ frame, s.readLoop = .replying frame → frame.isReply = true
  /-- Before the `Open` of a stream is queued its pump does not exist. -/
  opening : ∀ i request, (s.request i).ingress = .opening request →
    request.streamId = i ∧ (s.request i).pump = .absent

/-- A stream in the table has been allocated. -/
theorem WellFormed.allocated_of_mem {s : Edge} (hw : WellFormed s) {i : Nat}
    (hm : i ∈ s.session.streams) : i < s.session.nextStreamId := by
  by_contra hn
  exact (hw.fresh i (Nat.le_of_not_lt hn)).1 hm

/-- A stream with a pump has been allocated. -/
theorem WellFormed.allocated_of_pump {s : Edge} (hw : WellFormed s) {i : Nat}
    (hp : (s.request i).pump ≠ .absent) : i < s.session.nextStreamId := by
  by_contra hn
  exact hp (by simp [(hw.fresh i (Nat.le_of_not_lt hn)).2, Request.new])

/-- Nothing is open in a fresh session. -/
theorem WellFormed.init (limit window : Nat) : WellFormed (Edge.init limit window) where
  count := rfl
  fresh _ _ := ⟨Finset.notMem_empty _, rfl⟩
  receiver _ h := by simp [Edge.init, Request.new, Ingress.live] at h
  resetting _ h := by simp [Edge.init, Request.new] at h
  notClosed _ h := absurd h (Finset.notMem_empty _)
  delivering _ _ h := by simp [Edge.init] at h
  opened _ := le_rfl
  replying _ h := by simp [Edge.init] at h
  opening _ _ h := by simp [Edge.init, Request.new] at h

section Preservation

variable {s s' : Edge} {a : EdgeAction}

theorem WellFormed.count_step (hw : WellFormed s) (h : Step s a s') :
    s'.session.openStreams = s'.session.streams.card := by
  have hc := hw.count
  cases h
  case insert =>
    have hn := (hw.fresh _ le_rfl).1
    simp [Session.insertStream, hn, hc]
  case deliverLast i chunk _ _ _ =>
    exact (Session.openStreams_closeStream (by exact hc) i).trans (by simp)
  all_goals first
    | exact hc
    | simpa using Session.openStreams_closeStream hc _
    | simpa using Session.openStreams_closeStream (by exact hc) _

/-- An id that names nothing is used by its allocation only. -/
theorem Step.unused (h : Step s a s') {i : Nat}
    (hi : i < s.session.nextStreamId ∨ s'.session.nextStreamId ≤ i)
    (hn : i ∉ s.session.streams) (hr : s.request i = Request.new) :
    i ∉ s'.session.streams ∧ s'.request i = Request.new := by
  cases h
  case insert =>
    have hne : i ≠ s.session.nextStreamId := by
      rcases hi with hlt | hle
      · exact Nat.ne_of_lt hlt
      · exact Nat.ne_of_gt hle
    simp [Session.insertStream, hne, hn, hr]
  case recvHead head _ hmem _ _ =>
    have hne : i ≠ head.streamId := fun he => hn (he ▸ hmem)
    simp [hne, hn, hr]
  case recvChunk frame j chunk _ _ hsend =>
    have hne : i ≠ j := by
      rintro rfl
      simp [Session.streamBodySender, hn] at hsend
    simp [hne, hn, hr]
  -- The remaining moves of a request require a future or a pump, which an unused id does not have.
  all_goals first
    | exact ⟨hn, hr⟩
    | refine ⟨by simp [hn], ?_⟩
      simp only [closeStream, push, setRequest, setIngress, setPump, dropRx, settle,
        Function.update_apply]
      split
      · simp_all [Request.new, Ingress.live]
      · exact hr
    | exact ⟨by simp [hn], by simpa using hr⟩

theorem Step.nextStreamId_mono (h : Step s a s') :
    s.session.nextStreamId ≤ s'.session.nextStreamId := by
  cases h
  case insert => exact Nat.le_succ _
  all_goals first | exact le_rfl | simp

theorem WellFormed.fresh_step (hw : WellFormed s) (h : Step s a s') (i : Nat)
    (hi : s'.session.nextStreamId ≤ i) :
    i ∉ s'.session.streams ∧ s'.request i = Request.new := by
  obtain ⟨hn, hr⟩ := hw.fresh i (h.nextStreamId_mono.trans hi)
  exact h.unused (.inr hi) hn hr

/-- Live futures are exactly those that hold their receiver. -/
theorem WellFormed.receiver_step (hw : WellFormed s) (h : Step s a s') (i : Nat)
    (hi : (s'.request i).ingress.live = true) : (s'.session.stream i).body.rxOpen = true := by
  have hr := hw.receiver i
  cases h
  case insert =>
    by_cases he : i = s.session.nextStreamId
    · subst he
      simp [Session.insertStream, Stream.new]
    · simpa [Session.insertStream, he] using hr (by simpa [he] using hi)
  all_goals
    simp only [closeStream, push, setRequest, setIngress, setPump, dropRx, settle,
      Session.push, Session.setBody, Session.takeCredit, Session.addCredit, Session.takeHeadTx,
      Session.body_closeStream, Function.update_apply] at hi ⊢
    first
      | exact hr hi
      | (split <;> simp_all [Ingress.live])
      | (split_ifs at hi <;> simp_all [Ingress.live])

theorem WellFormed.resetting_step (hw : WellFormed s) (h : Step s a s') (i : Nat)
    (hi : (s'.request i).ingress = .resetting) : i ∉ s'.session.streams := by
  have hr := hw.resetting i
  cases h
  case insert =>
    have hne : i ≠ s.session.nextStreamId := by
      rintro rfl
      simp at hi
    simpa [Session.insertStream, hne] using hr (by simpa [hne] using hi)
  all_goals
    simp only [closeStream, push, setRequest, setIngress, setPump, dropRx, settle,
      Session.push, Session.setBody, Session.takeCredit, Session.addCredit, Session.takeHeadTx,
      Session.streams_closeStream, Function.update_apply] at hi ⊢
    first
      | exact hr hi
      | (split_ifs at hi <;> simp_all)
      | simp_all

theorem WellFormed.notClosed_step (hw : WellFormed s) (h : Step s a s') (i : Nat)
    (hi : i ∈ s'.session.streams) : (s'.session.stream i).closed = false := by
  have hr := hw.notClosed i
  cases h
  case insert =>
    by_cases he : i = s.session.nextStreamId
    · subst he
      simp [Session.insertStream, Stream.new]
    · simpa [Session.insertStream, he] using hr (by simpa [Session.insertStream, he] using hi)
  all_goals
    simp only [closeStream, push, setRequest, setIngress, setPump, dropRx, settle,
      Session.push, Session.setBody, Session.takeCredit, Session.addCredit, Session.takeHeadTx,
      Session.streams_closeStream, Function.update_apply, Finset.mem_erase] at hi ⊢
    first
      | exact hr hi
      | (rw [Session.closed_closeStream _ hi.1]; exact hr hi.2)
      | (split_ifs <;> simp_all [Session.closed_closeStream])
      | simp_all [Session.closed_closeStream]

theorem WellFormed.delivering_step (hw : WellFormed s) (h : Step s a s') (i : Nat)
    (chunk : Chunk) (hi : s'.readLoop = .delivering i chunk) : i < s'.session.nextStreamId := by
  have hr := hw.delivering i chunk
  cases h
  case insert => exact Nat.lt_succ_of_lt (hr hi)
  case recvChunk hsend =>
    obtain ⟨rfl, -⟩ : _ = i ∧ _ = chunk := by simpa using hi
    refine hw.allocated_of_mem ?_
    by_contra hn
    simp [Session.streamBodySender, hn] at hsend
  all_goals first
    | cases hi
    | simpa using hr hi

/-- A step receives nothing, or it takes the next frame. -/
theorem Step.received_cases (h : Step s a s') :
    s'.received = s.received ∨ ∃ frame, a = .recv frame ∧ s'.received = s.received ++ [frame] := by
  cases h <;> first | exact .inl rfl | exact .inr ⟨_, rfl, rfl⟩

/-- Frames that were received stay received. -/
theorem Step.received_mono (h : Step s a s') : s.received <+: s'.received := by
  rcases h.received_cases with hs | ⟨frame, -, hs⟩
  · exact hs ▸ List.prefix_rfl
  · exact hs ▸ List.prefix_append _ _

/-- A stream is marked when it is inserted, with the number of frames received so far. -/
theorem Step.openedAt_cases (h : Step s a s') (i : Nat) :
    (s'.request i).openedAt = (s.request i).openedAt ∨
      i = s.session.nextStreamId ∧ (s'.request i).openedAt = s.received.length := by
  cases h
  case insert =>
    by_cases hi : i = s.session.nextStreamId
    · exact .inr ⟨hi, by simp [hi]⟩
    · exact .inl (by simp [hi])
  all_goals
    left
    first
      | rfl
      | (simp only [closeStream, push, setRequest, setIngress, setPump, dropRx, settle,
          Function.update_apply]
         split_ifs <;> simp_all)

theorem WellFormed.opened_step (hw : WellFormed s) (h : Step s a s') (i : Nat) :
    (s'.request i).openedAt ≤ s'.received.length := by
  have hle := h.received_mono.length_le
  rcases h.openedAt_cases i with ho | ⟨-, ho⟩
  · exact ho ▸ (hw.opened i).trans hle
  · exact ho ▸ hle

theorem WellFormed.replying_step (hw : WellFormed s) (h : Step s a s') (frame : ServerFrame)
    (hf : s'.readLoop = .replying frame) : frame.isReply = true := by
  have hr := hw.replying frame
  cases h
  case deliverData =>
    obtain rfl : _ = frame := by simpa using hf
    rfl
  case registered =>
    obtain rfl : _ = frame := by simpa using hf
    rfl
  all_goals first
    | exact hr hf
    | cases hf

theorem WellFormed.opening_step (hw : WellFormed s) (h : Step s a s') (i : Nat)
    (request : StreamOpen) (hi : (s'.request i).ingress = .opening request) :
    request.streamId = i ∧ (s'.request i).pump = .absent := by
  have hr := hw.opening i request
  cases h
  case insert =>
    by_cases he : i = s.session.nextStreamId
    · subst he
      obtain rfl : _ = request := by simpa using hi
      simp [Request.new]
    · simpa [he] using hr (by simpa [he] using hi)
  all_goals
    simp only [closeStream, push, setRequest, setIngress, setPump, dropRx, settle,
      Function.update_apply] at hi ⊢
    first
      | exact hr hi
      | (split_ifs at hi ⊢ <;> simp_all)

end Preservation

/-- The bookkeeping holds in every reachable state. -/
theorem WellFormed.step {s s' : Edge} {a : EdgeAction} (hw : WellFormed s)
    (h : s.step a = some s') : WellFormed s' where
  count := hw.count_step (step_cases h)
  fresh := hw.fresh_step (step_cases h)
  receiver := hw.receiver_step (step_cases h)
  resetting := hw.resetting_step (step_cases h)
  notClosed := hw.notClosed_step (step_cases h)
  delivering := hw.delivering_step (step_cases h)
  opened := hw.opened_step (step_cases h)
  replying := hw.replying_step (step_cases h)
  opening := hw.opening_step (step_cases h)

/-- The bookkeeping holds in every reachable state. -/
theorem WellFormed.of_run {allowed : Edge → EdgeAction → Prop} {limit window : Nat} {s : Edge}
    (h : Run Edge.step allowed (Edge.init limit window) s) : WellFormed s :=
  h.invariant (.init limit window) fun _ _ _ hw _ hs => hw.step hs

end Edge

end Norupo
