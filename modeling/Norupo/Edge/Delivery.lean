import Norupo.Edge.Bookkeeping
import Norupo.Foundation.Relay

/-!
# Response bodies on the edge

The way of a response body through the edge is a relay: the read loop takes a frame, holds its chunk
while the stream's queue is full, and the public client takes chunks off the queue. The relay of a
stream is open while the stream is in the table, and what it is sent are the body frames received
since the stream was opened. So, whatever the agent sends and whenever a stream is closed, its
chunks are passed on in order and without gaps.
-/

namespace Norupo

open Async Transition

/-- The body bytes of a chunk. -/
def Chunk.bytes : Chunk → Bytes
  | .data payload => payload
  | _ => []

/-- The chunk that a frame carries for one stream. -/
def ClientFrame.chunkFor (i : Nat) (frame : ClientFrame) : Option Chunk :=
  match frame.chunk with
  | some (j, chunk) => if j = i then some chunk else none
  | none => none

theorem ClientFrame.chunkFor_eq {frame : ClientFrame} {j : Nat} {chunk : Chunk}
    (h : frame.chunk = some (j, chunk)) (i : Nat) :
    frame.chunkFor i = if j = i then some chunk else none := by
  simp [chunkFor, h]

/-- The bytes of a log for a stream are those of its chunks. -/
theorem ClientFrame.dataFor_eq (i : Nat) (frames : List ClientFrame) :
    (frames.filterMap (chunkFor i)).flatMap Chunk.bytes = frames.flatMap (dataFor i) := by
  induction frames with
  | nil => rfl
  | cons frame frames ih =>
    rw [List.flatMap_cons, ← ih]
    cases frame with
    | streamData j payload | streamEnd j trailers | streamReset j code message =>
      by_cases hj : j = i <;> simp [chunkFor, ClientFrame.chunk, dataFor, Chunk.bytes, hj]
    | _ =>
      rw [List.filterMap_cons_none rfl]
      simp [dataFor]

/-- The chunk the read loop holds for a stream. -/
def ReadLoop.holding (i : Nat) : ReadLoop → Option Chunk
  | .delivering j chunk => if j = i then some chunk else none
  | _ => none

namespace Edge

/-- Frames received since a stream was opened. -/
def heard (s : Edge) (i : Nat) : List ClientFrame := s.received.drop (s.request i).openedAt

/-- The response body of a stream on its way through the edge. -/
def relay (s : Edge) (i : Nat) : Relay Chunk where
  channel := (s.session.stream i).body
  hand := s.readLoop.holding i
  taken := (s.request i).taken
  offered := (s.request i).offered
  isOpen := i ∈ s.session.streams
  sent := (s.heard i).filterMap (ClientFrame.chunkFor i)

/-- The read loop holds nothing for an id that has not been allocated. -/
theorem holding_fresh {s : Edge} (hw : WellFormed s) :
    s.readLoop.holding s.session.nextStreamId = none := by
  cases hl : s.readLoop with
  | delivering j chunk =>
    have hlt := hw.delivering j chunk hl
    simp [ReadLoop.holding, Nat.ne_of_lt hlt]
  | _ => rfl

/-- A step of the relay of a stream. -/
abbrev RelayStep (s s' : Edge) (i : Nat) : Prop :=
  Relay.Step streamBufferFrames (s.session.nextStreamId ≤ i) (s.relay i) (s'.relay i)

section Relays

variable {s s' : Edge} {a : EdgeAction} {i : Nat}

theorem relay_hand {chunk : Chunk} (hl : s.readLoop = .delivering i chunk) :
    (s.relay i).hand = some chunk := by
  simp [relay, hl, ReadLoop.holding]

/-- Taking a frame extends what is heard of every stream. -/
theorem heard_recv {frame : ClientFrame} (hw : WellFormed s)
    (hr : s'.received = s.received ++ [frame])
    (ho : (s'.request i).openedAt = (s.request i).openedAt) :
    s'.heard i = s.heard i ++ [frame] := by
  simp [heard, hr, ho, List.drop_append_of_le_length (hw.opened i)]

/-- A step that leaves the stages of a stream alone is a quiet step of its relay. -/
theorem relay_quiet (hb : (s'.session.stream i).body = (s.session.stream i).body)
    (hh : s'.readLoop.holding i = s.readLoop.holding i)
    (ht : (s'.request i).taken = (s.request i).taken)
    (hn : (s'.request i).offered = (s.request i).offered)
    (hs : (s'.heard i).filterMap (ClientFrame.chunkFor i) =
      (s.heard i).filterMap (ClientFrame.chunkFor i))
    (hm : i ∈ s'.session.streams → i ∈ s.session.streams) :
    s.RelayStep s' i :=
  .of_quiet hb hh ht hn hs hm

/-- So is the arrival of a frame that carries nothing for the stream. -/
theorem relay_recv {frame : ClientFrame} (hw : WellFormed s)
    (hr : s'.received = s.received ++ [frame]) (hc : frame.chunkFor i = none)
    (ho : (s'.request i).openedAt = (s.request i).openedAt)
    (hb : (s'.session.stream i).body = (s.session.stream i).body)
    (hh : s'.readLoop.holding i = s.readLoop.holding i)
    (ht : (s'.request i).taken = (s.request i).taken)
    (hn : (s'.request i).offered = (s.request i).offered)
    (hm : i ∈ s'.session.streams → i ∈ s.session.streams) :
    s.RelayStep s' i :=
  relay_quiet hb hh ht hn (by simp [heard_recv hw hr ho, hc]) hm

/-- A step that drops the receiver of a stream. -/
theorem relay_hangUp (hb : (s'.session.stream i).body = (s.session.stream i).body.dropRx)
    (hh : s'.readLoop.holding i = s.readLoop.holding i)
    (hq : (s'.request i).taken = (s.request i).taken ∧
      (s'.request i).offered = (s.request i).offered)
    (hs : s'.heard i = s.heard i) (hm : i ∈ s'.session.streams → i ∈ s.session.streams) :
    s.RelayStep s' i :=
  .of_hangUp hb hh hq.1 hq.2 (by simp only [relay, hs]) hm

/-- Every step of the edge is a step of every stream's relay. -/
theorem Step.relay (hw : WellFormed s) (h : Step s a s') (i : Nat) :
    s.RelayStep s' i := by
  cases h
  case insert =>
    by_cases he : i = s.session.nextStreamId
    · subst he
      refine (Relay.Step.restart le_rfl).of_eq ?_
      simp [Edge.relay, heard, Session.insertStream, Stream.new, Relay.new, Request.new,
        holding_fresh hw]
    · refine relay_quiet ?_ rfl ?_ ?_ ?_ ?_ <;> simp [heard, Session.insertStream, he]
  case takeItem j chunk rest _ _ hq =>
    by_cases he : i = j
    · subst he
      refine (Relay.Step.take (r := s.relay i) hq).of_eq ?_
      simp only [Edge.relay, heard, setRequest, Session.setBody, Function.update_self]
    · refine relay_quiet ?_ rfl ?_ ?_ ?_ ?_ <;> simp [heard, he]
  case recvChunk frame j chunk hl hc hs =>
    by_cases he : j = i
    · subst he
      have hj : j ∈ s.session.streams := by
        simp only [Session.streamBodySender, Bool.and_eq_true, decide_eq_true_eq] at hs
        exact hs.1
      refine (Relay.Step.accept (r := s.relay j) chunk hj
        (by simp [Edge.relay, hl, ReadLoop.holding])).of_eq ?_
      simp [Edge.relay, ReadLoop.holding, heard, List.drop_append_of_le_length (hw.opened j),
        ClientFrame.chunkFor_eq hc]
    · refine relay_recv hw rfl (by simp [ClientFrame.chunkFor_eq hc, he]) ?_ rfl ?_ ?_ ?_ id <;>
        simp [Ne.symm he, he, hl, ReadLoop.holding]
  case recvLateData j payload hl hs =>
    by_cases he : j = i
    · subst he
      have hj : j ∉ s.session.streams := by
        intro hj
        simp [Session.streamBodySender, hj, hw.notClosed j hj] at hs
      refine (Relay.Step.ignore (r := s.relay j) [.data payload]
        hj).of_eq ?_
      simp [Edge.relay, heard, List.drop_append_of_le_length (hw.opened j),
        ClientFrame.chunkFor, ClientFrame.chunk]
    · exact relay_recv hw rfl (by simp [ClientFrame.chunkFor, ClientFrame.chunk, he]) rfl rfl rfl
        rfl rfl id
  case recvLateEnd frame j chunk hl hc hn hs =>
    by_cases he : j = i
    · subst he
      have hj : j ∉ s.session.streams := by
        intro hj
        simp [Session.streamBodySender, hj, hw.notClosed j hj] at hs
      refine (Relay.Step.ignore (r := s.relay j) [chunk]
        hj).of_eq ?_
      simp [Edge.relay, heard, List.drop_append_of_le_length (hw.opened j),
        ClientFrame.chunkFor_eq hc, hj]
    · refine relay_recv hw rfl (by simp [ClientFrame.chunkFor_eq hc, he]) rfl ?_ rfl rfl rfl ?_ <;>
        simp
  case deliverData j payload hl _ hp =>
    by_cases he : j = i
    · subst he
      refine (Relay.Step.push (relay_hand hl) hp id).of_eq ?_
      simp only [Edge.relay, heard, ReadLoop.holding, Session.setBody, Function.update_self]
    · refine relay_quiet ?_ ?_ rfl rfl rfl id <;> simp [Ne.symm he, he, hl, ReadLoop.holding]
  case deliverEmpty j hl hp =>
    by_cases he : j = i
    · subst he
      refine (Relay.Step.push (relay_hand hl) hp id).of_eq ?_
      simp only [Edge.relay, heard, ReadLoop.holding, Session.setBody, Function.update_self]
    · refine relay_quiet ?_ ?_ rfl rfl rfl id <;> simp [Ne.symm he, he, hl, ReadLoop.holding]
  case deliverLast j chunk hl hn hp =>
    by_cases he : j = i
    · subst he
      refine (Relay.Step.push (b := False) (relay_hand hl) hp False.elim).of_eq ?_
      simp [Edge.relay, heard, ReadLoop.holding]
    · refine relay_quiet ?_ ?_ rfl rfl rfl ?_ <;> simp [Ne.symm he, he, hl, ReadLoop.holding]
  case deliverGone j chunk hl hp =>
    by_cases he : j = i
    · subst he
      refine (Relay.Step.lose (relay_hand hl) hp).of_eq ?_
      simp [Edge.relay, heard, ReadLoop.holding]
    · refine relay_quiet ?_ ?_ rfl rfl rfl ?_ <;> simp [he, hl, ReadLoop.holding]
  case recvIgnored frame hl hf =>
    refine relay_recv hw rfl ?_ rfl rfl rfl rfl rfl id
    cases frame <;> simp_all [ClientFrame.isIdle, ClientFrame.chunkFor, ClientFrame.chunk]
  case recvTunnel frame hl hf =>
    refine relay_recv hw rfl ?_ rfl rfl (by simp [hl, ReadLoop.holding]) rfl rfl id
    cases frame <;> simp_all [ClientFrame.isTunnel, ClientFrame.chunkFor, ClientFrame.chunk]
  case recvHead | recvHeadUnheard | recvHeadLate | recvCredit | recvCreditLate | recvPanic =>
    refine relay_recv hw rfl rfl ?_ ?_ ?_ ?_ ?_ id <;>
      simp_all [ReadLoop.holding, Function.update_apply] <;> split_ifs <;> simp_all
  case queueOpenGone j _ _ _ | headLost j _ _ _ | queueTimeoutReset j _ _ |
      queueTimeoutResetGone j _ _ | dropFuture j _ | dropBody j _ _ _ | dropBodySilent j _ _ _ =>
    by_cases he : i = j
    · subst he
      refine relay_hangUp ?_ rfl ?_ ?_ ?_ <;> simp [heard]
    · refine relay_quiet ?_ rfl ?_ ?_ ?_ ?_ <;> simp [heard, he]
  all_goals
    refine relay_quiet ?_ ?_ ?_ ?_ ?_ ?_ <;>
      simp only [heard, closeStream, push, setRequest, setIngress, setPump,
        Session.push, Session.takeCredit, Session.streams_closeStream,
        Session.body_closeStream, Function.update_apply] <;>
      first
        | rfl
        | exact id
        | exact Finset.mem_of_mem_erase
        | (split_ifs <;> simp_all)
        | simp_all [ReadLoop.holding]

end Relays

/-- Response bodies pass the edge in order, without gaps, and every chunk is accounted for. -/
theorem relay_of_run {allowed : Edge → EdgeAction → Prop} {limit window : Nat} {s : Edge}
    (h : Run Edge.step allowed (Edge.init limit window) s) (i : Nat) :
    (s.relay i).Faithful ∧ (s.relay i).Counted streamBufferFrames := by
  refine (h.invariant (P := fun s => WellFormed s ∧ (s.relay i).Faithful ∧
    (s.relay i).Counted streamBufferFrames) ⟨.init limit window, ?_, ?_⟩ ?_).2
  · exact ⟨fun _ => rfl, List.prefix_rfl⟩
  · exact ⟨rfl, Nat.zero_le _, fun _ => rfl⟩
  · rintro s a s' ⟨hw, hf, hc⟩ - hs
    have hr := (step_cases hs).relay hw i
    exact ⟨hw.step hs, hf.step hr, hc.step hr⟩

/-- Body bytes the public client of a stream has been given. -/
def taken (s : Edge) (i : Nat) : Bytes := (s.request i).taken.flatMap Chunk.bytes

/-- Body bytes in the queue of a stream. -/
def held (s : Edge) (i : Nat) : Bytes := (s.session.stream i).body.queue.flatMap Chunk.bytes

/-- Body bytes the agent has sent for a stream since it was opened. -/
def carried (s : Edge) (i : Nat) : Bytes := (s.heard i).flatMap (ClientFrame.dataFor i)

/-- What is taken and held of a response is a prefix of what the agent sent. -/
theorem taken_append_held_isPrefix {s : Edge} {i : Nat} (h : (s.relay i).Faithful) :
    s.taken i ++ s.held i <+: s.carried i := by
  have hp := h.flatMap_isPrefix Chunk.bytes
  simp only [relay, ClientFrame.dataFor_eq] at hp
  exact hp

/-- The read loop waits for a slot in the queue of this stream. -/
def WaitsFor (s : Edge) (i : Nat) : Prop :=
  ∃ chunk, s.readLoop = .delivering i chunk ∧ (s.session.stream i).body.poll = .pending

theorem waitsFor_iff_stuck {s : Edge} {i : Nat} : s.WaitsFor i ↔ (s.relay i).Stuck := by
  cases hl : s.readLoop with
  | delivering j chunk =>
    by_cases hj : j = i <;> simp [WaitsFor, Relay.Stuck, relay, ReadLoop.holding, hl, hj]
  | _ => simp [WaitsFor, Relay.Stuck, relay, ReadLoop.holding, hl]

/-- A data frame for a stream that is not open at the edge changes nothing but the log. -/
theorem recv_data_unknown {s s' : Edge} {i : Nat} {payload : Bytes}
    (hs : s.session.streamBodySender i = false)
    (h : s.step (.recv (.streamData i payload)) = some s') :
    s' = { s with received := s.received ++ [.streamData i payload] } := by
  simp only [step, handleClientFrame, offer, hs] at h
  split at h
  · exact (Option.some.inj h).symm
  · cases h

end Edge

end Norupo
