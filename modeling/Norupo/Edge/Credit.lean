import Norupo.Edge.Window
import Norupo.Foundation.Account

/-!
# The credit of the edge

Two accounts for each stream. As a sender the edge pays with its credit for the data it sends and is
paid in `WindowUpdate` frames. As a receiver it owes credit for the data that has arrived, and
returns it. Chunks are at most a frame long, so that no length is cut short on the way into a frame
or a semaphore.
-/

namespace Norupo

open Async Transition

/-- The bytes a pump has taken credit for and not queued yet. -/
def Pump.hand : Pump → Nat
  | .acquired chunk _ => chunk.length
  | _ => 0

@[simp] theorem Pump.hand_next (chunks : List Bytes) : (Pump.next chunks).hand = 0 := by
  cases chunks <;> rfl

/-- The chunks that a pump has in hand. -/
def Pump.chunks : Pump → List Bytes
  | .sending chunks => chunks
  | .acquired chunk rest => chunk :: rest
  | _ => []

@[simp] theorem Pump.chunks_next (chunks : List Bytes) : (Pump.next chunks).chunks = chunks := by
  cases chunks <;> rfl

/-- The bytes of a stream that the read loop is handling. -/
def ReadLoop.dataFor (i : Nat) : ReadLoop → Nat
  | .delivering j (.data payload) => if j = i then payload.length else 0
  | _ => 0

/-- The credit of a stream that the read loop is about to return. -/
def ReadLoop.creditFor (i : Nat) : ReadLoop → Nat
  | .replying frame => frame.creditFor i
  | _ => 0

/-- The chunks of a payload are at most a frame, and at most the payload, long. -/
theorem length_le_of_mem_splitLoop {payload chunk : Bytes} (h : chunk ∈ splitLoop payload) :
    chunk.length ≤ maxChunk ∧ chunk.length ≤ payload.length := by
  fun_induction splitLoop payload with
  | case1 payload hlt ih =>
    rcases List.mem_cons.mp h with rfl | hmem
    · simp only [List.length_take]
      omega
    · have := ih hmem
      simp only [List.length_drop] at this
      omega
  | case2 payload hle =>
    obtain rfl := List.mem_singleton.mp h
    omega

theorem length_le_of_mem_splitChunks {payload chunk : Bytes} (h : chunk ∈ splitChunks payload) :
    chunk.length ≤ maxChunk ∧ chunk.length ≤ payload.length := by
  unfold splitChunks at h
  split at h
  · obtain rfl := List.mem_singleton.mp h
    omega
  · exact length_le_of_mem_splitLoop h

/-- Lengths up to a frame fit a semaphore and a frame. -/
theorem toU32_of_le {n : Nat} (h : n ≤ maxChunk) : toU32 n = n := by
  simp only [maxChunk, toU32] at *
  omega

namespace Session

/-- The credit of a stream that has left the table is closed. Ids are allocated from one. -/
def Released (s : Session) : Prop :=
  ∀ i < s.nextStreamId, 0 < i → i ∉ s.streams → (s.stream i).sendCredit.isClosed = true

variable {s : Session} {i : Nat}

theorem Released.closeStream (hr : Released s) : Released (s.closeStream i) := by
  unfold Session.closeStream
  split
  · intro j hj hpos hn
    by_cases he : j = i
    · simp [he, Semaphore.close]
    · simpa [he] using hr j hj hpos (by simpa [he] using hn)
  · exact hr

/-- Changing a stream object without opening its credit. -/
theorem Released.update (hr : Released s) {stream : Stream}
    (hc : stream.sendCredit.isClosed = (s.stream i).sendCredit.isClosed) :
    Released { s with stream := Function.update s.stream i stream } := by
  intro j hj hpos hn
  have hold := hr j hj hpos hn
  by_cases he : j = i
  · subst he
    simpa [hc] using hold
  · simpa [he] using hold

theorem Released.insertStream (hr : Released s) : Released s.insertStream := by
  intro j hj hpos hn
  simp only [Session.insertStream, Finset.mem_insert, not_or] at hj hn
  simpa [Session.insertStream, hn.1] using hr j (by omega) hpos hn.2

end Session

namespace Edge

/-- Bytes of a stream that have been sent or queued. -/
def sent (s : Edge) (i : Nat) : Nat := (s.log.flatMap (ServerFrame.dataFor i)).length

/-- Credit that has arrived for a stream. -/
def credited (s : Edge) (i : Nat) : Nat := (s.received.map (ClientFrame.creditFor i)).sum

/-- The account of a stream's request body: credit against data. It is intact while the stream is
open and no chunk has been lost with the outbound queue. -/
def payer (s : Edge) (i : Nat) : Account where
  spent := (s.session.stream i).sendCredit.permits + (s.request i).pump.hand + s.sent i
  earned := s.credited i
  intact := i ∈ s.session.streams ∧ s.readLoop ≠ .crashed ∧
    (s.session.outbound.rxOpen = true ∨ (s.request i).pump ≠ .done)

/-- The account of a stream's response body: data against credit. It is intact while the stream is
open and credit can be queued. -/
def payee (s : Edge) (i : Nat) : Account where
  spent := s.promised i + s.readLoop.creditFor i + s.readLoop.dataFor i
  earned := s.arrived i
  intact := i ∈ s.session.streams ∧ s.session.outbound.rxOpen = true

/-- Chunks are at most a frame long, and every stream is opened with the window of the session. -/
structure Sized (s : Edge) : Prop where
  pump : ∀ i, ∀ chunk ∈ (s.request i).pump.chunks, chunk.length ≤ maxChunk
  log : ∀ i payload, ServerFrame.streamData i payload ∈ s.log → payload.length ≤ maxChunk
  opening : ∀ i request, (s.request i).ingress = .opening request →
    request.initialWindow = s.session.initialWindow
  opened : ∀ request, ServerFrame.streamOpen request ∈ s.log →
    request.initialWindow = s.session.initialWindow

/-- Credit is returned for allocated streams only. -/
structure Billed (s : Edge) : Prop where
  replying : ∀ i increment, s.readLoop = .replying (.windowUpdate i increment) →
    i < s.session.nextStreamId
  promised : ∀ i, s.session.nextStreamId ≤ i → s.promised i = 0

section Preservation

variable {s s' : Edge} {a : EdgeAction}

/-- The window of a session does not change. -/
theorem Step.initialWindow_eq (h : Step s a s') :
    s'.session.initialWindow = s.session.initialWindow := by
  cases h <;> first | rfl | simp

/-- A pump gets its chunks from the public body. -/
theorem Step.chunks_cases (h : Step s a s') {i : Nat} {chunk : Bytes}
    (hc : chunk ∈ (s'.request i).pump.chunks) : chunk ∈ (s.request i).pump.chunks ∨
      ∃ payload, a = .pumpData i payload ∧ chunk ∈ splitChunks payload := by
  cases h
  case pumpData j payload hj hn hm =>
    by_cases he : i = j
    · subst he
      exact .inr ⟨payload, rfl, by simpa [Pump.chunks] using hc⟩
    · exact .inl (by simpa [he] using hc)
  case pumpAcquire j _ rest hj hp =>
    left
    by_cases he : i = j
    · subst he
      simpa [hj, Pump.chunks] using hc
    · simpa [he] using hc
  case pumpQueue j _ rest hj hp =>
    left
    by_cases he : i = j
    · subst he
      have hrest : chunk ∈ rest := by simpa using hc
      simp [hj, Pump.chunks, hrest]
    · simpa [he] using hc
  all_goals
    left
    simp only [closeStream, push, setRequest, setIngress, setPump, dropRx, settle,
      Function.update_apply] at hc
    first
      | exact hc
      | (split_ifs at hc <;> simp_all [Pump.chunks, Request.new])

theorem Sized.init (limit window : Nat) : Sized (Edge.init limit window) where
  pump i chunk h := by simp [Edge.init, Request.new, Pump.chunks] at h
  log i payload h := by simp [Edge.log, Edge.init, Session.new] at h
  opening i request h := by simp [Edge.init, Request.new] at h
  opened request h := by simp [Edge.log, Edge.init, Session.new] at h

theorem Sized.opening_step (hz : Sized s) (h : Step s a s') (i : Nat) (request : StreamOpen)
    (hi : (s'.request i).ingress = .opening request) :
    request.initialWindow = s.session.initialWindow := by
  have hr := hz.opening i request
  cases h
  case insert =>
    by_cases he : i = s.session.nextStreamId
    · subst he
      obtain rfl : _ = request := by simpa using hi
      rfl
    · exact hr (by simpa [he] using hi)
  all_goals
    simp only [closeStream, push, setRequest, setIngress, setPump, dropRx, settle,
      Function.update_apply] at hi
    first
      | exact hr hi
      | (split_ifs at hi <;> simp_all)

theorem Sized.step (hw : WellFormed s) (hz : Sized s) (h : s.step a = some s') : Sized s' := by
  have hs := step_cases h
  have hlog := hs.log_cases hw
  refine ⟨fun i chunk hc => ?_, fun i payload hm => ?_, fun i request hi => ?_,
    fun request hm => ?_⟩
  · rcases hs.chunks_cases hc with hold | ⟨payload, -, hnew⟩
    · exact hz.pump i chunk hold
    · exact (length_le_of_mem_splitChunks hnew).1
  · rcases hlog with hl | ⟨frame, hl, he⟩
    · exact hz.log i payload (hl ▸ hm)
    · rw [hl, List.mem_append, List.mem_singleton] at hm
      rcases hm with hold | rfl
      · exact hz.log i payload hold
      · obtain ⟨-, rest, hp⟩ := he
        exact hz.pump i payload (by simp [hp, Pump.chunks])
  · rw [hs.initialWindow_eq]
    exact hz.opening_step hs i request hi
  · rw [hs.initialWindow_eq]
    rcases hlog with hl | ⟨frame, hl, he⟩
    · exact hz.opened request (hl ▸ hm)
    · rw [hl, List.mem_append, List.mem_singleton] at hm
      rcases hm with hold | rfl
      · exact hz.opened request hold
      · exact hz.opening request.streamId request he.2

/-- No step brings an allocated stream back into the table. -/
theorem Step.streams_anti (h : Step s a s') {i : Nat} (hi : i < s.session.nextStreamId)
    (hm : i ∈ s'.session.streams) : i ∈ s.session.streams := by
  cases h
  case insert => simpa [Session.insertStream, Nat.ne_of_lt hi] using hm
  all_goals first
    | exact hm
    | exact Finset.mem_of_mem_erase (by simpa using hm)

/-- A read loop that has panicked stays so. -/
theorem Step.crashed (h : Step s a s') (hc : s.readLoop = .crashed) : s'.readLoop = .crashed := by
  cases h <;> first | exact hc | simp_all

/-- A queue without a receiver stays so. -/
theorem Step.rxOpen_anti (h : Step s a s') (hx : s'.session.outbound.rxOpen = true) :
    s.session.outbound.rxOpen = true := by
  cases h
  case dropOutbound => simp at hx
  all_goals first | exact hx | simpa using hx

/-- A pump that is over stays over. -/
theorem Step.pump_done (hw : WellFormed s) (h : Step s a s') {i : Nat}
    (hi : i < s.session.nextStreamId) (hd : (s.request i).pump = .done) :
    (s'.request i).pump = .done := by
  have ho : ∀ request, (s.request i).ingress ≠ .opening request := by
    intro request he
    simp [(hw.opening i request he).2] at hd
  cases h
  case insert => simpa [Nat.ne_of_lt hi] using hd
  all_goals
    simp only [closeStream, push, setRequest, setIngress, setPump, dropRx, settle,
      Function.update_apply]
    first
      | exact hd
      | (split_ifs <;> simp_all)

/-- Data of a stream is queued by its pump only. -/
theorem Step.sent_eq (hw : WellFormed s) (h : Step s a s') {i : Nat} (hn : a ≠ .pumpQueue i) :
    s'.sent i = s.sent i := by
  rw [sent, h.data_eq hw fun chunk he => hn he.1, sent]

/-- Credit arrives with its frame only. -/
theorem Step.credited_eq (h : Step s a s') {i : Nat}
    (hn : ∀ increment, a ≠ .recv (.windowUpdate i increment)) : s'.credited i = s.credited i := by
  rcases h.received_cases with hr | ⟨frame, rfl, hr⟩
  · rw [credited, hr, credited]
  · have hzero : frame.creditFor i = 0 := by
      refine ClientFrame.creditFor_eq_zero ?_
      rintro increment rfl
      exact hn increment rfl
    simp [credited, hr, hzero]

/-- The credit of a stream is used by its pump and grows with its frames only. -/
theorem Step.permits_eq (h : Step s a s') {i : Nat} (hi : i < s.session.nextStreamId)
    (ha : a ≠ .pumpAcquire i) (hn : ∀ increment, a ≠ .recv (.windowUpdate i increment)) :
    (s'.session.stream i).sendCredit.permits = (s.session.stream i).sendCredit.permits := by
  cases h
  case insert => simp [Session.insertStream, Nat.ne_of_lt hi]
  case pumpAcquire j chunk rest hj hp =>
    have hne : i ≠ j := fun he => ha (he ▸ rfl)
    simp [hne]
  case recvCredit j increment hl hm hmax =>
    have hne : i ≠ j := fun he => hn increment (he ▸ rfl)
    simp [hne]
  all_goals first
    | rfl
    | (simp only [closeStream, push, setRequest, setIngress, setPump, dropRx, settle,
        Session.push, Session.setBody, Session.takeHeadTx, Session.permits_closeStream,
        Function.update_apply] <;>
       split_ifs <;> simp_all)

/-- An account that is intact has been intact. -/
theorem Step.payer_intact (hw : WellFormed s) (h : Step s a s') {i : Nat}
    (hi : i < s.session.nextStreamId) (hin : (s'.payer i).intact) : (s.payer i).intact := by
  obtain ⟨hm, hc, hx⟩ := hin
  refine ⟨h.streams_anti hi hm, fun hold => hc (h.crashed hold), ?_⟩
  rcases hx with hx | hp
  · exact .inl (h.rxOpen_anti hx)
  · exact .inr fun hold => hp (h.pump_done hw hi hold)

/-- A step that leaves the credit and the data of a stream alone. -/
theorem payer_quiet {i : Nat}
    (hp : (s'.session.stream i).sendCredit.permits = (s.session.stream i).sendCredit.permits)
    (hh : (s'.request i).pump.hand = (s.request i).pump.hand) (hs : s'.sent i = s.sent i)
    (hc : s'.credited i = s.credited i) (hin : (s'.payer i).intact → (s.payer i).intact) :
    Account.Step (s.payer i) (s'.payer i) :=
  .quiet (by simp only [payer, hp, hh, hs]) hc hin

/-- Every step of the edge is a step of the account of a stream's request body. -/
theorem Step.payer (hw : WellFormed s) (hz : Sized s) (h : Step s a s') {i : Nat}
    (hi : i < s.session.nextStreamId) : Account.Step (s.payer i) (s'.payer i) := by
  have hin := h.payer_intact hw hi
  have hpermits := h.permits_eq hi
  have hsent := h.sent_eq hw (i := i)
  have hcredit := h.credited_eq (i := i)
  cases h
  case pumpAcquire j chunk rest hj hp =>
    by_cases he : i = j
    · subst he
      have hlen : toU32 chunk.length = chunk.length :=
        toU32_of_le (hz.pump i chunk (by simp [hj, Pump.chunks]))
      have hle := (Semaphore.poll_eq_ready.mp hp).2
      rw [hlen] at hle
      refine .quiet ?_ rfl hin
      rw [Edge.payer, Edge.payer, hsent (by simp)]
      simp only [hj, hlen, Pump.hand, Semaphore.take, setPump, setRequest, Session.takeCredit,
        Function.update_self]
      omega
    · exact payer_quiet (by simp [he]) (by simp [he]) (hsent (by simp)) rfl hin
  case pumpQueue j chunk rest hj hp =>
    by_cases he : i = j
    · subst he
      refine .quiet ?_ rfl hin
      have hlog : sent ((s.push (.streamData i chunk)).setPump i (Pump.next rest)) i =
          s.sent i + chunk.length := by
        simp [sent, log, ServerFrame.dataFor, Nat.add_assoc]
      rw [Edge.payer, Edge.payer, hlog]
      simp only [hj, setPump, setRequest, push, Session.push, Function.update_self,
        Pump.hand_next]
      simp only [Pump.hand]
      omega
    · exact payer_quiet rfl (by simp [he]) (hsent (by simpa using Ne.symm he)) rfl hin
  case pumpQueueGone j chunk rest hj hp =>
    by_cases he : i = j
    · subst he
      refine .lose ?_ le_rfl ?_
      · simp [Edge.payer, hj, Pump.hand, sent, log]
      · simp [Edge.payer, Channel.poll_eq_closed.mp hp]
    · exact payer_quiet rfl (by simp [he]) rfl rfl hin
  case recvCredit j increment hl hm hmax =>
    by_cases he : i = j
    · subst he
      refine .enter increment ?_ ?_ hin
      · simp [Edge.payer, Semaphore.add, sent, log]
        omega
      · simp [Edge.payer, credited, ClientFrame.creditFor]
    · exact payer_quiet (by simp [he]) rfl rfl (hcredit (by simp [Ne.symm he])) hin
  case recvCreditLate j increment hl hm =>
    by_cases he : i = j
    · subst he
      exact .lose le_rfl (by simp [Edge.payer, credited]) (by simp [Edge.payer, hm])
    · exact payer_quiet rfl rfl rfl (hcredit (by simp [Ne.symm he])) hin
  case recvPanic j increment hl hm hmax =>
    exact .lose le_rfl (by simp [Edge.payer, credited]) (by simp [Edge.payer])
  case insert =>
    have hne := Nat.ne_of_lt hi
    exact payer_quiet (by simp [Session.insertStream, hne]) (by simp [hne]) rfl rfl hin
  case queueOpen j request hj hp =>
    have habs := (hw.opening j request hj).2
    refine payer_quiet rfl ?_ (hsent (by simp)) rfl hin
    by_cases he : i = j
    · subst he
      simp [habs, Pump.hand]
    · simp [he]
  all_goals
    refine payer_quiet ?_ ?_ (hsent (by simp)) (hcredit ?_) hin
    · first
        | rfl
        | (refine hpermits (by simp) fun increment ha => ?_
           cases ha <;> simp_all [ClientFrame.chunk])
    · first
        | rfl
        | (simp only [closeStream, push, setRequest, setIngress, setPump, dropRx, settle,
            Function.update_apply]
           split_ifs <;> simp_all [Pump.hand])
    · first
        | (intro increment ha; cases ha; done)
        | (rintro increment ⟨⟩
           simp_all [ClientFrame.isIdle, ClientFrame.isTunnel, ClientFrame.chunk])

/-- Data arrives with its frame only. -/
theorem Step.arrived_eq (h : Step s a s') {i : Nat}
    (hn : ∀ payload, a ≠ .recv (.streamData i payload)) : s'.arrived i = s.arrived i := by
  rcases h.received_cases with hr | ⟨frame, rfl, hr⟩
  · rw [arrived, hr, arrived]
  · have hd : frame.dataFor i = [] := by
      refine ClientFrame.dataFor_eq_nil ?_
      rintro payload rfl
      exact hn payload rfl
    simp [arrived, hr, hd]

theorem Step.promised_eq (hw : WellFormed s) (h : Step s a s') {i : Nat} (hn : a ≠ .reply) :
    s'.promised i = s.promised i := by
  rcases h.promised_cases hw i with hp | ⟨increment, ha, -⟩
  · exact hp
  · exact absurd ha hn

/-- A step that leaves what is owed for a stream alone. -/
theorem payee_quiet {i : Nat} (hp : s'.promised i = s.promised i)
    (hl : s'.readLoop.creditFor i + s'.readLoop.dataFor i =
      s.readLoop.creditFor i + s.readLoop.dataFor i)
    (ha : s'.arrived i = s.arrived i) (hin : (s'.payee i).intact → (s.payee i).intact) :
    Account.Step (s.payee i) (s'.payee i) :=
  .quiet (by simp only [payee, Nat.add_assoc, hp, hl]) ha hin

/-- The read loop delivers what has arrived. -/
theorem received_of_delivering {i : Nat} {payload : Bytes} (hr : (s.relay i).Faithful)
    (hl : s.readLoop = .delivering i (.data payload)) : .streamData i payload ∈ s.received := by
  have hacc : Chunk.data payload ∈ (s.relay i).accepted := by
    simp [Relay.accepted, Relay.waiting, relay_hand hl]
  obtain ⟨frame, hm, hf⟩ := List.mem_filterMap.mp (hr.isPrefix.subset hacc)
  have hframe : frame = .streamData i payload := by
    unfold ClientFrame.chunkFor at hf
    cases frame <;> simp_all [ClientFrame.chunk]
  exact hframe ▸ List.mem_of_mem_drop hm

/-- Every step of the edge is a step of the account of a stream's response body, when the frames of
the agent have the length of frames. -/
theorem Step.payee (hw : WellFormed s) (hr : ∀ i, (s.relay i).Faithful)
    (hz : ∀ i payload, ClientFrame.streamData i payload ∈ s.received → payload.length ≤ maxChunk)
    (h : Step s a s') {i : Nat} (hi : i < s.session.nextStreamId) :
    Account.Step (s.payee i) (s'.payee i) := by
  have hin : (s'.payee i).intact → (s.payee i).intact :=
    fun hx => ⟨h.streams_anti hi hx.1, h.rxOpen_anti hx.2⟩
  have hprom := h.promised_eq hw (i := i)
  have harr := h.arrived_eq (i := i)
  cases h
  case recvChunk frame j chunk hl hc hsend =>
    by_cases hd : ∃ payload, frame = .streamData i payload
    · obtain ⟨payload, rfl⟩ := hd
      obtain ⟨rfl, rfl⟩ : i = j ∧ Chunk.data payload = chunk := by
        simpa [ClientFrame.chunk] using hc
      refine .enter payload.length ?_ ?_ hin
      · rw [Edge.payee, Edge.payee, hprom (by simp)]
        simp [hl, ReadLoop.creditFor, ReadLoop.dataFor]
      · simp [Edge.payee, arrived, ClientFrame.dataFor]
    · refine payee_quiet (hprom (by simp)) ?_ (harr ?_) hin
      · have hzero : ReadLoop.dataFor i (.delivering j chunk) = 0 := by
          cases chunk with
          | data payload =>
            refine if_neg fun (he : j = i) => hd ⟨payload, ?_⟩
            cases frame <;> simp_all [ClientFrame.chunk]
          | _ => rfl
        rw [hzero, hl]
        rfl
      · rintro payload ⟨⟩
        exact hd ⟨payload, rfl⟩
  case recvLateData j payload hl hsend =>
    by_cases he : j = i
    · subst he
      have hgone : j ∉ s.session.streams := by
        intro hm
        simp [Session.streamBodySender, hm, hw.notClosed j hm] at hsend
      exact .lose le_rfl (by simp [Edge.payee, arrived]) (by simp [Edge.payee, hgone])
    · exact payee_quiet rfl rfl (harr (by simp [he])) hin
  case deliverData j payload hl hpos hp =>
    have hlen := toU32_of_le (hz j payload (received_of_delivering (hr j) hl))
    refine payee_quiet (hprom (by simp)) ?_ rfl hin
    simp [hl, ReadLoop.creditFor, ReadLoop.dataFor, ServerFrame.creditFor, hlen]
  case deliverGone j chunk hl hp =>
    by_cases he : j = i
    · subst he
      refine .lose ?_ le_rfl (by simp [Edge.payee])
      rw [Edge.payee, Edge.payee, hprom (by simp)]
      simp [hl, ReadLoop.creditFor, ReadLoop.dataFor]
    · refine payee_quiet (hprom (by simp)) ?_ rfl hin
      cases chunk <;> simp [hl, he, ReadLoop.creditFor, ReadLoop.dataFor]
  case reply frame hl hp =>
    refine .quiet ?_ rfl hin
    simp [Edge.payee, hl, promised, log, ReadLoop.creditFor, ReadLoop.dataFor, Nat.add_assoc]
  case replyGone frame hl hp =>
    refine .lose ?_ le_rfl (by simp [Edge.payee, Channel.poll_eq_closed.mp hp])
    simp [Edge.payee, hl, promised, log, ReadLoop.creditFor, ReadLoop.dataFor]
  case deliverLast j chunk hl hn hp =>
    refine payee_quiet (hprom (by simp)) ?_ rfl hin
    cases chunk <;> simp_all [ReadLoop.creditFor, ReadLoop.dataFor]
  case recvLateEnd frame j chunk hl hc hn hsend =>
    refine payee_quiet (hprom (by simp)) rfl (harr ?_) hin
    rintro payload ⟨⟩
    obtain ⟨-, rfl⟩ : i = j ∧ Chunk.data payload = chunk := by simpa [ClientFrame.chunk] using hc
    exact hn payload rfl
  all_goals
    refine payee_quiet (hprom (by simp)) ?_ (harr ?_) hin
    · simp_all [ReadLoop.creditFor, ReadLoop.dataFor, ServerFrame.creditFor]
    · first
        | (intro payload ha; cases ha; done)
        | (rintro payload ⟨⟩
           simp_all [ClientFrame.isIdle, ClientFrame.isTunnel])

theorem Billed.step (hw : WellFormed s) (hb : Billed s) (h : s.step a = some s') : Billed s' := by
  have hs := step_cases h
  have hle := hs.nextStreamId_mono
  refine ⟨fun i increment hl => ?_, fun i hi => ?_⟩
  · refine Nat.lt_of_lt_of_le ?_ hle
    have hr := hb.replying i increment
    cases hs
    case deliverData j payload hd _ _ =>
      obtain ⟨rfl, -⟩ : j = i ∧ _ := by simpa using hl
      exact hw.delivering j _ hd
    all_goals first
      | exact hr hl
      | cases hl
  · have hold := hb.promised i (hle.trans hi)
    rcases hs.promised_cases hw i with hp | ⟨increment, -, hl, -⟩
    · rw [hp, hold]
    · exact absurd (hb.replying i increment hl) (Nat.not_lt.mpr (hle.trans hi))

/-- No pump waits for the credit of a stream that has left the table. -/
theorem Step.session_released (hr : s.session.Released) (h : Step s a s') :
    s'.session.Released := by
  cases h
  case insert => exact hr.insertStream
  all_goals first
    | exact hr
    | exact hr.closeStream
    | exact hr.update rfl
    | exact hr.closeStream.update rfl
    | (refine (hr.update ?_).closeStream; rfl)

/-- The read loop panics over credit that its semaphore cannot hold. -/
theorem Step.crash_cases (h : Step s a s') (hc : s'.readLoop = .crashed) :
    s.readLoop = .crashed ∨ ∃ i increment, a = .recv (.windowUpdate i increment) ∧
      i ∈ s.session.streams ∧ maxPermits < (s.session.stream i).sendCredit.permits + increment := by
  cases h
  case recvPanic i increment hl hm hmax => exact .inr ⟨i, increment, rfl, hm, hmax⟩
  all_goals first
    | exact .inl hc
    | cases hc

/-- A stream is allocated when it is inserted. -/
theorem Step.insert_cases (h : Step s a s') {i : Nat} (hi : i < s'.session.nextStreamId)
    (hn : ¬ i < s.session.nextStreamId) : i = s.session.nextStreamId ∧ s'.log = s.log ∧
      s'.received = s.received ∧ s'.readLoop = s.readLoop ∧ (s'.request i).pump = .absent ∧
      s'.session.stream i = Stream.new s.session.initialWindow := by
  cases h
  case insert =>
    have hlt : i < s.session.nextStreamId + 1 := hi
    obtain rfl : i = s.session.nextStreamId := by omega
    refine ⟨rfl, rfl, rfl, rfl, ?_, ?_⟩ <;> simp [Request.new, Session.insertStream]
  all_goals exact absurd (by simpa using hi) hn

end Preservation

/-- What the accounts of a session rest on holds in every reachable state. -/
theorem credit_of_run {allowed : Edge → EdgeAction → Prop} {limit window : Nat} {s : Edge}
    (h : Run Edge.step allowed (Edge.init limit window) s) :
    Sized s ∧ Billed s ∧ s.session.initialWindow = window := by
  refine (h.invariant (P := fun s => WellFormed s ∧ Sized s ∧ Billed s ∧
    s.session.initialWindow = window)
    ⟨.init limit window, .init limit window, ⟨fun _ _ hl => ?_, fun _ _ => rfl⟩, rfl⟩ ?_).2
  · simp [Edge.init] at hl
  · rintro s a s' ⟨hw, hz, hb, hwin⟩ - hs
    exact ⟨hw.step hs, hz.step hw hs, hb.step hw hs,
      (step_cases hs).initialWindow_eq.trans hwin⟩

/-- A pump that waits for credit belongs to a stream in the table. -/
theorem mem_streams_of_waiting {allowed : Edge → EdgeAction → Prop} {limit window : Nat} {s : Edge}
    (h : Run Edge.step allowed (Edge.init limit window) s) {i : Nat}
    (hp : (s.request i).pump ≠ .absent) (hc : (s.session.stream i).sendCredit.isClosed = false) :
    i ∈ s.session.streams := by
  have hinv : WellFormed s ∧ (0 < s.session.nextStreamId ∧ 0 ∉ s.session.streams ∧
      s.request 0 = Request.new) ∧ s.session.Released := by
    refine h.invariant (P := fun s => WellFormed s ∧ (0 < s.session.nextStreamId ∧
      0 ∉ s.session.streams ∧ s.request 0 = Request.new) ∧ s.session.Released)
      ⟨.init limit window, ⟨Nat.one_pos, Finset.notMem_empty _, rfl⟩, fun i hi hpos => ?_⟩ ?_
    · exact absurd (show i < 1 from hi) (Nat.not_lt.mpr hpos)
    · rintro s a s' ⟨hw, ⟨hlt, hn, hr⟩, hrel⟩ - hs
      have hc := step_cases hs
      exact ⟨hw.step hs, ⟨hlt.trans_le hc.nextStreamId_mono, hc.unused (.inl hlt) hn hr⟩,
        hc.session_released hrel⟩
  obtain ⟨hw, ⟨-, -, hzero⟩, hr⟩ := hinv
  by_contra hn
  have hpos : 0 < i := by
    refine Nat.pos_of_ne_zero ?_
    rintro rfl
    simp [hzero, Request.new] at hp
  simp [hr i (hw.allocated_of_pump hp) hpos hn] at hc

end Edge

end Norupo
