import Norupo.Agent.Sending
import Norupo.Edge.Sending
import Norupo.Foundation.Chunks

/-!
# Chunks

`split_chunks` of the edge and the loop of `send_payload` of the agent cut a payload in the same
way, although the one stops when a frame's worth is left and the other when nothing is left. The
pump of a stream and the task that serves it send a payload in the chunks that these produce, and
take as many permits for them as the payload has bytes.
-/

namespace Norupo

open Async Transition Chunks

section Loops

variable {payload : Bytes}

/-- The agent cuts a payload into chunks. -/
theorem cuts_sendPayload (payload : Bytes) : Cuts maxChunk payload (sendPayload payload) := by
  fun_induction sendPayload payload with
  | case1 payload hempty =>
    rw [List.isEmpty_iff.mp hempty]
    exact .nil
  | case2 payload hne ih =>
    rw [Nat.min_comm, ← List.drop_eq_drop_min] at ih
    rw [Nat.min_comm, ← List.take_eq_take_min, ← List.drop_eq_drop_min]
    exact .cons (by decide) (by simpa using hne) ih

/-- A payload that fits a frame is one chunk. -/
theorem cuts_singleton (hne : payload ≠ []) (hle : payload.length ≤ maxChunk) :
    Cuts maxChunk payload [payload] := by
  have hcut : Cuts maxChunk payload (payload.take maxChunk :: []) := by
    refine .cons (by decide) hne ?_
    rw [List.drop_of_length_le hle]
    exact .nil
  rwa [List.take_of_length_le hle] at hcut

theorem cuts_splitLoop (hne : payload ≠ []) : Cuts maxChunk payload (splitLoop payload) := by
  fun_induction splitLoop payload with
  | case1 payload hlt ih =>
    refine .cons (by decide) hne (ih ?_)
    rw [ne_eq, List.drop_eq_nil_iff, not_le]
    exact hlt
  | case2 payload hle => exact cuts_singleton hne (Nat.le_of_not_lt hle)

/-- The edge cuts a payload into chunks. -/
theorem cuts_splitChunks (hne : payload ≠ []) : Cuts maxChunk payload (splitChunks payload) := by
  unfold splitChunks
  split
  · exact cuts_singleton hne ‹_›
  · exact cuts_splitLoop hne

/-- The two loops produce the same chunks. -/
theorem splitChunks_eq_sendPayload (hne : payload ≠ []) :
    splitChunks payload = sendPayload payload :=
  (cuts_splitChunks hne).unique (cuts_sendPayload payload)

/-- The permits for the chunks of a payload are as many as it has bytes. -/
theorem sum_permits_splitChunks (hne : payload ≠ []) :
    ((splitChunks payload).map permits).sum = payload.length := by
  have hcut := cuts_splitChunks hne
  have hlen : (splitChunks payload).map permits = (splitChunks payload).map List.length :=
    List.map_congr_left fun chunk hchunk => toU32_of_le (hcut.length_le chunk hchunk)
  rw [hlen, ← List.length_flatten, hcut.flatten]

end Loops

/-- Pumps send a payload in these chunks: whatever else happens between two reads of the public
body, and in one pass for each chunk when there is enough credit and enough room. -/
structure Edge.SendsIn (payload : Bytes) (chunks : List Bytes) : Prop where
  queued : ∀ limit window as bs s s' i, exec Edge.step (Edge.init limit window) as = some s →
    (s.request i).pump = .reading → exec Edge.step s bs = some s' →
    (s'.request i).pump = .reading → trace Edge.step (Edge.supplies i) s bs = [payload] →
    trace Edge.step (Edge.queues i) s bs = chunks ∧
      tally Edge.step (Edge.spend i) s bs = payload.length
  returns : ∀ s i, (s.request i).pump = .sending chunks →
    (s.session.stream i).sendCredit.isClosed = false →
    payload.length ≤ (s.session.stream i).sendCredit.permits → s.session.outbound.rxOpen = true →
    s.session.outbound.queue.length + chunks.length ≤ s.session.outbound.capacity →
    ∃ s', exec Edge.step s (Sender.passes (.pumpAcquire i) (.pumpQueue i) chunks.length) = some s' ∧
      (s'.request i).pump = .reading

/-- Tasks send a payload in these chunks: whatever else happens between two reads of the local
response body, and in one pass for each chunk when there is enough credit and enough room. -/
structure Agent.SendsIn (payload : Bytes) (chunks : List Bytes) : Prop where
  queued : ∀ options as bs s s' t, exec Agent.step (Agent.init options) as = some s →
    (s.task t).serve = .reading → exec Agent.step s bs = some s' →
    (s'.task t).serve = .reading → trace Agent.step (Agent.supplies t) s bs = [payload] →
    trace Agent.step (Agent.queues t) s bs = chunks ∧
      tally Agent.step (Agent.spend t) s bs = payload.length
  returns : ∀ s t, (s.task t).serve = .sending payload →
    (s.task t).sendCredit.isClosed = false → payload.length ≤ (s.task t).sendCredit.permits →
    s.outbound.rxOpen = true → s.outbound.queue.length + chunks.length ≤ s.outbound.capacity →
    ∃ s', exec Agent.step s (Sender.passes (.acquire t) (.sendData t) chunks.length) = some s' ∧
      (s'.task t).serve = .reading

section Payload

variable {payload : Bytes} (hne : payload ≠ [])

include hne

theorem edge_sendsIn : Edge.SendsIn payload (splitChunks payload) where
  queued limit window as bs s s' i has hs hbs hs' hsupply := by
    have hsends := Edge.sends_of_exec has hs hbs hs' hsupply
    rwa [List.flatMap_singleton, sum_permits_splitChunks hne] at hsends
  returns s i hpump hopen hcredit hrx hroom := by
    refine Edge.exec_passes ?_ hopen ?_ hrx hroom
    · rw [hpump, splitChunks_eq_sendPayload hne, sendPayload_of_ne_nil hne]
      rfl
    · rw [sum_permits_splitChunks hne]
      exact hcredit

theorem agent_sendsIn : Agent.SendsIn payload (sendPayload payload) where
  queued options as bs s s' t has hs hbs hs' hsupply := by
    have hsends := Agent.sends_of_exec has hs hbs hs' hsupply
    rwa [List.flatMap_singleton, ← splitChunks_eq_sendPayload hne, sum_permits_splitChunks hne,
      splitChunks_eq_sendPayload hne] at hsends
  returns s t hserve hopen hcredit hrx hroom := by
    refine Agent.exec_passes ?_ hopen hcredit hrx hroom
    rw [hserve, Serve.next_of_ne_nil hne]

/-- The edge and the agent send a payload in the same chunks, without loss, and take as many permits
for them as the payload has bytes. -/
theorem chunks_agree : splitChunks payload = sendPayload payload ∧
    (splitChunks payload).flatten = payload ∧
    (∀ chunk ∈ splitChunks payload, chunk ≠ [] ∧ chunk.length ≤ maxChunk) ∧
    (∀ chunk ∈ (splitChunks payload).dropLast, chunk.length = maxChunk) ∧
    (splitChunks payload).length = (payload.length + maxChunk - 1) / maxChunk ∧
    ((splitChunks payload).map permits).sum = payload.length ∧
    Edge.SendsIn payload (splitChunks payload) ∧ Agent.SendsIn payload (sendPayload payload) := by
  have hcut := cuts_splitChunks hne
  exact ⟨splitChunks_eq_sendPayload hne, hcut.flatten,
    fun chunk hchunk => ⟨hcut.ne_nil chunk hchunk, hcut.length_le chunk hchunk⟩, hcut.full,
    hcut.length_eq (by decide), sum_permits_splitChunks hne, edge_sendsIn hne, agent_sendsIn hne⟩

end Payload

/-- The first request of a session. -/
def firstUpload : List EdgeAction :=
  [.passLimit, .insert "tun".toList testHead "198.51.100.7:40000".toList, .queueOpen 1]

/-- A request that the local service has begun to answer. -/
def firstDownload : List AgentAction :=
  [.recv (.streamOpen ⟨1, "tun".toList, .http, some testHead, "198.51.100.7:40000".toList,
      262144⟩) 0, .start 0, .respond 0 200 [], .sendHead 0]

/-- Two bytes go through the pump of a first request and through the task of a first response. -/
theorem chunks_agree_two_bytes : (∃ s s', exec Edge.step (Edge.init 8 262144) firstUpload = some s ∧
      exec Edge.step s [.pumpData 1 [7, 8], .pumpAcquire 1, .pumpQueue 1] = some s' ∧
      trace Edge.step (Edge.queues 1) s [.pumpData 1 [7, 8], .pumpAcquire 1, .pumpQueue 1] =
        splitChunks [7, 8]) ∧
    ∃ s s', exec Agent.step (Agent.init testOptions) firstDownload = some s ∧
      exec Agent.step s [.produce 0 [7, 8], .acquire 0, .sendData 0] = some s' ∧
      trace Agent.step (Agent.queues 0) s [.produce 0 [7, 8], .acquire 0, .sendData 0] =
        sendPayload [7, 8] := by
  obtain ⟨-, -, -, -, -, -, hedge, hagent⟩ := @chunks_agree [7, 8] (by decide)
  exact ⟨⟨_, _, rfl, rfl, (hedge.queued 8 262144 firstUpload _ _ _ 1 rfl rfl rfl rfl rfl).1⟩,
    ⟨_, _, rfl, rfl, (hagent.queued testOptions firstDownload _ _ _ 0 rfl rfl rfl rfl rfl).1⟩⟩

end Norupo
