import Norupo.Connection.Conservation

/-!
# Senders that wait for ever

A sender takes credit for a whole chunk at once, and a chunk is as long as a frame or as the payload
it was cut from. The credit of a stream never exceeds its window. When everything that was sent has
been received and paid for, a sender that still waits has the whole window and needs more: nothing
will ever wake it.
-/

namespace Norupo

open Async Transition

/-- The pump of a stream waits in `acquire_many`. -/
def Edge.Parked (s : Edge) (i : Nat) : Prop :=
  ∃ chunk rest, (s.request i).pump = .sending (chunk :: rest) ∧
    (s.session.stream i).sendCredit.poll (toU32 chunk.length) = .pending

/-- The task waits in `acquire_many`. -/
def Agent.Parked (s : Agent) (t : Nat) : Prop :=
  ∃ payload, (s.task t).serve = .sending payload ∧
    (s.task t).sendCredit.poll (toU32 (payload.take maxChunk).length) = .pending

/-- The first chunk of a payload. -/
theorem splitChunks_eq_cons (payload : Bytes) :
    ∃ rest, splitChunks payload = payload.take maxChunk :: rest := by
  unfold splitChunks
  split <;> rename_i h
  · exact ⟨[], by rw [List.take_of_length_le h]⟩
  · rw [splitLoop, if_pos (Nat.lt_of_not_le h)]
    exact ⟨_, rfl⟩

/-- The payloads that a move hands to `send_stream_data` or `send_payload` have these lengths. -/
def ConnectionAction.HandsOver (lengths : Nat → Prop) : ConnectionAction → Prop
  | .edge (.pumpData _ payload) => lengths payload.length
  | .agent (.produce _ payload) => lengths payload.length
  | _ => True

namespace Connection

/-- The edge waits for credit of a stream, the agent has returned credit for every byte it received,
and no `Data` and no `WindowUpdate` of the request body is queued, in transit or being handled. -/
structure UploadStalled (s : Connection) (i : Nat) : Prop where
  parked : s.edge.Parked i
  returned : s.agent.promised i = s.agent.arrived i
  noData : ∀ payload,
    ServerFrame.streamData i payload ∉ s.down.queue ++ s.edge.session.outbound.queue
  noCredit : ∀ increment,
    ClientFrame.windowUpdate i increment ∉ s.up.queue ++ s.agent.outbound.queue
  noDelivery : ∀ target payload, s.agent.readLoop ≠ .delivering i target payload
  noReply : ∀ increment, s.agent.readLoop.reply ≠ some (.windowUpdate i increment)

/-- The agent waits for credit of a task, the edge has returned credit for every byte it received,
and no `Data` and no `WindowUpdate` of the response body is queued, in transit or being handled. -/
structure DownloadStalled (s : Connection) (t : Nat) : Prop where
  parked : s.agent.Parked t
  returned : s.edge.promised (s.agent.task t).streamId = s.edge.arrived (s.agent.task t).streamId
  noData : ∀ payload, ClientFrame.streamData (s.agent.task t).streamId payload ∉
    s.up.queue ++ s.agent.outbound.queue
  noCredit : ∀ increment, ServerFrame.windowUpdate (s.agent.task t).streamId increment ∉
    s.down.queue ++ s.edge.session.outbound.queue
  noDelivery : ∀ payload, s.edge.readLoop ≠ .delivering (s.agent.task t).streamId (.data payload)
  noReply : ∀ increment,
    s.edge.readLoop ≠ .replying (.windowUpdate (s.agent.task t).streamId increment)

/-- No sender waits for ever. -/
def NeverStalled (s : Connection) : Prop := (∀ i, ¬ s.UploadStalled i) ∧ ∀ t, ¬ s.DownloadStalled t

/-- Every chunk that a sender has yet to pay for fits the window. -/
structure Fits (window : Nat) (s : Connection) : Prop where
  edge : ∀ i, ∀ chunk ∈ (s.edge.request i).pump.chunks, chunk.length ≤ window
  agent : ∀ t, min (s.agent.task t).serve.unpaid.length maxChunk ≤ window

section Flow

variable {s s' : Connection} {a : ConnectionAction} {i : Nat}

theorem downData_eq_zero (h : ∀ payload,
      ServerFrame.streamData i payload ∉ s.down.queue ++ s.edge.session.outbound.queue) :
    s.downData i = 0 := by
  rw [downData, List.length_eq_zero_iff, List.flatMap_eq_nil_iff]
  intro frame hm
  apply ServerFrame.dataFor_eq_nil
  rintro payload rfl
  exact h payload hm

theorem upData_eq_zero (h : ∀ payload,
      ClientFrame.streamData i payload ∉ s.up.queue ++ s.agent.outbound.queue) :
    s.upData i = 0 := by
  rw [upData, List.length_eq_zero_iff, List.flatMap_eq_nil_iff]
  intro frame hm
  apply ClientFrame.dataFor_eq_nil
  rintro payload rfl
  exact h payload hm

theorem downCredit_eq_zero (h : ∀ increment,
      ServerFrame.windowUpdate i increment ∉ s.down.queue ++ s.edge.session.outbound.queue) :
    s.downCredit i = 0 := by
  rw [downCredit, List.sum_eq_zero_iff_forall_eq_nat]
  intro n hn
  obtain ⟨frame, hm, rfl⟩ := List.mem_map.mp hn
  apply ServerFrame.creditFor_eq_zero
  rintro increment rfl
  exact h increment hm

theorem upCredit_eq_zero (h : ∀ increment,
      ClientFrame.windowUpdate i increment ∉ s.up.queue ++ s.agent.outbound.queue) :
    s.upCredit i = 0 := by
  rw [upCredit, List.sum_eq_zero_iff_forall_eq_nat]
  intro n hn
  obtain ⟨frame, hm, rfl⟩ := List.mem_map.mp hn
  apply ClientFrame.creditFor_eq_zero
  rintro increment rfl
  exact h increment hm

/-- Payloads of lengths that fit are cut into chunks that fit. -/
theorem Fits.step {window : Nat} {lengths : Nat → Prop}
    (hl : ∀ n, lengths n → min n maxChunk ≤ window) (hf : Fits window s)
    (ha : a.HandsOver lengths) (h : s.step a = some s') : Fits window s' := by
  have hs := step_cases h
  constructor
  · intro i chunk hc
    cases hs with
    | edge _ he =>
      rcases (Edge.step_cases he).chunks_cases hc with hold | ⟨payload, rfl, hnew⟩
      · exact hf.edge i chunk hold
      · have hle := length_le_of_mem_splitChunks hnew
        have hfits := hl _ ha
        omega
    | sendDown _ _ he | recvUp _ he =>
      rcases (Edge.step_cases he).chunks_cases hc with hold | ⟨payload, hnot, -⟩
      · exact hf.edge i chunk hold
      · cases hnot
    | _ => exact hf.edge i chunk hc
  · intro t
    have hold := hf.agent t
    cases hs with
    | agent _ he =>
      rcases (Agent.step_cases he).unpaid_cases t with hle | ⟨payload, rfl, hle⟩
      · exact (min_le_min_right maxChunk hle).trans hold
      · exact (min_le_min_right maxChunk hle).trans (hl _ ha)
    | recvDown _ he | sendUp _ _ he =>
      rcases (Agent.step_cases he).unpaid_cases t with hle | ⟨payload, hnot, -⟩
      · exact (min_le_min_right maxChunk hle).trans hold
      · cases hnot
    | _ => exact hold

end Flow

section Runs

variable {allowed : Connection → ConnectionAction → Prop}
  {limit window downCapacity upCapacity : Nat} {options : AgentOptions} {s : Connection}

/-- When everything has been received and paid for, a parked pump lacks more than the window. -/
theorem UploadStalled.exceeds (hwindow : window < 2 ^ 32)
    (h : Run step allowed (init limit window options downCapacity upCapacity) s) {i : Nat}
    (hs : s.UploadStalled i) : ∃ chunk ∈ (s.edge.request i).pump.chunks, window < chunk.length := by
  have hk := kept_of_run h
  obtain ⟨chunk, rest, hpump, hpoll⟩ := hs.parked
  obtain ⟨hopen, hlack⟩ := Semaphore.poll_eq_pending.mp hpoll
  have hm : i ∈ s.edge.session.streams :=
    Edge.mem_streams_of_waiting (edge_reachable h) (by simp [hpump]) hopen
  have hi := hk.edge.allocated_of_mem hm
  have hb := balanced_of_run hwindow h
  have hpaid := (hb.edgePayer i hi).eq ⟨hm, hb.edgeAlive, .inr (by simp [hpump])⟩
  have hsent := hk.wired.edge_sent i
  have hcredited := hk.wired.agent_promised i
  have hreturned := hs.returned
  simp only [Edge.payer, hpump, Pump.hand] at hpaid
  rw [downData_eq_zero hs.noData] at hsent
  rw [upCredit_eq_zero hs.noCredit] at hcredited
  refine ⟨chunk, by simp [hpump, Pump.chunks], ?_⟩
  have hle : toU32 chunk.length ≤ chunk.length := min_le_left _ _
  omega

/-- When everything has been received and paid for, a parked task lacks more than the window. -/
theorem DownloadStalled.exceeds (hwindow : window < 2 ^ 32)
    (h : Run step allowed (init limit window options downCapacity upCapacity) s) {t : Nat}
    (hs : s.DownloadStalled t) :
    window < min (s.agent.task t).serve.unpaid.length maxChunk := by
  have hk := kept_of_run h
  obtain ⟨payload, hserve, hpoll⟩ := hs.parked
  obtain ⟨hopen, hlack⟩ := Semaphore.poll_eq_pending.mp hpoll
  have ht : t < s.agent.nextTask := hk.agent.spawned_of_serve (by simp [hserve])
  have he : s.agent.Entered t :=
    Agent.entered_of_waiting (agent_reachable h) hk.nodup ht hopen
  have hb := balanced_of_run hwindow h
  have hpaid := (hb.agentPayer t ht).eq ⟨he, hb.agentAlive, .inr (by simp [hserve, Serve.sends])⟩
  have hsent := hk.wired.agent_sent (s.agent.task t).streamId
  have hcredited := hk.wired.edge_promised (s.agent.task t).streamId
  have hreturned := hs.returned
  simp only [Agent.payer, hserve, Serve.hand] at hpaid
  rw [upData_eq_zero hs.noData] at hsent
  rw [downCredit_eq_zero hs.noCredit] at hcredited
  have hle : toU32 (payload.take maxChunk).length ≤ min payload.length maxChunk := by
    rw [Nat.min_comm, ← List.length_take]
    exact Nat.min_le_left _ _
  simp only [hserve, Serve.unpaid]
  omega

/-- A request gets its stream, its `Open` is queued, and its body yields a payload. -/
def upload (payload : Bytes) : List ConnectionAction :=
  [.edge .passLimit, .edge (.insert "tun".toList ⟨"POST".toList, "/".toList,
      "a.tunnel.com".toList, [], "HTTP/1.1".toList, []⟩ "198.51.100.7:40000".toList),
    .edge (.queueOpen 1), .edge (.pumpData 1 payload)]

variable (limit window downCapacity upCapacity options) in
/-- Whatever the limits of a session, its first request can hand over a payload. -/
theorem exec_upload {payload : Bytes} (hne : payload ≠ []) : ∃ s,
    exec step (init limit window options downCapacity upCapacity) (upload payload) = some s ∧
    (s.edge.request 1).pump = .sending (splitChunks payload) ∧
    (s.edge.session.stream 1).sendCredit = Semaphore.new window ∧
    s.agent = Agent.init options ∧ s.down.queue = [] ∧ s.up.queue = [] ∧
    ∃ request, s.edge.session.outbound.queue = [.streamOpen request] := by
  have hlimit : (Session.new limit window).atLimit = false := by
    simp [Session.atLimit, Session.new, Nat.pos_iff_ne_zero]
  have hpass : step (init limit window options downCapacity upCapacity) (.edge .passLimit) =
      some { init limit window options downCapacity upCapacity with
        edge := { Edge.init limit window with admitted := 1 } } := by
    simp [step, EdgeAction.isLocal, Edge.step, init, Edge.init, hlimit]
  obtain ⟨mid, hmid, hpump, hstreams, hcredit, hagent, hdown, hup, hqueue⟩ : ∃ s,
      exec step { init limit window options downCapacity upCapacity with
        edge := { Edge.init limit window with admitted := 1 } } ((upload payload).tail.take 2) =
        some s ∧ (s.edge.request 1).pump = .reading ∧ s.edge.session.streams = {1} ∧
      (s.edge.session.stream 1).sendCredit = Semaphore.new window ∧
      s.agent = Agent.init options ∧ s.down.queue = [] ∧ s.up.queue = [] ∧
      ∃ request, s.edge.session.outbound.queue = [.streamOpen request] :=
    ⟨_, rfl, rfl, rfl, rfl, rfl, rfl, rfl, _, rfl⟩
  have hsplit : upload payload = (.edge .passLimit :: (upload payload).tail.take 2) ++
      [.edge (.pumpData 1 payload)] := rfl
  have hin : 1 ∈ mid.edge.session.streams := by simp [hstreams]
  refine ⟨{ mid with edge := mid.edge.setRequest 1 { mid.edge.request 1 with
      supplied := (mid.edge.request 1).supplied ++ payload
      pump := .sending (splitChunks payload) } },
    ?_, by simp, hcredit, hagent, hdown, hup, hqueue⟩
  rw [hsplit, exec_append, exec_cons, hpass, Option.bind_some, hmid]
  simp [step, EdgeAction.isLocal, Edge.step, hpump, hin, hne]

/-- A payload whose first chunk exceeds the window stalls a stream that has just been opened. -/
theorem stalls_of_exceeds {lengths : Nat → Prop} {n : Nat} (hn : lengths n)
    (hlt : window < min n maxChunk) : ∃ s, Run step (fun _ a => a.HandsOver lengths)
      (init limit window options downCapacity upCapacity) s ∧ s.UploadStalled 1 := by
  have hne : List.replicate n (0 : UInt8) ≠ [] := by
    rw [ne_eq, List.replicate_eq_nil_iff]
    omega
  obtain ⟨s, hs, hpump, hcredit, hagent, hdown, hup, request, hqueue⟩ :=
    exec_upload limit window downCapacity upCapacity options hne
  obtain ⟨rest, hsplit⟩ := splitChunks_eq_cons (List.replicate n (0 : UInt8))
  have hlen : ((List.replicate n (0 : UInt8)).take maxChunk).length = min n maxChunk := by
    simp [Nat.min_comm]
  refine ⟨s, Run.of_throughout .nil hs fun _ _ => ⟨trivial, fun _ _ => ⟨trivial, fun _ _ =>
    ⟨trivial, fun _ _ => ⟨by simpa [ConnectionAction.HandsOver] using hn, trivial⟩⟩⟩⟩, ?_⟩
  constructor
  case parked =>
    refine ⟨_, rest, hpump.trans (by rw [hsplit]), Semaphore.poll_eq_pending.mpr ?_⟩
    rw [hcredit, hlen, toU32_of_le (Nat.min_le_right _ _)]
    exact ⟨rfl, hlt⟩
  case returned => rw [hagent]; rfl
  case noData => simp [hdown, hqueue]
  case noCredit => simp [hup, hagent, Agent.init]
  case noDelivery => simp [hagent, Agent.init]
  case noReply => simp [hagent, Agent.init, AgentLoop.reply]

/-- Whatever lengths the payloads have, no sender ever waits for ever exactly when a window holds
the longest chunk they are cut into. -/
theorem neverStalled_iff (hwindow : window < 2 ^ 32) (lengths : Nat → Prop) :
    (∀ s, Run step (fun _ a => a.HandsOver lengths)
      (init limit window options downCapacity upCapacity) s → s.NeverStalled) ↔
    ∀ n, lengths n → min n maxChunk ≤ window := by
  constructor
  · intro h n hn
    by_contra hlt
    obtain ⟨s, hs, hstalled⟩ := stalls_of_exceeds hn (Nat.lt_of_not_le hlt)
    exact (h s hs).1 1 hstalled
  · intro hl s hs
    have hf : Fits window s := by
      refine hs.invariant ⟨fun i chunk hc => ?_, fun t => ?_⟩ fun _ _ _ hf ha hs => hf.step hl ha hs
      · simp [init, Edge.init, Request.new, Pump.chunks] at hc
      · simp [init, Agent.init, Task.unused, Serve.unpaid]
    refine ⟨fun i hstalled => ?_, fun t hstalled => ?_⟩
    · obtain ⟨chunk, hm, hlt⟩ := hstalled.exceeds hwindow hs
      exact Nat.not_lt.mpr (hf.edge i chunk hm) hlt
    · exact Nat.not_lt.mpr (hf.agent t) (hstalled.exceeds hwindow hs)

end Runs

/-- A window of a frame, and a payload that is longer than the window. -/
theorem neverStalled_frame : ∃ s,
    exec step (init 512 65536 testOptions 8 8) (upload (List.replicate 100000 0)) = some s ∧
    s.NeverStalled := by
  have hne : List.replicate 100000 (0 : UInt8) ≠ [] := by
    rw [ne_eq, List.replicate_eq_nil_iff]
    omega
  obtain ⟨s, hs, -⟩ := exec_upload 512 65536 8 8 testOptions hne
  refine ⟨s, hs, (neverStalled_iff (by decide) fun _ => True).mpr
    (fun n _ => Nat.min_le_right n maxChunk) s ((Reachable.of_exec .nil hs).mono fun _ a _ => ?_)⟩
  cases a with
  | edge b => cases b <;> trivial
  | agent b => cases b <;> trivial
  | _ => trivial

/-- With a window of one byte the first two bytes of a request body wait for ever. -/
theorem stalled_by_window : ¬ ∀ window limit options downCapacity upCapacity s,
    1 ≤ window → window < 2 ^ 32 →
    Reachable step (init limit window options downCapacity upCapacity) s → s.NeverStalled := by
  intro h
  obtain ⟨s, hs, hstalled⟩ : ∃ s, Run step (fun _ a => a.HandsOver (· = 2))
      (init 512 1 testOptions 8 8) s ∧ s.UploadStalled 1 :=
    stalls_of_exceeds rfl (by decide)
  exact (h 1 512 testOptions 8 8 s le_rfl (by decide) hs.reachable).1 1 hstalled

end Connection

end Norupo
