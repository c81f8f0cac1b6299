import Norupo.Connection.Multiplexing
import Norupo.Agent.Credit

/-!
# Credit is conserved

The window of a stream is always somewhere: in the sender's semaphore, in data on its way to the
receiver, or in credit on its way back. Each end keeps an account of either direction, the transport
neither loses nor adds anything, and what one end has been paid is what the other has paid. As long
as a stream is open at both ends nothing is lost.
-/

namespace Norupo

open Async Transition

namespace Connection

/-- Bytes of a stream that are queued at the edge or in flight to the agent. -/
def downData (s : Connection) (i : Nat) : Nat :=
  ((s.down.queue ++ s.edge.session.outbound.queue).flatMap (ServerFrame.dataFor i)).length

/-- Credit of a stream that is queued at the edge or in flight to the agent. -/
def downCredit (s : Connection) (i : Nat) : Nat :=
  ((s.down.queue ++ s.edge.session.outbound.queue).map (ServerFrame.creditFor i)).sum

/-- Bytes of a stream that are queued at the agent or in flight to the edge. -/
def upData (s : Connection) (i : Nat) : Nat :=
  ((s.up.queue ++ s.agent.outbound.queue).flatMap (ClientFrame.dataFor i)).length

/-- Credit of a stream that is queued at the agent or in flight to the edge. -/
def upCredit (s : Connection) (i : Nat) : Nat :=
  ((s.up.queue ++ s.agent.outbound.queue).map (ClientFrame.creditFor i)).sum

/-- A stream is open at both ends of a live session; the agent serves it with this task. -/
structure IsOpen (s : Connection) (i t : Nat) : Prop where
  edge : i ∈ s.edge.session.streams
  agent : (s.agent.streams i).map StreamState.task = some t
  down : s.edge.session.outbound.rxOpen = true
  up : s.agent.outbound.rxOpen = true

section Transport

variable {s : Connection}

theorem Wired.edge_log (hw : Wired s) :
    s.edge.log = s.agent.received ++ (s.down.queue ++ s.edge.session.outbound.queue) := by
  rw [Edge.log, ← hw.down, List.append_assoc]

theorem Wired.agent_log (hw : Wired s) :
    s.agent.log = s.edge.received ++ (s.up.queue ++ s.agent.outbound.queue) := by
  rw [Agent.log, ← hw.up, List.append_assoc]

/-- What one end has sent has arrived at the other or is on its way. -/
theorem Wired.edge_sent (hw : Wired s) (i : Nat) :
    s.edge.sent i = s.agent.arrived i + s.downData i := by
  rw [Edge.sent, hw.edge_log, List.flatMap_append, List.length_append, Agent.arrived, downData]

theorem Wired.edge_promised (hw : Wired s) (i : Nat) :
    s.edge.promised i = s.agent.credited i + s.downCredit i := by
  rw [Edge.promised, hw.edge_log, List.map_append, List.sum_append, Agent.credited, downCredit]

theorem Wired.agent_sent (hw : Wired s) (i : Nat) :
    s.agent.sent i = s.edge.arrived i + s.upData i := by
  rw [Agent.sent, hw.agent_log, List.flatMap_append, List.length_append, Edge.arrived, upData]

theorem Wired.agent_promised (hw : Wired s) (i : Nat) :
    s.agent.promised i = s.edge.credited i + s.upCredit i := by
  rw [Agent.promised, hw.agent_log, List.map_append, List.sum_append, Edge.credited, upCredit]

end Transport

/-- What each end keeps on its own, and the transport between them. -/
structure Kept (window : Nat) (s : Connection) : Prop where
  wired : Wired s
  edge : s.edge.WellFormed
  ordered : s.edge.Ordered
  edgeRelay : ∀ i, (s.edge.relay i).Faithful
  edgeSized : s.edge.Sized
  edgeBilled : s.edge.Billed
  window : s.edge.session.initialWindow = window
  agent : s.agent.WellFormed
  feeding : s.agent.Feeding
  agentRelay : ∀ t, (s.agent.relay t).Faithful
  agentSized : s.agent.Sized
  agentBilled : s.agent.Billed

/-- The accounts of both ends are settled, and neither read loop has panicked. -/
structure Balanced (window : Nat) (s : Connection) : Prop where
  edgePayer : ∀ i < s.edge.session.nextStreamId, (s.edge.payer i).Settled window
  edgePayee : ∀ i < s.edge.session.nextStreamId, (s.edge.payee i).Settled 0
  agentPayer : ∀ t < s.agent.nextTask, (s.agent.payer t).Settled window
  agentPayee : ∀ t < s.agent.nextTask, (s.agent.payee t).Settled 0
  edgeAlive : s.edge.readLoop ≠ .crashed
  agentAlive : s.agent.readLoop ≠ .crashed

section Balance

variable {window : Nat} {s s' : Connection} {a : ConnectionAction}

theorem kept_of_run {allowed : Connection → ConnectionAction → Prop}
    {limit downCapacity upCapacity : Nat} {options : AgentOptions}
    (h : Run step allowed (init limit window options downCapacity upCapacity) s) :
    Kept window s := by
  have he := edge_reachable h
  have ha := agent_reachable h
  obtain ⟨hsized, hbilled, hwindow⟩ := Edge.credit_of_run he
  obtain ⟨hsized', hbilled'⟩ := Agent.credit_of_run ha
  exact {
    wired := wired_of_run h
    edge := .of_run he
    ordered := (Edge.upload_of_run he).1
    edgeRelay := fun i => (Edge.relay_of_run he i).1
    edgeSized := hsized
    edgeBilled := hbilled
    window := hwindow
    agent := .of_run ha
    feeding := Agent.feeding_of_run ha
    agentRelay := fun t => (Agent.relay_of_run ha t).1
    agentSized := hsized'
    agentBilled := hbilled' }

theorem Kept.nodup (hk : Kept window s) : s.agent.opened.Nodup := opened_nodup hk.wired hk.ordered

/-- A stream that the edge has not allocated has not been opened at the agent. -/
theorem Kept.unopened (hk : Kept window s) {i : Nat} (hi : s.edge.session.nextStreamId ≤ i) :
    i ∉ s.agent.opened :=
  fun hm => Nat.not_lt.mpr hi (hk.ordered.allocated hk.edge ((opened_isPrefix hk.wired).subset hm))

/-- Nothing has been sent for a stream that has not been opened. -/
theorem Kept.edge_sent_zero (hk : Kept window s) {i : Nat} (hi : s.edge.session.nextStreamId ≤ i) :
    s.edge.sent i = 0 := by
  have hno : i ∉ s.edge.log.filterMap ServerFrame.opens :=
    fun hm => Nat.not_lt.mpr hi (hk.ordered.allocated hk.edge hm)
  rw [Edge.sent, hk.ordered.order i _ List.prefix_rfl hno, List.length_nil]

theorem Kept.agent_sent_zero (hk : Kept window s) {i : Nat} (hi : i ∉ s.agent.opened) :
    s.agent.sent i = 0 := by
  rw [Agent.sent, hk.feeding.unopened i hi, List.length_nil]

theorem Kept.agent_arrived_zero (hk : Kept window s) {i : Nat} (hi : i ∉ s.agent.opened) :
    s.agent.arrived i = 0 := by
  rw [Agent.arrived, hk.ordered.order i _ hk.wired.down_isPrefix hi, List.length_nil]

/-- The edge promises no more credit than data has arrived. -/
theorem Balanced.edge_promised_le (hk : Kept window s) (hb : Balanced window s) (i : Nat) :
    s.edge.promised i ≤ s.edge.arrived i := by
  by_cases hi : i < s.edge.session.nextStreamId
  · have hle := (hb.edgePayee i hi).le
    simp only [Edge.payee] at hle
    omega
  · rw [hk.edgeBilled.promised i (Nat.le_of_not_lt hi)]
    exact Nat.zero_le _

/-- The agent promises no more credit than data has arrived. -/
theorem Balanced.agent_promised_le (hk : Kept window s) (hb : Balanced window s) (i : Nat) :
    s.agent.promised i ≤ s.agent.arrived i := by
  by_cases hi : i ∈ s.agent.opened
  · obtain ⟨t, ht, rfl⟩ := hk.agent.mem_opened.mp hi
    have hle := (hb.agentPayee t ht).le
    simp only [Agent.payee] at hle
    omega
  · rw [hk.agentBilled.promised i hi]
    exact Nat.zero_le _

theorem Kept.edge_credited_zero (hk : Kept window s) {i : Nat}
    (hi : s.edge.session.nextStreamId ≤ i) : s.edge.credited i = 0 := by
  have hp := hk.wired.agent_promised i
  have hzero := hk.agentBilled.promised i (hk.unopened hi)
  omega

theorem Kept.edge_arrived_zero (hk : Kept window s) {i : Nat}
    (hi : s.edge.session.nextStreamId ≤ i) : s.edge.arrived i = 0 := by
  have hs := hk.wired.agent_sent i
  have hzero := hk.agent_sent_zero (hk.unopened hi)
  omega

/-- No credit has arrived for a stream that has not been opened. -/
theorem Balanced.agent_credited_zero (hk : Kept window s) (hb : Balanced window s) {i : Nat}
    (hi : i ∉ s.agent.opened) : s.agent.credited i = 0 := by
  have hp := hk.wired.edge_promised i
  have hle := hb.edge_promised_le hk i
  have hs := hk.wired.agent_sent i
  have hzero := hk.agent_sent_zero hi
  omega

/-- The edge's accounts after a step: those it had, and those of a stream it has just inserted. -/
theorem Balanced.edge_step (hk : Kept window s) (hb : Balanced window s) {b : EdgeAction}
    {edge : Edge} (h : s.edge.step b = some edge) {i : Nat} (hi : i < edge.session.nextStreamId) :
    (edge.payer i).Settled window ∧ (edge.payee i).Settled 0 := by
  have hs := Edge.step_cases h
  by_cases hold : i < s.edge.session.nextStreamId
  · have hsize : ∀ i payload, ClientFrame.streamData i payload ∈ s.edge.received →
        payload.length ≤ maxChunk :=
      fun i payload hm => hk.agentSized.log i payload (hk.wired.up_isPrefix.subset hm)
    exact ⟨(hb.edgePayer i hold).step (hs.payer hk.edge hk.edgeSized hold),
      (hb.edgePayee i hold).step (hs.payee hk.edge hk.edgeRelay hsize hold)⟩
  · obtain ⟨rfl, hlog, hreceived, hloop, hpump, hstream⟩ := hs.insert_cases hi hold
    have hdata : s.edge.readLoop.dataFor s.edge.session.nextStreamId = 0 := by
      cases hl : s.edge.readLoop with
      | delivering j chunk =>
        have hne := Nat.ne_of_lt (hk.edge.delivering j chunk hl)
        cases chunk <;> simp [ReadLoop.dataFor, hne]
      | _ => rfl
    have hcredit : s.edge.readLoop.creditFor s.edge.session.nextStreamId = 0 := by
      cases hl : s.edge.readLoop with
      | replying frame =>
        cases frame with
        | windowUpdate j increment =>
          exact if_neg (Nat.ne_of_lt (hk.edgeBilled.replying j increment hl))
        | _ => rfl
      | _ => rfl
    constructor
    · refine .new ?_ ?_
      · have hsent := hk.edge_sent_zero le_rfl
        rw [Edge.sent] at hsent
        simp only [Edge.payer, Edge.sent, hlog, hsent, hpump, hstream, hk.window, Stream.new,
          Semaphore.new, Pump.hand, Nat.add_zero]
      · simpa only [Edge.payer, Edge.credited, hreceived] using hk.edge_credited_zero le_rfl
    · refine .new ?_ ?_
      · have hpromised := hk.edgeBilled.promised _ le_rfl
        rw [Edge.promised] at hpromised
        simp only [Edge.payee, Edge.promised, hlog, hloop, hpromised, hcredit, hdata]
      · simpa only [Edge.payee, Edge.arrived, hreceived] using hk.edge_arrived_zero le_rfl

/-- The agent's accounts after a step: those it had, and those of a task it has just spawned. -/
theorem Balanced.agent_step (hk : Kept window s) (hb : Balanced window s) {b : AgentAction}
    {agent : Agent} (h : s.agent.step b = some agent)
    (hb' : ∀ frame nowMs, b = .recv frame nowMs → ∃ rest, s.down.queue = frame :: rest)
    (hd : agent.opened.Nodup) {t : Nat} (ht : t < agent.nextTask) :
    (agent.payer t).Settled window ∧ (agent.payee t).Settled 0 := by
  have hs := Agent.step_cases h
  by_cases hold : t < s.agent.nextTask
  · have hsize : ∀ i payload, ServerFrame.streamData i payload ∈ s.agent.received →
        payload.length ≤ maxChunk :=
      fun i payload hm => hk.edgeSized.log i payload (hk.wired.down_isPrefix.subset hm)
    exact ⟨(hb.agentPayer t hold).step (hs.payer hk.agent hk.nodup hold),
      (hb.agentPayee t hold).step (hs.payee hk.agent hk.agentRelay hsize hold)⟩
  · obtain ⟨rfl, hloop, request, nowMs, rfl, rfl⟩ := hs.spawn_cases ht hold
    have hnew := hs.unopened_of_open hd
    have hwindow : request.initialWindow = window := by
      obtain ⟨rest, hq⟩ := hb' _ nowMs rfl
      rw [← hk.window]
      refine hk.edgeSized.opened request ?_
      simp [hk.wired.edge_log, hq]
    constructor
    · refine .new ?_ ?_
      · have hsent := hk.agent_sent_zero hnew
        rw [Agent.sent, Agent.log] at hsent
        simp [Agent.payer, Agent.sent, Agent.log, Agent.openStream, Task.spawn, Serve.hand,
          Semaphore.new, hwindow]
        simpa using hsent
      · have hcredited := hb.agent_credited_zero hk hnew
        simpa [Agent.payer, Agent.credited, Agent.openStream, Task.spawn, ServerFrame.creditFor]
          using hcredited
    · refine .new ?_ ?_
      · have hpromised := hk.agentBilled.promised _ hnew
        simpa [Agent.payee, Agent.promised, Agent.log, Agent.openStream, Task.spawn, hloop,
          AgentLoop.creditFor, AgentLoop.reply, AgentLoop.dataFor] using hpromised
      · have harrived := hk.agent_arrived_zero hnew
        simpa [Agent.payee, Agent.arrived, Agent.openStream, Task.spawn, ServerFrame.dataFor]
          using harrived

/-- The credit that the transport delivers to the edge fits its semaphore. -/
theorem Balanced.edge_room (hwindow : window ≤ maxPermits) (hk : Kept window s)
    (hb : Balanced window s) {i increment : Nat} {rest : List ClientFrame}
    (hm : i ∈ s.edge.session.streams) (hq : s.up.queue = .windowUpdate i increment :: rest) :
    (s.edge.session.stream i).sendCredit.permits + increment ≤ maxPermits := by
  have hi := hk.edge.allocated_of_mem hm
  have hpayer := (hb.edgePayer i hi).le
  have hsent := hk.wired.edge_sent i
  have hpromised := hk.wired.agent_promised i
  have hle := hb.agent_promised_le hk i
  have hcredit : increment ≤ s.upCredit i := by
    simp [upCredit, hq, ClientFrame.creditFor]
  simp only [Edge.payer] at hpayer
  omega

/-- The credit that the transport delivers to the agent fits its semaphore. -/
theorem Balanced.agent_room (hwindow : window ≤ maxPermits) (hk : Kept window s)
    (hb : Balanced window s) {i increment : Nat} {state : StreamState} {rest : List ServerFrame}
    (hs : s.agent.streams i = some state)
    (hq : s.down.queue = .windowUpdate i increment :: rest) :
    (s.agent.task state.task).sendCredit.permits + increment ≤ maxPermits := by
  obtain ⟨ht, rfl⟩ := hk.agent.entry i state hs
  have hpayer := (hb.agentPayer _ ht).le
  have hsent := hk.wired.agent_sent (s.agent.task state.task).streamId
  have hpromised := hk.wired.edge_promised (s.agent.task state.task).streamId
  have hle := hb.edge_promised_le hk (s.agent.task state.task).streamId
  have hcredit : increment ≤ s.downCredit (s.agent.task state.task).streamId := by
    simp [downCredit, hq, ServerFrame.creditFor]
  simp only [Agent.payer] at hpayer
  omega

theorem Balanced.step (hwindow : window ≤ maxPermits) (hk : Kept window s) (hk' : Kept window s')
    (hb : Balanced window s) (h : s.step a = some s') : Balanced window s' := by
  have hs := step_cases h
  have hedge : ∀ i < s'.edge.session.nextStreamId,
      (s'.edge.payer i).Settled window ∧ (s'.edge.payee i).Settled 0 := by
    intro i hi
    rcases hs.edge_cases with he | ⟨b, hstep, -⟩
    · rw [he] at hi ⊢
      exact ⟨hb.edgePayer i hi, hb.edgePayee i hi⟩
    · exact hb.edge_step hk hstep hi
  have hagent : ∀ t < s'.agent.nextTask,
      (s'.agent.payer t).Settled window ∧ (s'.agent.payee t).Settled 0 := by
    intro t ht
    rcases hs.agent_cases with he | ⟨b, hstep, hframe⟩
    · rw [he] at ht ⊢
      exact ⟨hb.agentPayer t ht, hb.agentPayee t ht⟩
    · exact hb.agent_step hk hstep hframe hk'.nodup ht
  refine ⟨fun i hi => (hedge i hi).1, fun i hi => (hedge i hi).2, fun t ht => (hagent t ht).1,
    fun t ht => (hagent t ht).2, fun hc => ?_, fun hc => ?_⟩
  · rcases hs.edge_cases with he | ⟨b, hstep, hframe⟩
    · exact hb.edgeAlive (he ▸ hc)
    · rcases (Edge.step_cases hstep).crash_cases hc with hold | ⟨i, increment, rfl, hm, hmax⟩
      · exact hb.edgeAlive hold
      · obtain ⟨rest, hq⟩ := hframe _ rfl
        exact Nat.not_lt.mpr (hb.edge_room hwindow hk hm hq) hmax
  · rcases hs.agent_cases with he | ⟨b, hstep, hframe⟩
    · exact hb.agentAlive (he ▸ hc)
    · rcases (Agent.step_cases hstep).crash_cases hc with hold |
        ⟨i, increment, state, nowMs, rfl, hm, hmax⟩
      · exact hb.agentAlive hold
      · obtain ⟨rest, hq⟩ := hframe _ nowMs rfl
        exact Nat.not_lt.mpr (hb.agent_room hwindow hk hm hq) hmax

/-- Every window that fits a frame fits a semaphore. -/
theorem window_le_maxPermits (h : window < 2 ^ 32) : window ≤ maxPermits := by
  unfold maxPermits
  omega

end Balance

section Runs

variable {allowed : Connection → ConnectionAction → Prop}
  {limit window downCapacity upCapacity : Nat} {options : AgentOptions} {s : Connection}

/-- The accounts are settled in every reachable state. -/
theorem balanced_of_run (hwindow : window < 2 ^ 32)
    (h : Run step allowed (init limit window options downCapacity upCapacity) s) :
    Balanced window s := by
  induction h with
  | nil =>
    refine ⟨fun i hi => .new rfl rfl, fun i hi => .new rfl rfl,
      fun t ht => absurd ht (Nat.not_lt_zero t), fun t ht => absurd ht (Nat.not_lt_zero t), ?_, ?_⟩
    all_goals simp [init, Edge.init, Agent.init]
  | snoc hr ha hs ih =>
    exact ih.step (window_le_maxPermits hwindow) (kept_of_run hr)
      (kept_of_run (.snoc hr ha hs)) hs

/-- Credit is conserved in both directions of a stream that is open at both ends: what the sender
may still send, the data on its way and the credit on its way back are the window. No sender is ever
more than a window ahead of the credit it has received. -/
theorem credit_conserved (hwindow : window < 2 ^ 32)
    (h : Reachable step (init limit window options downCapacity upCapacity) s) :
    (∀ i, s.edge.sent i ≤ window + s.edge.credited i ∧
      s.agent.sent i ≤ window + s.agent.credited i) ∧
    ∀ i t, s.IsOpen i t →
      (s.edge.session.stream i).sendCredit.permits +
          ((s.edge.request i).pump.hand + s.downData i + s.agent.readLoop.dataFor i) +
          (s.agent.readLoop.creditFor i + s.upCredit i) = window ∧
      (s.agent.task t).sendCredit.permits +
          ((s.agent.task t).serve.hand + s.upData i + s.edge.readLoop.dataFor i) +
          (s.edge.readLoop.creditFor i + s.downCredit i) = window := by
  have hk := kept_of_run h
  have hb := balanced_of_run hwindow h
  refine ⟨fun i => ⟨?_, ?_⟩, fun i t ho => ?_⟩
  · by_cases hi : i < s.edge.session.nextStreamId
    · have hle := (hb.edgePayer i hi).le
      simp only [Edge.payer] at hle
      omega
    · rw [hk.edge_sent_zero (Nat.le_of_not_lt hi)]
      exact Nat.zero_le _
  · by_cases hi : i ∈ s.agent.opened
    · obtain ⟨t, ht, rfl⟩ := hk.agent.mem_opened.mp hi
      have hle := (hb.agentPayer t ht).le
      simp only [Agent.payer] at hle
      omega
    · rw [hk.agent_sent_zero hi]
      exact Nat.zero_le _
  · have hi := hk.edge.allocated_of_mem ho.edge
    obtain ⟨state, hstate, rfl⟩ := Option.map_eq_some_iff.mp ho.agent
    obtain ⟨ht, rfl⟩ := hk.agent.entry i state hstate
    have hpaid := (hb.edgePayer _ hi).eq ⟨ho.edge, hb.edgeAlive, .inl ho.down⟩
    have howed := (hb.edgePayee _ hi).eq ⟨ho.edge, ho.down⟩
    have hpaid' := (hb.agentPayer _ ht).eq ⟨ho.agent, hb.agentAlive, .inl ho.up⟩
    have howed' := (hb.agentPayee _ ht).eq ⟨ho.agent, ho.up⟩
    have hdown := hk.wired.edge_sent (s.agent.task state.task).streamId
    have hup := hk.wired.agent_sent (s.agent.task state.task).streamId
    have hdown' := hk.wired.edge_promised (s.agent.task state.task).streamId
    have hup' := hk.wired.agent_promised (s.agent.task state.task).streamId
    simp only [Edge.payer, Edge.payee, Agent.payer, Agent.payee] at hpaid howed hpaid' howed'
    constructor <;> omega

/-- Whatever becomes of a stream, the credit of its sender, the data on its way and the credit on
its way back are a window at most, in both directions. So no update overflows a semaphore, and
neither read loop of a session between this edge and this agent ever panics. -/
theorem window_never_exceeded (hwindow : window < 2 ^ 32)
    (h : Reachable step (init limit window options downCapacity upCapacity) s) :
    s.edge.readLoop ≠ .crashed ∧ s.agent.readLoop ≠ .crashed ∧
    ∀ t < s.agent.nextTask,
      (s.edge.session.stream (s.agent.task t).streamId).sendCredit.permits +
          ((s.edge.request (s.agent.task t).streamId).pump.hand +
            s.downData (s.agent.task t).streamId +
            s.agent.readLoop.dataFor (s.agent.task t).streamId) +
          (s.agent.readLoop.creditFor (s.agent.task t).streamId +
            s.upCredit (s.agent.task t).streamId) ≤ window ∧
      (s.agent.task t).sendCredit.permits +
          ((s.agent.task t).serve.hand + s.upData (s.agent.task t).streamId +
            s.edge.readLoop.dataFor (s.agent.task t).streamId) +
          (s.edge.readLoop.creditFor (s.agent.task t).streamId +
            s.downCredit (s.agent.task t).streamId) ≤ window := by
  have hk := kept_of_run h
  have hb := balanced_of_run hwindow h
  refine ⟨hb.edgeAlive, hb.agentAlive, fun t ht => ?_⟩
  have hi : (s.agent.task t).streamId < s.edge.session.nextStreamId := by
    by_contra hn
    exact hk.unopened (Nat.le_of_not_lt hn) (hk.agent.mem_opened.mpr ⟨t, ht, rfl⟩)
  -- What a sender has spent is covered by its earnings, and these by what the receiver has paid.
  have hspent := (hb.edgePayer _ hi).le
  have hpaid := (hb.agentPayee t ht).le
  have hspent' := (hb.agentPayer t ht).le
  have hpaid' := (hb.edgePayee _ hi).le
  have hdown := hk.wired.edge_sent (s.agent.task t).streamId
  have hup := hk.wired.agent_sent (s.agent.task t).streamId
  have hdown' := hk.wired.edge_promised (s.agent.task t).streamId
  have hup' := hk.wired.agent_promised (s.agent.task t).streamId
  simp only [Edge.payer, Edge.payee, Agent.payer, Agent.payee] at hspent hpaid hspent' hpaid'
  constructor <;> omega

end Runs

/-- A request and its response under way: three bytes of the request have been delivered and their
credit is about to be returned, one more has been paid for, and two of the response are in
flight. -/
def underWay : List ConnectionAction :=
  [.edge .passLimit, .edge (.insert "tun".toList ⟨"POST".toList, "/".toList,
      "a.tunnel.com".toList, [], "HTTP/1.1".toList, []⟩ "198.51.100.7:40000".toList),
    .edge (.queueOpen 1), .sendDown, .recvDown 0, .agent (.start 0),
    .edge (.pumpData 1 [1, 2, 3]), .edge (.pumpAcquire 1), .edge (.pumpQueue 1), .sendDown,
    .recvDown 0, .agent .deliver, .edge (.pumpData 1 [4]), .edge (.pumpAcquire 1),
    .agent (.respond 0 200 []), .agent (.sendHead 0), .agent (.produce 0 [8, 9]),
    .agent (.acquire 0), .agent (.sendData 0), .sendUp, .sendUp]

/-- A window of four bytes on its way round in both directions. -/
theorem credit_conserved_underWay : ∃ s,
    Reachable step (init 512 4 testOptions 8 8) s ∧ s.IsOpen 1 0 ∧
    (s.edge.request 1).pump.hand = 1 ∧ s.agent.readLoop.creditFor 1 = 3 ∧ s.upData 1 = 2 ∧
    (s.edge.session.stream 1).sendCredit.permits +
        ((s.edge.request 1).pump.hand + s.downData 1 + s.agent.readLoop.dataFor 1) +
        (s.agent.readLoop.creditFor 1 + s.upCredit 1) = 4 ∧
    (s.agent.task 0).sendCredit.permits +
        ((s.agent.task 0).serve.hand + s.upData 1 + s.edge.readLoop.dataFor 1) +
        (s.edge.readLoop.creditFor 1 + s.downCredit 1) = 4 := by
  obtain ⟨s, hs, hedge, hagent, hdown, hup, hhand, hcredit, hdata⟩ : ∃ s,
      exec step (init 512 4 testOptions 8 8) underWay = some s ∧ 1 ∈ s.edge.session.streams ∧
      (s.agent.streams 1).map StreamState.task = some 0 ∧
      s.edge.session.outbound.rxOpen = true ∧ s.agent.outbound.rxOpen = true ∧
      (s.edge.request 1).pump.hand = 1 ∧ s.agent.readLoop.creditFor 1 = 3 ∧ s.upData 1 = 2 :=
    ⟨_, rfl, by decide, rfl, rfl, rfl, rfl, rfl, rfl⟩
  have hrun := Reachable.of_exec .nil hs
  have ho : s.IsOpen 1 0 := ⟨hedge, hagent, hdown, hup⟩
  exact ⟨s, hrun, ho, hhand, hcredit, hdata,
    (credit_conserved (by decide) hrun).2 1 0 ho⟩

/-- The edge has reset the stream, and the agent goes on sending what its credit allows. -/
theorem window_never_exceeded_reset : ∃ s,
    Reachable step (init 512 4 testOptions 8 8) s ∧ s.edge.session.streams = ∅ ∧
    s.upData 1 = 2 ∧ s.agent.readLoop ≠ .crashed ∧ (s.agent.task 0).sendCredit.permits +
      ((s.agent.task 0).serve.hand + s.upData 1 + s.edge.readLoop.dataFor 1) +
      (s.edge.readLoop.creditFor 1 + s.downCredit 1) ≤ 4 := by
  obtain ⟨s, hs, hstreams, hnext, hid, hdata⟩ : ∃ s,
      exec step (init 512 4 testOptions 8 8) (underWay.take 12 ++ [.agent .reply,
        .edge (.pumpFail 1), .agent (.respond 0 200 []), .agent (.sendHead 0),
        .agent (.produce 0 [8, 9]), .agent (.acquire 0), .agent (.sendData 0)]) = some s ∧
      s.edge.session.streams = ∅ ∧ s.agent.nextTask = 1 ∧ (s.agent.task 0).streamId = 1 ∧
      s.upData 1 = 2 := ⟨_, rfl, by decide, rfl, rfl, rfl⟩
  have hrun := Reachable.of_exec .nil hs
  obtain ⟨-, halive, hwindow⟩ := window_never_exceeded (by decide) hrun
  have hup := (hwindow 0 (by omega)).2
  rw [hid] at hup
  exact ⟨s, hrun, hstreams, hdata, halive, hup⟩

end Connection

end Norupo
