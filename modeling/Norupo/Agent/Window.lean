import Norupo.Agent.Delivery
import Norupo.Agent.Download
import Mathlib.Data.List.Infix

/-!
# The window of a request body

The agent returns credit for a request body with `WindowUpdate` frames. An edge keeps to its credit
when it opens every id once and the data it has sent for a stream never exceeds its window and the
credit it was sent. The window then bounds what a task holds, provided that credit is only returned
for bytes the local service has taken.
-/

namespace Norupo

open Async Transition

namespace Agent

/-- Bytes that have arrived for a stream. -/
def arrived (s : Agent) (i : Nat) : Nat := (s.received.flatMap (ServerFrame.dataFor i)).length

/-- Credit that has been sent for a stream. -/
def granted (s : Agent) (i : Nat) : Nat := (s.transmitted.map (ClientFrame.creditFor i)).sum

/-- Credit that has been sent or queued for a stream. -/
def promised (s : Agent) (i : Nat) : Nat := (s.log.map (ClientFrame.creditFor i)).sum

/-- The edge sends data within its credit, and opens an id once. -/
def withinCredit (window : Nat) (s : Agent) : AgentAction → Bool
  | .recv (.streamData i payload) _ => s.arrived i + payload.length ≤ window + s.granted i
  | .recv (.streamOpen request) _ => request.streamId ∉ s.opened
  | _ => true

/-- Credit is queued only for bytes that the local service has taken. -/
def grantsTaken (s : Agent) : AgentAction → Bool
  | .reply => match s.readLoop with
    | .replying (.windowUpdate i increment) _ => (s.tasksFor i).all fun t =>
        s.promised i + increment ≤ (s.taken t).length
    | _ => true
  | _ => true

/-- What the credit of a session keeps in step. -/
structure Credited (window : Nat) (s : Agent) : Prop where
  arrived : ∀ i, s.arrived i ≤ window + s.granted i
  promised : ∀ t, t < s.nextTask → s.promised (s.task t).streamId ≤ (s.taken t).length
  unopened : ∀ i, i ∉ s.opened → s.promised i = 0
  replying : ∀ i increment, s.readLoop.reply = some (.windowUpdate i increment) → i ∈ s.opened

section Preservation

variable {s s' : Agent} {a : AgentAction}

/-- Bytes taken by the local service stay taken. -/
theorem Step.taken_mono (hw : WellFormed s) (h : Step s a s') {t : Nat} (ht : t < s.nextTask) :
    (s.taken t).length ≤ (s'.taken t).length := by
  have hp : (s.task t).items <+: (s'.task t).items :=
    (h.relay hw t).taken_mono (Nat.not_le.mpr ht)
  exact (hp.flatMap BodyItem.bytes).length_le

/-- Credit that has been sent stays sent. -/
theorem Step.granted_mono (h : Step s a s') (i : Nat) : s.granted i ≤ s'.granted i := by
  cases h
  case transmit => simp [granted]
  all_goals first
    | exact le_rfl
    | simp [granted]

/-- What is promised has been sent or will be. -/
theorem granted_le_promised (s : Agent) (i : Nat) : s.granted i ≤ s.promised i := by
  simp [granted, promised, log]

/-- Ids that were opened stay opened. -/
theorem Step.opened_mono (h : Step s a s') : s.opened <+: s'.opened :=
  h.received_mono.filterMap ServerFrame.opens

/-- What a step promises is the credit in the read loop's hands. -/
theorem Step.promised_cases (hw : WellFormed s) (h : Step s a s') (i : Nat) :
    s'.promised i = s.promised i ∨ ∃ increment held, a = .reply ∧
      s.readLoop = .replying (.windowUpdate i increment) held ∧
      s'.promised i = s.promised i + increment := by
  rcases h.log_cases hw with hl | ⟨frame, hl, he⟩
  · exact .inl (by rw [promised, hl, promised])
  · have hsum : s'.promised i = s.promised i + frame.creditFor i := by simp [promised, hl]
    cases frame
    case windowUpdate j increment =>
      obtain ⟨ha, held, hrl⟩ := he
      by_cases hj : j = i
      · subst hj
        exact .inr ⟨increment, held, ha, hrl, by simpa [ClientFrame.creditFor] using hsum⟩
      · exact .inl (by simpa [ClientFrame.creditFor, hj] using hsum)
    all_goals exact .inl (by simpa [ClientFrame.creditFor] using hsum)

/-- Credit is returned for streams that have been opened. -/
theorem Step.replying_opened (hw : WellFormed s)
    (hold : ∀ i increment, s.readLoop.reply = some (.windowUpdate i increment) → i ∈ s.opened)
    (h : Step s a s') (i increment : Nat)
    (hl : s'.readLoop.reply = some (.windowUpdate i increment)) : i ∈ s'.opened := by
  have hr := hold i increment
  refine h.opened_mono.subset ?_
  cases h
  case deliver j t payload hd hp =>
    obtain ⟨rfl, -⟩ : j = i ∧ _ := by simpa [AgentLoop.reply] using hl
    obtain ⟨hlt, hid, -⟩ := hw.live j t payload hd
    exact hw.mem_opened.mpr ⟨t, hlt, hid⟩
  case notifiedReply frame hn => exact hr (by rw [hn]; exact hl)
  all_goals first
    | exact hr hl
    | cases hl
    | exact hr (by simpa using hl)

/-- No credit is promised for a stream that has not been opened. -/
theorem Step.promised_unopened (hw : WellFormed s)
    (hr : ∀ i increment, s.readLoop.reply = some (.windowUpdate i increment) → i ∈ s.opened)
    (hp : ∀ i, i ∉ s.opened → s.promised i = 0) (h : Step s a s') (i : Nat)
    (hi : i ∉ s'.opened) : s'.promised i = 0 := by
  have hold : i ∉ s.opened := fun hm => hi (h.opened_mono.subset hm)
  rcases h.promised_cases hw i with hs | ⟨increment, held, -, hl, -⟩
  · rw [hs, hp i hold]
  · exact absurd (hr i increment (by rw [hl]; rfl)) hold

theorem Credited.promised_step {window : Nat} (hw : WellFormed s) (hc : Credited window s)
    (hcredit : s.withinCredit window a = true) (hgrant : s.grantsTaken a = true) (h : Step s a s')
    {t : Nat} (ht : t < s'.nextTask) :
    s'.promised (s'.task t).streamId ≤ (s'.taken t).length := by
  by_cases hold : t < s.nextTask
  · have htaken := h.taken_mono hw hold
    have hp := hc.promised t hold
    rw [(h.streamId_eq hold).1]
    rcases h.promised_cases hw (s.task t).streamId with hs | ⟨increment, held, ha, hl, hs⟩
    · omega
    · subst ha
      simp only [grantsTaken, hl, List.all_eq_true, decide_eq_true_eq] at hgrant
      have hg := hgrant t (mem_tasksFor.mpr ⟨hold, rfl⟩)
      omega
  · -- The task has just been spawned, for an id that no credit was queued for.
    obtain ⟨rfl, -, request, nowMs, rfl, rfl⟩ := h.spawn_cases ht hold
    have hnew : request.streamId ∉ s.opened := by simpa [withinCredit] using hcredit
    have hzero := hc.unopened _ hnew
    simp only [openStream, setTask, Function.update_self, Task.spawn]
    exact hzero.le.trans (Nat.zero_le _)

theorem Credited.step {window : Nat} (hw : WellFormed s) (hc : Credited window s)
    (hcredit : s.withinCredit window a = true) (hgrant : s.grantsTaken a = true)
    (h : s.step a = some s') : Credited window s' := by
  have hs := step_cases h
  refine ⟨fun i => ?_, fun t => hc.promised_step hw hcredit hgrant hs,
    hs.promised_unopened hw hc.replying hc.unopened, hs.replying_opened hw hc.replying⟩
  · have hmono := hs.granted_mono i
    have hold := hc.arrived i
    rcases hs.received_cases with hr | ⟨frame, nowMs, rfl, hr⟩
    · rw [Agent.arrived, hr]
      exact hold.trans (Nat.add_le_add_left hmono _)
    · have hsum : s'.arrived i = s.arrived i + (frame.dataFor i).length := by
        simp [Agent.arrived, hr]
      cases frame
      case streamData j payload =>
        simp only [withinCredit, decide_eq_true_eq] at hcredit
        by_cases hj : j = i
        · subst hj
          simp only [ServerFrame.dataFor, if_true] at hsum
          omega
        · simp only [ServerFrame.dataFor, hj, if_false, List.length_nil] at hsum
          omega
      all_goals
        simp only [ServerFrame.dataFor, List.length_nil] at hsum
        omega

/-- A faithful relay within its credit holds at most a window. -/
theorem Credited.held_le {window : Nat} (hc : Credited window s) {t : Nat}
    (ht : t < s.nextTask) (hr : (s.relay t).Faithful) : (s.held t).length ≤ window := by
  have hlen := (taken_append_held_isPrefix hr).length_le
  have hcarried : (s.carried t).length ≤ s.arrived (s.task t).streamId :=
    ((List.drop_suffix _ _).flatMap (ServerFrame.dataFor _)).length_le
  have ha := hc.arrived (s.task t).streamId
  have hp := hc.promised t ht
  have hg := granted_le_promised s (s.task t).streamId
  rw [List.length_append] at hlen
  omega

end Preservation

/-- In every session whose edge keeps to its credit and whose credit is returned for taken bytes
only, a task holds at most a window. -/
theorem held_le_of_run {options : AgentOptions} {window : Nat} {s : Agent}
    (h : Run Agent.step (fun s a => s.withinCredit window a && s.grantsTaken a)
      (Agent.init options) s) (t : Nat) : (s.held t).length ≤ window := by
  have hc : WellFormed s ∧ Credited window s := by
    refine h.invariant (P := fun s => WellFormed s ∧ Credited window s)
      ⟨.init options, fun _ => Nat.zero_le _, fun t ht => absurd ht (Nat.not_lt_zero t),
        fun _ _ => rfl, fun _ _ hl => by simp [Agent.init, AgentLoop.reply] at hl⟩ ?_
    rintro s a s' ⟨hw, hc⟩ hok hs
    rw [Bool.and_eq_true] at hok
    exact ⟨hw.step hs, hc.step hw hok.1 hok.2 hs⟩
  by_cases ht : t < s.nextTask
  · exact hc.2.held_le ht (relay_of_run h t).1
  · simp [held, hc.1.fresh t (Nat.le_of_not_lt ht), Task.unused]

/-- The local service is gone, or it has left at most a queue of the payloads taken for it. -/
def KeepsUp (s : Agent) (t : Nat) : Prop :=
  (s.task t).body.rxOpen = true →
    (s.task t).offered ≤ (s.task t).items.length + bodyQueue

/-- The read loop waits for a task exactly when its local service does not keep up. -/
theorem waitsFor_iff_behind {allowed : Agent → AgentAction → Prop} {options : AgentOptions}
    {s : Agent} (h : Run Agent.step allowed (Agent.init options) s) (t : Nat) :
    s.WaitsFor t ↔ ¬ s.KeepsUp t := by
  rw [waitsFor_iff_stuck, (relay_of_run h t).2.stuck_iff, KeepsUp, Classical.not_imp, Nat.not_le]
  rfl

end Agent

end Norupo
