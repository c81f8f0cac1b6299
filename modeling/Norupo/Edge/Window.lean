import Norupo.Edge.Delivery
import Norupo.Edge.Upload

/-!
# The window of a response body

The edge returns credit for a response with `WindowUpdate` frames. An agent keeps to its credit when
the data it has sent for a stream never exceeds the initial window and the credit it was sent. The
window then bounds what a stream holds, provided that credit is only returned for bytes the public
client has taken.
-/

namespace Norupo

open Async Transition

namespace Edge

/-- Bytes that have arrived for a stream. -/
def arrived (s : Edge) (i : Nat) : Nat := (s.received.flatMap (ClientFrame.dataFor i)).length

/-- Credit that has been sent for a stream. -/
def granted (s : Edge) (i : Nat) : Nat := (s.transmitted.map (ServerFrame.creditFor i)).sum

/-- Credit that has been sent or queued for a stream. -/
def promised (s : Edge) (i : Nat) : Nat := (s.log.map (ServerFrame.creditFor i)).sum

/-- The agent sends data within its credit. -/
def withinCredit (window : Nat) (s : Edge) : EdgeAction → Bool
  | .recv (.streamData i payload) => s.arrived i + payload.length ≤ window + s.granted i
  | _ => true

/-- Credit is queued only for bytes that the public client has taken. -/
def grantsTaken (s : Edge) : EdgeAction → Bool
  | .reply => match s.readLoop with
    | .replying (.windowUpdate i increment) => s.promised i + increment ≤ (s.taken i).length
    | _ => true
  | _ => true

/-- What the credit of a session keeps in step. -/
structure Credited (window : Nat) (s : Edge) : Prop where
  arrived : ∀ i, s.arrived i ≤ window + s.granted i
  promised : ∀ i, s.promised i ≤ (s.taken i).length

section Preservation

variable {s s' : Edge} {a : EdgeAction}

/-- Bytes taken by the public client stay taken. -/
theorem Step.taken_mono (hw : WellFormed s) (h : Step s a s') (i : Nat) :
    (s.taken i).length ≤ (s'.taken i).length := by
  have hp : (s.request i).taken <+: (s'.request i).taken := by
    by_cases hi : s.session.nextStreamId ≤ i
    · rw [(hw.fresh i hi).2]
      exact List.nil_prefix
    · exact (h.relay hw i).taken_mono hi
  exact (hp.flatMap Chunk.bytes).length_le

/-- Credit that has been sent stays sent. -/
theorem Step.granted_mono (h : Step s a s') (i : Nat) : s.granted i ≤ s'.granted i := by
  cases h
  case transmit => simp [granted]
  all_goals exact le_rfl

/-- What is promised has been sent or will be. -/
theorem granted_le_promised (s : Edge) (i : Nat) : s.granted i ≤ s.promised i := by
  simp [granted, promised, log]

/-- What a step promises is the credit in the read loop's hands. -/
theorem Step.promised_cases (hw : WellFormed s) (h : Step s a s') (i : Nat) :
    s'.promised i = s.promised i ∨ ∃ increment, a = .reply ∧
      s.readLoop = .replying (.windowUpdate i increment) ∧
      s'.promised i = s.promised i + increment := by
  rcases h.log_cases hw with hl | ⟨frame, hl, he⟩
  · exact .inl (by rw [promised, hl, promised])
  · have hsum : s'.promised i = s.promised i + frame.creditFor i := by simp [promised, hl]
    cases frame
    case windowUpdate j increment =>
      obtain ⟨ha, hrl⟩ := he
      by_cases hj : j = i
      · subst hj
        exact .inr ⟨increment, ha, hrl, by simpa [ServerFrame.creditFor] using hsum⟩
      · exact .inl (by simpa [ServerFrame.creditFor, hj] using hsum)
    all_goals exact .inl (by simpa [ServerFrame.creditFor] using hsum)

theorem Credited.step {window : Nat} (hw : WellFormed s) (hc : Credited window s)
    (hcredit : s.withinCredit window a = true) (hgrant : s.grantsTaken a = true)
    (h : s.step a = some s') : Credited window s' := by
  have hs := step_cases h
  refine ⟨fun i => ?_, fun i => ?_⟩
  · have hmono := hs.granted_mono i
    have hold := hc.arrived i
    rcases hs.received_cases with hr | ⟨frame, rfl, hr⟩
    · rw [Edge.arrived, hr]
      exact hold.trans (Nat.add_le_add_left hmono _)
    · have hsum : s'.arrived i = s.arrived i + (frame.dataFor i).length := by
        simp [Edge.arrived, hr]
      cases frame
      case streamData j payload =>
        simp only [withinCredit, decide_eq_true_eq] at hcredit
        by_cases hj : j = i
        · subst hj
          simp only [ClientFrame.dataFor, if_true] at hsum
          omega
        · simp only [ClientFrame.dataFor, hj, if_false, List.length_nil] at hsum
          omega
      all_goals
        simp only [ClientFrame.dataFor, List.length_nil] at hsum
        omega
  · have htaken := hs.taken_mono hw i
    have hold := hc.promised i
    rcases hs.promised_cases hw i with hp | ⟨increment, rfl, hl, hp⟩
    · omega
    · simp only [grantsTaken, hl, decide_eq_true_eq] at hgrant
      omega

/-- A faithful relay within its credit holds at most a window. -/
theorem Credited.held_le {window : Nat} (hc : Credited window s) {i : Nat}
    (hr : (s.relay i).Faithful) : (s.held i).length ≤ window := by
  have hlen := (taken_append_held_isPrefix hr).length_le
  have hcarried : (s.carried i).length ≤ s.arrived i :=
    ((List.drop_suffix _ _).flatMap (ClientFrame.dataFor i)).length_le
  have ha := hc.arrived i
  have hp := hc.promised i
  have hg := granted_le_promised s i
  rw [List.length_append] at hlen
  omega

end Preservation

/-- In every session whose agent keeps to its credit and whose credit is returned for taken bytes
only, a stream holds at most a window. -/
theorem held_le_of_run {limit window : Nat} {s : Edge}
    (h : Run Edge.step (fun s a => s.withinCredit window a && s.grantsTaken a)
      (Edge.init limit window) s) (i : Nat) : (s.held i).length ≤ window := by
  have hc : WellFormed s ∧ Credited window s := by
    refine h.invariant (P := fun s => WellFormed s ∧ Credited window s)
      ⟨.init limit window, fun _ => Nat.zero_le _, fun _ => Nat.zero_le _⟩ ?_
    rintro s a s' ⟨hw, hc⟩ hok hs
    rw [Bool.and_eq_true] at hok
    exact ⟨hw.step hs, hc.step hw hok.1 hok.2 hs⟩
  exact hc.2.held_le (relay_of_run h i).1

/-- The public client is gone, or it has left at most a queue of the chunks taken for it. -/
def KeepsUp (s : Edge) (i : Nat) : Prop :=
  (s.session.stream i).body.rxOpen = true →
    (s.request i).offered ≤ (s.request i).taken.length + streamBufferFrames

/-- The read loop waits for a stream exactly when its public client does not keep up. -/
theorem waitsFor_iff_behind {allowed : Edge → EdgeAction → Prop} {limit window : Nat} {s : Edge}
    (h : Run Edge.step allowed (Edge.init limit window) s) (i : Nat) :
    s.WaitsFor i ↔ ¬ s.KeepsUp i := by
  rw [waitsFor_iff_stuck, (relay_of_run h i).2.stuck_iff, KeepsUp, Classical.not_imp, Nat.not_le]
  rfl

end Edge

end Norupo
