import Norupo.Agent.Retry
import Mathlib.Algebra.Order.BigOperators.Group.List

/-!
# The pauses between reconnects

`reconnect_delay` of `norupo-client/src/config.rs` is a closed formula of a count that saturates.
What the loop of `run` makes of it over a whole run is a rule from one pause to the next: the first
pause and the pause after a clean end last a quarter of a second, and every further pause lasts
twice as long as the one before it, up to half a minute.
-/

namespace Norupo

open Transition

/-- The pauses after sessions that have ended cleanly or not, when the next one lasts `next`. -/
def pauses : Nat → List Bool → List Nat
  | _, [] => []
  | next, clean :: rest =>
    let pause := if clean then 250 else next
    pause :: pauses (min (2 * pause) 30000) rest

/-- How long the next pause lasts. -/
def nextPause : Nat → List Bool → Nat
  | next, [] => next
  | next, clean :: rest => nextPause (min (2 * if clean then 250 else next) 30000) rest

/-- The pause after one more session. -/
theorem pauses_concat (next : Nat) (ended : List Bool) (clean : Bool) :
    pauses next (ended ++ [clean]) =
      pauses next ended ++ [if clean then 250 else nextPause next ended] ∧
    nextPause next (ended ++ [clean]) =
      min (2 * if clean then 250 else nextPause next ended) 30000 := by
  induction ended generalizing next with
  | nil => exact ⟨rfl, rfl⟩
  | cons first ended ih =>
    obtain ⟨hpauses, hnext⟩ := ih (min (2 * if first then 250 else next) 30000)
    exact ⟨congrArg _ hpauses, hnext⟩

@[simp] theorem length_pauses (next : Nat) (ended : List Bool) :
    (pauses next ended).length = ended.length := by
  induction ended generalizing next with
  | nil => rfl
  | cons clean ended ih => simp only [pauses, List.length_cons, ih]

/-- The pauses last a quarter of a second at least and half a minute at most. -/
theorem pauses_bounds {next : Nat} (h : 250 ≤ next ∧ next ≤ 30000) (ended : List Bool) :
    ∀ pause ∈ pauses next ended, 250 ≤ pause ∧ pause ≤ 30000 := by
  induction ended generalizing next with
  | nil => exact fun pause hp => absurd hp List.not_mem_nil
  | cons clean ended ih =>
    have hpause : 250 ≤ (if clean then 250 else next) ∧ (if clean then 250 else next) ≤ 30000 := by
      cases clean
      · exact h
      · exact ⟨le_rfl, by simp⟩
    intro pause hp
    rcases List.mem_cons.mp hp with rfl | hp
    · exact hpause
    · exact ih (by omega) pause hp

/-- The delays double up to their ceiling, also where the count saturates. -/
theorem reconnectDelay_saturatingSucc (attempt : Nat) :
    reconnectDelay (saturatingSucc attempt) = min (2 * reconnectDelay attempt) 30000 := by
  have hgrowing : ∀ n < 8, reconnectDelay (saturatingSucc n) =
      min (2 * reconnectDelay n) 30000 := by decide
  by_cases h : attempt < 8
  · exact hgrowing attempt h
  · have hmin : min attempt 8 = 8 := by omega
    have hsucc : min (saturatingSucc attempt) 8 = 8 := by
      unfold saturatingSucc
      omega
    rw [reconnectDelay, reconnectDelay, hmin, hsucc]
    rfl

/-- The session of a round has ended without an error. -/
def Turn.isClean (server : Text) (turn : Turn) : Bool := (runSession server turn.dial).isOk

namespace Runner

/-- How the sessions of some rounds have ended. -/
def endings (server : Text) (turns : List Turn) : List Bool := turns.map (Turn.isClean server)

theorem endings_concat (server : Text) (turns : List Turn) (turn : Turn) :
    endings server (turns ++ [turn]) = endings server turns ++ [turn.isClean server] :=
  List.map_append

/-- What holds of the pauses of `run` after a list of rounds. -/
structure Paused (server : Text) (turns : List Turn) (s : Runner) : Prop where
  looping : s.returned = none → s.delays = pauses 250 (endings server turns) ∧
    reconnectDelay s.attempt = nextPause 250 (endings server turns)
  isPrefix : s.delays <+: pauses 250 (endings server turns)
  count : turns.length ≤ s.delays.length + 1

section Rounds

variable {server : Text} {maxRetries : Nat} {s s' : Runner} {turn : Turn} {turns : List Turn}

/-- A round that returns without a pause. -/
theorem Paused.of_returned {result : Except Text Unit}
    (hd : s.delays = pauses 250 (endings server turns)) :
    Paused server (turns ++ [turn]) { s with returned := some result } := by
  refine ⟨nofun, ?_, ?_⟩
  · rw [endings_concat, (pauses_concat 250 _ _).1]
    exact hd ▸ List.prefix_append _ _
  · simp [hd, endings]

/-- The part of a round after the session: the pause follows from the one before. -/
theorem Paused.goOn (hd : s.delays = pauses 250 (endings server turns))
    (ha : reconnectDelay s.attempt =
      if turn.isClean server then 250 else nextPause 250 (endings server turns)) :
    Paused server (turns ++ [turn]) (s.goOn maxRetries turn) := by
  unfold Runner.goOn
  split
  · exact .of_returned hd
  split
  · exact .of_returned hd
  obtain ⟨hpauses, hnext⟩ := pauses_concat 250 (endings server turns) (turn.isClean server)
  have hdelays : s.delays ++ [reconnectDelay s.attempt] =
      pauses 250 (endings server (turns ++ [turn])) := by
    rw [hd, ha, endings_concat, hpauses]
  refine ⟨fun _ => ⟨hdelays, ?_⟩, hdelays ▸ List.prefix_rfl, ?_⟩
  · rw [reconnectDelay_saturatingSucc, ha, endings_concat, hnext]
  · simp [hd, endings]

theorem Paused.step (hp : Paused server turns s) (h : s.step server maxRetries turn = some s') :
    Paused server (turns ++ [turn]) s' := by
  unfold Runner.step at h
  split at h
  · cases h
  rename_i hreturned
  obtain ⟨hdelays, hattempt⟩ := hp.looping (by simpa using hreturned)
  split at h
  · obtain rfl := Option.some.inj h
    exact .of_returned hdelays
  split at h
  · rename_i hrun
    obtain rfl := Option.some.inj h
    refine .goOn hdelays ?_
    rw [if_pos (by rw [Turn.isClean, hrun]; rfl)]
    rfl
  · obtain rfl := Option.some.inj h
    exact .of_returned hdelays
  · rename_i error hrun
    obtain rfl := Option.some.inj h
    refine .goOn hdelays ?_
    rw [if_neg (by rw [Turn.isClean, hrun]; nofun)]
    exact hattempt

/-- The pauses of every run follow the rule, all of them while it has not returned. They last
between a quarter of a second and half a minute, and there is one between any two sessions, so that
a number of sessions takes its time whatever becomes of them. -/
theorem delays_follow (h : exec (step server maxRetries) start turns = some s) :
    s.delays <+: pauses 250 (endings server turns) ∧
    (s.returned = none → s.delays = pauses 250 (endings server turns)) ∧
    (∀ delay ∈ s.delays, 250 ≤ delay ∧ delay ≤ 30000) ∧
    250 * turns.length ≤ s.delays.sum + 250 := by
  have hp : Paused server turns s := exec_history (P := Paused server)
    ⟨fun _ => ⟨rfl, rfl⟩, List.prefix_rfl, Nat.zero_le _⟩ (fun _ _ _ _ hp hs => hp.step hs) h
  have hbounds : ∀ delay ∈ s.delays, 250 ≤ delay ∧ delay ≤ 30000 :=
    fun delay hd => pauses_bounds ⟨le_rfl, by decide⟩ _ delay (hp.isPrefix.subset hd)
  refine ⟨hp.isPrefix, fun hn => (hp.looping hn).1, hbounds, ?_⟩
  have hsum : s.delays.length * 250 ≤ s.delays.sum :=
    List.card_nsmul_le_sum s.delays 250 fun delay hd => (hbounds delay hd).1
  have hcount := hp.count
  omega

end Rounds

/-- Two failures, a clean end and another failure. -/
theorem delays_follow_restart : ∃ s,
    exec (step [] 0) start [unanswered, unanswered, round (welcomed .eof), unanswered] = some s ∧
    s.delays = [250, 500, 250, 500] ∧
    s.delays <+:
      pauses 250 (endings [] [unanswered, unanswered, round (welcomed .eof), unanswered]) := by
  obtain ⟨s, hs, hdelays⟩ : ∃ s,
      exec (step [] 0) start [unanswered, unanswered, round (welcomed .eof), unanswered] = some s ∧
      s.delays = [250, 500, 250, 500] := ⟨_, rfl, rfl⟩
  exact ⟨s, hs, hdelays, (delays_follow hs).1⟩

end Runner

end Norupo
