import Norupo.Foundation.Transition
import Norupo.Proto.Frame

/-!
# Reconnecting

`run` of `norupo-client/src/agent.rs` and `reconnect_delay` of `config.rs`: the loop around the
sessions of the agent, with its count of attempts and its backoff. A session is what `run_session`
sees of it. The count says how many reconnects have been tried since the last clean end, or since
the start, where the first connection is no reconnect.
-/

namespace Norupo

open Transition

/-- The status codes that `run_session` tells apart. -/
inductive RpcCode
  | unauthenticated
  | permissionDenied
  | failedPrecondition
  | other
  deriving DecidableEq, Repr

/-- How the stream of server frames ends. -/
inductive StreamEnding
  /-- The agent was told to stop. -/
  | shutdown
  /-- An error, with its text. -/
  | status (text : Text)
  | eof
  deriving DecidableEq, Repr

/-- A connection as `run_session` sees it, with the texts of the errors that it is shown. -/
inductive Dial
  /-- The edge cannot be reached. -/
  | unreachable (error : Text)
  /-- The `Hello` cannot be queued. -/
  | queueClosed
  /-- The edge refuses the session. -/
  | refused (code : RpcCode) (message status : Text)
  /-- The session runs; a frame without payload is `none`. -/
  | streamed (frames : List (Option ServerFrame)) (ending : StreamEnding)
  deriving DecidableEq, Repr

/-- `SessionError`. -/
inductive SessionError
  /-- Reconnecting might help. -/
  | transient (error : Text)
  /-- Reconnecting will not help. -/
  | fatal (error : Text)
  deriving DecidableEq, Repr

/-- `run_session`, for its result. -/
def runSession (server : Text) : Dial → Except SessionError Unit
  | .unreachable error =>
    .error (.transient ("connect to ".toList ++ server ++ ": ".toList ++ error))
  | .queueClosed => .error (.transient "outbound queue closed".toList)
  | .refused .unauthenticated message _ | .refused .permissionDenied message _ =>
    .error (.fatal ("authentication failed: ".toList ++ message))
  | .refused .failedPrecondition message _ =>
    .error (.fatal ("edge refused the session: ".toList ++ message))
  | .refused .other _ status => .error (.transient ("session RPC failed: ".toList ++ status))
  | .streamed _ .shutdown => .ok ()
  | .streamed _ (.status text) => .error (.transient ("stream error: ".toList ++ text))
  | .streamed _ .eof => .ok ()

/-- The agent has received a `Welcome`. -/
def Dial.isEstablished : Dial → Bool
  | .streamed frames _ => frames.any fun frame => match frame with
    | some (.welcome _ _) => true
    | _ => false
  | _ => false

/-- The edge has closed the session in good order. -/
def Dial.endsCleanly : Dial → Bool
  | .streamed _ .eof => true
  | _ => false

/-- The session is not stopped by the agent and does not fail for good. -/
def Dial.isPlain : Dial → Bool
  | .refused code _ _ => code = .other
  | .streamed _ ending => ending ≠ .shutdown
  | _ => true

/-- `reconnect_delay`, in milliseconds. -/
def reconnectDelay (attempt : Nat) : Nat := min (250 * 2 ^ min attempt 8) 30000

/-- `u32::saturating_add`. -/
def saturatingSucc (attempt : Nat) : Nat := min (attempt + 1) (2 ^ 32 - 1)

/-- One round of the loop of `run`: the session, and whether the agent is told to stop before it,
after it, or during the delay. -/
structure Turn where
  dial : Dial
  stopBefore : Bool
  stopAfter : Bool
  stopAsleep : Bool
  deriving DecidableEq, Repr

/-- A round without a request to stop and without a fatal error. -/
def Turn.isPlain (turn : Turn) : Bool :=
  !turn.stopBefore && !turn.stopAfter && !turn.stopAsleep && turn.dial.isPlain

/-- The state of `run`. -/
structure Runner where
  attempt : Nat
  /-- The delays so far. -/
  delays : List Nat
  /-- The events sent so far that tell of a session that failed. -/
  disconnected : List Text
  /-- What it has returned. -/
  returned : Option (Except Text Unit)
  deriving Repr

/-- The error of `run` when retries are exhausted. -/
def givingUp (maxRetries : Nat) : Text :=
  "giving up after ".toList ++ (Nat.repr maxRetries).toList ++ " reconnect attempts".toList

namespace Runner

/-- `run` at its start. -/
def start : Runner := ⟨0, [], [], none⟩

/-- The part of a round after the session. -/
def goOn (maxRetries : Nat) (s : Runner) (turn : Turn) : Runner :=
  if turn.stopAfter then { s with returned := some (.ok ()) }
  else if 0 < maxRetries && maxRetries ≤ s.attempt then
    { s with returned := some (.error (givingUp maxRetries)) }
  else
    { s with
      attempt := saturatingSucc s.attempt
      delays := s.delays ++ [reconnectDelay s.attempt]
      returned := if turn.stopAsleep then some (.ok ()) else none }

/-- One round of the loop of `run`, while it has not returned. -/
def step (server : Text) (maxRetries : Nat) (s : Runner) (turn : Turn) : Option Runner :=
  if s.returned.isSome then none
  else if turn.stopBefore then some { s with returned := some (.ok ()) }
  else match runSession server turn.dial with
  | .ok _ => some ({ s with attempt := 0 }.goOn maxRetries turn)
  | .error (.fatal error) => some { s with returned := some (.error error) }
  | .error (.transient error) =>
    some ({ s with disconnected := s.disconnected ++ [error] }.goOn maxRetries turn)

/-- There have been more than `retries` sessions, and the last `retries` of them have failed: all
the reconnects that are allowed. -/
def Exhausted (retries : Nat) (turns : List Turn) : Prop :=
  ∃ earlier first rest, turns = earlier ++ first :: rest ∧ rest.length = retries ∧
    ∀ turn ∈ rest, turn.dial.endsCleanly = false

section Rounds

variable {server : Text} {maxRetries : Nat} {s s' : Runner} {turn : Turn}

/-- A plain session ends cleanly or fails for now. -/
theorem runSession_of_isPlain (h : turn.dial.isPlain = true) :
    (turn.dial.endsCleanly = true ∧ runSession server turn.dial = .ok ()) ∨
      (turn.dial.endsCleanly = false ∧
        ∃ error, runSession server turn.dial = .error (.transient error)) := by
  cases hd : turn.dial with
  | unreachable error => exact .inr ⟨rfl, _, rfl⟩
  | queueClosed => exact .inr ⟨rfl, _, rfl⟩
  | refused code message status =>
    rw [hd] at h
    obtain rfl : code = .other := of_decide_eq_true h
    exact .inr ⟨rfl, _, rfl⟩
  | streamed frames ending =>
    rw [hd] at h
    cases ending with
    | shutdown => cases h
    | status text => exact .inr ⟨rfl, _, rfl⟩
    | eof => exact .inl ⟨rfl, rfl⟩

/-- What a plain round does: it starts the count anew, gives up, or counts. -/
theorem step_cases (hpos : 0 < maxRetries) (hplain : turn.isPlain = true)
    (h : s.step server maxRetries turn = some s') : s.returned = none ∧
      ((turn.dial.endsCleanly = true ∧ s'.attempt = 1 ∧
          s'.delays = s.delays ++ [reconnectDelay 0] ∧ s'.returned = none) ∨
        (turn.dial.endsCleanly = false ∧ maxRetries ≤ s.attempt ∧
          s'.returned = some (.error (givingUp maxRetries))) ∨
        (turn.dial.endsCleanly = false ∧ s.attempt < maxRetries ∧
          s'.attempt = saturatingSucc s.attempt ∧ s'.returned = none)) := by
  simp only [Turn.isPlain, Bool.and_eq_true, Bool.not_eq_true'] at hplain
  obtain ⟨⟨⟨hbefore, hafter⟩, hasleep⟩, hdial⟩ := hplain
  unfold step at h
  split at h
  · cases h
  rename_i hreturned
  refine ⟨by simpa using hreturned, ?_⟩
  rw [hbefore, if_neg Bool.false_ne_true] at h
  rcases runSession_of_isPlain hdial with ⟨hclean, hrun⟩ | ⟨hclean, error, hrun⟩
  · rw [hrun] at h
    obtain rfl := Option.some.inj h
    left
    simp [goOn, hafter, hasleep, hclean, saturatingSucc, Nat.ne_of_gt hpos]
  · rw [hrun] at h
    obtain rfl := Option.some.inj h
    right
    by_cases hle : maxRetries ≤ s.attempt
    · left
      simp [goOn, hafter, hpos, hle, hclean]
    · right
      simp [goOn, hafter, hasleep, hle, hclean]
      omega

end Rounds

/-- The count says how many sessions there have been from the last clean end on, or from the start,
and all of them but the clean one have failed. -/
def Counts (count : Nat) (turns : List Turn) : Prop :=
  ∃ earlier streak, turns = earlier ++ streak ∧ (∀ turn ∈ streak, turn.dial.endsCleanly = false) ∧
    ((earlier = [] ∧ streak.length = count) ∨
      (∃ turn, earlier.getLast? = some turn ∧ turn.dial.endsCleanly = true) ∧
        streak.length + 1 = count)

/-- What holds of `run` after a list of rounds. -/
structure Counted (maxRetries : Nat) (turns : List Turn) (s : Runner) : Prop where
  looping : s.returned = none → s.attempt ≤ maxRetries ∧ Counts s.attempt turns
  returned : ∀ result, s.returned = some result →
    result = .error (givingUp maxRetries) ∧ Exhausted maxRetries turns

section Runs

variable {server : Text} {maxRetries : Nat} {s s' : Runner} {turn : Turn} {turns : List Turn}

/-- A clean end is counted as one. -/
theorem Counts.clean (h : turn.dial.endsCleanly = true) : Counts 1 (turns ++ [turn]) := by
  refine ⟨turns ++ [turn], [], by simp, by simp, .inr ⟨⟨turn, ?_, h⟩, rfl⟩⟩
  exact List.getLast?_concat

/-- A failure is counted. -/
theorem Counts.failure {count : Nat} (hc : Counts count turns)
    (h : turn.dial.endsCleanly = false) : Counts (count + 1) (turns ++ [turn]) := by
  obtain ⟨earlier, streak, rfl, hfailed, hcount⟩ := hc
  refine ⟨earlier, streak ++ [turn], by simp, ?_, ?_⟩
  · intro other hother
    rcases List.mem_append.mp hother with hother | hother
    · exact hfailed other hother
    · obtain rfl := List.mem_singleton.mp hother
      exact h
  · rw [List.length_append, List.length_singleton]
    rcases hcount with ⟨hstart, hlength⟩ | ⟨hclean, hlength⟩
    · exact .inl ⟨hstart, by omega⟩
    · exact .inr ⟨hclean, by omega⟩

/-- A count beyond the retries leaves no reconnect. The session before them has failed as well when
nothing has ended cleanly, and else it is the clean one. -/
theorem Counts.exhausted (hc : Counts (maxRetries + 1) turns) : Exhausted maxRetries turns := by
  obtain ⟨earlier, streak, rfl, hfailed, hcount⟩ := hc
  rcases hcount with ⟨rfl, hlength⟩ | ⟨⟨turn, hlast, -⟩, hlength⟩
  · obtain ⟨first, rest, rfl⟩ := List.exists_cons_of_length_eq_add_one hlength
    refine ⟨[], first, rest, rfl, by simpa using hlength, fun turn hturn => ?_⟩
    exact hfailed turn (List.mem_cons_of_mem _ hturn)
  · obtain ⟨before, rfl⟩ := List.getLast?_eq_some_iff.mp hlast
    exact ⟨before, turn, streak, by simp, by omega, hfailed⟩

/-- While `run` goes on, only its count matters. -/
theorem Counted.of_looping (hnone : s.returned = none) (hle : s.attempt ≤ maxRetries)
    (hcounts : Counts s.attempt turns) : Counted maxRetries turns s := by
  refine ⟨fun _ => ⟨hle, hcounts⟩, fun result hr => ?_⟩
  rw [hnone] at hr
  cases hr

/-- The count is kept by every round. -/
theorem Counted.step (hpos : 0 < maxRetries) (hmax : maxRetries < 2 ^ 32)
    (hc : Counted maxRetries turns s) (hplain : turn.isPlain = true)
    (h : s.step server maxRetries turn = some s') : Counted maxRetries (turns ++ [turn]) s' := by
  obtain ⟨hopen, hcases⟩ := step_cases hpos hplain h
  obtain ⟨hle, hcounts⟩ := hc.looping hopen
  rcases hcases with ⟨hclean, hattempt, -, hnone⟩ | ⟨hfailed, hge, hgave⟩ |
    ⟨hfailed, hlt, hattempt, hnone⟩
  · apply Counted.of_looping hnone
    · rw [hattempt]
      exact hpos
    · rw [hattempt]
      exact .clean hclean
  · refine ⟨fun hr => ?_, fun result hr => ?_⟩
    · rw [hgave] at hr
      cases hr
    · rw [hgave] at hr
      obtain rfl : maxRetries = s.attempt := by omega
      exact ⟨(Option.some.inj hr).symm, (hcounts.failure hfailed).exhausted⟩
  · have hsucc : s'.attempt = s.attempt + 1 := by
      rw [hattempt, saturatingSucc]
      omega
    apply Counted.of_looping hnone
    · rw [hsucc]
      exact hlt
    · rw [hsucc]
      exact hcounts.failure hfailed

/-- The count is kept over a whole run. -/
theorem counted_of_exec (hpos : 0 < maxRetries) (hmax : maxRetries < 2 ^ 32)
    (h : exec (step server maxRetries) start turns = some s)
    (hplain : ∀ turn ∈ turns, turn.isPlain = true) : Counted maxRetries turns s := by
  revert hplain
  refine exec_history (P := fun turns s => (∀ turn ∈ turns, turn.isPlain = true) →
    Counted maxRetries turns s) ?_ ?_ h
  · intro _
    exact .of_looping rfl (Nat.zero_le _) ⟨[], [], rfl, by simp, .inl ⟨rfl, rfl⟩⟩
  · intro turns s turn s' hold hstep hplain
    have hbefore := hold fun other hother => hplain other (List.mem_append_left _ hother)
    exact hbefore.step hpos hmax (hplain turn (List.mem_append_right _ (List.mem_singleton_self _)))
      hstep

/-- Without a request to stop and without a fatal error, the agent returns only to give up, and only
when the reconnects that it is allowed have all failed. After a clean end it goes on, with the count
and the delay of the first reconnect. -/
theorem gaveUp_exhausted (hpos : 0 < maxRetries) (hmax : maxRetries < 2 ^ 32)
    (h : exec (step server maxRetries) start turns = some s)
    (hplain : ∀ turn ∈ turns, turn.isPlain = true) :
    (∀ result, s.returned = some result →
        result = .error (givingUp maxRetries) ∧ Exhausted maxRetries turns) ∧
      ∀ turn, turns.getLast? = some turn → turn.dial.endsCleanly = true →
        s.returned = none ∧ s.attempt = 1 ∧ s.delays.getLast? = some (reconnectDelay 0) := by
  refine ⟨(counted_of_exec hpos hmax h hplain).returned, fun turn hlast hclean => ?_⟩
  obtain ⟨earlier, rfl⟩ := List.getLast?_eq_some_iff.mp hlast
  obtain ⟨before, -, hstep⟩ := exec_concat_eq_some.mp h
  have hturn := hplain turn (List.mem_append_right _ (List.mem_singleton_self _))
  obtain ⟨-, ⟨-, hattempt, hdelays, hnone⟩ | ⟨hfailed, -⟩ | ⟨hfailed, -⟩⟩ :=
    step_cases hpos hturn hstep
  · rw [hdelays, List.getLast?_concat]
    exact ⟨hnone, hattempt, rfl⟩
  all_goals
    rw [hclean] at hfailed
    cases hfailed

end Runs

/-- A round with nothing but its session. -/
def round (dial : Dial) : Turn := ⟨dial, false, false, false⟩

/-- A session that the edge welcomes. -/
def welcomed (ending : StreamEnding) : Dial :=
  .streamed [some (.welcome "s".toList "n".toList)] ending

/-- A round in which the edge cannot be reached. -/
def unanswered : Turn := round (.unreachable "transport error".toList)

/-- With one retry, nothing is left when the reconnect after a clean end has failed. -/
theorem gaveUp_exhausted_one : Exhausted 1 [round (welcomed .eof), unanswered] := by
  have h := @gaveUp_exhausted [] 1 _ [round (welcomed .eof), unanswered] (by decide)
    (by decide) rfl (by decide)
  exact (h.1 _ rfl).2

/-- The last `retries + 1` sessions have all failed before they were established. -/
def NeverEstablished (retries : Nat) (turns : List Turn) : Prop :=
  ∃ earlier streak, turns = earlier ++ streak ∧ streak.length = retries + 1 ∧
    ∀ turn ∈ streak, turn.dial.endsCleanly = false ∧ turn.dial.isEstablished = false

/-- With one retry, the agent gives up one failure after a session that was established and ended
cleanly. It also gives up at once when a session that was established breaks off. -/
theorem gaveUp_established :
    (∃ s, exec (step [] 1) start [round (welcomed .eof), unanswered] = some s ∧
        s.returned = some (.error (givingUp 1))) ∧
      ¬ NeverEstablished 1 [round (welcomed .eof), unanswered] ∧
      ∃ s, exec (step [] 1) start [unanswered, round (welcomed (.status []))] = some s ∧
        s.returned = some (.error (givingUp 1)) := by
  refine ⟨⟨_, rfl, rfl⟩, ?_, ⟨_, rfl, rfl⟩⟩
  rintro ⟨earlier, streak, hturns, hlength, hfailed⟩
  -- The two rounds are the whole streak, and the first of them ended cleanly.
  have hearlier : earlier = [] := by
    have := congrArg List.length hturns
    rw [List.length_append, hlength] at this
    exact List.eq_nil_of_length_eq_zero (by simpa using this)
  rw [hearlier, List.nil_append] at hturns
  have hclean := (hfailed (round (welcomed .eof)) (by simp [← hturns])).1
  cases hclean

end Runner

end Norupo
