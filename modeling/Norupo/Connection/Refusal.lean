import Norupo.Control.Handshake

/-!
# An agent that is refused

The handshake from both sides: `ControlService::session` on the edge, and `run` with `run_session`
on the agent, which always sends its `Hello` first. Over its sessions the agent may meet edges with
different tokens. An edge that refuses the `Hello`, for its version or for its token, ends the
agent: there is no further session, and what `run` returns is what the edge said. Every other
failure is retried, so that apart from giving up the agent returns an error only when it was
refused.
-/

namespace Norupo

open Transition

/-- The error that `run_session` makes of a status for which reconnecting does not help. -/
def RpcStatus.fatalText (status : RpcStatus) : Option Text :=
  match status.code with
  | .unauthenticated | .permissionDenied =>
    some ("authentication failed: ".toList ++ status.message)
  | .failedPrecondition => some ("edge refused the session: ".toList ++ status.message)
  | .other => none

/-- What an agent with this `Hello` can see of an edge with these tokens. -/
inductive Dial.Against (auth : StaticTokenAuth) (hello : Hello) : Dial → Prop
  /-- The edge cannot be reached. -/
  | unreachable (error : Text) : Against auth hello (.unreachable error)
  | queueClosed : Against auth hello .queueClosed
  /-- The transport fails before the edge has answered. -/
  | broken (message text : Text) : Against auth hello (.refused .other message text)
  | refused {status : RpcStatus} (text : Text) : openSession auth (.hello hello) = .error status →
      Against auth hello (.refused status.code status.message text)
  | streamed {principal : Principal} (frames : List (Option ServerFrame)) (ending : StreamEnding) :
      openSession auth (.hello hello) = .ok principal →
      Against auth hello (.streamed frames ending)

/-- An edge that refuses a `Hello` makes the session fail for good. -/
theorem runSession_of_openSession {auth : StaticTokenAuth} {hello : Hello} {status : RpcStatus}
    (h : openSession auth (.hello hello) = .error status) (server text : Text) :
    ∃ error, status.fatalText = some error ∧
      runSession server (.refused status.code status.message text) = .error (.fatal error) := by
  simp only [openSession] at h
  split at h
  · obtain rfl := Except.error.inj h
    exact ⟨_, rfl, rfl⟩
  · cases ha : auth.authenticate hello.token <;> rw [ha] at h
    · obtain rfl := Except.error.inj h
      exact ⟨_, rfl, rfl⟩
    · cases h

/-- A session that fails for good is one that the edge has refused, and its error says why. -/
theorem Dial.Against.fatal {auth : StaticTokenAuth} {hello : Hello} {dial : Dial}
    {server error : Text} (h : dial.Against auth hello)
    (hr : runSession server dial = .error (.fatal error)) :
    ∃ status, openSession auth (.hello hello) = .error status ∧ status.fatalText = some error := by
  cases h with
  | unreachable | queueClosed | broken => cases hr
  | @refused status text hs =>
    refine ⟨status, hs, ?_⟩
    obtain ⟨code, message⟩ := status
    cases code <;> simp_all [runSession, RpcStatus.fatalText]
  | streamed frames ending hs => cases ending <;> cases hr

namespace Runner

section Rounds

variable {server : Text} {maxRetries : Nat} {s s' : Runner} {turn : Turn}

/-- After a session, `run` goes on, stops as it was told to, or gives up. -/
theorem goOn_returned {error : Text}
    (h : (s.goOn maxRetries turn).returned = some (.error error)) :
    error = givingUp maxRetries := by
  unfold goOn at h
  split at h
  · cases h
  · split at h
    · exact (Except.error.inj (Option.some.inj h)).symm
    · simp only at h
      split at h <;> cases h

/-- A round that ends `run` with an error gives up, or its session has failed for good. -/
theorem step_returned (h : s.step server maxRetries turn = some s') {error : Text}
    (he : s'.returned = some (.error error)) :
    error = givingUp maxRetries ∨
      turn.stopBefore = false ∧ runSession server turn.dial = .error (.fatal error) := by
  unfold step at h
  split at h
  · cases h
  split at h
  · obtain rfl := Option.some.inj h
    cases he
  rename_i hbefore
  split at h
  · obtain rfl := Option.some.inj h
    exact .inl (goOn_returned he)
  · rename_i fatal hrun
    obtain rfl := Option.some.inj h
    obtain rfl : fatal = error := by simpa using he
    exact .inr ⟨by simpa using hbefore, hrun⟩
  · obtain rfl := Option.some.inj h
    exact .inl (goOn_returned he)

/-- A session that fails for good ends `run` with its error. -/
theorem step_fatal (h : s.step server maxRetries turn = some s') (hb : turn.stopBefore = false)
    {error : Text} (hrun : runSession server turn.dial = .error (.fatal error)) :
    s'.returned = some (.error error) := by
  unfold step at h
  split at h
  · cases h
  · rw [hb, if_neg Bool.false_ne_true, hrun] at h
    obtain rfl := Option.some.inj h
    rfl

/-- `run` that has returned takes no more rounds. -/
theorem exec_returned {turns : List Turn} (h : exec (step server maxRetries) s turns = some s')
    (hr : s.returned.isSome = true) : turns = [] := by
  cases turns with
  | nil => rfl
  | cons turn turns => simp [step, hr] at h

end Rounds

/-- Whatever edges an agent meets, an edge that refuses its `Hello` is the last: no session follows,
and `run` returns what the edge said. Apart from giving up, `run` returns an error in no other
way. -/
theorem refusal_final {server : Text} {maxRetries : Nat} {hello : Hello} {turns : List Turn}
    {auth : Nat → StaticTokenAuth} {s : Runner}
    (h : exec (step server maxRetries) start turns = some s)
    (hfacing : ∀ (k : Nat) (turn : Turn), turns[k]? = some turn →
      turn.dial.Against (auth k) hello) :
    (∀ earlier turn later status text, turns = earlier ++ turn :: later →
      turn.stopBefore = false → turn.dial = .refused status.code status.message text →
      openSession (auth earlier.length) (.hello hello) = .error status →
      later = [] ∧ ∃ error, status.fatalText = some error ∧ s.returned = some (.error error)) ∧
    ∀ error, s.returned = some (.error error) → error = givingUp maxRetries ∨
      ∃ earlier turn status, turns = earlier ++ [turn] ∧
        openSession (auth earlier.length) (.hello hello) = .error status ∧
        status.fatalText = some error := by
  constructor
  · intro earlier turn later status text hturns hbefore hdial hstatus
    obtain ⟨error, htext, hrun⟩ := runSession_of_openSession hstatus server text
    rw [hturns, exec_append_eq_some] at h
    obtain ⟨before, -, hrest⟩ := h
    rw [exec_cons, Option.bind_eq_some_iff] at hrest
    obtain ⟨after, hstep, hlater⟩ := hrest
    have hreturned := step_fatal hstep hbefore (hdial ▸ hrun)
    obtain rfl := exec_returned hlater (by simp [hreturned])
    obtain rfl : after = s := by simpa using hlater
    exact ⟨rfl, error, htext, hreturned⟩
  · intro error herror
    cases turns using List.reverseRecOn with
    | nil =>
      obtain rfl : start = s := by simpa using h
      cases herror
    | append_singleton earlier turn =>
      obtain ⟨before, -, hstep⟩ := exec_concat_eq_some.mp h
      rcases step_returned hstep herror with hgave | ⟨-, hrun⟩
      · exact .inl hgave
      · have hagainst := hfacing earlier.length turn (by simp)
        obtain ⟨status, hstatus, htext⟩ := hagainst.fatal hrun
        exact .inr ⟨earlier, turn, status, rfl, hstatus, htext⟩

/-- An edge that is down, and then up again without the token of the agent. -/
def revoked : List Turn :=
  [round (.unreachable "connection refused".toList),
    round (.refused .unauthenticated "unauthorized: unknown or revoked token".toList [])]

/-- The agent tries again while the edge is down, and stops when it is refused. -/
theorem refusal_final_revoked : ∃ s, exec (step [] 0) start revoked = some s ∧ s.delays = [250] ∧
    ∃ error, s.returned = some (.error error) := by
  obtain ⟨s, hs, hdelays⟩ : ∃ s, exec (step [] 0) start revoked = some s ∧ s.delays = [250] :=
    ⟨_, rfl, rfl⟩
  have hrefuses : openSession (.new fun _ => none) (.hello ⟨"tok_a".toList, 1⟩) =
      .error ⟨.unauthenticated, "unauthorized: unknown or revoked token".toList⟩ := rfl
  have hfacing : ∀ (k : Nat) (turn : Turn), revoked[k]? = some turn →
      turn.dial.Against (.new fun _ => none) ⟨"tok_a".toList, 1⟩ := by
    intro k turn hk
    match k, hk with
    | 0, hk =>
      obtain rfl := Option.some.inj hk
      exact .unreachable _
    | 1, hk =>
      obtain rfl := Option.some.inj hk
      exact .refused [] hrefuses
    | k + 2, hk => simp [revoked] at hk
  obtain ⟨-, error, -, hreturned⟩ :=
    (@refusal_final _ _ _ _ (fun _ => .new fun _ => none) _ hs hfacing).1 [_] _ [] _ [] rfl rfl rfl
      hrefuses
  exact ⟨s, hs, hdelays, error, hreturned⟩

end Runner

end Norupo
