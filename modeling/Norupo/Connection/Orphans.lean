import Norupo.Connection.Multiplexing
import Norupo.Connection.CircularWait
import Norupo.Connection.Stall

/-!
# Tasks that outlive their session

`run_session` of `norupo-client/src/agent.rs` returns when its read loop ends. The `serve_stream`
tasks go on, since they hold the session context themselves, and that context keeps the stream table
with the send windows. Nobody closes these windows and nobody adds to them any more. A task that
waits for credit then is never woken; every other task can still come to its end.
-/

namespace Norupo

open Async Transition

/-- The read loop has come to its end. -/
def AgentLoop.isOver : AgentLoop → Bool
  | .stopped | .crashed => true
  | _ => false

namespace Agent

section Parking

variable {s s' : Agent} {a : AgentAction} {t : Nat}

/-- A loop that is over is at no other place. -/
theorem ne_of_over (ho : s.readLoop.isOver = true) {loop : AgentLoop} (hn : loop.isOver = false) :
    s.readLoop ≠ loop := by
  rintro rfl
  rw [hn] at ho
  cases ho

/-- What a step leaves alone when the read loop is over. -/
theorem Step.over (h : Step s a s') (ho : s.readLoop.isOver = true) :
    s'.readLoop.isOver = true ∧ s'.received = s.received ∧ s'.nextTask = s.nextTask := by
  cases h
  all_goals first
    | exact ⟨ho, rfl, rfl⟩
    | exact (ne_of_over ho rfl ‹_›).elim
    | simpa using ho

/-- No step wakes a task that is parked when the read loop is over. -/
theorem Step.parked (hw : WellFormed s) (h : Step s a s') (ho : s.readLoop.isOver = true)
    (hsole : s.Sole t) (hp : s.Parked t) : s'.Parked t := by
  obtain ⟨payload, hserve, hpoll⟩ := hp
  suffices hsame : (s'.task t).serve = (s.task t).serve ∧
      (s'.task t).sendCredit = (s.task t).sendCredit by
    exact ⟨payload, hsame.1.trans hserve, by rw [hsame.2, hpoll]⟩
  cases h
  case drop u hu =>
    have hne : t ≠ u := by
      rintro rfl
      rw [hserve] at hu
      cases hu
    have hentry : (s.streams (s.task u).streamId).map StreamState.task ≠ some t := by
      intro hs
      obtain ⟨state, hi, rfl⟩ := Option.map_eq_some_iff.mp hs
      exact hne (hsole u (hw.spawned_of_serve (by simp [hu])) (hw.entry _ state hi).2.symm).symm
    simp [hne, hentry]
  case acquire u payload' hu hready | acquireClosed u payload' hu hready =>
    have hne : t ≠ u := by
      rintro rfl
      obtain rfl := Serve.sending.inj (hserve.symm.trans hu)
      rw [hpoll] at hready
      cases hready
    simp [hne]
  all_goals first
    | exact ⟨rfl, rfl⟩
    | exact (ne_of_over ho rfl ‹_›).elim
    | (simp only [setTask, setServe, setBody, push, Function.update_apply]
       split_ifs <;> simp_all)

/-- The task comes to its end by moves of the agent alone. -/
def CanEnd (s : Agent) (t : Nat) : Prop :=
  ∃ as s', (∀ a ∈ as, a.isLocal = true) ∧ exec step s as = some s' ∧ (s'.task t).serve = .done

theorem CanEnd.cons (ha : a.isLocal = true) (hs : s.step a = some s') (h : s'.CanEnd t) :
    s.CanEnd t := by
  obtain ⟨as, last, has, hlast, hdone⟩ := h
  refine ⟨a :: as, last, ?_, by rw [exec_cons, hs]; exact hlast, hdone⟩
  simpa [ha] using has

theorem CanEnd.of_dropping (h : (s.task t).serve = .dropping) : s.CanEnd t := by
  refine .cons (a := .drop t) rfl (by simp only [step, h, if_true]; rfl) ⟨[], _, by simp, rfl, ?_⟩
  simp [Task.finish]

/-- Without a receiver for its frames a task gives up at its next one. -/
theorem CanEnd.of_sending (hx : s.outbound.rxOpen = false)
    (h : (∃ head, (s.task t).serve = .sendingHead head) ∨
      (∃ chunk rest, (s.task t).serve = .acquired chunk rest) ∨ (s.task t).serve = .ending ∨
      ∃ code message, (s.task t).serve = .resetting code message) : s.CanEnd t := by
  have hp : s.outbound.poll = .closed := Channel.poll_eq_closed.mpr hx
  have hdropping : (s.setServe t .dropping).CanEnd t := .of_dropping (by simp)
  rcases h with ⟨head, h⟩ | ⟨chunk, rest, h⟩ | h | ⟨code, message, h⟩
  · exact .cons (a := .sendHead t) rfl (by simp only [step, h, hp]) hdropping
  · exact .cons (a := .sendData t) rfl (by simp only [step, h, hp]) hdropping
  · exact .cons (a := .sendEnd t) rfl (by simp only [step, h, hp]) hdropping
  · exact .cons (a := .sendReset t) rfl (by simp only [step, h, hp]) hdropping

theorem CanEnd.of_resetting (hx : s.outbound.rxOpen = false) (code : ResetCode) (message : Text) :
    (s.setServe t (.resetting code message)).CanEnd t :=
  .of_sending hx (.inr (.inr (.inr ⟨code, message, by simp⟩)))

theorem CanEnd.of_requesting (hx : s.outbound.rxOpen = false) (h : (s.task t).serve = .requesting) :
    s.CanEnd t := by
  refine .cons (a := .unreachable t []) rfl (by simp only [step, h, if_true]; rfl) ?_
  exact .of_resetting hx _ _

/-- A task that is not parked can come to its end when nobody takes its frames. -/
theorem CanEnd.of_not_parked (hx : s.outbound.rxOpen = false) (hp : ¬ s.Parked t) : s.CanEnd t := by
  cases h : (s.task t).serve with
  | starting request =>
    cases hh : request.http with
    | none =>
      refine .cons (a := .start t) rfl (by simp only [step, h, startServe, hh]; rfl) ?_
      exact .of_resetting hx _ _
    | some head =>
      refine .cons (a := .start t) rfl (by simp only [step, h, startServe, hh]; rfl) ?_
      exact .of_requesting hx (by simp)
  | requesting => exact .of_requesting hx h
  | resetting code message => exact .of_sending hx (.inr (.inr (.inr ⟨code, message, h⟩)))
  | sendingHead head => exact .of_sending hx (.inl ⟨head, h⟩)
  | reading =>
    refine .cons (a := .finish t) rfl (by simp only [step, h, if_true]; rfl) ?_
    exact .of_sending hx (.inr (.inr (.inl (by simp))))
  | sending payload =>
    cases hpoll : (s.task t).sendCredit.poll (toU32 (payload.take maxChunk).length) with
    | ready =>
      refine .cons (a := .acquire t) rfl (by simp only [step, h, hpoll]; rfl) ?_
      exact .of_sending hx (.inr (.inl ⟨payload.take maxChunk, payload.drop maxChunk, by simp⟩))
    | closed =>
      refine .cons (a := .acquire t) rfl (by simp only [step, h, hpoll]; rfl) ?_
      exact .of_dropping (by simp)
    | pending => exact absurd ⟨payload, h, hpoll⟩ hp
  | acquired chunk rest => exact .of_sending hx (.inr (.inl ⟨chunk, rest, h⟩))
  | ending => exact .of_sending hx (.inr (.inr (.inl h)))
  | dropping => exact .of_dropping h
  | done => exact ⟨[], s, by simp, rfl, h⟩

end Parking

end Agent

namespace Connection

variable {limit window downCapacity upCapacity : Nat} {options : AgentOptions} {s : Connection}

/-- When the read loop is over, a parked task is parked in everything that follows. -/
theorem parked_of_over
    (h : Reachable step (init limit window options downCapacity upCapacity) s)
    (ho : s.agent.readLoop.isOver = true) {t : Nat} (hp : s.agent.Parked t) {s' : Connection}
    (hrun : Reachable step s s') : s'.agent.Parked t := by
  have hd : s.agent.opened.Nodup :=
    opened_nodup (wired_of_run h) (Edge.upload_of_run (edge_reachable h)).1
  have hkept := hrun.invariant (P := fun s' => s'.agent.WellFormed ∧ s'.agent.opened.Nodup ∧
    s'.agent.readLoop.isOver = true ∧ s'.agent.Parked t)
    ⟨.of_run (agent_reachable h), hd, ho, hp⟩ ?_
  · exact hkept.2.2.2
  rintro s a s' ⟨hw, hd, ho, hp⟩ - hs
  rcases (step_cases hs).agent_cases with he | ⟨b, hb, -⟩
  · rw [he]
    exact ⟨hw, hd, ho, hp⟩
  · have hc := Agent.step_cases hb
    obtain ⟨hover, hreceived, -⟩ := hc.over ho
    have hspawned : t < s.agent.nextTask := by
      obtain ⟨payload, hserve, -⟩ := hp
      exact hw.spawned_of_serve (by simp [hserve])
    refine ⟨hw.step hb, ?_, hover, hc.parked hw ho (hw.sole hd hspawned) hp⟩
    rw [Agent.opened, hreceived]
    exact hd

/-- After the end of the agent's read loop a task can come to its end exactly if it does not wait
for credit. -/
theorem task_canEnd_iff
    (h : Reachable step (init limit window options downCapacity upCapacity) s)
    (ho : s.agent.readLoop.isOver = true) (t : Nat) :
    (∃ as s', exec step s as = some s' ∧ (s'.agent.task t).serve = .done) ↔
      ¬ s.agent.Parked t := by
  constructor
  · rintro ⟨as, s', hs, hdone⟩ hp
    obtain ⟨payload, hserve, -⟩ := parked_of_over h ho hp (.of_exec .nil hs)
    rw [hdone] at hserve
    cases hserve
  · intro hp
    -- With nobody to take its frames the task fails at the next one it has to send.
    obtain ⟨as, agent, has, hexec, hdone⟩ : s.agent.CanEnd t := by
      refine .cons (a := .dropOutbound) rfl rfl (.of_not_parked rfl ?_)
      exact hp
    exact ⟨as.map .agent, _, exec_agent has hexec, hdone⟩

/-- The edge goes away while a response waits for its window: the task is never woken. -/
theorem task_canEnd_waiting : ∃ s : Connection,
    exec step (init 0 1 testOptions 4 4)
      [.edge .passLimit, .edge (.insert "tun_1".toList testHead "1.2.3.4:5".toList),
        .edge (.queueOpen 1), .sendDown, .recvDown 0, .agent (.start 0), .agent (.respond 0 200 []),
        .agent (.sendHead 0), .agent (.produce 0 [1, 2]), .agent .disconnect] = some s ∧
    s.agent.readLoop = .stopped ∧
    ¬ ∃ as s', exec step s as = some s' ∧ (s'.agent.task 0).serve = .done := by
  obtain ⟨s, hs, hstopped, hserve, hpoll⟩ : ∃ s : Connection,
      exec step (init 0 1 testOptions 4 4)
        [.edge .passLimit, .edge (.insert "tun_1".toList testHead "1.2.3.4:5".toList),
          .edge (.queueOpen 1), .sendDown, .recvDown 0, .agent (.start 0),
          .agent (.respond 0 200 []), .agent (.sendHead 0), .agent (.produce 0 [1, 2]),
          .agent .disconnect] = some s ∧
      s.agent.readLoop = .stopped ∧ (s.agent.task 0).serve = .sending [1, 2] ∧
      (s.agent.task 0).sendCredit.poll (toU32 (([1, 2] : Bytes).take maxChunk).length) = .pending :=
    ⟨_, rfl, rfl, rfl, by decide⟩
  refine ⟨s, hs, hstopped, fun hend => ?_⟩
  exact (task_canEnd_iff (.of_exec .nil hs) (by rw [hstopped]; rfl) 0).mp hend ⟨_, hserve, hpoll⟩

end Connection

end Norupo
