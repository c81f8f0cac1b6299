import Norupo.Edge.Credit
import Norupo.Edge.Closing

/-!
# The most credit a stream can hold

`on_window_update` adds what the agent grants without a bound, and `add_permits` panics over more
than a semaphore can hold. The panic ends the task of `run_session` before its teardown. Whether it
happens is a matter of two sums: the credit that has been granted to a stream while it was open, and
the credit that its pump has used.
-/

namespace Norupo

open Async Transition

namespace Edge

/-- The credit that a move grants to a stream: that of a `WindowUpdate` while the stream is open. -/
def grant (i : Nat) (s : Edge) : EdgeAction → Nat
  | .recv (.windowUpdate j increment) => if j = i ∧ i ∈ s.session.streams then increment else 0
  | _ => 0

/-- The credit of a stream that a move uses: that of the chunk which its pump is about to send. -/
def spend (i : Nat) (s : Edge) : EdgeAction → Nat
  | .pumpAcquire j => match (s.request i).pump with
    | .sending (chunk :: _) =>
      if j = i ∧ (s.session.stream i).sendCredit.isClosed = false then toU32 chunk.length else 0
    | _ => 0
  | _ => 0

/-- The teardown can still run to its end. -/
def CanStop (s : Edge) : Prop :=
  ∃ actions s', exec Edge.step s actions = some s' ∧ s'.readLoop = .stopped

/-- The read loop has not panicked, no stream holds more credit than a semaphore may, and the
teardown can still run. -/
structure Sound (s : Edge) : Prop where
  running : s.readLoop ≠ .crashed
  held : ∀ i < s.session.nextStreamId, (s.session.stream i).sendCredit.permits ≤ maxPermits
  canStop : s.CanStop

/-- At every moment the window and the credit granted to a stream exceed the credit it has used by
no more than a semaphore may hold. -/
def Covered (limit window : Nat) (actions : List EdgeAction) : Prop :=
  ∀ before, before <+: actions → ∀ i,
    window + tally Edge.step (grant i) (Edge.init limit window) before ≤
      maxPermits + tally Edge.step (spend i) (Edge.init limit window) before

section Stopping

variable {s s' : Edge} {a : EdgeAction}

theorem CanStop.of_step (h : s.step a = some s') (hc : s'.CanStop) : s.CanStop := by
  obtain ⟨actions, last, hexec, hstopped⟩ := hc
  exact ⟨a :: actions, last, by simpa [h] using hexec, hstopped⟩

theorem CanStop.of_closing {ids : List Nat} (h : s.readLoop = .closing ids) : s.CanStop := by
  induction ids generalizing s with
  | nil =>
    have hstep : s.step .closeNext = some { s with readLoop := .stopped } := by simp [Edge.step, h]
    exact .of_step hstep ⟨[], _, rfl, rfl⟩
  | cons i ids ih =>
    have hstep : s.step .closeNext = some { s.closeStream i with readLoop := .closing ids } := by
      simp [Edge.step, h]
    exact .of_step hstep (ih rfl)

theorem CanStop.of_tearingDown (h : s.readLoop = .tearingDown) : s.CanStop := by
  have hsnap : s.session.isSnapshot s.session.streams.toList = true := by
    simp [Session.isSnapshot, Finset.nodup_toList]
  have hstep : s.step (.snapshot s.session.streams.toList) =
      some { s with readLoop := .closing s.session.streams.toList } := by
    simp [Edge.step, h, hsnap]
  exact .of_step hstep (.of_closing rfl)

theorem CanStop.of_idle (h : s.readLoop = .idle) : s.CanStop := by
  have hstep : s.step .disconnect = some { s with readLoop := .tearingDown } := by
    simp [Edge.step, h]
  exact .of_step hstep (.of_tearingDown rfl)

/-- A reply that cannot be queued is given up when the transport goes away. -/
theorem CanStop.of_replying {frame : ServerFrame} (h : s.readLoop = .replying frame) :
    s.CanStop := by
  let gone : Edge := { s with session := { s.session with outbound := s.session.outbound.dropRx } }
  have hstep : gone.step .reply = some { gone with readLoop := .idle } := by
    simp [gone, Edge.step, h]
  have hgone : s.step .dropOutbound = some gone := rfl
  exact .of_step hgone (.of_step hstep (.of_idle rfl))

/-- After a panic there is no teardown. -/
theorem CanStop.not_crashed (hc : s.CanStop) : s.readLoop ≠ .crashed := by
  obtain ⟨actions, last, hexec, hstopped⟩ := hc
  intro hcrashed
  have hlast : last.readLoop = .crashed :=
    (Reachable.of_exec .nil hexec).invariant (P := fun s => s.readLoop = .crashed) hcrashed
      fun _ _ _ hp _ hs => (step_cases hs).crashed hp
  rw [hstopped] at hlast
  cases hlast

/-- A delivery ends when the receiver of the body is gone. -/
theorem CanStop.of_delivering {i : Nat} {chunk : Chunk} (h : s.readLoop = .delivering i chunk)
    (hx : (s.session.stream i).body.rxOpen = false) : s.CanStop := by
  have hstep : s.step .deliver = some { s.closeStream i with readLoop := .idle } := by
    simp [Edge.step, h, Channel.poll_eq_closed.mpr hx]
  exact .of_step hstep (.of_idle rfl)

end Stopping

/-- Somebody can send to the body of the stream: the table holds it or the read loop does. -/
def Fed (s : Edge) (i : Nat) : Prop :=
  i ∈ s.session.streams ∨ ∃ chunk, s.readLoop = .delivering i chunk

/-- The receiver of such a body belongs to a future or to a response. -/
def Owned (s : Edge) : Prop :=
  ∀ i, s.Fed i → (s.session.stream i).body.rxOpen = true →
    (s.request i).ingress.live = true ∨ (s.request i).ingress = .responded

section Preservation

variable {s s' : Edge} {a : EdgeAction}

/-- A stream is sent to from its insertion on. -/
theorem Step.fed_cases (h : Step s a s') {i : Nat} (hf : s'.Fed i) :
    s.Fed i ∨ (s'.request i).ingress.live = true := by
  cases h
  case insert =>
    by_cases he : i = s.session.nextStreamId
    · right
      simp [he, Ingress.live]
    · left
      simpa [Fed, Session.insertStream, he] using hf
  case recvChunk frame j chunk hl hframe hsend =>
    left
    left
    rcases hf with hm | ⟨chunk, hd⟩
    · exact hm
    · obtain ⟨rfl, -⟩ : j = i ∧ _ := by simpa using hd
      simp only [Session.streamBodySender, Bool.and_eq_true, decide_eq_true_eq] at hsend
      exact hsend.1
  all_goals
    left
    rcases hf with hm | ⟨chunk, hd⟩
    · first
        | exact .inl hm
        | exact .inl (Finset.mem_of_mem_erase (by simpa using hm))
    · first
        | exact .inr ⟨chunk, hd⟩
        | cases hd

theorem Owned.step (ho : Owned s) (h : Step s a s') : Owned s' := by
  intro i hf hx
  rcases h.fed_cases hf with hold | hlive
  · have hi := ho i hold
    cases h
    case insert =>
      by_cases he : i = s.session.nextStreamId
      · simp [he, Ingress.live]
      · simpa [he] using hi (by simpa [Session.insertStream, he] using hx)
    all_goals
      simp only [closeStream, push, setRequest, setIngress, setPump, dropRx, settle,
        Session.setBody, Session.push, Session.takeHeadTx, Session.addCredit,
        Session.body_closeStream, Function.update_apply] at hx ⊢
      first
        | exact hi hx
        | (split_ifs at hx ⊢ <;> simp_all [Ingress.live])
  · exact .inl hlive

/-- A read loop that has not panicked can be brought to its end. -/
theorem Owned.canStop (ho : Owned s) (hc : s.readLoop ≠ .crashed) : s.CanStop := by
  cases hl : s.readLoop with
  | idle => exact .of_idle hl
  | delivering i chunk =>
    cases hx : (s.session.stream i).body.rxOpen with
    | false => exact .of_delivering hl hx
    | true =>
      rcases ho i (.inr ⟨chunk, hl⟩) hx with hlive | hresponded
      · have hstep : s.step (.dropFuture i) = some (s.settle i .dropped) := by
          simp [Edge.step, hlive]
        exact .of_step hstep (.of_delivering hl (by simp))
      · have hstep : s.step (.dropBody i) = some ((s.dropRx i).dropGuard i) := by
          simp [Edge.step, hresponded, hx]
        have hdelivering : ((s.dropRx i).dropGuard i).readLoop = .delivering i chunk := by
          unfold dropGuard
          dsimp only
          split <;> simp [hl]
        refine .of_step hstep (.of_delivering hdelivering ?_)
        unfold dropGuard
        dsimp only
        split <;> simp
  | replying frame => exact .of_replying hl
  | awaitingRegistry =>
    have hstep : s.step (.registryDone none) = some { s with readLoop := .idle } := by
      simp [Edge.step, hl]
    exact .of_step hstep (.of_idle rfl)
  | tearingDown => exact .of_tearingDown hl
  | closing ids => exact .of_closing hl
  | stopped => exact ⟨[], s, rfl, hl⟩
  | crashed => exact absurd hl hc

theorem grant_eq_zero {i : Nat}
    (h : ∀ increment, a = .recv (.windowUpdate i increment) → i ∉ s.session.streams) :
    grant i s a = 0 := by
  unfold grant
  split
  · rename_i j increment
    refine if_neg fun ⟨he, hm⟩ => h increment ?_ hm
    rw [he]
  · rfl

theorem spend_eq_zero {i : Nat}
    (h : ∀ chunk rest, a = .pumpAcquire i → (s.request i).pump = .sending (chunk :: rest) →
      (s.session.stream i).sendCredit.isClosed = true) : spend i s a = 0 := by
  unfold spend
  split
  · rename_i j
    split
    · rename_i chunk rest hp
      refine if_neg fun ⟨he, hopen⟩ => ?_
      rw [h chunk rest (by rw [he]) hp] at hopen
      cases hopen
    · rfl
  · rfl

/-- Nothing is granted to a stream that has not been allocated, and nothing is used. -/
theorem WellFormed.idle_credit (hw : WellFormed s) {i : Nat} (hi : s.session.nextStreamId ≤ i) :
    grant i s a = 0 ∧ spend i s a = 0 := by
  obtain ⟨hn, hr⟩ := hw.fresh i hi
  refine ⟨grant_eq_zero fun _ _ => hn, spend_eq_zero fun chunk rest _ hp => ?_⟩
  rw [hr] at hp
  cases hp

/-- A move that does not make the read loop panic adds what it grants and takes what it uses. -/
theorem Step.permits_add (h : Step s a s') (hc : s'.readLoop ≠ .crashed) {i : Nat}
    (hi : i < s.session.nextStreamId) :
    (s'.session.stream i).sendCredit.permits + spend i s a =
      (s.session.stream i).sendCredit.permits + grant i s a := by
  by_cases ha : a = .pumpAcquire i
  · subst ha
    cases h with
    | pumpAcquire hp hready =>
      obtain ⟨hopen, hle⟩ := Semaphore.poll_eq_ready.mp hready
      simp [grant, spend, hp, hopen, Semaphore.take, hle]
    | pumpAcquireClosed hp hclosed =>
      rw [spend_eq_zero fun _ _ _ _ => Semaphore.poll_eq_closed.mp hclosed]
      rfl
  by_cases hupdate : ∃ increment, a = .recv (.windowUpdate i increment)
  · obtain ⟨increment, rfl⟩ := hupdate
    cases h
    case recvCredit hl hm hmax => simp [grant, spend, hm, Semaphore.add]
    case recvCreditLate hl hm => simp [grant, spend, hm]
    case recvPanic => exact absurd rfl hc
    all_goals simp_all [ClientFrame.isIdle, ClientFrame.isTunnel, ClientFrame.chunk]
  rw [h.permits_eq hi ha fun increment he => hupdate ⟨increment, he⟩,
    grant_eq_zero fun increment he => absurd ⟨increment, he⟩ hupdate,
    spend_eq_zero fun _ _ he _ => absurd he ha]

end Preservation

/-- The account of a list of moves: what every stream holds is its window with what it was granted,
less what it has used. -/
structure Balanced (limit window : Nat) (actions : List EdgeAction) (s : Edge) : Prop where
  allocated : ∀ i < s.session.nextStreamId,
    (s.session.stream i).sendCredit.permits +
        tally Edge.step (spend i) (Edge.init limit window) actions =
      window + tally Edge.step (grant i) (Edge.init limit window) actions
  fresh : ∀ i, s.session.nextStreamId ≤ i →
    tally Edge.step (spend i) (Edge.init limit window) actions = 0 ∧
      tally Edge.step (grant i) (Edge.init limit window) actions = 0

section Runs

variable {limit window : Nat} {actions : List EdgeAction} {s s' : Edge} {a : EdgeAction}

theorem Balanced.step (hw : WellFormed s) (hwin : s.session.initialWindow = window)
    (hb : Balanced limit window actions s)
    (hexec : exec Edge.step (Edge.init limit window) actions = some s) (h : s.step a = some s')
    (hc : s'.readLoop ≠ .crashed) : Balanced limit window (actions ++ [a]) s' := by
  have hs := step_cases h
  refine ⟨fun i hi => ?_, fun i hi => ?_⟩
  · rw [tally_concat hexec h, tally_concat hexec h]
    by_cases hold : i < s.session.nextStreamId
    · have hadd := hs.permits_add hc hold
      have hbal := hb.allocated i hold
      omega
    · obtain ⟨he, -, -, -, -, hnew⟩ := hs.insert_cases hi hold
      obtain ⟨hgrant, hspend⟩ := hw.idle_credit (a := a) he.ge
      obtain ⟨hspent, hgranted⟩ := hb.fresh i he.ge
      rw [hnew, hgrant, hspend, hspent, hgranted, hwin]
      rfl
  · have hold := hs.nextStreamId_mono.trans hi
    obtain ⟨hgrant, hspend⟩ := hw.idle_credit (a := a) hold
    rw [tally_concat hexec h, tally_concat hexec h, hgrant, hspend]
    exact hb.fresh i hold

/-- What a session keeps in step whatever the agent sends. -/
theorem kept_of_exec (h : exec Edge.step (Edge.init limit window) actions = some s) :
    WellFormed s ∧ Owned s ∧ s.session.initialWindow = window := by
  refine (Reachable.of_exec .nil h).invariant
    (P := fun s => WellFormed s ∧ Owned s ∧ s.session.initialWindow = window)
    ⟨.init limit window, fun i hf => ?_, rfl⟩ ?_
  · simp [Fed, Edge.init, Session.new] at hf
  · rintro s a s' ⟨hw, ho, hwin⟩ - hs
    have hc := step_cases hs
    exact ⟨hw.step hs, ho.step hc, hc.initialWindow_eq.trans hwin⟩

/-- The account is right as long as the read loop has not panicked. -/
theorem balanced_of_exec (h : exec Edge.step (Edge.init limit window) actions = some s)
    (hc : s.readLoop ≠ .crashed) : Balanced limit window actions s := by
  induction actions using List.reverseRecOn generalizing s with
  | nil =>
    obtain rfl : Edge.init limit window = s := by simpa using h
    exact ⟨fun i _ => rfl, fun i _ => ⟨rfl, rfl⟩⟩
  | append_singleton actions a ih =>
    obtain ⟨mid, hmid, hstep⟩ := exec_concat_eq_some.mp h
    obtain ⟨hw, -, hwin⟩ := kept_of_exec hmid
    have hbefore : mid.readLoop ≠ .crashed := fun hm => hc ((step_cases hstep).crashed hm)
    exact (ih hmid hbefore).step hw hwin hmid hstep hc

/-- Credit that is covered does not make the read loop panic. -/
theorem Covered.not_crashed (hcov : Covered limit window actions)
    (h : exec Edge.step (Edge.init limit window) actions = some s) : s.readLoop ≠ .crashed := by
  induction actions using List.reverseRecOn generalizing s with
  | nil =>
    obtain rfl : Edge.init limit window = s := by simpa using h
    simp [Edge.init]
  | append_singleton actions a ih =>
    obtain ⟨mid, hmid, hstep⟩ := exec_concat_eq_some.mp h
    have hbefore : mid.readLoop ≠ .crashed :=
      ih (fun before hb => hcov before (hb.trans (List.prefix_append _ _))) hmid
    intro hc
    rcases (step_cases hstep).crash_cases hc with hm | ⟨i, increment, rfl, hm, hmax⟩
    · exact hbefore hm
    -- The update that is too much would break the account.
    obtain ⟨hw, -, -⟩ := kept_of_exec hmid
    have hbal := (balanced_of_exec hmid hbefore).allocated i (hw.allocated_of_mem hm)
    have hgrant : grant i mid (.recv (.windowUpdate i increment)) = increment := by
      simp [grant, hm]
    have hspend : spend i mid (.recv (.windowUpdate i increment)) = 0 := rfl
    have hle := hcov _ List.prefix_rfl i
    rw [tally_concat hmid hstep, tally_concat hmid hstep, hgrant, hspend] at hle
    omega

/-- Along every run, the read loop goes on, every stream holds what a semaphore may and the teardown
can run exactly if the credit is covered. -/
theorem sound_iff_covered (hwindow : window < 2 ^ 32)
    (h : exec Edge.step (Edge.init limit window) actions = some s) :
    (∀ before mid, before <+: actions →
        exec Edge.step (Edge.init limit window) before = some mid → mid.Sound) ↔
      Covered limit window actions := by
  constructor
  · rintro hsound before ⟨after, rfl⟩ i
    obtain ⟨mid, hmid, -⟩ := exec_append_eq_some.mp h
    obtain ⟨hrunning, hheld, -⟩ := hsound before mid (List.prefix_append _ _) hmid
    have hbal := balanced_of_exec hmid hrunning
    by_cases hi : i < mid.session.nextStreamId
    · have heq := hbal.allocated i hi
      have hle := hheld i hi
      omega
    · obtain ⟨hspent, hgranted⟩ := hbal.fresh i (Nat.le_of_not_lt hi)
      simp only [hspent, hgranted, maxPermits]
      omega
  · intro hcov before mid hb hmid
    have hbefore : Covered limit window before := fun first hf => hcov first (hf.trans hb)
    have hrunning := hbefore.not_crashed hmid
    obtain ⟨-, ho, -⟩ := kept_of_exec hmid
    refine ⟨hrunning, fun i hi => ?_, ho.canStop hrunning⟩
    have hle := hbefore before List.prefix_rfl i
    have heq := (balanced_of_exec hmid hrunning).allocated i hi
    omega

end Runs

/-- A stream with a window of 64 KiB that is granted seven bytes. -/
theorem sound_iff_covered_seven :
    ∃ s, exec Edge.step (Edge.init 0 65536)
        [.passLimit, .insert [] testHead [], .recv (.windowUpdate 1 7)] = some s ∧ s.Sound := by
  obtain ⟨s, hs⟩ : ∃ s, exec Edge.step (Edge.init 0 65536)
      [.passLimit, .insert [] testHead [], .recv (.windowUpdate 1 7)] = some s := ⟨_, rfl⟩
  refine ⟨s, hs, (sound_iff_covered (by decide) hs).mpr ?_ _ s List.prefix_rfl hs⟩
  intro before hb i
  simp only [List.prefix_cons_iff, List.prefix_nil] at hb
  rcases hb with rfl | ⟨-, rfl, rfl | ⟨-, rfl, rfl | ⟨-, rfl, rfl⟩⟩⟩
  · simp [maxPermits]
  · simp [tally, Edge.step, grant, spend, maxPermits]
  · simp [tally, Edge.step, Edge.init, Session.new, Session.atLimit, grant, spend, maxPermits]
  · simp [tally, Edge.step, Edge.init, Session.new, Session.atLimit, grant, spend, maxPermits]
    split <;> omega

section Flood

variable {s : Edge} {i : Nat}

/-- Credit that fits is added, update by update. -/
theorem exec_updates (hl : s.readLoop = .idle) (hm : i ∈ s.session.streams) (increment n : Nat)
    (hfits : (s.session.stream i).sendCredit.permits + n * increment ≤ maxPermits) :
    ∃ s', exec Edge.step s (List.replicate n (.recv (.windowUpdate i increment))) = some s' ∧
      s'.readLoop = .idle ∧ i ∈ s'.session.streams ∧
      (s'.session.stream i).sendCredit.permits =
        (s.session.stream i).sendCredit.permits + n * increment := by
  induction n generalizing s with
  | zero => exact ⟨s, rfl, hl, hm, by simp⟩
  | succ n ih =>
    rw [Nat.succ_mul] at hfits
    have hstep : s.step (.recv (.windowUpdate i increment)) = some { s with
        received := s.received ++ [.windowUpdate i increment]
        session := s.session.addCredit i increment } := by
      have hle : (s.session.stream i).sendCredit.permits + increment ≤ maxPermits := by omega
      simp [Edge.step, hl, handleClientFrame, Session.onWindowUpdate, hm, hle]
    obtain ⟨s', hexec, hidle, hopen, hpermits⟩ := ih (s := { s with
      received := s.received ++ [.windowUpdate i increment]
      session := s.session.addCredit i increment }) hl hm (by simp [Semaphore.add]; omega)
    refine ⟨s', ?_, hidle, hopen, ?_⟩
    · rw [List.replicate_succ, exec_cons, hstep]
      exact hexec
    · rw [hpermits, Nat.succ_mul]
      simp [Semaphore.add]
      omega

/-- The update after them does not fit. -/
theorem exec_updates_crashed (hl : s.readLoop = .idle) (hm : i ∈ s.session.streams)
    (increment n : Nat)
    (hfits : (s.session.stream i).sendCredit.permits + n * increment ≤ maxPermits)
    (hover : maxPermits < (s.session.stream i).sendCredit.permits + (n + 1) * increment) :
    ∃ s', exec Edge.step s (List.replicate (n + 1) (.recv (.windowUpdate i increment))) = some s' ∧
      s'.readLoop = .crashed := by
  obtain ⟨mid, hexec, hidle, hopen, hpermits⟩ := exec_updates hl hm increment n hfits
  have hmax : ¬ (mid.session.stream i).sendCredit.permits + increment ≤ maxPermits := by
    rw [Nat.succ_mul] at hover
    omega
  refine ⟨{ mid with
    received := mid.received ++ [.windowUpdate i increment], readLoop := .crashed }, ?_, rfl⟩
  rw [List.replicate_succ', exec_concat_eq_some]
  refine ⟨mid, hexec, ?_⟩
  simp [Edge.step, hidle, handleClientFrame, Session.onWindowUpdate, hopen, hmax]

end Flood

/-- An agent that grants the largest increment over and over makes the read loop panic, and then the
teardown never runs. -/
theorem sound_flooded :
    ∃ s, exec Edge.step (Edge.init 0 65536) ([.passLimit, .insert [] testHead []] ++
        List.replicate (2 ^ 29 + 1) (.recv (.windowUpdate 1 (2 ^ 32 - 1)))) = some s ∧
      s.readLoop = .crashed ∧ ¬ s.CanStop := by
  let opened : Edge := { Edge.init 0 65536 with
    session := (Session.new 0 65536).insertStream
    request := Function.update (fun _ => Request.new) 1 { Request.new with
      ingress := .opening ⟨1, [], .http, some testHead, [], 65536⟩ } }
  have hopen : exec Edge.step (Edge.init 0 65536) [.passLimit, .insert [] testHead []] =
      some opened := rfl
  have hpermits : (opened.session.stream 1).sendCredit.permits = 65536 := rfl
  obtain ⟨s, hexec, hcrashed⟩ := exec_updates_crashed (s := opened) (i := 1) rfl (by decide)
    (2 ^ 32 - 1) (2 ^ 29) (by rw [hpermits, maxPermits]; omega)
    (by rw [hpermits, maxPermits]; omega)
  exact ⟨s, exec_append_eq_some.mpr ⟨opened, hopen, hexec⟩, hcrashed,
    fun hc => hc.not_crashed hcrashed⟩

end Edge

end Norupo
