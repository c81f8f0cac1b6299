import Norupo.Edge.Bookkeeping

/-!
# The end of a session

Requests that obtained a session from the `SessionManager` against the end of `run_session`. The
tasks of the session are cut at their awaits here: `open_http_stream` runs up to the first wait that
does not complete, and the last part of `teardown`, `close_all_streams` with the removal of the
session, is one move. Nothing marks the session itself as closed, so that an opener that comes after
the teardown is turned away exactly if the outbound receiver has been dropped by then.
-/

namespace Norupo

open Async Transition

namespace Edge

/-- `open_http_stream` up to the first wait that does not complete. A refused call changes
nothing. -/
def openHttpStream (s : Edge) (tunnelId : Text) (head : HttpRequestHead) (remoteAddr : Text) :
    Option Edge :=
  if s.session.atLimit then some s
  else (exec Edge.step s [.passLimit, .insert tunnelId head remoteAddr]).map fun s' =>
    (s'.step (.queueOpen s.session.nextStreamId)).getD s'

/-- `close_all_streams`, for a snapshot of the table. -/
def closeAllStreams (s : Edge) (ids : List Nat) : Option Edge :=
  exec Edge.step s (.snapshot ids :: List.replicate (ids.length + 1) .closeNext)

end Edge

/-- The moves that `openHttpStream` and `closeAllStreams` are made of. -/
def EdgeAction.isPart : EdgeAction → Bool
  | .passLimit | .insert _ _ _ | .snapshot _ | .closeNext => true
  | _ => false

/-- A session, its place in the `SessionManager` and the requests that hold it. -/
structure Closing where
  edge : Edge
  /-- The session is in the `SessionManager`. -/
  managed : Bool
  /-- Requests that hold the session and have not opened a stream yet. -/
  holding : Nat
  /-- The streams that were inserted after `close_all_streams` had run. -/
  late : List Nat

/-- The moves of the requests, of the teardown and of all other tasks. -/
inductive ClosingAction
  /-- A request obtains the session from the `SessionManager`. -/
  | get
  /-- A request that holds the session opens its stream. -/
  | openHttpStream (tunnelId : Text) (head : HttpRequestHead) (remoteAddr : Text)
  /-- The last part of `teardown`. -/
  | finish (ids : List Nat)
  | edge (action : EdgeAction)
  deriving DecidableEq, Repr

namespace Closing

/-- A fresh session that nobody has obtained yet. -/
def init (maxConcurrentStreams initialWindow : Nat) : Closing where
  edge := Edge.init maxConcurrentStreams initialWindow
  managed := true
  holding := 0
  late := []

/-- One move; `none` when it is not enabled. -/
def step (s : Closing) : ClosingAction → Option Closing
  | .get => if s.managed then some { s with holding := s.holding + 1 } else none
  | .openHttpStream tunnelId head remoteAddr =>
    if s.holding = 0 then none
    else (s.edge.openHttpStream tunnelId head remoteAddr).map fun edge =>
      { s with
        edge := edge
        holding := s.holding - 1
        late := if s.edge.readLoop = .stopped && !s.edge.session.atLimit then
            s.late ++ [s.edge.session.nextStreamId]
          else s.late }
  | .finish ids =>
    (s.edge.closeAllStreams ids).map fun edge => { s with edge := edge, managed := false }
  | .edge a => if a.isPart then none else (s.edge.step a).map fun edge => { s with edge := edge }

/-- After the teardown the table is empty, and every stream that was inserted since has been turned
away as `SessionGone`, which `forward_local` reports as a tunnel that is not found. -/
def Shut (s : Closing) : Prop :=
  s.edge.readLoop = .stopped →
    s.edge.session.streams = ∅ ∧ ∀ i ∈ s.late, (s.edge.request i).ingress = .failed 404

/-- An opener that comes after the teardown finds the outbound receiver dropped. -/
def opensAfterDrop (s : Closing) : ClosingAction → Bool
  | .openHttpStream _ _ _ => s.edge.readLoop ≠ .stopped || !s.edge.session.outbound.rxOpen
  | _ => true

end Closing

namespace Edge

section Moves

variable {s s' : Edge} {a : EdgeAction}

theorem Step.stopped (h : Step s a s') (hs : s.readLoop = .stopped) : s'.readLoop = .stopped := by
  cases h <;> simp_all

theorem Step.stopped_of (h : Step s a s') (ha : a.isPart = false) (hs : s'.readLoop = .stopped) :
    s.readLoop = .stopped := by
  cases h <;> simp_all [EdgeAction.isPart]

theorem Step.streams_subset (h : Step s a s') (ha : a.isPart = false) :
    s'.session.streams ⊆ s.session.streams := by
  cases h
  case insert => cases ha
  all_goals first
    | exact Finset.Subset.refl _
    | simp [Finset.erase_subset]

/-- A request that has returned an error page stays so. -/
theorem Step.failed (h : Step s a s') {i status : Nat} (hi : i < s.session.nextStreamId)
    (hf : (s.request i).ingress = .failed status) : (s'.request i).ingress = .failed status := by
  cases h
  case insert => simp [Nat.ne_of_lt hi, hf]
  all_goals
    simp only [closeStream, push, setRequest, setIngress, setPump, dropRx, settle,
      Function.update_apply]
    first
      | exact hf
      | (split_ifs <;> simp_all [Ingress.live])

end Moves

section Composed

variable {s s' : Edge} {tunnelId remoteAddr : Text} {head : HttpRequestHead}

/-- An opener that is not refused, by the state of the outbound queue. -/
theorem openHttpStream_cases (hlim : s.session.atLimit = false)
    (h : s.openHttpStream tunnelId head remoteAddr = some s') :
    s'.readLoop = s.readLoop ∧ s'.session.nextStreamId = s.session.nextStreamId + 1 ∧
      if s.session.outbound.rxOpen then s.session.nextStreamId ∈ s'.session.streams
      else s'.session.streams ⊆ s.session.streams ∧
        (s'.request s.session.nextStreamId).ingress = .failed 404 ∧
        ∀ i < s.session.nextStreamId, s'.request i = s.request i := by
  simp only [openHttpStream, hlim, exec_cons, exec_nil, Edge.step, Session.insertStream,
    setRequest, Function.update_self, Bool.false_eq_true, if_false, Option.bind_some,
    Nat.add_one_ne_zero, Option.map_some, Option.some.injEq] at h
  cases hp : s.session.outbound.poll with
  | ready =>
    rw [if_pos (Channel.poll_eq_ready.mp hp).1]
    simp only [hp, Option.getD_some] at h
    subst h
    simp
  | pending =>
    rw [if_pos (Channel.poll_eq_pending.mp hp).1]
    simp only [hp, Option.getD_none] at h
    subst h
    simp
  | closed =>
    rw [if_neg (by simp [Channel.poll_eq_closed.mp hp])]
    simp only [hp, Option.getD_some] at h
    subst h
    refine ⟨by simp, by simp, ?_, by simp, ?_⟩
    · simp [Finset.erase_insert_eq_erase, Finset.erase_subset]
    · intro i hi
      simp [Nat.ne_of_lt hi]

/-- Closing the streams of the rest of a snapshot, one after the other. -/
theorem closing_exec {ids : List Nat} (hl : s.readLoop = .closing ids)
    (h : exec Edge.step s (List.replicate (ids.length + 1) .closeNext) = some s') :
    s'.readLoop = .stopped ∧ s'.session.streams = s.session.streams \ ids.toFinset ∧
      s'.session.nextStreamId = s.session.nextStreamId := by
  induction ids generalizing s with
  | nil =>
    simp [Edge.step, hl] at h
    subst h
    simp
  | cons i ids ih =>
    rw [List.length_cons, List.replicate_succ, exec_cons] at h
    simp only [Edge.step, hl, Option.bind_some] at h
    obtain ⟨hs, hstreams, hnext⟩ := ih rfl h
    refine ⟨hs, ?_, by simpa using hnext⟩
    ext j
    simp only [hstreams, closeStream, Session.streams_closeStream, Finset.mem_sdiff,
      Finset.mem_erase, List.mem_toFinset, List.mem_cons]
    tauto

theorem closeAllStreams_eq_some {ids : List Nat} (h : s.closeAllStreams ids = some s') :
    s.readLoop = .tearingDown ∧ s'.readLoop = .stopped ∧ s'.session.streams = ∅ ∧
      s'.session.nextStreamId = s.session.nextStreamId := by
  rw [closeAllStreams, exec_cons, Option.bind_eq_some_iff] at h
  obtain ⟨mid, hmid, h⟩ := h
  cases step_cases hmid with
  | snapshot hl hsnap =>
    obtain ⟨hs, hstreams, hnext⟩ := closing_exec rfl h
    refine ⟨hl, hs, ?_, hnext⟩
    rw [hstreams, Finset.sdiff_eq_empty_iff_subset]
    simp only [Session.isSnapshot, Bool.and_eq_true, decide_eq_true_eq] at hsnap
    exact hsnap.2.ge

theorem WellFormed.exec {as : List EdgeAction} (hw : WellFormed s)
    (h : Transition.exec Edge.step s as = some s') : WellFormed s' :=
  (Reachable.of_exec .nil h).invariant hw fun _ _ _ hw _ hs => hw.step hs

theorem WellFormed.openHttpStream (hw : WellFormed s)
    (h : s.openHttpStream tunnelId head remoteAddr = some s') : WellFormed s' := by
  unfold Edge.openHttpStream at h
  split at h
  · obtain rfl := Option.some.inj h
    exact hw
  · obtain ⟨mid, hmid, rfl⟩ := Option.map_eq_some_iff.mp h
    have hw' := hw.exec hmid
    cases hq : mid.step (.queueOpen s.session.nextStreamId) with
    | none => exact hw'
    | some last => exact hw'.step hq

end Composed

end Edge

namespace Closing

/-- What carries the property: streams are late only after the teardown, and have been allocated. -/
structure Invariant (s : Closing) : Prop where
  wellFormed : s.edge.WellFormed
  early : s.edge.readLoop ≠ .stopped → s.late = []
  allocated : ∀ i ∈ s.late, i < s.edge.session.nextStreamId

theorem Invariant.init (limit window : Nat) : Invariant (init limit window) where
  wellFormed := .init limit window
  early _ := rfl
  allocated _ h := by cases h

section Step

variable {s s' : Closing} {a : ClosingAction}

/-- An opener is refused, or it has inserted its stream. -/
theorem openHttpStream_cases {tunnelId remoteAddr : Text} {head : HttpRequestHead}
    (h : s.step (.openHttpStream tunnelId head remoteAddr) = some s') :
    (s.edge.session.atLimit = true ∧ s'.edge = s.edge ∧ s'.late = s.late) ∨
      (s.edge.session.atLimit = false ∧
        s.edge.openHttpStream tunnelId head remoteAddr = some s'.edge ∧
        s'.late = if s.edge.readLoop = .stopped then s.late ++ [s.edge.session.nextStreamId]
          else s.late) := by
  simp only [Closing.step] at h
  split at h
  · cases h
  · obtain ⟨edge, he, rfl⟩ := Option.map_eq_some_iff.mp h
    cases hlim : s.edge.session.atLimit with
    | true =>
      rw [Edge.openHttpStream, if_pos hlim] at he
      exact .inl ⟨rfl, (Option.some.inj he).symm, by simp⟩
    | false => exact .inr ⟨rfl, he, by simp⟩

theorem Invariant.openHttpStream (hi : Invariant s) {tunnelId remoteAddr : Text}
    {head : HttpRequestHead}
    (h : s.step (.openHttpStream tunnelId head remoteAddr) = some s') : Invariant s' := by
  rcases openHttpStream_cases h with ⟨-, he, hlate⟩ | ⟨hlim, he, hlate⟩
  · exact ⟨he ▸ hi.wellFormed, by rw [he, hlate]; exact hi.early,
      by rw [he, hlate]; exact hi.allocated⟩
  · obtain ⟨hloop, hnext, -⟩ := Edge.openHttpStream_cases hlim he
    refine ⟨hi.wellFormed.openHttpStream he, ?_, ?_⟩
    · intro hn
      rw [hloop] at hn
      rw [hlate, if_neg hn]
      exact hi.early hn
    · intro i hm
      rw [hlate] at hm
      rw [hnext]
      split at hm
      · rcases List.mem_append.mp hm with hm | hm
        · exact Nat.lt_succ_of_lt (hi.allocated i hm)
        · exact Nat.lt_succ_of_le (List.mem_singleton.mp hm).le
      · exact Nat.lt_succ_of_lt (hi.allocated i hm)

theorem Invariant.step (hi : Invariant s) (h : s.step a = some s') : Invariant s' := by
  cases a with
  | get =>
    simp only [Closing.step] at h
    split at h
    · obtain rfl := Option.some.inj h
      exact ⟨hi.wellFormed, hi.early, hi.allocated⟩
    · cases h
  | openHttpStream tunnelId head remoteAddr => exact hi.openHttpStream h
  | finish ids =>
    obtain ⟨edge, he, rfl⟩ := Option.map_eq_some_iff.mp h
    obtain ⟨-, hs, -, hnext⟩ := Edge.closeAllStreams_eq_some he
    exact ⟨hi.wellFormed.exec he, fun hn => absurd hs hn, fun i hm => hnext ▸ hi.allocated i hm⟩
  | edge action =>
    simp only [Closing.step] at h
    split at h
    · cases h
    · obtain ⟨edge, he, rfl⟩ := Option.map_eq_some_iff.mp h
      have hc := Edge.step_cases he
      refine ⟨hi.wellFormed.step he, ?_, ?_⟩
      · intro hn
        exact hi.early fun hs => hn (hc.stopped hs)
      · intro i hm
        exact (hi.allocated i hm).trans_le hc.nextStreamId_mono

/-- A table that is empty is not at its limit. -/
theorem Invariant.not_atLimit (hi : Invariant s) (he : s.edge.session.streams = ∅) :
    s.edge.session.atLimit = false := by
  have hcount : s.edge.session.openStreams = 0 := by
    rw [hi.wellFormed.count, he, Finset.card_empty]
  simp only [Session.atLimit, hcount]
  simp only [Bool.and_eq_false_iff, decide_eq_false_iff_not]
  omega

/-- An opener leaves the session shut exactly if it comes before the teardown or finds the outbound
receiver dropped. -/
theorem shut_openHttpStream (hi : Invariant s) (hp : s.Shut) {tunnelId remoteAddr : Text}
    {head : HttpRequestHead} (h : s.step (.openHttpStream tunnelId head remoteAddr) = some s') :
    s'.Shut ↔ s.opensAfterDrop (.openHttpStream tunnelId head remoteAddr) = true := by
  simp only [opensAfterDrop, Bool.or_eq_true, decide_eq_true_eq, Bool.not_eq_true']
  by_cases hs : s.edge.readLoop = .stopped
  · obtain ⟨hempty, hlate⟩ := hp hs
    rcases openHttpStream_cases h with ⟨hlim, -⟩ | ⟨hlim, he, hl⟩
    · rw [hi.not_atLimit hempty] at hlim
      cases hlim
    · obtain ⟨hloop, -, hrx⟩ := Edge.openHttpStream_cases hlim he
      rw [if_pos hs] at hl
      cases hx : s.edge.session.outbound.rxOpen with
      | true =>
        rw [if_pos hx] at hrx
        apply iff_of_false _ (by simp [hs])
        intro hshut
        rw [(hshut (hloop.trans hs)).1] at hrx
        exact Finset.notMem_empty _ hrx
      | false =>
        rw [if_neg (by simp [hx]), hempty] at hrx
        obtain ⟨hsub, hfailed, hrest⟩ := hrx
        apply iff_of_true _ (.inr rfl)
        intro _
        refine ⟨Finset.subset_empty.mp hsub, ?_⟩
        intro i hm
        rw [hl] at hm
        rcases List.mem_append.mp hm with hm | hm
        · rw [hrest i (hi.allocated i hm)]
          exact hlate i hm
        · rw [List.mem_singleton.mp hm]
          exact hfailed
  · have hloop : s'.edge.readLoop = s.edge.readLoop := by
      rcases openHttpStream_cases h with ⟨-, he, -⟩ | ⟨hlim, he, -⟩
      · rw [he]
      · exact (Edge.openHttpStream_cases hlim he).1
    exact iff_of_true (fun hs' => absurd (hloop ▸ hs') hs) (.inl hs)

/-- No other move opens a session that has been shut. -/
theorem shut_edge (hi : Invariant s) (hp : s.Shut) {action : EdgeAction}
    (h : s.step (.edge action) = some s') : s'.Shut := by
  simp only [Closing.step] at h
  split at h
  · cases h
  · rename_i ha
    obtain ⟨edge, he, rfl⟩ := Option.map_eq_some_iff.mp h
    have ha : action.isPart = false := by simpa using ha
    have hc := Edge.step_cases he
    intro hs
    obtain ⟨hempty, hlate⟩ := hp (hc.stopped_of ha hs)
    refine ⟨Finset.subset_empty.mp (hempty ▸ hc.streams_subset ha), ?_⟩
    intro i hm
    exact hc.failed (hi.allocated i hm) (hlate i hm)

/-- The end of the teardown shuts the session. -/
theorem shut_finish (hi : Invariant s) {ids : List Nat} (h : s.step (.finish ids) = some s') :
    s'.Shut := by
  obtain ⟨edge, he, rfl⟩ := Option.map_eq_some_iff.mp h
  obtain ⟨hbefore, -, hempty, -⟩ := Edge.closeAllStreams_eq_some he
  have hnone : s.late = [] := hi.early (by simp [hbefore])
  intro _
  refine ⟨hempty, fun i hm => ?_⟩
  rw [hnone] at hm
  cases hm

theorem shut_step (hi : Invariant s) (hp : s.Shut) (h : s.step a = some s') :
    s'.Shut ↔ s.opensAfterDrop a = true := by
  cases a with
  | get =>
    simp only [Closing.step] at h
    split at h
    · obtain rfl := Option.some.inj h
      exact iff_of_true hp rfl
    · cases h
  | openHttpStream tunnelId head remoteAddr => exact shut_openHttpStream hi hp h
  | finish ids => exact iff_of_true (shut_finish hi h) rfl
  | edge action => exact iff_of_true (shut_edge hi hp h) rfl

end Step

/-- After the teardown the session stays empty and turns every opener away, in all states on the
way, exactly if every opener that comes after the teardown finds the outbound receiver dropped. -/
theorem always_shut_iff (limit window : Nat) (as : List ClosingAction) :
    Always step Shut (init limit window) as ↔
      Throughout step (fun s a => s.opensAfterDrop a = true) (init limit window) as := by
  refine always_iff_throughout (I := Invariant) ?_ ?_ (.init limit window) ?_ as
  · intro s a s' hi hs
    exact hi.step hs
  · intro s a s' hi hp hs
    exact shut_step hi hp hs
  · intro h
    cases h

/-- A request obtains the session and opens its stream after the teardown, before the RPC has
dropped the outbound receiver: the stream stays in the table and the request waits for a response
head. -/
theorem shut_overtaken :
    ¬ ∀ limit window s, Reachable step (init limit window) s → s.Shut := by
  intro h
  obtain ⟨s, hs, hstopped, hingress⟩ : ∃ s, exec step (init 512 262144)
      [.get, .edge .disconnect, .finish [], .openHttpStream "tun".toList testHead
        "198.51.100.7:40000".toList] = some s ∧
      s.edge.readLoop = .stopped ∧ s.late = [1] ∧ (s.edge.request 1).ingress = .awaitingHead :=
    ⟨_, rfl, rfl, rfl, rfl⟩
  obtain ⟨-, hlate⟩ := h 512 262144 s (.of_exec .nil hs) hstopped
  have hfailed := hlate 1 (by simp [hingress.1])
  rw [hingress.2] at hfailed
  cases hfailed

end Closing

end Norupo
