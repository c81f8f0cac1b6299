import Norupo.Edge.StreamTable

/-!
# The ceiling on concurrent streams

`open_http_stream` compares the counter of open streams with the limit in one step and adds its
stream in a later one. The table stays within the limit exactly as long as each call adds its stream
in a state in which its comparison would still let it through.
-/

namespace Norupo

open Async Transition

namespace Calls

/-- The table holds no more streams than the limit allows. -/
def WithinLimit (limit : Nat) (s : Calls) : Prop := s.session.streams.card ≤ limit

/-- A call that adds its stream would still pass the limit check. -/
def insertsBelow (s : Calls) : CallAction → Bool
  | .insertStream _ => !s.session.atLimit
  | _ => true

section Step

variable {s s' : Calls} {a : CallAction} {limit : Nat}

theorem maxConcurrentStreams_step (h : s.step a = some s') :
    s'.session.maxConcurrentStreams = s.session.maxConcurrentStreams := by
  cases step_cases h with
  | insert hc => rfl
  | gone hc => exact Session.maxConcurrentStreams_closeStream _ _
  | head hm ht => rfl
  | quiet ht hkept => exact ht.maxConcurrentStreams
  | close i ht hkept =>
    exact ht.maxConcurrentStreams.trans (Session.maxConcurrentStreams_closeStream _ _)

/-- Only one kind of move adds to the table. -/
theorem streams_subset (h : s.step a = some s') (ha : ∀ c, a ≠ .insertStream c) :
    s'.session.streams ⊆ s.session.streams := by
  cases step_cases h with
  | @insert c tunnelId head remoteAddr hc => exact absurd rfl (ha c)
  | gone hc =>
    simp only [Session.streams_closeStream]
    exact Finset.erase_subset _ _
  | head hm ht => exact Finset.Subset.refl _
  | quiet ht hkept => rw [ht.streams]
  | close i ht hkept =>
    rw [ht.streams, Session.streams_closeStream]
    exact Finset.erase_subset _ _

/-- Adding a stream adds one entry. -/
theorem card_insertStream (hi : Invariant s) {c : Nat} (h : s.step (.insertStream c) = some s') :
    s'.session.streams.card = s.session.streams.card + 1 := by
  obtain ⟨request, hop, hne⟩ := opening_of_insertStream h
  obtain ⟨hnew, hadd⟩ := hi.inserted h hne hop
  rw [hadd, Finset.card_insert_of_notMem hnew]

theorem atLimit_eq_false_iff (hi : Invariant s) (hlimit : s.session.maxConcurrentStreams = limit)
    (hpos : 0 < limit) : s.session.atLimit = false ↔ s.session.streams.card < limit := by
  simp only [Session.atLimit, hlimit, hi.count]
  simp [hpos]

/-- A move stays within the limit exactly if it does not add a stream that would be refused now. -/
theorem withinLimit_step (hi : Invariant s) (hlimit : s.session.maxConcurrentStreams = limit)
    (hpos : 0 < limit) (hw : WithinLimit limit s) (h : s.step a = some s') :
    WithinLimit limit s' ↔ s.insertsBelow a = true := by
  by_cases ha : ∃ c, a = .insertStream c
  · obtain ⟨c, rfl⟩ := ha
    rw [insertsBelow, Bool.not_eq_true', atLimit_eq_false_iff hi hlimit hpos, WithinLimit,
      card_insertStream hi h]
    exact Nat.succ_le_iff
  · have hne : ∀ c, a ≠ .insertStream c := fun c hc => ha ⟨c, hc⟩
    refine iff_of_true ((Finset.card_le_card (streams_subset h hne)).trans hw) ?_
    cases a with
    | insertStream c => exact absurd rfl (hne c)
    | _ => rfl

end Step

/-- A run stays within a positive limit exactly if every call adds its stream while its limit check
would still let it through. -/
theorem withinLimit_iff {limit window : Nat} (hpos : 0 < limit) (as : List CallAction) :
    Always step (WithinLimit limit) (init limit window) as ↔
      Throughout step (fun s a => s.insertsBelow a = true) (init limit window) as := by
  refine always_iff_throughout
    (I := fun s => Invariant s ∧ s.session.maxConcurrentStreams = limit) ?_ ?_
    ⟨.init limit window, rfl⟩ (Nat.zero_le limit) as
  · rintro s a s' ⟨hi, hlimit⟩ hs
    exact ⟨hi.step hs, (maxConcurrentStreams_step hs).trans hlimit⟩
  · rintro s a s' ⟨hi, hlimit⟩ hw hs
    exact withinLimit_step hi hlimit hpos hw hs

/-- Two calls one after the other: the second is refused. -/
def oneAfterTheOther : List CallAction :=
  [.openHttpStream 0 "tun".toList testHead "198.51.100.7:40000".toList, .insertStream 0,
    .queueOpen 0, .openHttpStream 1 "tun".toList testHead "198.51.100.7:40001".toList]

theorem withinLimit_oneAfterTheOther :
    Always step (WithinLimit 1) (init 1 262144) oneAfterTheOther :=
  (withinLimit_iff Nat.one_pos oneAfterTheOther).mpr (.of_meets rfl)

/-- Two calls that both pass the limit check before either adds its stream. -/
def bothAdmitted : List CallAction :=
  [.openHttpStream 0 "tun".toList testHead "198.51.100.7:40000".toList,
    .openHttpStream 1 "tun".toList testHead "198.51.100.7:40001".toList,
    .insertStream 0, .insertStream 1]

/-- With a limit of one stream, two calls that are checked together both get one. -/
theorem withinLimit_bothAdmitted :
    ¬ ∀ limit window s, 0 < limit → Reachable step (init limit window) s → WithinLimit limit s := by
  intro h
  obtain ⟨s, hs, hcard⟩ : ∃ s, exec step (init 1 262144) bothAdmitted = some s ∧
      s.session.streams.card = 2 := ⟨_, rfl, rfl⟩
  have hle : s.session.streams.card ≤ 1 := h 1 262144 s Nat.one_pos (.of_exec .nil hs)
  omega

end Calls

end Norupo
