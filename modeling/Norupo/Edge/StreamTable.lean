import Norupo.Edge.Bookkeeping
import Norupo.Edge.Calls

/-!
# The stream table under any calls

What the methods of a session keep in step whoever calls them with whatever ids: the counter of open
streams is the size of the table, an id is issued once, a response head is passed on once, a call of
`open_http_stream` that fails takes back the entry that it made, and a frame about a stream that is
not in the table changes nothing.
-/

namespace Norupo

open Async Transition

namespace Calls

/-- What holds of the table after any calls. -/
structure Exact (s : Calls) : Prop where
  /-- `open_streams` is the number of entries. -/
  count : s.session.openStreams = s.session.streams.card
  /-- A stream that can be closed is counted, so that the counter does not wrap. -/
  positive : ∀ i ∈ s.session.streams, 0 < s.session.openStreams
  /-- Entries have issued ids. -/
  allocated : ∀ i ∈ s.session.streams, i < s.session.nextStreamId
  /-- No id is issued twice. -/
  issued : s.issued.Nodup
  /-- A response head reaches the request that waits for it at most once. -/
  heads : ∀ i, (s.heads i).length ≤ 1
  /-- A failed call has no entry. -/
  gone : ∀ c i, s.call c = .gone i → i ∉ s.session.streams

/-- What one move may change. -/
structure ExactMove (s : Calls) (a : CallAction) (s' : Calls) : Prop where
  /-- A call that is refused changes nothing. -/
  refused : ∀ c tunnelId head remoteAddr limit, a = .openHttpStream c tunnelId head remoteAddr →
    s'.call c = .refused limit → s'.session = s.session
  /-- A call adds one new entry. -/
  inserted : ∀ c request, s.call c ≠ .opening request → s'.call c = .opening request →
    request.streamId ∉ s.session.streams ∧
      s'.session.streams = insert request.streamId s.session.streams
  /-- A call that fails takes back the entry that it added, and no other. -/
  gone : ∀ c i, s.call c ≠ .gone i → s'.call c = .gone i →
    (∃ request, s.call c = .opening request ∧ request.streamId = i) ∧
      s'.session.streams = s.session.streams.erase i
  /-- A frame about a stream that is not in the table changes nothing. -/
  unknown : ∀ i, a.frameFor = some i → i ∉ s.session.streams →
    s'.session = s.session ∧ s'.heads = s.heads ∧ s'.issued = s.issued

/-- What makes the table exact. -/
structure Invariant (s : Calls) : Prop where
  count : s.session.openStreams = s.session.streams.card
  allocated : ∀ i ∈ s.session.streams, i < s.session.nextStreamId
  issued : s.issued.Nodup ∧ ∀ i ∈ s.issued, i < s.session.nextStreamId
  /-- A head has been passed on only by a sender that is gone. -/
  heads : ∀ i, (s.heads i).length ≤ 1 ∧
    ((s.session.stream i).headTx = true ∨ s.session.nextStreamId ≤ i → s.heads i = [])
  opening : ∀ c request, s.call c = .opening request → request.streamId < s.session.nextStreamId
  gone : ∀ c i, s.call c = .gone i → i < s.session.nextStreamId ∧ i ∉ s.session.streams

theorem Invariant.init (limit window : Nat) : Invariant (init limit window) where
  count := rfl
  allocated _ hi := absurd hi (Finset.notMem_empty _)
  issued := ⟨List.nodup_nil, by simp [Calls.init]⟩
  heads _ := ⟨Nat.zero_le 1, fun _ => rfl⟩
  opening _ _ h := by simp [Calls.init] at h
  gone _ _ h := by simp [Calls.init] at h

section Preservation

variable {s s' : Calls} {a : CallAction}

/-- A move that keeps the ids and the heads, and takes entries out at most. -/
theorem Invariant.of_shrinking (hi : Invariant s)
    (hcount : s'.session.openStreams = s'.session.streams.card)
    (hsub : s'.session.streams ⊆ s.session.streams)
    (hnext : s'.session.nextStreamId = s.session.nextStreamId)
    (hhead : ∀ i, (s'.session.stream i).headTx = true → (s.session.stream i).headTx = true)
    (hkept : CallsKept s s') : Invariant s' := by
  obtain ⟨hissued, hheads, hcall⟩ := hkept
  refine ⟨hcount, ?_, ?_, ?_, ?_, ?_⟩
  · intro i hm
    exact hnext ▸ hi.allocated i (hsub hm)
  · rw [hissued, hnext]
    exact hi.issued
  · intro i
    rw [hheads, hnext]
    exact ⟨(hi.heads i).1, fun h => (hi.heads i).2 (h.imp (hhead i) id)⟩
  · intro c request hc
    rcases hcall c with he | he
    · exact hnext ▸ hi.opening c request (he ▸ hc)
    · rw [hc] at he
      cases he
  · intro c i hc
    rcases hcall c with he | he
    · obtain ⟨hlt, hnot⟩ := hi.gone c i (he ▸ hc)
      exact ⟨hnext ▸ hlt, fun hm => hnot (hsub hm)⟩
    · rw [hc] at he
      cases he

theorem Invariant.insert_step (hi : Invariant s) {c : Nat} {tunnelId : Text}
    {head : HttpRequestHead} {remoteAddr : Text} :
    Invariant { s.setCall c (.opening ⟨s.session.nextStreamId, tunnelId, .http, some head,
        remoteAddr, s.session.initialWindow⟩) with
      session := s.session.insertStream
      issued := s.issued ++ [s.session.nextStreamId] } := by
  have hnew : s.session.nextStreamId ∉ s.session.streams :=
    fun hm => Nat.lt_irrefl _ (hi.allocated _ hm)
  refine ⟨?_, ?_, ⟨?_, ?_⟩, ?_, ?_, ?_⟩
  · simp [Session.insertStream, hnew, hi.count]
  · intro i hm
    rcases Finset.mem_insert.mp hm with rfl | hm
    · exact Nat.lt_succ_self _
    · exact Nat.lt_succ_of_lt (hi.allocated i hm)
  · refine List.nodup_append.mpr ⟨hi.issued.1, List.nodup_singleton _, ?_⟩
    rintro i hm j hj rfl
    obtain rfl := List.mem_singleton.mp hj
    exact Nat.lt_irrefl _ (hi.issued.2 _ hm)
  · intro i hm
    rcases List.mem_append.mp hm with hm | hm
    · exact Nat.lt_succ_of_lt (hi.issued.2 i hm)
    · obtain rfl := List.mem_singleton.mp hm
      exact Nat.lt_succ_self _
  · intro i
    refine ⟨(hi.heads i).1, fun h => (hi.heads i).2 ?_⟩
    -- The head sender of the new stream has not been used: no head came for its id before.
    by_cases hn : i = s.session.nextStreamId
    · exact .inr hn.ge
    · refine h.imp (fun ht => ?_) fun hle => (Nat.le_succ _).trans hle
      simpa [Session.insertStream, hn] using ht
  · intro d request hd
    by_cases hdc : d = c
    · subst hdc
      obtain rfl : _ = request := by simpa using hd
      exact Nat.lt_succ_self _
    · exact Nat.lt_succ_of_lt (hi.opening d request (by simpa [hdc] using hd))
  · intro d i hd
    have hne : d ≠ c := by
      rintro rfl
      simp at hd
    obtain ⟨hlt, hnot⟩ := hi.gone d i (by simpa [hne] using hd)
    refine ⟨Nat.lt_succ_of_lt hlt, fun hm => ?_⟩
    rcases Finset.mem_insert.mp hm with rfl | hm
    · exact Nat.lt_irrefl _ hlt
    · exact hnot hm

theorem Invariant.gone_step (hi : Invariant s) {c : Nat} {request : StreamOpen}
    (hc : s.call c = .opening request) :
    Invariant { s.setCall c (.gone request.streamId) with
      session := s.session.closeStream request.streamId } := by
  refine ⟨by simpa using Session.openStreams_closeStream hi.count _, ?_, ?_, ?_, ?_, ?_⟩
  · intro i hm
    simpa using hi.allocated i (Finset.mem_of_mem_erase (by simpa using hm))
  · simpa using hi.issued
  · intro i
    simpa using hi.heads i
  · intro d other hd
    have hne : d ≠ c := by
      rintro rfl
      simp at hd
    simpa using hi.opening d other (by simpa [hne] using hd)
  · intro d i hd
    by_cases hdc : d = c
    · subst hdc
      obtain rfl : request.streamId = i := by simpa using hd
      simpa using hi.opening d request hc
    · obtain ⟨hlt, hnot⟩ := hi.gone d i (by simpa [hdc] using hd)
      simp [hlt, hnot]

theorem Invariant.head_step (hi : Invariant s) {head : HttpResponseHead}
    (hm : head.streamId ∈ s.session.streams)
    (ht : (s.session.stream head.streamId).headTx = true) :
    Invariant { s with
      session := s.session.takeHeadTx head.streamId
      heads := Function.update s.heads head.streamId (s.heads head.streamId ++ [head]) } := by
  have hnone := (hi.heads head.streamId).2 (.inl ht)
  refine ⟨hi.count, hi.allocated, hi.issued, ?_, hi.opening, hi.gone⟩
  intro i
  by_cases hn : i = head.streamId
  · subst hn
    have hlt := hi.allocated _ hm
    simp only [Function.update_self, hnone, Session.takeHeadTx]
    refine ⟨le_rfl, ?_⟩
    rintro (h | h)
    · cases h
    · omega
  · simpa [hn] using hi.heads i

theorem Invariant.step (hi : Invariant s) (h : s.step a = some s') : Invariant s' := by
  cases step_cases h with
  | insert hc => exact hi.insert_step
  | gone hc => exact hi.gone_step hc
  | head hm ht => exact hi.head_step hm ht
  | quiet ht hkept =>
    refine hi.of_shrinking ?_ ?_ ht.nextStreamId ht.headTx hkept
    · rw [ht.openStreams, ht.streams]
      exact hi.count
    · rw [ht.streams]
  | close i ht hkept =>
    refine hi.of_shrinking ?_ ?_ ?_ ?_ hkept
    · rw [ht.openStreams, ht.streams, Session.streams_closeStream]
      exact Session.openStreams_closeStream hi.count i
    · rw [ht.streams, Session.streams_closeStream]
      exact Finset.erase_subset _ _
    · rw [ht.nextStreamId, Session.nextStreamId_closeStream]
    · intro j hj
      simpa using ht.headTx j hj

theorem Invariant.reachable {limit window : Nat}
    (h : Reachable Calls.step (Calls.init limit window) s) : Invariant s := by
  refine h.invariant (.init limit window) ?_
  intro s a s' hi _ hs
  exact hi.step hs

theorem Invariant.exact (hi : Invariant s) : Exact s where
  count := hi.count
  positive i hm := by
    rw [hi.count]
    exact Finset.card_pos.mpr ⟨i, hm⟩
  allocated := hi.allocated
  issued := hi.issued.1
  heads i := (hi.heads i).1
  gone c i hc := (hi.gone c i hc).2

end Preservation

section Moves

variable {s s' : Calls} {a : CallAction}

/-- A call that is about to queue its `Open` frame has just added its stream. -/
theorem Invariant.inserted (hi : Invariant s) (h : s.step a = some s') {c : Nat}
    {request : StreamOpen} (hc : s.call c ≠ .opening request) (hc' : s'.call c = .opening request) :
    request.streamId ∉ s.session.streams ∧
      s'.session.streams = insert request.streamId s.session.streams := by
  cases step_cases h with
  | @insert d tunnelId head remoteAddr hd =>
    have hdc : c = d := by
      by_contra hne
      exact hc (by simpa [hne] using hc')
    subst hdc
    obtain rfl : _ = request := by simpa using hc'
    exact ⟨fun hm => Nat.lt_irrefl _ (hi.allocated _ hm), rfl⟩
  | @gone d other hd =>
    have hdc : c ≠ d := by
      rintro rfl
      simp at hc'
    exact absurd (by simpa [hdc] using hc') hc
  | head hm ht => exact absurd hc' hc
  | quiet ht hk => cases hk.isPlain_of_ne hc hc'
  | close i ht hk => cases hk.isPlain_of_ne hc hc'

/-- A call that has just failed takes its own entry out. -/
theorem gone_move (h : s.step a = some s') {c i : Nat} (hc : s.call c ≠ .gone i)
    (hc' : s'.call c = .gone i) :
    (∃ request, s.call c = .opening request ∧ request.streamId = i) ∧
      s'.session.streams = s.session.streams.erase i := by
  cases step_cases h with
  | @insert d tunnelId head remoteAddr hd =>
    have hdc : c ≠ d := by
      rintro rfl
      simp at hc'
    exact absurd (by simpa [hdc] using hc') hc
  | @gone d request hd =>
    have hdc : c = d := by
      by_contra hne
      exact hc (by simpa [hne] using hc')
    subst hdc
    obtain rfl : request.streamId = i := by simpa using hc'
    exact ⟨⟨request, hd, rfl⟩, by simp⟩
  | head hm ht => exact absurd hc' hc
  | quiet ht hk => cases hk.isPlain_of_ne hc hc'
  | close i ht hk => cases hk.isPlain_of_ne hc hc'

/-- A chunk for a stream that is not in the table is dropped. -/
theorem offer_unknown {c i : Nat} {chunk : Chunk} (h : s.offer c i chunk = some s')
    (hi : i ∉ s.session.streams) :
    s'.session = s.session ∧ s'.heads = s.heads ∧ s'.issued = s.issued := by
  have hclose : s.session.closeStream i = s.session := if_neg hi
  unfold offer at h
  split at h
  · rw [if_neg (by simp [Session.streamBodySender, hi])] at h
    obtain rfl := Option.some.inj h
    refine ⟨?_, rfl, rfl⟩
    cases chunk with
    | data payload => rfl
    | finish trailers => exact hclose
    | reset code message => exact hclose
  · cases h

theorem unknown_move (h : s.step a = some s') {i : Nat} (ha : a.frameFor = some i)
    (hi : i ∉ s.session.streams) :
    s'.session = s.session ∧ s'.heads = s.heads ∧ s'.issued = s.issued := by
  cases a with
  | onResponseHead head =>
    obtain rfl : head.streamId = i := by simpa [CallAction.frameFor] using ha
    simp only [Calls.step, Session.onResponseHead, if_neg hi] at h
    obtain rfl := Option.some.inj h
    exact ⟨rfl, rfl, rfl⟩
  | onStreamData c j payload =>
    obtain rfl : j = i := by simpa [CallAction.frameFor] using ha
    exact offer_unknown h hi
  | onStreamEnd c j trailers =>
    obtain rfl : j = i := by simpa [CallAction.frameFor] using ha
    exact offer_unknown h hi
  | onStreamReset c j code message =>
    obtain rfl : j = i := by simpa [CallAction.frameFor] using ha
    exact offer_unknown h hi
  | onWindowUpdate j increment =>
    obtain rfl : j = i := by simpa [CallAction.frameFor] using ha
    simp only [Calls.step, Session.onWindowUpdate, if_neg hi] at h
    obtain rfl := Option.some.inj h
    exact ⟨rfl, rfl, rfl⟩
  | _ => cases ha

/-- The limit check changes nothing. -/
theorem session_of_openHttpStream {c : Nat} {tunnelId remoteAddr : Text} {head : HttpRequestHead}
    (h : s.step (.openHttpStream c tunnelId head remoteAddr) = some s') :
    s'.session = s.session := by
  simp only [Calls.step] at h
  split at h
  · obtain rfl := Option.some.inj h
    rfl
  · cases h

theorem Invariant.exactMove (hi : Invariant s) (h : s.step a = some s') : ExactMove s a s' where
  refused _ _ _ _ _ ha _ := session_of_openHttpStream (ha ▸ h)
  inserted _ _ hc hc' := hi.inserted h hc hc'
  gone _ _ hc hc' := gone_move h hc hc'
  unknown _ ha hm := unknown_move h ha hm

/-- A call that adds its stream goes on to queue the `Open` frame. -/
theorem opening_of_insertStream {c : Nat} (h : s.step (.insertStream c) = some s') :
    ∃ request, s'.call c = .opening request ∧ s.call c ≠ .opening request := by
  simp only [Calls.step] at h
  split at h
  · rename_i tunnelId head remoteAddr hadm
    obtain rfl := Option.some.inj h
    refine ⟨_, Function.update_self _ _ _, ?_⟩
    rw [hadm]
    exact Call.noConfusion
  · cases h

/-- With nothing in between, a call that fails leaves the table as it found it. -/
theorem Invariant.undone (hi : Invariant s) {c i : Nat} {tunnelId : Text} {head : HttpRequestHead}
    {remoteAddr : Text}
    (h : exec Calls.step s [.openHttpStream c tunnelId head remoteAddr, .insertStream c,
      .queueOpen c] = some s')
    (hc : s'.call c = .gone i) :
    s'.session.streams = s.session.streams ∧ s'.session.openStreams = s.session.openStreams := by
  simp only [exec_cons, exec_nil, Option.bind_eq_some_iff] at h
  obtain ⟨s₁, h₁, s₂, h₂, s₃, h₃, hend⟩ := h
  obtain rfl := Option.some.inj hend
  have i₁ := hi.step h₁
  have i₂ := i₁.step h₂
  have i₃ := i₂.step h₃
  have hsame := session_of_openHttpStream h₁
  -- The middle move adds one entry, and the last one takes it out again.
  obtain ⟨request, hop, hne⟩ := opening_of_insertStream h₂
  obtain ⟨hnew, hadd⟩ := i₁.inserted h₂ hne hop
  obtain ⟨⟨other, hother, rfl⟩, herase⟩ := gone_move h₃ (by simp [hop]) hc
  obtain rfl : request = other := by simpa [hop] using hother
  have hstreams : s₃.session.streams = s.session.streams := by
    rw [herase, hadd, Finset.erase_insert hnew, hsame]
  exact ⟨hstreams, by rw [i₃.count, hi.count, hstreams]⟩

end Moves

/-- The bookkeeping of the stream table is exact after any calls, every move changes it by what it
should, and a call that fails has changed nothing. -/
theorem bookkeeping_exact {limit window : Nat} {s : Calls}
    (h : Reachable step (init limit window) s) :
    Exact s ∧ (∀ a s', s.step a = some s' → ExactMove s a s') ∧
      ∀ c tunnelId head remoteAddr s',
        exec step s [.openHttpStream c tunnelId head remoteAddr, .insertStream c, .queueOpen c]
          = some s' →
        ∀ i, s'.call c = .gone i →
          s'.session.streams = s.session.streams ∧
            s'.session.openStreams = s.session.openStreams := by
  have hi := Invariant.reachable h
  refine ⟨hi.exact, fun a s' hs => hi.exactMove hs, ?_⟩
  intro c tunnelId head remoteAddr s' hs i hc
  exact hi.undone hs hc

/-- A stream that is closed by everyone: by the `End` of the agent, by its guard, by the teardown
and once more. A second head and data for a guessed id arrive, and the outbound receiver is
dropped. -/
def closedByAll : List CallAction :=
  [.openHttpStream 0 "tun".toList testHead "198.51.100.7:40000".toList, .insertStream 0,
    .queueOpen 0, .onResponseHead ⟨1, 200, []⟩, .onResponseHead ⟨1, 404, []⟩,
    .closeAllStreams 1 [1], .onStreamEnd 2 1 [], .delivered 2, .dropGuard 1, .closeNext 1,
    .closeStream 1, .onStreamData 3 7 [104], .dropOutbound]

theorem bookkeeping_exact_closedByAll :
    ∃ s s', exec step (init 1 262144) closedByAll = some s ∧
      s.heads 1 = [⟨1, 200, []⟩] ∧ s.session.openStreams = 0 ∧ Exact s ∧
      exec step s [.openHttpStream 4 "tun".toList testHead "198.51.100.7:40001".toList,
        .insertStream 4, .queueOpen 4] = some s' ∧
      s'.call 4 = .gone 2 ∧ s'.session.streams = s.session.streams := by
  obtain ⟨s, s', hs, hheads, hcount, hs', hgone⟩ : ∃ s s',
      exec step (init 1 262144) closedByAll = some s ∧
      s.heads 1 = [⟨1, 200, []⟩] ∧ s.session.openStreams = 0 ∧
      exec step s [.openHttpStream 4 "tun".toList testHead "198.51.100.7:40001".toList,
        .insertStream 4, .queueOpen 4] = some s' ∧ s'.call 4 = .gone 2 :=
    ⟨_, _, rfl, rfl, rfl, rfl, rfl⟩
  obtain ⟨hexact, -, hundone⟩ := bookkeeping_exact (.of_exec .nil hs)
  exact ⟨s, s', hs, hheads, hcount, hexact, hs', hgone, (hundone _ _ _ _ s' hs' 2 hgone).1⟩

end Calls

end Norupo
