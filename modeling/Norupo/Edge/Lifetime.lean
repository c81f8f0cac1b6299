import Norupo.Edge.Bookkeeping

/-!
# The lifetime of a stream

A stream should leave the table when the request that opened it is over: its future has returned or
has been dropped, and no response body is left. The guard of `build_response` and the error paths
of `forward_local` see to that; between the insertion of the stream and `build_response` nothing
does, so the exact condition is that the future is never dropped while its stream is in the table.
-/

namespace Norupo

open Async Transition

namespace Edge

/-- The future of the request is over and no response body for its stream exists. -/
def RequestGone (s : Edge) (i : Nat) : Prop :=
  (s.request i).ingress.live = false ∧
    ¬ ((s.request i).ingress = .responded ∧ (s.session.stream i).body.rxOpen = true)

/-- No stream outlives its request: it is neither in the table nor counted. -/
def NoOrphan (s : Edge) : Prop :=
  ∀ i, s.RequestGone i →
    i ∉ s.session.streams ∧ s.session.openStreams = s.session.streams.card

/-- The step does not drop a future whose stream is in the table. A future that reports a timeout
has closed its stream, so this is about the waits for the `Open` frame to be queued and for the
response head, as long as nobody has closed the stream. -/
def DropsClosed (s : Edge) (a : EdgeAction) : Prop :=
  ∀ i, a = .dropFuture i → i ∉ s.session.streams

/-- Streams in the table belong to a live future or to a live response body. -/
theorem noOrphan_iff {s : Edge} (hw : WellFormed s) :
    s.NoOrphan ↔ ∀ i ∈ s.session.streams, (s.request i).ingress.live = true ∨
      ((s.request i).ingress = .responded ∧ (s.session.stream i).body.rxOpen = true) := by
  constructor
  · intro h i hi
    by_contra hn
    rw [not_or, Bool.not_eq_true] at hn
    exact (h i hn).1 hi
  · intro h i hg
    refine ⟨fun hi => ?_, hw.count⟩
    rcases h i hi with hl | hr
    · simp [hg.1] at hl
    · exact hg.2 hr

/-- One step keeps streams with their requests exactly when it satisfies the condition. -/
theorem noOrphan_step_iff {s s' : Edge} {a : EdgeAction} (hw : WellFormed s) (hp : s.NoOrphan)
    (h : s.step a = some s') : s'.NoOrphan ↔ s.DropsClosed a := by
  rw [noOrphan_iff (hw.step h)]
  rw [noOrphan_iff hw] at hp
  have hc := step_cases h
  constructor
  · rintro hn i rfl hi
    cases hc
    simpa [Ingress.live] using hn i (by simpa using hi)
  · intro hd i hi
    have hpi := hp i
    cases hc
    case insert =>
      by_cases he : i = s.session.nextStreamId
      · subst he
        simp [Ingress.live]
      · simpa [Session.insertStream, he] using hpi (by simpa [Session.insertStream, he] using hi)
    case takeHead j hj _ =>
      have hrx := hw.receiver j (by simp [hj, Ingress.live])
      by_cases he : i = j
      · subst he
        simp [hrx]
      · simpa [he] using hpi (by simpa using hi)
    case dropFuture j hl =>
      have hne : i ≠ j := by
        rintro rfl
        exact hd i rfl (by simpa using hi)
      simpa [hne] using hpi (by simpa using hi)
    case queueTimeoutReset j hj _ =>
      have hne : i ≠ j := by
        rintro rfl
        exact hw.resetting i hj (by simpa using hi)
      simpa [hne] using hpi (by simpa using hi)
    case queueTimeoutResetGone j hj _ =>
      have hne : i ≠ j := by
        rintro rfl
        exact hw.resetting i hj (by simpa using hi)
      simpa [hne] using hpi (by simpa using hi)
    all_goals
      simp only [closeStream, push, setRequest, setIngress, setPump, dropRx, settle,
        Session.push, Session.setBody, Session.takeCredit, Session.addCredit, Session.takeHeadTx,
        Session.streams_closeStream, Session.body_closeStream, Function.update_apply] at hi ⊢
      first
        | exact hpi hi
        | (split_ifs <;> simp_all [Ingress.live])
        | simp_all [Ingress.live]

/-- A session keeps every stream with its request, in all states on the way, exactly when no future
is ever dropped while its stream is in the table. -/
theorem always_noOrphan_iff (limit window : Nat) (as : List EdgeAction) :
    Always Edge.step NoOrphan (Edge.init limit window) as ↔
      Throughout Edge.step DropsClosed (Edge.init limit window) as := by
  refine always_iff_throughout (I := WellFormed) (fun _ _ _ hw hs => hw.step hs)
    (fun _ _ _ hw hp hs => noOrphan_step_iff hw hp hs) (.init limit window) ?_ as
  rw [noOrphan_iff (.init limit window)]
  intro i hi
  exact absurd hi (Finset.notMem_empty i)

/-- The public client disconnects while `forward_local` waits for the response head. -/
theorem not_always_noOrphan :
    ¬ Always Edge.step NoOrphan (Edge.init 512 262144)
      [.passLimit, .insert "tun".toList ⟨"GET".toList, "/".toList, "a.tunnel.com".toList, [],
        "HTTP/1.1".toList, []⟩ "198.51.100.7:40000".toList, .queueOpen 1, .dropFuture 1] := by
  intro h
  have hlast := h.of_exec rfl 1 ⟨by decide, by decide⟩
  exact hlast.1 (by decide)

end Edge

end Norupo
