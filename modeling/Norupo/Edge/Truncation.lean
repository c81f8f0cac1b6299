import Norupo.Edge.Delivery

/-!
# How a response body ends

The body that `build_response` returns ends when no sender of its queue is left and the queue is
empty; nothing but the items before the end says whether the response was complete. A reset from
the agent puts an error in the queue before the sender goes. `Session::reset_stream`, called by the
request pump after a body error, and `close_all_streams`, called by the teardown, drop the sender
and put nothing there, so a response they cut short looks complete.
-/

namespace Norupo

open Async Transition

/-- What the chunk of an `End` frame says about the frame. -/
theorem ClientFrame.eq_streamEnd {frame : ClientFrame} {i : Nat} {trailers : List Header}
    (h : frame.chunkFor i = some (.finish trailers)) : frame = .streamEnd i trailers := by
  cases frame <;> simp_all [chunkFor, ClientFrame.chunk]

namespace Edge

/-- The agent has ended the stream since it was opened. -/
def EndHeard (s : Edge) (i : Nat) : Prop := ∃ trailers, ClientFrame.streamEnd i trailers ∈ s.heard i

/-- The response body has yielded an error. -/
def Errored (s : Edge) (i : Nat) : Prop :=
  ∃ code message, ResponseItem.error code message ∈ (s.request i).items

/-- A response body that ends without having yielded an error is complete. -/
def NoSilentTruncation (s : Edge) : Prop :=
  ∀ i, (s.request i).ended = true → ¬ s.Errored i → s.EndHeard i

/-- The stream a step closes without putting anything in its queue: `reset_stream` after a public
body error, and `close_all_streams`. -/
def closesSilently (s : Edge) : EdgeAction → Option Nat
  | .pumpFail i => some i
  | .closeNext => match s.readLoop with
    | .closing (i :: _) => some i
    | _ => none
  | _ => none

/-- The response of a stream has begun and may still be read. -/
def Responding (s : Edge) (i : Nat) : Prop :=
  (s.request i).head.isSome = true ∧ (s.session.stream i).body.rxOpen = true ∧
    (s.request i).ingress ≠ .resetting

/-- No stream in the table whose response has begun and may still be read is closed silently, unless
the read loop is already delivering the end or the reset of that stream. -/
def ClosesTold (s : Edge) (a : EdgeAction) : Prop :=
  ∀ i, s.closesSilently a = some i → i ∈ s.session.streams → s.Responding i →
    ∃ chunk, s.readLoop = .delivering i chunk ∧ ∀ payload, chunk ≠ .data payload

/-- The way a stream was closed is known to whoever reads its response body. -/
def Resolved (s : Edge) (i : Nat) : Prop :=
  s.EndHeard i ∨ ∃ code message, Chunk.reset code message ∈ (s.relay i).accepted

section Monotonicity

variable {s s' : Edge} {a : EdgeAction} {i : Nat}

/-- An `End` is heard when the relay is sent it. -/
theorem endHeard_iff : s.EndHeard i ↔ ∃ trailers, Chunk.finish trailers ∈ (s.relay i).sent := by
  simp only [EndHeard, relay, List.mem_filterMap]
  constructor
  · rintro ⟨trailers, hm⟩
    exact ⟨trailers, _, hm, by simp [ClientFrame.chunkFor, ClientFrame.chunk]⟩
  · rintro ⟨trailers, frame, hm, hc⟩
    obtain rfl := ClientFrame.eq_streamEnd hc
    exact ⟨trailers, hm⟩

/-- An error is yielded when a reset is taken. -/
theorem errored_iff :
    s.Errored i ↔ ∃ code message, Chunk.reset code message ∈ (s.request i).taken := by
  simp only [Errored, Request.items, List.mem_map]
  constructor
  · rintro ⟨code, message, chunk, hm, hc⟩
    cases chunk <;> simp only [Chunk.toItem, reduceCtorEq, ResponseItem.error.injEq] at hc
    exact ⟨_, _, hm⟩
  · rintro ⟨code, message, hm⟩
    exact ⟨code, message, _, hm, rfl⟩

theorem Step.endHeard_mono (hw : WellFormed s) (h : Step s a s')
    (hi : i < s.session.nextStreamId) (he : s.EndHeard i) : s'.EndHeard i := by
  rw [endHeard_iff] at he ⊢
  obtain ⟨trailers, hm⟩ := he
  exact ⟨trailers, ((h.relay hw i).sent_mono (Nat.not_le.mpr hi)).subset hm⟩

theorem Step.errored_mono (hw : WellFormed s) (h : Step s a s')
    (hi : i < s.session.nextStreamId) (he : s.Errored i) : s'.Errored i := by
  rw [errored_iff] at he ⊢
  obtain ⟨code, message, hm⟩ := he
  exact ⟨code, message, ((h.relay hw i).taken_mono (Nat.not_le.mpr hi)).subset hm⟩

/-- A resolved stream stays resolved while its response may be read. -/
theorem Step.resolved_mono (hw : WellFormed s) (h : Step s a s')
    (hi : i < s.session.nextStreamId) (hx : (s'.session.stream i).body.rxOpen = true)
    (hr : s.Resolved i) : s'.Resolved i := by
  rcases hr with he | ⟨code, message, hm⟩
  · exact .inl (h.endHeard_mono hw hi he)
  · have hmono := (h.relay hw i).accepted_mono (Nat.not_le.mpr hi) hx
    exact .inr ⟨code, message, hmono.subset hm⟩

/-- A stream outside the table whose response may still be read was there already, or it is closed
silently, or its end or reset is being delivered. -/
theorem Step.closed_cases (hw : WellFormed s) (h : Step s a s') (hi : i ∉ s'.session.streams)
    (hr : s'.Responding i) : i < s.session.nextStreamId ∧ s.Responding i ∧
      (i ∉ s.session.streams ∨ s.closesSilently a = some i ∨
        ∃ chunk, s.readLoop = .delivering i chunk ∧ ∀ payload, chunk ≠ .data payload) := by
  have hlt : s.Responding i → i < s.session.nextStreamId := by
    intro hr
    by_contra hn
    simp [Responding, (hw.fresh i (Nat.le_of_not_lt hn)).2, Request.new] at hr
  suffices hs : s.Responding i ∧ _ from ⟨hlt hs.1, hs⟩
  simp only [Responding] at hr ⊢
  cases h
  case insert =>
    by_cases he : i = s.session.nextStreamId
    · subst he
      simp [Request.new] at hr
    · exact ⟨by simpa [Session.insertStream, he] using hr,
        .inl (by simpa [Session.insertStream, he] using hi)⟩
  case pumpFail j hj =>
    by_cases he : i = j
    · subst he
      exact ⟨by simpa using hr, .inr (.inl rfl)⟩
    · exact ⟨by simpa [he] using hr, .inl (by simpa [he] using hi)⟩
  case closeNext j ids hj =>
    by_cases he : i = j
    · subst he
      exact ⟨by simpa using hr, .inr (.inl (by simp [closesSilently, hj]))⟩
    · exact ⟨by simpa using hr, .inl (by simpa [he] using hi)⟩
  case deliverLast j chunk hl hn hp =>
    by_cases he : i = j
    · subst he
      exact ⟨by simpa using hr, .inr (.inr ⟨chunk, hl, hn⟩)⟩
    · exact ⟨by simpa [he] using hr, .inl (by simpa [he] using hi)⟩
  case deliverGone j chunk hl hp =>
    have he : i ≠ j := by
      rintro rfl
      simp [Channel.poll_eq_closed.mp hp] at hr
    exact ⟨by simpa using hr, .inl (by simpa [he] using hi)⟩
  case recvLateEnd frame j chunk hl hc hn hs =>
    refine ⟨by simpa using hr, .inl fun hm => ?_⟩
    have he : i = j := by
      by_contra he
      exact hi (by simpa [he] using hm)
    simp [Session.streamBodySender, ← he, hm, hw.notClosed i hm] at hs
  all_goals
    simp only [closeStream, push, setRequest, setIngress, setPump, dropRx, settle,
        Session.push, Session.setBody, Session.takeCredit, Session.addCredit, Session.takeHeadTx,
        Session.streams_closeStream, Session.body_closeStream, Function.update_apply] at hi hr ⊢
    first
      | exact ⟨hr, .inl hi⟩
      | (split_ifs at hr <;> simp_all)

end Monotonicity

/-- What a session keeps while no stream is closed silently. -/
structure Told (s : Edge) : Prop where
  ended : ∀ i, (s.request i).ended = true → s.EndHeard i ∨ s.Errored i
  finishing : ∀ i trailers, s.readLoop = .delivering i (.finish trailers) → s.EndHeard i
  responded : ∀ i, (s.request i).ingress = .responded → (s.request i).head.isSome = true
  closed : ∀ i, i ∉ s.session.streams → s.Responding i → s.Resolved i

theorem Told.init (limit window : Nat) : Told (Edge.init limit window) where
  ended _ h := by simp [Edge.init, Request.new] at h
  finishing _ _ h := by simp [Edge.init] at h
  responded _ h := by simp [Edge.init, Request.new] at h
  closed _ _ h := by simp [Responding, Edge.init, Request.new] at h

section Preservation

variable {s s' : Edge} {a : EdgeAction}

/-- A body that ends has been told how, if everything closed before it was. -/
theorem Told.ended_step (hw : WellFormed s) (ht : Told s) (h : Step s a s') (i : Nat)
    (hi : (s'.request i).ended = true) : s'.EndHeard i ∨ s'.Errored i := by
  have hold : i < s.session.nextStreamId ∧ (s.EndHeard i ∨ s.Errored i) := by
    by_cases he : (s.request i).ended = true
    · refine ⟨?_, ht.ended i he⟩
      by_contra hn
      simp [(hw.fresh i (Nat.le_of_not_lt hn)).2, Request.new] at he
    · cases h
      case takeEnd j hj hx hq hs =>
        have hij : i = j := by
          by_contra hne
          simp [hne, he] at hi
        subst hij
        simp only [sendersGone, Bool.and_eq_true, Bool.not_eq_true', decide_eq_false_iff_not] at hs
        have hlt : i < s.session.nextStreamId := by
          by_contra hn
          simp [(hw.fresh i (Nat.le_of_not_lt hn)).2, Request.new] at hj
        refine ⟨hlt, ?_⟩
        have hh : s.readLoop.holding i = none := by
          cases hl : s.readLoop with
          | delivering k chunk => simpa [hl, ReadLoop.holding] using hs.2
          | _ => rfl
        rcases ht.closed i hs.1 ⟨ht.responded i hj, hx, by simp [hj]⟩ with he | ⟨code, message, hm⟩
        · exact .inl he
        · refine .inr (errored_iff.mpr ⟨code, message, ?_⟩)
          simpa [Relay.accepted, Relay.waiting, relay, hq, hh] using hm
      all_goals
        exfalso
        simp only [closeStream, push, setRequest, setIngress, setPump, dropRx, settle,
          Function.update_apply] at hi
        first
          | exact he hi
          | (split_ifs at hi <;> simp_all [Request.new])
  exact hold.2.imp (h.endHeard_mono hw hold.1) (h.errored_mono hw hold.1)

/-- The read loop delivers an end only after hearing it. -/
theorem Told.finishing_step (hw : WellFormed s) (ht : Told s) (h : Step s a s') (i : Nat)
    (trailers : List Header) (hi : s'.readLoop = .delivering i (.finish trailers)) :
    s'.EndHeard i := by
  by_cases hl : s.readLoop = .delivering i (.finish trailers)
  · exact h.endHeard_mono hw (hw.delivering i _ hl) (ht.finishing i trailers hl)
  · cases h
    case recvChunk frame j chunk hidle hc hs =>
      obtain ⟨rfl, rfl⟩ : j = i ∧ chunk = .finish trailers := by simpa using hi
      have hchunk : frame.chunkFor j = some (.finish trailers) := by
        simp [ClientFrame.chunkFor_eq hc]
      obtain rfl := ClientFrame.eq_streamEnd hchunk
      refine ⟨trailers, ?_⟩
      simp [heard, List.drop_append_of_le_length (hw.opened j)]
    all_goals first
      | exact absurd hi hl
      | cases hi

theorem Told.responded_step (ht : Told s) (h : Step s a s') (i : Nat)
    (hi : (s'.request i).ingress = .responded) : (s'.request i).head.isSome = true := by
  have hr := ht.responded i
  cases h
  all_goals
    simp only [closeStream, push, setRequest, setIngress, setPump, dropRx, settle,
      Function.update_apply] at hi ⊢
    first
      | exact hr hi
      | (split_ifs at hi ⊢ <;> simp_all)

/-- A stream whose end or reset is in the read loop's hands is resolved. -/
theorem Told.resolved_of_delivering (ht : Told s) {i : Nat} {chunk : Chunk}
    (hl : s.readLoop = .delivering i chunk) (hn : ∀ payload, chunk ≠ .data payload) :
    s.Resolved i := by
  cases chunk with
  | data payload => exact absurd rfl (hn payload)
  | finish trailers => exact .inl (ht.finishing i trailers hl)
  | reset code message =>
    exact .inr ⟨code, message, by simp [Relay.accepted, Relay.waiting, relay_hand hl]⟩

/-- Silently closed streams are resolved under the condition. -/
theorem Told.resolved_of_closesTold (ht : Told s) (hc : s.ClosesTold a) {i : Nat}
    (ha : s.closesSilently a = some i) (hr : s.Responding i) : s.Resolved i := by
  by_cases hi : i ∈ s.session.streams
  · obtain ⟨chunk, hl, hn⟩ := hc i ha hi hr
    exact ht.resolved_of_delivering hl hn
  · exact ht.closed i hi hr

theorem Told.closed_step (hw : WellFormed s) (ht : Told s) (hc : s.ClosesTold a)
    (h : Step s a s') (i : Nat) (hi : i ∉ s'.session.streams) (hr : s'.Responding i) :
    s'.Resolved i := by
  obtain ⟨hlt, hresp, hcase⟩ := h.closed_cases hw hi hr
  have hres : s.Resolved i := by
    rcases hcase with hn | hs | ⟨chunk, hl, hn⟩
    · exact ht.closed i hn hresp
    · exact ht.resolved_of_closesTold hc hs hresp
    · exact ht.resolved_of_delivering hl hn
  exact h.resolved_mono hw hlt hr.2.1 hres

end Preservation

theorem Told.step {s s' : Edge} {a : EdgeAction} (hw : WellFormed s) (ht : Told s)
    (hc : s.ClosesTold a) (h : s.step a = some s') : Told s' where
  ended := ht.ended_step hw (step_cases h)
  finishing := ht.finishing_step hw (step_cases h)
  responded := ht.responded_step (step_cases h)
  closed := ht.closed_step hw hc (step_cases h)

/-- In every session that closes no stream silently while its response is being read, a response
body that ends without an error is complete. -/
theorem noSilentTruncation_of_run {limit window : Nat} {s : Edge}
    (h : Run Edge.step ClosesTold (Edge.init limit window) s) : s.NoSilentTruncation := by
  have hi := h.invariant (P := fun s => WellFormed s ∧ Told s)
    ⟨.init limit window, .init limit window⟩
    fun _ _ _ hi hc hs => ⟨hi.1.step hs, hi.2.step hi.1 hc hs⟩
  intro i he hn
  exact (hi.2.ended i he).resolve_right hn

/-- One request: its response head and the first two bytes of its body have been passed on. -/
def halfResponse : List EdgeAction :=
  [.passLimit, .insert "tun".toList ⟨"GET".toList, "/".toList, "a.tunnel.com".toList, [],
      "HTTP/1.1".toList, []⟩ "198.51.100.7:40000".toList,
    .queueOpen 1, .recv (.responseHead ⟨1, 200, []⟩), .takeHead 1,
    .recv (.streamData 1 [104, 105]), .deliver, .reply, .takeItem 1]

/-- After an `End` from the agent the body ends, complete. -/
theorem noSilentTruncation_of_end :
    ∃ s, Run Edge.step ClosesTold (Edge.init 512 262144) s ∧ (s.request 1).ended = true ∧
      ¬ s.Errored 1 ∧ s.EndHeard 1 := by
  obtain ⟨s, hs, hended, hitems⟩ : ∃ s, exec Edge.step (Edge.init 512 262144)
      (halfResponse ++ [.recv (.streamEnd 1 []), .deliver, .takeItem 1, .takeEnd 1]) = some s ∧
      (s.request 1).ended = true ∧ (s.request 1).items = [.data [104, 105], .trailers []] :=
    ⟨_, rfl, rfl, rfl⟩
  have hquiet : Run Edge.step (fun s a => (s.closesSilently a).isNone) (Edge.init 512 262144) s :=
    Run.of_exec .nil hs (by decide)
  have hrun : Run Edge.step ClosesTold (Edge.init 512 262144) s :=
    hquiet.mono fun s a hn i hc => by simp [hc] at hn
  have herr : ¬ s.Errored 1 := by
    rintro ⟨code, message, hm⟩
    simp [hitems] at hm
  exact ⟨s, hrun, hended, herr, noSilentTruncation_of_run hrun 1 hended herr⟩

/-- The agent disconnects in the middle of a response: the teardown closes the stream, and the body
ends after half of the response as if it were complete. -/
theorem truncated_by_teardown :
    ¬ ∀ limit window s, Reachable Edge.step (Edge.init limit window) s →
      s.NoSilentTruncation := by
  intro h
  obtain ⟨s, hs, hended, hitems, hheard⟩ : ∃ s, exec Edge.step (Edge.init 512 262144)
      (halfResponse ++ [.disconnect, .snapshot [1], .closeNext, .takeEnd 1]) = some s ∧
      (s.request 1).ended = true ∧ (s.request 1).items = [.data [104, 105]] ∧
      s.heard 1 = [.responseHead ⟨1, 200, []⟩, .streamData 1 [104, 105]] :=
    ⟨_, rfl, rfl, rfl, rfl⟩
  have herr : ¬ s.Errored 1 := by
    rintro ⟨code, message, hm⟩
    simp [hitems] at hm
  obtain ⟨trailers, hm⟩ := h 512 262144 s (Reachable.of_exec .nil hs) 1 hended herr
  simp [hheard] at hm

end Edge

end Norupo
