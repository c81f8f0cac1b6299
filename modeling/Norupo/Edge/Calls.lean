import Norupo.Edge.Session
import Norupo.Foundation.Transition
import Mathlib.Tactic.SplitIfs

/-!
# The methods of a session, called in any order

The public methods of `Session` in `norupo-server/src/session.rs` as a labelled system of their own.
Any number of calls are under way at a time, with any stream ids: which task makes a call, and
whether the id it names was ever issued to it, is left open. A label performs the code of a call
between two of its waits; `open_http_stream` is also cut between its limit check and the insertion
of its stream, which other threads can get in between. The state records the ids that were issued
and the response heads that were passed on.
-/

namespace Norupo

open Async Transition

/-- Progress of one call. -/
inductive Call
  | idle
  /-- `open_http_stream` has passed the limit check. -/
  | admitted (tunnelId : Text) (head : HttpRequestHead) (remoteAddr : Text)
  /-- `open_http_stream` has inserted its stream and waits to queue the `Open` frame. -/
  | opening (request : StreamOpen)
  /-- `open_http_stream` has returned the stream. -/
  | opened (streamId : Nat)
  /-- `open_http_stream` has returned `TooManyStreams`. -/
  | refused (limit : Nat)
  /-- `open_http_stream` has returned `SessionGone`, after it had inserted this stream. -/
  | gone (streamId : Nat)
  /-- Holding a body sender, waiting for a slot in the stream's queue. -/
  | delivering (streamId : Nat) (chunk : Chunk)
  /-- `reset_stream` waits to queue the `Reset` frame. -/
  | resetting (streamId : Nat) (code : ResetCode) (message : Text)
  /-- `close_all_streams` with the rest of its snapshot. -/
  | closingAll (ids : List Nat)
  | done
  deriving DecidableEq, Repr

/-- A session and the calls on it. -/
structure Calls where
  session : Session
  call : Nat → Call
  /-- The ids that were issued, oldest first. -/
  issued : List Nat
  /-- The response heads that were sent to the request that waits for a stream. -/
  heads : Nat → List HttpResponseHead

/-- The moves of the calls and of their environment. The first argument numbers the call. -/
inductive CallAction
  /-- The limit check of `open_http_stream`. -/
  | openHttpStream (call : Nat) (tunnelId : Text) (head : HttpRequestHead) (remoteAddr : Text)
  | insertStream (call : Nat)
  | queueOpen (call : Nat)
  | closeStream (streamId : Nat)
  | resetStream (call streamId : Nat) (code : ResetCode) (message : Text)
  | queueReset (call : Nat)
  | onResponseHead (head : HttpResponseHead)
  | onStreamData (call streamId : Nat) (payload : Bytes)
  | onStreamEnd (call streamId : Nat) (trailers : List Header)
  | onStreamReset (call streamId : Nat) (code : ResetCode) (message : Text)
  /-- The wait for a slot in a stream's queue is over. -/
  | delivered (call : Nat)
  | onWindowUpdate (streamId increment : Nat)
  | closeAllStreams (call : Nat) (ids : List Nat)
  | closeNext (call : Nat)
  /-- The `Drop` of `StreamGuard`. -/
  | dropGuard (streamId : Nat)
  /-- Another task queues a frame. -/
  | send (frame : ServerFrame)
  /-- The receiver of a stream's queue takes a chunk. -/
  | takeChunk (streamId : Nat)
  | dropBody (streamId : Nat)
  | transmit
  | dropOutbound
  deriving DecidableEq, Repr

/-- The stream that a frame of the agent is about. -/
def CallAction.frameFor : CallAction → Option Nat
  | .onResponseHead head => some head.streamId
  | .onStreamData _ i _ | .onStreamEnd _ i _ | .onStreamReset _ i _ _ | .onWindowUpdate i _ =>
    some i
  | _ => none

/-- The call is neither about to queue an `Open` frame nor has it failed to. -/
def Call.isPlain : Call → Bool
  | .opening _ | .gone _ => false
  | _ => true

namespace Calls

/-- A new session without calls. -/
def init (maxConcurrentStreams initialWindow : Nat) : Calls where
  session := Session.new maxConcurrentStreams initialWindow
  call := fun _ => .idle
  issued := []
  heads := fun _ => []

/-- Move a call. -/
@[simp] def setCall (s : Calls) (c : Nat) (call : Call) : Calls :=
  { s with call := Function.update s.call c call }

/-- What follows a chunk that was or could not be delivered: only data leaves the stream open. -/
def finish (session : Session) (i : Nat) : Chunk → Session
  | .data _ => session
  | _ => session.closeStream i

/-- `on_stream_data`, `on_stream_end` and `on_stream_reset` up to their first wait. -/
def offer (s : Calls) (c i : Nat) (chunk : Chunk) : Option Calls :=
  if s.call c = .idle then
    if s.session.streamBodySender i then some (s.setCall c (.delivering i chunk))
    else some { s.setCall c .done with session := finish s.session i chunk }
  else none

/-- One move; `none` when it is not enabled. -/
def step (s : Calls) : CallAction → Option Calls
  | .openHttpStream c tunnelId head remoteAddr =>
    if s.call c = .idle then
      some (s.setCall c (if s.session.atLimit then .refused s.session.maxConcurrentStreams
        else .admitted tunnelId head remoteAddr))
    else none
  | .insertStream c =>
    match s.call c with
    | .admitted tunnelId head remoteAddr =>
      some { s.setCall c (.opening ⟨s.session.nextStreamId, tunnelId, .http, some head, remoteAddr,
          s.session.initialWindow⟩) with
        session := s.session.insertStream
        issued := s.issued ++ [s.session.nextStreamId] }
    | _ => none
  | .queueOpen c =>
    match s.call c, s.session.outbound.poll with
    | .opening request, .ready =>
      some { s.setCall c (.opened request.streamId) with
        session := s.session.push (.streamOpen request) }
    | .opening request, .closed =>
      some { s.setCall c (.gone request.streamId) with
        session := s.session.closeStream request.streamId }
    | _, _ => none
  | .closeStream i => some { s with session := s.session.closeStream i }
  | .resetStream c i code message =>
    if s.call c = .idle then
      some { s.setCall c (.resetting i code message) with session := s.session.closeStream i }
    else none
  | .queueReset c =>
    match s.call c, s.session.outbound.poll with
    | .resetting i code message, .ready =>
      some { s.setCall c .done with session := s.session.push (.streamReset i code message) }
    | .resetting _ _ _, .closed => some (s.setCall c .done)
    | _, _ => none
  | .onResponseHead head =>
    let (session, sent) := s.session.onResponseHead head
    some { s with
      session := session
      heads := if sent then
          Function.update s.heads head.streamId (s.heads head.streamId ++ [head])
        else s.heads }
  | .onStreamData c i payload => s.offer c i (.data payload)
  | .onStreamEnd c i trailers => s.offer c i (.finish trailers)
  | .onStreamReset c i code message => s.offer c i (.reset code message)
  | .delivered c =>
    match s.call c with
    | .delivering i chunk =>
      match (s.session.stream i).body.poll with
      | .ready =>
        some { s.setCall c .done with
          session := finish (s.session.setBody i ((s.session.stream i).body.push chunk)) i chunk }
      | .closed => some { s.setCall c .done with session := s.session.closeStream i }
      | .pending => none
    | _ => none
  | .onWindowUpdate i increment =>
    -- A panic of `add_permits` ends the caller and leaves the session alone.
    some { s with session := (s.session.onWindowUpdate i increment).getD s.session }
  | .closeAllStreams c ids =>
    if s.call c = .idle && s.session.isSnapshot ids then some (s.setCall c (.closingAll ids))
    else none
  | .closeNext c =>
    match s.call c with
    | .closingAll (i :: ids) =>
      some { s.setCall c (.closingAll ids) with session := s.session.closeStream i }
    | .closingAll [] => some (s.setCall c .done)
    | _ => none
  | .dropGuard i =>
    some { s with
      session := match s.session.outbound.poll with
        | .ready => (s.session.closeStream i).push
            (.streamReset i .peerClosed "public client finished".toList)
        | _ => s.session.closeStream i }
  | .send frame =>
    if s.session.outbound.poll = .ready then some { s with session := s.session.push frame }
    else none
  | .takeChunk i => some { s with session := s.session.setBody i (s.session.stream i).body.pop }
  | .dropBody i => some { s with session := s.session.setBody i (s.session.stream i).body.dropRx }
  | .transmit =>
    some { s with session := { s.session with outbound := s.session.outbound.pop } }
  | .dropOutbound =>
    some { s with session := { s.session with outbound := s.session.outbound.dropRx } }

/-- Two sessions with the same stream table; response-head senders may have been taken. -/
structure SameTable (s t : Session) : Prop where
  streams : t.streams = s.streams
  openStreams : t.openStreams = s.openStreams
  nextStreamId : t.nextStreamId = s.nextStreamId
  maxConcurrentStreams : t.maxConcurrentStreams = s.maxConcurrentStreams
  headTx : ∀ i, (t.stream i).headTx = true → (s.stream i).headTx = true

theorem SameTable.refl (s : Session) : SameTable s s := ⟨rfl, rfl, rfl, rfl, fun _ h => h⟩

/-- Changing one stream object, without giving its head sender back, keeps the table. -/
theorem SameTable.update {s : Session} {i : Nat} {stream : Stream}
    (h : stream.headTx = true → (s.stream i).headTx = true) :
    SameTable s { s with stream := Function.update s.stream i stream } := by
  refine ⟨rfl, rfl, rfl, rfl, fun j hj => ?_⟩
  by_cases hji : j = i
  · subst hji
    exact h (by simpa using hj)
  · simpa [hji] using hj

/-- A changed queue does not change what closing a stream does to the table. -/
theorem SameTable.closeStream_setBody (s : Session) (i : Nat) (body : Channel Chunk) :
    SameTable (s.closeStream i) ((s.setBody i body).closeStream i) := by
  refine ⟨by simp, ?_, by simp, by simp, fun j hj => ?_⟩
  · by_cases hi : i ∈ s.streams
    · simp [Session.closeStream, hi]
    · simp [Session.closeStream, hi]
  · rw [Session.headTx_closeStream] at hj ⊢
    by_cases hji : j = i
    · subst hji
      simpa using hj
    · simpa [hji] using hj

/-- Calls change only into plain ones. -/
def CallsKept (s s' : Calls) : Prop :=
  s'.issued = s.issued ∧ s'.heads = s.heads ∧
    ∀ c, s'.call c = s.call c ∨ (s'.call c).isPlain = true

/-- The moves by what they do to the stream table. -/
inductive Step (s : Calls) : CallAction → Calls → Prop
  | insert {c tunnelId head remoteAddr} : s.call c = .admitted tunnelId head remoteAddr →
      Step s (.insertStream c) { s.setCall c (.opening ⟨s.session.nextStreamId, tunnelId, .http,
          some head, remoteAddr, s.session.initialWindow⟩) with
        session := s.session.insertStream
        issued := s.issued ++ [s.session.nextStreamId] }
  | gone {c request} : s.call c = .opening request →
      Step s (.queueOpen c) { s.setCall c (.gone request.streamId) with
        session := s.session.closeStream request.streamId }
  | head {head} : head.streamId ∈ s.session.streams →
      (s.session.stream head.streamId).headTx = true →
      Step s (.onResponseHead head) { s with
        session := s.session.takeHeadTx head.streamId
        heads := Function.update s.heads head.streamId (s.heads head.streamId ++ [head]) }
  | quiet {a s'} : SameTable s.session s'.session → CallsKept s s' → Step s a s'
  | close {a s'} (i : Nat) : SameTable (s.session.closeStream i) s'.session → CallsKept s s' →
      Step s a s'

section Cases

variable {s s' : Calls} {a : CallAction}

theorem CallsKept.refl (session : Session) : CallsKept s { s with session := session } :=
  ⟨rfl, rfl, fun _ => .inl rfl⟩

/-- A call that becomes plain. -/
theorem CallsKept.setCall {session : Session} {c : Nat} {call : Call} (h : call.isPlain = true) :
    CallsKept s { s.setCall c call with session := session } := by
  refine ⟨rfl, rfl, fun d => ?_⟩
  by_cases hd : d = c
  · subst hd
    exact .inr (by simpa using h)
  · exact .inl (by simp [hd])

/-- A call that has changed is plain. -/
theorem CallsKept.isPlain_of_ne (hk : CallsKept s s') {c : Nat} {call : Call}
    (hc : s.call c ≠ call) (hc' : s'.call c = call) : call.isPlain = true := by
  rcases hk.2.2 c with he | he
  · exact absurd (he ▸ hc') hc
  · exact hc' ▸ he

/-- The cases of a chunk that is offered to a stream. -/
theorem offer_cases {c i : Nat} {chunk : Chunk} (h : s.offer c i chunk = some s') :
    Step s a s' := by
  unfold offer at h
  split at h
  · split at h
    · obtain rfl := Option.some.inj h
      exact .quiet (.refl _) (.setCall rfl)
    · obtain rfl := Option.some.inj h
      cases chunk with
      | data payload => exact .quiet (.refl _) (.setCall rfl)
      | finish trailers => exact .close i (.refl _) (.setCall rfl)
      | reset code message => exact .close i (.refl _) (.setCall rfl)
  · cases h

/-- The cases of a chunk that was or could not be delivered. -/
theorem delivered_cases {c : Nat} (h : s.step (.delivered c) = some s') :
    Step s (.delivered c) s' := by
  simp only [step] at h
  split at h
  · rename_i i chunk hc
    split at h
    · obtain rfl := Option.some.inj h
      cases chunk with
      | data payload => exact .quiet (.update id) (.setCall rfl)
      | finish trailers => exact .close i (.closeStream_setBody _ _ _) (.setCall rfl)
      | reset code message => exact .close i (.closeStream_setBody _ _ _) (.setCall rfl)
    · obtain rfl := Option.some.inj h
      exact .close i (.refl _) (.setCall rfl)
    · cases h
  · cases h

/-- The cases of a response head. -/
theorem head_cases {head : HttpResponseHead} (h : s.step (.onResponseHead head) = some s') :
    Step s (.onResponseHead head) s' := by
  simp only [step, Session.onResponseHead] at h
  split at h
  · rename_i hi
    cases ht : (s.session.stream head.streamId).headTx with
    | true =>
      obtain rfl := Option.some.inj h
      simpa [ht] using Step.head hi ht
    | false =>
      obtain rfl := Option.some.inj h
      simp only [ht, Bool.false_eq_true, if_false]
      exact .quiet (.update (by simp)) (.refl _)
  · obtain rfl := Option.some.inj h
    exact .quiet (.refl _) (.refl _)

/-- An enabled move is one of the cases of `Step`. -/
theorem step_cases (h : s.step a = some s') : Step s a s' := by
  cases a with
  | openHttpStream c tunnelId head remoteAddr =>
    simp only [step] at h
    split at h
    · obtain rfl := Option.some.inj h
      refine .quiet (.refl _) (.setCall ?_)
      split <;> rfl
    · cases h
  | insertStream c =>
    simp only [step] at h
    split at h
    · obtain rfl := Option.some.inj h
      exact .insert ‹_›
    · cases h
  | queueOpen c =>
    simp only [step] at h
    split at h
    · obtain rfl := Option.some.inj h
      exact .quiet ⟨rfl, rfl, rfl, rfl, fun _ hi => hi⟩ (.setCall rfl)
    · obtain rfl := Option.some.inj h
      exact .gone ‹_›
    · cases h
  | closeStream i =>
    obtain rfl := Option.some.inj h
    exact .close i (.refl _) (.refl _)
  | resetStream c i code message =>
    simp only [step] at h
    split at h
    · obtain rfl := Option.some.inj h
      exact .close i (.refl _) (.setCall rfl)
    · cases h
  | queueReset c =>
    simp only [step] at h
    split at h
    · obtain rfl := Option.some.inj h
      exact .quiet ⟨rfl, rfl, rfl, rfl, fun _ hi => hi⟩ (.setCall rfl)
    · obtain rfl := Option.some.inj h
      exact .quiet (.refl _) (.setCall rfl)
    · cases h
  | onResponseHead head => exact head_cases h
  | onStreamData c i payload => exact offer_cases h
  | onStreamEnd c i trailers => exact offer_cases h
  | onStreamReset c i code message => exact offer_cases h
  | delivered c => exact delivered_cases h
  | onWindowUpdate i increment =>
    obtain rfl := Option.some.inj h
    refine .quiet ?_ (.refl _)
    unfold Session.onWindowUpdate
    split
    · split
      · exact .update id
      · exact .refl _
    · exact .refl _
  | closeAllStreams c ids =>
    simp only [step] at h
    split at h
    · obtain rfl := Option.some.inj h
      exact .quiet (.refl _) (.setCall rfl)
    · cases h
  | closeNext c =>
    simp only [step] at h
    split at h
    · obtain rfl := Option.some.inj h
      exact .close _ (.refl _) (.setCall rfl)
    · obtain rfl := Option.some.inj h
      exact .quiet (.refl _) (.setCall rfl)
    · cases h
  | dropGuard i =>
    obtain rfl := Option.some.inj h
    refine .close i ?_ (.refl _)
    split
    · exact ⟨rfl, rfl, rfl, rfl, fun _ hi => hi⟩
    · exact .refl _
  | send frame =>
    simp only [step] at h
    split at h
    · obtain rfl := Option.some.inj h
      exact .quiet ⟨rfl, rfl, rfl, rfl, fun _ hi => hi⟩ (.refl _)
    · cases h
  | takeChunk i =>
    obtain rfl := Option.some.inj h
    exact .quiet (.update id) (.refl _)
  | dropBody i =>
    obtain rfl := Option.some.inj h
    exact .quiet (.update id) (.refl _)
  | transmit =>
    obtain rfl := Option.some.inj h
    exact .quiet ⟨rfl, rfl, rfl, rfl, fun _ hi => hi⟩ (.refl _)
  | dropOutbound =>
    obtain rfl := Option.some.inj h
    exact .quiet ⟨rfl, rfl, rfl, rfl, fun _ hi => hi⟩ (.refl _)

end Cases

end Calls

end Norupo
