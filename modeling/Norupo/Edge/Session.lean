import Norupo.Foundation.Channel
import Norupo.Proto.Frame
import Mathlib.Data.Finset.Card
import Mathlib.Data.Finset.Dedup
import Mathlib.Logic.Function.Basic

/-!
# One agent session on the edge

`Session` and `Stream` of `norupo-server/src/session.rs`. The stream objects are kept apart from the
table of live ids, because a handle to an object (a body sender, a semaphore) can outlive its table
entry. Each function is the synchronous part of the source function of its name; the waits between
them belong to the tasks that call them.
-/

namespace Norupo

open Async

/-- Slots of a stream's response-body queue. -/
def streamBufferFrames : Nat := 16

/-- A request for the root of `a.tunnel.com`. -/
def testHead : HttpRequestHead :=
  ⟨"GET".toList, "/".toList, "a.tunnel.com".toList, [], "HTTP/1.1".toList, []⟩

/-- A chunk travelling from the agent back towards the public client. -/
inductive Chunk
  | data (payload : Bytes)
  | finish (trailers : List Header)
  | reset (code : ResetCode) (message : Text)
  deriving DecidableEq, Repr

/-- `Stream`: server-side state of one multiplexed stream. -/
structure Stream where
  /-- The response-head sender has not been taken yet. -/
  headTx : Bool
  /-- Body chunks flowing agent to public client, both ends of the channel. -/
  body : Channel Chunk
  /-- Credit for bytes flowing edge to agent. -/
  sendCredit : Semaphore
  /-- The stream has been torn down. -/
  closed : Bool

/-- `Session`: the streams of one connected agent and its outbound queue. -/
structure Session where
  /-- `principal.limits.max_concurrent_streams`; zero means unlimited. -/
  maxConcurrentStreams : Nat
  /-- Send window of every new stream. -/
  initialWindow : Nat
  /-- Frames queued for the agent. -/
  outbound : Channel ServerFrame
  /-- Keys of the stream table. -/
  streams : Finset Nat
  /-- The stream object created under each id. -/
  stream : Nat → Stream
  /-- Allocated by an atomic counter. That a `u64` wraps around after `2 ^ 64` streams is left out,
  so an id is never allocated twice. -/
  nextStreamId : Nat
  /-- The `open_streams` counter. -/
  openStreams : Nat

/-- A stream object as `open_http_stream` creates it. -/
def Stream.new (initialWindow : Nat) : Stream where
  headTx := true
  body := Channel.new streamBufferFrames
  sendCredit := Semaphore.new initialWindow
  closed := false

namespace Session

/-- `Session::new`. Ids that have not been allocated name no live object. -/
def new (maxConcurrentStreams initialWindow : Nat) : Session where
  maxConcurrentStreams := maxConcurrentStreams
  initialWindow := initialWindow
  outbound := Channel.new outboundQueue
  streams := ∅
  stream := fun _ => Stream.new initialWindow
  nextStreamId := 1
  openStreams := 0

/-- The limit check of `open_http_stream`. -/
def atLimit (s : Session) : Bool :=
  0 < s.maxConcurrentStreams && s.maxConcurrentStreams ≤ s.openStreams

/-- `open_http_stream` after the limit check and before the `Open` frame is queued. -/
def insertStream (s : Session) : Session :=
  { s with
    nextStreamId := s.nextStreamId + 1
    streams := insert s.nextStreamId s.streams
    stream := Function.update s.stream s.nextStreamId (Stream.new s.initialWindow)
    openStreams := s.openStreams + 1 }

/-- `fetch_sub(1)` on the wrapping stream counter. -/
def wrappingPred (n : Nat) : Nat := if n = 0 then 2 ^ 64 - 1 else n - 1

/-- `close_stream`: removes a stream and fails every wait on its send window. -/
def closeStream (s : Session) (i : Nat) : Session :=
  if i ∈ s.streams then
    { s with
      streams := s.streams.erase i
      stream := Function.update s.stream i
        { s.stream i with closed := true, sendCredit := (s.stream i).sendCredit.close }
      openStreams := wrappingPred s.openStreams }
  else s

/-- The snapshot `close_all_streams` works from: the ids of the table, in any order. -/
def isSnapshot (s : Session) (ids : List Nat) : Bool := ids.Nodup && ids.toFinset = s.streams

/-- `stream_body_sender`: whether a handle to the stream's body queue can be had. -/
def streamBodySender (s : Session) (i : Nat) : Bool := i ∈ s.streams && !(s.stream i).closed

/-- Take the response-head sender out of a stream. -/
@[simp] def takeHeadTx (s : Session) (i : Nat) : Session :=
  { s with stream := Function.update s.stream i { s.stream i with headTx := false } }

/-- `on_response_head`: takes the head sender, and says whether there was one. -/
def onResponseHead (s : Session) (head : HttpResponseHead) : Session × Bool :=
  if head.streamId ∈ s.streams then
    (s.takeHeadTx head.streamId, (s.stream head.streamId).headTx)
  else (s, false)

/-- Add credit to a stream's send window. -/
@[simp] def addCredit (s : Session) (i n : Nat) : Session :=
  { s with
    stream := Function.update s.stream i
      { s.stream i with sendCredit := (s.stream i).sendCredit.add n } }

/-- `on_window_update`: adds credit; `none` is the panic of `add_permits`. -/
def onWindowUpdate (s : Session) (i increment : Nat) : Option Session :=
  if i ∈ s.streams then
    if (s.stream i).sendCredit.permits + increment ≤ maxPermits then
      some (s.addCredit i increment)
    else none
  else some s

/-- Append a frame to the outbound queue. -/
@[simp] def push (s : Session) (f : ServerFrame) : Session :=
  { s with outbound := s.outbound.push f }

/-- Change the body channel of one stream. -/
@[simp] def setBody (s : Session) (i : Nat) (body : Channel Chunk) : Session :=
  { s with stream := Function.update s.stream i { s.stream i with body := body } }

/-- Take credit for one chunk of a stream. -/
@[simp] def takeCredit (s : Session) (i n : Nat) : Session :=
  { s with
    stream := Function.update s.stream i
      { s.stream i with sendCredit := (s.stream i).sendCredit.take n } }

section CloseStream

variable (s : Session) (i j : Nat)

@[simp] theorem streams_closeStream : (s.closeStream i).streams = s.streams.erase i := by
  unfold closeStream
  split <;> rename_i h
  · rfl
  · exact (Finset.erase_eq_of_notMem h).symm

@[simp] theorem body_closeStream : ((s.closeStream i).stream j).body = (s.stream j).body := by
  unfold closeStream
  split
  · by_cases hj : j = i <;> simp [hj]
  · rfl

@[simp] theorem headTx_closeStream :
    ((s.closeStream i).stream j).headTx = (s.stream j).headTx := by
  unfold closeStream
  split
  · by_cases hj : j = i <;> simp [hj]
  · rfl

@[simp] theorem permits_closeStream :
    ((s.closeStream i).stream j).sendCredit.permits = (s.stream j).sendCredit.permits := by
  unfold closeStream
  split
  · by_cases hj : j = i <;> simp [Function.update_apply, hj, Semaphore.close]
  · rfl

@[simp] theorem outbound_closeStream : (s.closeStream i).outbound = s.outbound := by
  unfold closeStream
  split <;> rfl

@[simp] theorem nextStreamId_closeStream :
    (s.closeStream i).nextStreamId = s.nextStreamId := by
  unfold closeStream
  split <;> rfl

@[simp] theorem initialWindow_closeStream :
    (s.closeStream i).initialWindow = s.initialWindow := by
  unfold closeStream
  split <;> rfl

@[simp] theorem maxConcurrentStreams_closeStream :
    (s.closeStream i).maxConcurrentStreams = s.maxConcurrentStreams := by
  unfold closeStream
  split <;> rfl

/-- Closing one stream leaves the mark of every other alone. -/
theorem closed_closeStream {i j : Nat} (h : j ≠ i) :
    ((s.closeStream i).stream j).closed = (s.stream j).closed := by
  unfold closeStream
  split
  · simp [h]
  · rfl

end CloseStream

end Session

/-- The loop of `split_chunks`: full frames while more than one frame's worth is left. -/
def splitLoop (payload : Bytes) : List Bytes :=
  if maxChunk < payload.length then
    payload.take maxChunk :: splitLoop (payload.drop maxChunk)
  else [payload]
termination_by payload.length
decreasing_by
  simp only [maxChunk, List.length_drop] at *
  omega

/-- `split_chunks`: splits a payload into frame-sized chunks. -/
def splitChunks (payload : Bytes) : List Bytes :=
  if payload.length ≤ maxChunk then [payload] else splitLoop payload

end Norupo
