import Norupo.Edge.Session
import Norupo.Foundation.Transition
import Mathlib.Tactic.SplitIfs

/-!
# The tasks around a session

The edge side of one session as a labelled system. Its tasks are the request futures of
`ingress::handle` with the request pumps they spawn (`norupo-server/src/ingress.rs`), the read loop
with its teardown and the heartbeat (`control.rs`), and the response bodies in the hands of the HTTP
server. A label performs the code between two consecutive waits of one task; a wait that cannot
complete makes its label not enabled. The environment is free: any agent frame may arrive, the
public client may stop, fail or disconnect at any wait, and the transport may take queued frames or
disappear.

The state also records what has crossed the boundary: the frames received and transmitted, the bytes
a public client supplied, and the items its response body yielded.
-/

namespace Norupo

open Async

/-- Progress of `forward_local` for one stream. -/
inductive Ingress
  | unopened
  /-- Waiting to queue the `Open` frame inside `open_http_stream`. -/
  | opening (request : StreamOpen)
  /-- Waiting for the response head, under the response timeout. -/
  | awaitingHead
  /-- Waiting to queue the `Reset` that follows a response timeout. -/
  | resetting
  /-- Returned the response built by `build_response`. -/
  | responded
  /-- Returned an error page with this status. -/
  | failed (status : Nat)
  /-- Dropped at a wait. -/
  | dropped
  deriving DecidableEq, Repr

/-- The future still exists. -/
def Ingress.live : Ingress → Bool
  | .opening _ | .awaitingHead | .resetting => true
  | _ => false

/-- The receiver of the response head still exists. -/
def Ingress.listening : Ingress → Bool
  | .opening _ | .awaitingHead => true
  | _ => false

/-- Progress of the request pump for one stream. -/
inductive Pump
  | absent
  /-- Waiting for the next frame of the public body. -/
  | reading
  /-- In `send_stream_data`, waiting for credit for the first of these chunks. -/
  | sending (chunks : List Bytes)
  /-- Credit taken, waiting to queue the chunk. -/
  | acquired (chunk : Bytes) (rest : List Bytes)
  /-- Waiting to queue the `End` frame. -/
  | ending
  /-- Waiting to queue the `Reset` frame after a body error. -/
  | resetting
  | done
  deriving DecidableEq, Repr

/-- After a chunk has been queued the pump goes on with the rest of the frame. -/
def Pump.next : List Bytes → Pump
  | [] => .reading
  | chunks => .sending chunks

/-- An item that the body stream of `build_response` yields. -/
inductive ResponseItem
  | data (payload : Bytes)
  | trailers (headers : List Header)
  | error (code : ResetCode) (message : Text)
  deriving DecidableEq, Repr

/-- The `map` closure of `build_response`. -/
def Chunk.toItem : Chunk → ResponseItem
  | .data payload => .data payload
  | .finish trailers => .trailers trailers
  | .reset code message => .error code message

/-- The stream and the body chunk that a frame carries, if it carries one. -/
def ClientFrame.chunk : ClientFrame → Option (Nat × Chunk)
  | .streamData i payload => some (i, .data payload)
  | .streamEnd i trailers => some (i, .finish trailers)
  | .streamReset i code message => some (i, .reset code message)
  | _ => none

/-- Frames the read loop drops: a missing payload, a second `Hello`, a `Pong`. -/
def ClientFrame.isIdle : ClientFrame → Bool
  | .unset | .hello | .pong _ => true
  | _ => false

/-- Frames that make the read loop ask the routing table. -/
def ClientFrame.isTunnel : ClientFrame → Bool
  | .openTunnel _ | .closeTunnel _ => true
  | _ => false

/-- Everything that belongs to the public request of one stream. -/
structure Request where
  ingress : Ingress
  pump : Pump
  /-- The response head, sent and not yet taken by the future. -/
  head : Option HttpResponseHead
  /-- Bytes the public client has supplied as request body. -/
  supplied : Bytes
  /-- Chunks the response body has yielded. -/
  taken : List Chunk
  /-- The response body has signalled its end. -/
  ended : Bool
  /-- Chunks the read loop has taken for this stream. -/
  offered : Nat
  /-- Number of frames received before the stream was opened. -/
  openedAt : Nat

/-- What the public client has been given: the chunks after the `map` closure. -/
def Request.items (request : Request) : List ResponseItem := request.taken.map Chunk.toItem

/-- A request that has not been opened. -/
def Request.new : Request where
  ingress := .unopened
  pump := .absent
  head := none
  supplied := []
  taken := []
  ended := false
  offered := 0
  openedAt := 0

/-- Progress of the read loop of `run_session`. -/
inductive ReadLoop
  | idle
  /-- Holding a body sender, waiting for a slot in the stream's queue. -/
  | delivering (streamId : Nat) (chunk : Chunk)
  /-- Waiting to queue a frame: a `WindowUpdate` or a `TunnelStatus`. -/
  | replying (frame : ServerFrame)
  /-- Waiting for the routing table. -/
  | awaitingRegistry
  /-- Disconnected, releasing routing claims. -/
  | tearingDown
  /-- In `close_all_streams`, with the rest of its snapshot. -/
  | closing (ids : List Nat)
  | stopped
  /-- The task panicked. -/
  | crashed
  deriving DecidableEq, Repr

/-- The session is over for the read loop. -/
def ReadLoop.isOver : ReadLoop → Bool
  | .tearingDown | .closing _ | .stopped => true
  | _ => false

/-- The edge side of one session. -/
structure Edge where
  session : Session
  request : Nat → Request
  /-- Openers that passed the limit check and have not inserted their stream yet. -/
  admitted : Nat
  readLoop : ReadLoop
  /-- Frames the read loop has taken, oldest first. -/
  received : List ClientFrame
  /-- Frames the transport has taken, oldest first. -/
  transmitted : List ServerFrame

/-- The moves of the tasks and of their environment. -/
inductive EdgeAction
  /-- An opener passes the limit check of `open_http_stream`. -/
  | passLimit
  /-- An admitted opener inserts its stream. -/
  | insert (tunnelId : Text) (head : HttpRequestHead) (remoteAddr : Text)
  | queueOpen (streamId : Nat)
  | takeHead (streamId : Nat)
  | headLost (streamId : Nat)
  | headTimeout (streamId : Nat)
  | queueTimeoutReset (streamId : Nat)
  /-- The future is dropped at its current wait. -/
  | dropFuture (streamId : Nat)
  /-- The public body yields a data frame. -/
  | pumpData (streamId : Nat) (payload : Bytes)
  | pumpAcquire (streamId : Nat)
  | pumpQueue (streamId : Nat)
  /-- The public body ends. -/
  | pumpEof (streamId : Nat)
  | pumpQueueEnd (streamId : Nat)
  /-- The public body fails. -/
  | pumpFail (streamId : Nat)
  | pumpQueueReset (streamId : Nat)
  /-- The HTTP server polls an item off the response body. -/
  | takeItem (streamId : Nat)
  /-- The HTTP server polls the end of the response body. -/
  | takeEnd (streamId : Nat)
  /-- The HTTP server drops the response body. -/
  | dropBody (streamId : Nat)
  /-- The read loop takes the next agent frame. -/
  | recv (frame : ClientFrame)
  | deliver
  | reply
  | registryDone (status : Option TunnelStatus)
  /-- The agent's stream ends or fails. -/
  | disconnect
  | snapshot (ids : List Nat)
  | closeNext
  /-- The handshake or the heartbeat queues a control frame. -/
  | control (frame : ServerFrame)
  /-- The transport takes the oldest queued frame. -/
  | transmit
  /-- The RPC ends: nothing takes queued frames any more. -/
  | dropOutbound
  deriving DecidableEq, Repr

/-- Frames queued outside the streams: by the handshake and the heartbeat. -/
def ServerFrame.isControl : ServerFrame → Bool
  | .welcome _ _ | .tunnelStatus _ | .ping _ | .shutdown _ => true
  | _ => false

/-- Frames the read loop queues. -/
def ServerFrame.isReply : ServerFrame → Bool
  | .windowUpdate _ _ | .tunnelStatus _ => true
  | _ => false

namespace Edge

/-- A fresh session after the handshake. -/
def init (maxConcurrentStreams initialWindow : Nat) : Edge where
  session := Session.new maxConcurrentStreams initialWindow
  request := fun _ => Request.new
  admitted := 0
  readLoop := .idle
  received := []
  transmitted := []

/-- `Session::close_stream`. -/
@[simp] def closeStream (s : Edge) (i : Nat) : Edge := { s with session := s.session.closeStream i }

/-- Complete a send on the outbound queue. -/
@[simp] def push (s : Edge) (f : ServerFrame) : Edge := { s with session := s.session.push f }

/-- Change what belongs to one request. -/
@[simp] def setRequest (s : Edge) (i : Nat) (r : Request) : Edge :=
  { s with request := Function.update s.request i r }

/-- Move the future of a request. -/
@[simp] def setIngress (s : Edge) (i : Nat) (ingress : Ingress) : Edge :=
  s.setRequest i { s.request i with ingress := ingress }

/-- Move the pump of a request. -/
@[simp] def setPump (s : Edge) (i : Nat) (pump : Pump) : Edge :=
  s.setRequest i { s.request i with pump := pump }

/-- Drop the receiver of a stream's body queue. -/
@[simp] def dropRx (s : Edge) (i : Nat) : Edge :=
  { s with session := s.session.setBody i (s.session.stream i).body.dropRx }

/-- The future is over without a response body: its receivers go with it. -/
@[simp] def settle (s : Edge) (i : Nat) (ingress : Ingress) : Edge :=
  (s.setIngress i ingress).dropRx i

/-- The `Drop` of `StreamGuard`: release the stream, tell the agent if the queue has room. -/
def dropGuard (s : Edge) (i : Nat) : Edge :=
  let s := s.closeStream i
  match s.session.outbound.poll with
  | .ready => s.push (.streamReset i .peerClosed "public client finished".toList)
  | _ => s

/-- No sender of the stream's body queue is left: neither the table's nor the read loop's. -/
def sendersGone (s : Edge) (i : Nat) : Bool :=
  !(i ∈ s.session.streams) && match s.readLoop with
    | .delivering j _ => j ≠ i
    | _ => true

/-- Hold a sender of the body queue and wait for a slot, if the stream is there. -/
def offer (s : Edge) (i : Nat) (chunk : Chunk) : Edge :=
  if s.session.streamBodySender i then
    { s.setRequest i { s.request i with offered := (s.request i).offered + 1 } with
      readLoop := .delivering i chunk }
  else match chunk with
    | .data _ => s
    | _ => s.closeStream i

/-- `handle_client_frame` up to its first wait. -/
def handleClientFrame (s : Edge) : ClientFrame → Edge
  | .unset | .hello | .pong _ => s
  | .openTunnel _ | .closeTunnel _ => { s with readLoop := .awaitingRegistry }
  | .responseHead head =>
    let (session, sent) := s.session.onResponseHead head
    let i := head.streamId
    let s := { s with session := session }
    if sent && (s.request i).ingress.listening then
      s.setRequest i { s.request i with head := some head }
    else s
  | .streamData i payload => s.offer i (.data payload)
  | .streamEnd i trailers => s.offer i (.finish trailers)
  | .streamReset i code message => s.offer i (.reset code message)
  | .windowUpdate i increment =>
    match s.session.onWindowUpdate i increment with
    | some session => { s with session := session }
    | none => { s with readLoop := .crashed }

/-- What follows a completed send on a body queue. -/
def delivered (s : Edge) (i : Nat) : Chunk → Edge
  | .data payload =>
    if 0 < payload.length then
      { s with readLoop := .replying (.windowUpdate i (toU32 payload.length)) }
    else { s with readLoop := .idle }
  | _ => { s.closeStream i with readLoop := .idle }

/-- One move; `none` when it is not enabled. -/
def step (s : Edge) : EdgeAction → Option Edge
  | .passLimit => if s.session.atLimit then none else some { s with admitted := s.admitted + 1 }
  | .insert tunnelId head remoteAddr =>
    if s.admitted = 0 then none
    else
      let i := s.session.nextStreamId
      let request : StreamOpen := ⟨i, tunnelId, .http, some head, remoteAddr,
        s.session.initialWindow⟩
      some { s.setRequest i { Request.new with
          ingress := .opening request, openedAt := s.received.length } with
        admitted := s.admitted - 1
        session := s.session.insertStream }
  | .queueOpen i =>
    match (s.request i).ingress, s.session.outbound.poll with
    | .opening request, .ready =>
      some ((s.push (.streamOpen request)).setRequest i
        { s.request i with ingress := .awaitingHead, pump := .reading })
    | .opening _, .closed => some ((s.closeStream i).settle i (.failed 404))
    | _, _ => none
  | .takeHead i =>
    if (s.request i).ingress = .awaitingHead && (s.request i).head.isSome then
      some (s.setIngress i .responded)
    else none
  | .headLost i =>
    if (s.request i).ingress = .awaitingHead && (s.request i).head.isNone &&
        !(i ∈ s.session.streams) then
      some ((s.closeStream i).settle i (.failed 502))
    else none
  | .headTimeout i =>
    if (s.request i).ingress = .awaitingHead then
      some ((s.closeStream i).setIngress i .resetting)
    else none
  | .queueTimeoutReset i =>
    match (s.request i).ingress, s.session.outbound.poll with
    | .resetting, .ready =>
      some ((s.push (.streamReset i .timeout "edge response timeout".toList)).settle i
        (.failed 504))
    | .resetting, .closed => some (s.settle i (.failed 504))
    | _, _ => none
  | .dropFuture i => if (s.request i).ingress.live then some (s.settle i .dropped) else none
  | .pumpData i payload =>
    if (s.request i).pump = .reading then
      some (s.setRequest i { s.request i with
        supplied := (s.request i).supplied ++ payload
        pump := if payload.isEmpty then .reading
          else if i ∈ s.session.streams then .sending (splitChunks payload) else .done })
    else none
  | .pumpAcquire i =>
    match (s.request i).pump with
    | .sending (chunk :: rest) =>
      match (s.session.stream i).sendCredit.poll (toU32 chunk.length) with
      | .ready =>
        some ({ s with session := s.session.takeCredit i (toU32 chunk.length) }.setPump i
          (.acquired chunk rest))
      | .closed => some (s.setPump i .done)
      | .pending => none
    | _ => none
  | .pumpQueue i =>
    match (s.request i).pump, s.session.outbound.poll with
    | .acquired chunk rest, .ready =>
      some ((s.push (.streamData i chunk)).setPump i (Pump.next rest))
    | .acquired _ _, .closed => some (s.setPump i .done)
    | _, _ => none
  | .pumpEof i =>
    if (s.request i).pump = .reading then some (s.setPump i .ending) else none
  | .pumpQueueEnd i =>
    match (s.request i).pump, s.session.outbound.poll with
    | .ending, .ready => some ((s.push (.streamEnd i [])).setPump i .done)
    | .ending, .closed => some (s.setPump i .done)
    | _, _ => none
  | .pumpFail i =>
    if (s.request i).pump = .reading then some ((s.closeStream i).setPump i .resetting) else none
  | .pumpQueueReset i =>
    match (s.request i).pump, s.session.outbound.poll with
    | .resetting, .ready =>
      some ((s.push (.streamReset i .peerClosed "client body error".toList)).setPump i .done)
    | .resetting, .closed => some (s.setPump i .done)
    | _, _ => none
  | .takeItem i =>
    match (s.request i).ingress, (s.session.stream i).body.rxOpen,
      (s.session.stream i).body.queue with
    | .responded, true, chunk :: _ =>
      some ({ s with session := s.session.setBody i (s.session.stream i).body.pop }.setRequest i
        { s.request i with taken := (s.request i).taken ++ [chunk] })
    | _, _, _ => none
  | .takeEnd i =>
    if (s.request i).ingress = .responded && (s.session.stream i).body.rxOpen &&
        (s.session.stream i).body.queue.isEmpty && s.sendersGone i then
      some (s.setRequest i { s.request i with ended := true })
    else none
  | .dropBody i =>
    if (s.request i).ingress = .responded && (s.session.stream i).body.rxOpen then
      some ((s.dropRx i).dropGuard i)
    else none
  | .recv frame =>
    if s.readLoop = .idle then
      some ({ s with received := s.received ++ [frame] }.handleClientFrame frame)
    else none
  | .deliver =>
    match s.readLoop with
    | .delivering i chunk =>
      match (s.session.stream i).body.poll with
      | .ready =>
        some ({ s with
          session := s.session.setBody i ((s.session.stream i).body.push chunk) }.delivered i chunk)
      | .closed => some { s.closeStream i with readLoop := .idle }
      | .pending => none
    | _ => none
  | .reply =>
    match s.readLoop, s.session.outbound.poll with
    | .replying frame, .ready => some { s.push frame with readLoop := .idle }
    | .replying _, .closed => some { s with readLoop := .idle }
    | _, _ => none
  | .registryDone status =>
    if s.readLoop = .awaitingRegistry then
      some { s with
        readLoop := match status with
          | some status => .replying (.tunnelStatus status)
          | none => .idle }
    else none
  | .disconnect => if s.readLoop = .idle then some { s with readLoop := .tearingDown } else none
  | .snapshot ids =>
    if s.readLoop = .tearingDown && s.session.isSnapshot ids then
      some { s with readLoop := .closing ids }
    else none
  | .closeNext =>
    match s.readLoop with
    | .closing (i :: ids) => some { s.closeStream i with readLoop := .closing ids }
    | .closing [] => some { s with readLoop := .stopped }
    | _ => none
  | .control frame =>
    if frame.isControl && s.session.outbound.poll = .ready then some (s.push frame) else none
  | .transmit =>
    match s.session.outbound.rxOpen, s.session.outbound.queue with
    | true, frame :: _ =>
      some { s with
        session := { s.session with outbound := s.session.outbound.pop }
        transmitted := s.transmitted ++ [frame] }
    | _, _ => none
  | .dropOutbound =>
    some { s with session := { s.session with outbound := s.session.outbound.dropRx } }

/-- The moves by what they require and what they do: one case for each way a task can go on. -/
inductive Step (s : Edge) : EdgeAction → Edge → Prop
  | passLimit : s.session.atLimit = false → Step s .passLimit { s with admitted := s.admitted + 1 }
  | insert {tunnelId head remoteAddr} : 0 < s.admitted →
      Step s (.insert tunnelId head remoteAddr)
        { s.setRequest s.session.nextStreamId { Request.new with
            ingress := .opening ⟨s.session.nextStreamId, tunnelId, .http, some head, remoteAddr,
              s.session.initialWindow⟩
            openedAt := s.received.length } with
          admitted := s.admitted - 1
          session := s.session.insertStream }
  | queueOpen {i request} : (s.request i).ingress = .opening request →
      s.session.outbound.poll = .ready →
      Step s (.queueOpen i) ((s.push (.streamOpen request)).setRequest i
        { s.request i with ingress := .awaitingHead, pump := .reading })
  | queueOpenGone {i request} : (s.request i).ingress = .opening request →
      s.session.outbound.poll = .closed →
      Step s (.queueOpen i) ((s.closeStream i).settle i (.failed 404))
  | takeHead {i} : (s.request i).ingress = .awaitingHead → (s.request i).head.isSome →
      Step s (.takeHead i) (s.setIngress i .responded)
  | headLost {i} : (s.request i).ingress = .awaitingHead → (s.request i).head = none →
      i ∉ s.session.streams →
      Step s (.headLost i) ((s.closeStream i).settle i (.failed 502))
  | headTimeout {i} : (s.request i).ingress = .awaitingHead →
      Step s (.headTimeout i) ((s.closeStream i).setIngress i .resetting)
  | queueTimeoutReset {i} : (s.request i).ingress = .resetting →
      s.session.outbound.poll = .ready →
      Step s (.queueTimeoutReset i)
        ((s.push (.streamReset i .timeout "edge response timeout".toList)).settle i (.failed 504))
  | queueTimeoutResetGone {i} : (s.request i).ingress = .resetting →
      s.session.outbound.poll = .closed →
      Step s (.queueTimeoutReset i) (s.settle i (.failed 504))
  | dropFuture {i} : (s.request i).ingress.live = true →
      Step s (.dropFuture i) (s.settle i .dropped)
  | pumpEmpty {i} : (s.request i).pump = .reading →
      Step s (.pumpData i []) (s.setRequest i (s.request i))
  | pumpData {i payload} : (s.request i).pump = .reading → payload ≠ [] →
      i ∈ s.session.streams →
      Step s (.pumpData i payload) (s.setRequest i { s.request i with
        supplied := (s.request i).supplied ++ payload, pump := .sending (splitChunks payload) })
  | pumpDataGone {i payload} : (s.request i).pump = .reading → payload ≠ [] →
      i ∉ s.session.streams →
      Step s (.pumpData i payload) (s.setRequest i { s.request i with
        supplied := (s.request i).supplied ++ payload, pump := .done })
  | pumpAcquire {i chunk rest} : (s.request i).pump = .sending (chunk :: rest) →
      (s.session.stream i).sendCredit.poll (toU32 chunk.length) = .ready →
      Step s (.pumpAcquire i) ({ s with
        session := s.session.takeCredit i (toU32 chunk.length) }.setPump i (.acquired chunk rest))
  | pumpAcquireClosed {i chunk rest} : (s.request i).pump = .sending (chunk :: rest) →
      (s.session.stream i).sendCredit.poll (toU32 chunk.length) = .closed →
      Step s (.pumpAcquire i) (s.setPump i .done)
  | pumpQueue {i chunk rest} : (s.request i).pump = .acquired chunk rest →
      s.session.outbound.poll = .ready →
      Step s (.pumpQueue i) ((s.push (.streamData i chunk)).setPump i (Pump.next rest))
  | pumpQueueGone {i chunk rest} : (s.request i).pump = .acquired chunk rest →
      s.session.outbound.poll = .closed → Step s (.pumpQueue i) (s.setPump i .done)
  | pumpEof {i} : (s.request i).pump = .reading → Step s (.pumpEof i) (s.setPump i .ending)
  | pumpQueueEnd {i} : (s.request i).pump = .ending → s.session.outbound.poll = .ready →
      Step s (.pumpQueueEnd i) ((s.push (.streamEnd i [])).setPump i .done)
  | pumpQueueEndGone {i} : (s.request i).pump = .ending → s.session.outbound.poll = .closed →
      Step s (.pumpQueueEnd i) (s.setPump i .done)
  | pumpFail {i} : (s.request i).pump = .reading →
      Step s (.pumpFail i) ((s.closeStream i).setPump i .resetting)
  | pumpQueueReset {i} : (s.request i).pump = .resetting → s.session.outbound.poll = .ready →
      Step s (.pumpQueueReset i)
        ((s.push (.streamReset i .peerClosed "client body error".toList)).setPump i .done)
  | pumpQueueResetGone {i} : (s.request i).pump = .resetting →
      s.session.outbound.poll = .closed → Step s (.pumpQueueReset i) (s.setPump i .done)
  | takeItem {i chunk rest} : (s.request i).ingress = .responded →
      (s.session.stream i).body.rxOpen = true →
      (s.session.stream i).body.queue = chunk :: rest →
      Step s (.takeItem i)
        ({ s with session := s.session.setBody i (s.session.stream i).body.pop }.setRequest i
          { s.request i with taken := (s.request i).taken ++ [chunk] })
  | takeEnd {i} : (s.request i).ingress = .responded →
      (s.session.stream i).body.rxOpen = true → (s.session.stream i).body.queue = [] →
      s.sendersGone i = true →
      Step s (.takeEnd i) (s.setRequest i { s.request i with ended := true })
  | dropBody {i} : (s.request i).ingress = .responded →
      (s.session.stream i).body.rxOpen = true → s.session.outbound.poll = .ready →
      Step s (.dropBody i) (((s.dropRx i).closeStream i).push
        (.streamReset i .peerClosed "public client finished".toList))
  | dropBodySilent {i} : (s.request i).ingress = .responded →
      (s.session.stream i).body.rxOpen = true → s.session.outbound.poll ≠ .ready →
      Step s (.dropBody i) ((s.dropRx i).closeStream i)
  | recvIgnored {frame} : s.readLoop = .idle → frame.isIdle = true →
      Step s (.recv frame) { s with received := s.received ++ [frame] }
  | recvTunnel {frame} : s.readLoop = .idle → frame.isTunnel = true →
      Step s (.recv frame)
        { s with received := s.received ++ [frame], readLoop := .awaitingRegistry }
  | recvHead {head} : s.readLoop = .idle → head.streamId ∈ s.session.streams →
      (s.session.stream head.streamId).headTx = true →
      (s.request head.streamId).ingress.listening = true →
      Step s (.recv (.responseHead head))
        ({ s with
          received := s.received ++ [ClientFrame.responseHead head]
          session := s.session.takeHeadTx head.streamId }.setRequest head.streamId
            { s.request head.streamId with head := some head })
  | recvHeadUnheard {head} : s.readLoop = .idle → head.streamId ∈ s.session.streams →
      ((s.session.stream head.streamId).headTx = true →
        (s.request head.streamId).ingress.listening = false) →
      Step s (.recv (.responseHead head))
        { s with
          received := s.received ++ [ClientFrame.responseHead head]
          session := s.session.takeHeadTx head.streamId }
  | recvHeadLate {head} : s.readLoop = .idle → head.streamId ∉ s.session.streams →
      Step s (.recv (.responseHead head))
        { s with received := s.received ++ [ClientFrame.responseHead head] }
  | recvChunk {frame i chunk} : s.readLoop = .idle → frame.chunk = some (i, chunk) →
      s.session.streamBodySender i = true →
      Step s (.recv frame)
        { s.setRequest i { s.request i with offered := (s.request i).offered + 1 } with
          received := s.received ++ [frame], readLoop := .delivering i chunk }
  | recvLateData {i payload} : s.readLoop = .idle → s.session.streamBodySender i = false →
      Step s (.recv (.streamData i payload))
        { s with received := s.received ++ [.streamData i payload] }
  | recvLateEnd {frame i chunk} : s.readLoop = .idle → frame.chunk = some (i, chunk) →
      (∀ p, chunk ≠ .data p) → s.session.streamBodySender i = false →
      Step s (.recv frame) { s.closeStream i with received := s.received ++ [frame] }
  | recvCredit {i increment} : s.readLoop = .idle → i ∈ s.session.streams →
      (s.session.stream i).sendCredit.permits + increment ≤ maxPermits →
      Step s (.recv (.windowUpdate i increment))
        { s with
          received := s.received ++ [.windowUpdate i increment]
          session := s.session.addCredit i increment }
  | recvCreditLate {i increment} : s.readLoop = .idle → i ∉ s.session.streams →
      Step s (.recv (.windowUpdate i increment))
        { s with received := s.received ++ [.windowUpdate i increment] }
  | recvPanic {i increment} : s.readLoop = .idle → i ∈ s.session.streams →
      maxPermits < (s.session.stream i).sendCredit.permits + increment →
      Step s (.recv (.windowUpdate i increment))
        { s with received := s.received ++ [.windowUpdate i increment], readLoop := .crashed }
  | deliverData {i payload} : s.readLoop = .delivering i (.data payload) → 0 < payload.length →
      (s.session.stream i).body.poll = .ready →
      Step s .deliver { s with
        session := s.session.setBody i ((s.session.stream i).body.push (.data payload))
        readLoop := .replying (.windowUpdate i (toU32 payload.length)) }
  | deliverEmpty {i} : s.readLoop = .delivering i (.data []) →
      (s.session.stream i).body.poll = .ready →
      Step s .deliver { s with
        session := s.session.setBody i ((s.session.stream i).body.push (.data []))
        readLoop := .idle }
  | deliverLast {i chunk} : s.readLoop = .delivering i chunk → (∀ p, chunk ≠ .data p) →
      (s.session.stream i).body.poll = .ready →
      Step s .deliver { s with
        session := (s.session.setBody i ((s.session.stream i).body.push chunk)).closeStream i
        readLoop := .idle }
  | deliverGone {i chunk} : s.readLoop = .delivering i chunk →
      (s.session.stream i).body.poll = .closed →
      Step s .deliver { s.closeStream i with readLoop := .idle }
  | reply {frame} : s.readLoop = .replying frame → s.session.outbound.poll = .ready →
      Step s .reply { s.push frame with readLoop := .idle }
  | replyGone {frame} : s.readLoop = .replying frame → s.session.outbound.poll = .closed →
      Step s .reply { s with readLoop := .idle }
  | registered {status} : s.readLoop = .awaitingRegistry →
      Step s (.registryDone (some status)) { s with readLoop := .replying (.tunnelStatus status) }
  | released : s.readLoop = .awaitingRegistry →
      Step s (.registryDone none) { s with readLoop := .idle }
  | disconnect : s.readLoop = .idle → Step s .disconnect { s with readLoop := .tearingDown }
  | snapshot {ids} : s.readLoop = .tearingDown → s.session.isSnapshot ids = true →
      Step s (.snapshot ids) { s with readLoop := .closing ids }
  | closeNext {i ids} : s.readLoop = .closing (i :: ids) →
      Step s .closeNext { s.closeStream i with readLoop := .closing ids }
  | closeDone : s.readLoop = .closing [] → Step s .closeNext { s with readLoop := .stopped }
  | control {frame} : frame.isControl = true → s.session.outbound.poll = .ready →
      Step s (.control frame) (s.push frame)
  | transmit {frame rest} : s.session.outbound.rxOpen = true →
      s.session.outbound.queue = frame :: rest →
      Step s .transmit { s with
        session := { s.session with outbound := s.session.outbound.pop }
        transmitted := s.transmitted ++ [frame] }
  | dropOutbound : Step s .dropOutbound
      { s with session := { s.session with outbound := s.session.outbound.dropRx } }

/-- The cases of `handle_client_frame`. -/
theorem recv_cases {s : Edge} (h : s.readLoop = .idle) (frame : ClientFrame) :
    Step s (.recv frame)
      ({ s with received := s.received ++ [frame] }.handleClientFrame frame) := by
  have hoffer (i : Nat) (chunk : Chunk) (hc : frame.chunk = some (i, chunk)) :
      Step s (.recv frame) ({ s with received := s.received ++ [frame] }.offer i chunk) := by
    unfold offer
    by_cases hs : s.session.streamBodySender i = true
    · simp only [hs, if_true]
      exact .recvChunk h hc hs
    · simp only [hs, if_false, Bool.false_eq_true]
      have hs : s.session.streamBodySender i = false := by simpa using hs
      cases chunk with
      | data payload =>
        cases frame <;> simp only [ClientFrame.chunk, reduceCtorEq, Option.some.injEq,
          Prod.mk.injEq, Chunk.data.injEq, and_false] at hc
        obtain ⟨rfl, rfl⟩ := hc
        exact .recvLateData h hs
      | finish trailers => exact .recvLateEnd h hc (by simp) hs
      | reset code message => exact .recvLateEnd h hc (by simp) hs
  cases frame with
  | unset | hello | pong nonce => exact .recvIgnored h rfl
  | openTunnel request | closeTunnel tunnelId => exact .recvTunnel h rfl
  | responseHead head =>
    by_cases hi : head.streamId ∈ s.session.streams
    · by_cases hs : (s.session.stream head.streamId).headTx = true ∧
          (s.request head.streamId).ingress.listening = true
      · simpa [handleClientFrame, Session.onResponseHead, hi, hs] using
          Step.recvHead h hi hs.1 hs.2
      · have hu : Step s (.recv (.responseHead head)) _ :=
          .recvHeadUnheard h hi fun ht => by simpa using fun hl => hs ⟨ht, hl⟩
        simpa [handleClientFrame, Session.onResponseHead, hi, hs] using hu
    · simpa [handleClientFrame, Session.onResponseHead, hi] using Step.recvHeadLate h hi
  | streamData i payload => exact hoffer i _ rfl
  | streamEnd i trailers => exact hoffer i _ rfl
  | streamReset i code message => exact hoffer i _ rfl
  | windowUpdate i increment =>
    by_cases hi : i ∈ s.session.streams
    · by_cases hm : (s.session.stream i).sendCredit.permits + increment ≤ maxPermits
      · simpa [handleClientFrame, Session.onWindowUpdate, hi, hm] using Step.recvCredit h hi hm
      · simpa [handleClientFrame, Session.onWindowUpdate, hi, hm] using
          Step.recvPanic h hi (by omega)
    · simpa [handleClientFrame, Session.onWindowUpdate, hi] using Step.recvCreditLate h hi

/-- The cases of a completed send on a body queue. -/
theorem deliver_cases {s : Edge} {i : Nat} {chunk : Chunk} (h : s.readLoop = .delivering i chunk)
    (hp : (s.session.stream i).body.poll = .ready) :
    Step s .deliver ({ s with
      session := s.session.setBody i ((s.session.stream i).body.push chunk) }.delivered i
        chunk) := by
  cases chunk with
  | data payload =>
    by_cases hl : 0 < payload.length
    · simpa only [delivered, hl, if_true] using Step.deliverData h hl hp
    · obtain rfl : payload = [] := by simpa using hl
      exact .deliverEmpty h hp
  | finish trailers => exact .deliverLast h (by simp) hp
  | reset code message => exact .deliverLast h (by simp) hp

/-- The cases of dropping a response body. -/
theorem dropBody_cases {s : Edge} {i : Nat} (h : (s.request i).ingress = .responded)
    (hx : (s.session.stream i).body.rxOpen = true) :
    Step s (.dropBody i) ((s.dropRx i).dropGuard i) := by
  have hp : ((s.dropRx i).closeStream i).session.outbound.poll = s.session.outbound.poll := by
    simp [closeStream, dropRx, Session.setBody]
  unfold dropGuard
  cases he : s.session.outbound.poll with
  | ready => simpa [hp, he] using Step.dropBody h hx he
  | pending => simpa [hp, he] using Step.dropBodySilent h hx (by simp [he])
  | closed => simpa [hp, he] using Step.dropBodySilent h hx (by simp [he])

/-- An enabled move is one of the cases of `Step`. -/
theorem step_cases {s s' : Edge} {a : EdgeAction} (h : s.step a = some s') : Step s a s' := by
  cases a
  case pumpData i payload =>
    simp only [step] at h
    split at h
    · rename_i hp
      obtain rfl := Option.some.inj h
      split_ifs with he hi
      · obtain rfl := List.isEmpty_iff.mp he
        simpa [← hp] using Step.pumpEmpty hp
      · exact .pumpData hp (by simpa using he) hi
      · exact .pumpDataGone hp (by simpa using he) hi
    · cases h
  case deliver =>
    simp only [step] at h
    split at h
    · rename_i i chunk hl
      split at h
      · obtain rfl := Option.some.inj h
        exact deliver_cases hl ‹_›
      · obtain rfl := Option.some.inj h
        exact .deliverGone hl ‹_›
      · cases h
    · cases h
  case registryDone status =>
    simp only [step] at h
    split at h
    · obtain rfl := Option.some.inj h
      cases status
      · exact .released ‹_›
      · exact .registered ‹_›
    · cases h
  all_goals
    simp only [step] at h
    repeat' split at h
  all_goals first
    | cases h; done
    | obtain rfl := Option.some.inj h
  case recv.isTrue => exact recv_cases ‹_› _
  case dropBody.isTrue =>
    simp only [Bool.and_eq_true, decide_eq_true_eq] at *
    exact dropBody_cases (by tauto) (by tauto)
  all_goals constructor <;> first | assumption | simp_all [Nat.pos_iff_ne_zero]

end Edge

end Norupo
