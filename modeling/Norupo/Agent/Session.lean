import Norupo.Foundation.Channel
import Norupo.Proto.Frame
import Mathlib.Logic.Function.Basic

/-!
# One session of the agent

`SessionCtx`, its stream table and the tasks of `norupo-client/src/agent.rs`. A `serve_stream` task
and the body queue it was spawned with outlive the table entry of their stream, and a second `Open`
for an id replaces the entry without ending the first task, so tasks are numbered in the order they
were spawned and an entry says which task its sender and its credit belong to.
-/

namespace Norupo

open Async

/-- Slots of a stream's request-body queue. -/
def bodyQueue : Nat := 16

/-- The options of the agent that a session reads. -/
structure AgentOptions where
  /-- `host:port` the agent forwards to. -/
  forwardAddr : Text
  subdomain : Option Text
  domain : Option Text
  rewriteHost : Bool
  deriving DecidableEq, Repr

/-- The options of the agent's own tests. -/
def testOptions : AgentOptions := ⟨"127.0.0.1:3000".toList, some "my-app".toList, none, false⟩

/-- `build_open_tunnel`, at a clock reading in milliseconds. -/
def buildOpenTunnel (options : AgentOptions) (nowMs : Nat) : OpenTunnel where
  requestId := "req_".toList ++ (Nat.repr nowMs).toList
  spec := some (.http
    { subdomain := options.subdomain.getD []
      customDomain := options.domain.getD []
      forwardTo := options.forwardAddr
      rewriteHostHeader := options.rewriteHost })

/-- An item of the request body handed to the local HTTP client. -/
inductive BodyItem
  | data (payload : Bytes)
  | error (message : Text)
  deriving DecidableEq, Repr

/-- Progress of `serve_stream`. -/
inductive Serve
  /-- Spawned and not yet polled. -/
  | starting (request : StreamOpen)
  /-- The request has been handed to the local HTTP client; waiting for its response. -/
  | requesting
  /-- Waiting to queue a `Reset`. -/
  | resetting (code : ResetCode) (message : Text)
  /-- Waiting to queue the response head. -/
  | sendingHead (head : HttpResponseHead)
  /-- Waiting for the next frame of the local response body. -/
  | reading
  /-- In `send_payload`, waiting for credit for the first chunk of this payload. -/
  | sending (payload : Bytes)
  /-- Credit taken, waiting to queue the chunk. -/
  | acquired (chunk rest : Bytes)
  /-- Waiting to queue the `End`. -/
  | ending
  /-- About to call `drop_stream` and return. -/
  | dropping
  | done
  deriving DecidableEq, Repr

/-- The loop of `send_payload` goes on while there is payload left. -/
def Serve.next : Bytes → Serve
  | [] => .reading
  | payload => .sending payload

@[simp] theorem Serve.next_ne_starting (payload : Bytes) (request : StreamOpen) :
    Serve.next payload ≠ .starting request := by
  cases payload <;> simp [Serve.next]

/-- A `serve_stream` task with the channels it was spawned with. -/
structure Task where
  streamId : Nat
  serve : Serve
  /-- Request-body queue, both ends. -/
  body : Channel BodyItem
  /-- Credit for bytes flowing agent to edge. -/
  sendCredit : Semaphore
  /-- The receiver has been handed to the local HTTP client. -/
  handed : Bool
  /-- Items the request body has yielded to the local service. -/
  items : List BodyItem
  /-- The request body has signalled its end. -/
  ended : Bool
  /-- Bytes the local service has produced as response body. -/
  produced : Bytes
  /-- Trailers of the local response. -/
  trailers : List Header
  /-- Chunks the read loop has taken for this task. -/
  offered : Nat
  /-- Number of frames received up to and including the `Open` of this task. -/
  openedAt : Nat

/-- A task number that has not been used. -/
def Task.unused : Task where
  streamId := 0
  serve := .done
  body := Channel.new bodyQueue
  sendCredit := Semaphore.new 0
  handed := false
  items := []
  ended := false
  produced := []
  trailers := []
  offered := 0
  openedAt := 0

/-- The task that the `Open` arm spawns. -/
def Task.spawn (request : StreamOpen) (openedAt : Nat) : Task :=
  { Task.unused with
    streamId := request.streamId
    serve := .starting request
    sendCredit := Semaphore.new request.initialWindow
    openedAt := openedAt }

/-- `serve_stream` returns; a receiver that was never handed on goes with it. -/
def Task.finish (task : Task) : Task :=
  { task with
    serve := .done
    body := if task.handed then task.body else task.body.dropRx }

/-- `StreamState`: the entry of a stream. -/
structure StreamState where
  /-- The task whose channels the entry refers to. -/
  task : Nat
  /-- `body_tx` is a sender of the task's body queue; after `close_request_body` it is not. -/
  bodyTx : Bool
  deriving DecidableEq, Repr

/-- Progress of the read loop of `run_session`. -/
inductive AgentLoop
  | idle
  /-- Holding a body sender, waiting for a slot; without a task its receiver is gone. -/
  | delivering (streamId : Nat) (target : Option Nat) (payload : Bytes)
  /-- Waiting to queue a frame, possibly still holding the body sender it was read for. -/
  | replying (frame : ClientFrame) (held : Option Nat)
  /-- Waiting to report an event, and then to queue a frame. -/
  | notifying (next : Option ClientFrame)
  | stopped
  /-- The task panicked. -/
  | crashed
  deriving DecidableEq, Repr

/-- The agent side of one session. -/
structure Agent where
  options : AgentOptions
  /-- Frames queued for the edge. -/
  outbound : Channel ClientFrame
  streams : Nat → Option StreamState
  task : Nat → Task
  nextTask : Nat
  readLoop : AgentLoop
  /-- Frames the read loop has taken, oldest first. -/
  received : List ServerFrame
  /-- Frames the transport has taken, oldest first. -/
  transmitted : List ClientFrame

namespace Agent

/-- A session whose `Hello` has been answered. -/
def init (options : AgentOptions) : Agent where
  options := options
  outbound := Channel.new outboundQueue
  streams := fun _ => none
  task := fun _ => Task.unused
  nextTask := 0
  readLoop := .idle
  received := []
  transmitted := []

/-- Change one task. -/
@[simp] def setTask (s : Agent) (t : Nat) (task : Task) : Agent :=
  { s with task := Function.update s.task t task }

/-- Move a task. -/
@[simp] def setServe (s : Agent) (t : Nat) (serve : Serve) : Agent :=
  s.setTask t { s.task t with serve := serve }

/-- Change the body queue of a task. -/
@[simp] def setBody (s : Agent) (t : Nat) (body : Channel BodyItem) : Agent :=
  s.setTask t { s.task t with body := body }

/-- Complete a send on the outbound queue. -/
@[simp] def push (s : Agent) (frame : ClientFrame) : Agent :=
  { s with outbound := s.outbound.push frame }

/-- Close the send window of a task. -/
@[simp] def closeCredit (s : Agent) (t : Nat) : Agent :=
  s.setTask t { s.task t with sendCredit := (s.task t).sendCredit.close }

/-- `SessionCtx::drop_stream`. -/
def dropStream (s : Agent) (i : Nat) : Agent :=
  match s.streams i with
  | some state => { s.closeCredit state.task with streams := Function.update s.streams i none }
  | none => s

/-- `close_request_body`. -/
def closeRequestBody (s : Agent) (i : Nat) : Agent :=
  match s.streams i with
  | some state =>
    { s with streams := Function.update s.streams i (some { state with bodyTx := false }) }
  | none => s

/-- The `Open` arm: register the stream and spawn its task. -/
def openStream (s : Agent) (request : StreamOpen) : Agent :=
  { s.setTask s.nextTask (Task.spawn request s.received.length) with
    streams := Function.update s.streams request.streamId (some ⟨s.nextTask, true⟩)
    nextTask := s.nextTask + 1 }

section DropStream

variable (s : Agent) (i t : Nat)

@[simp] theorem streams_dropStream :
    (s.dropStream i).streams = Function.update s.streams i none := by
  unfold dropStream
  split <;> rename_i h
  · rfl
  · rw [← h, Function.update_eq_self]

/-- Dropping a stream changes nothing of a task but its credit. -/
@[simp] theorem task_dropStream : (s.dropStream i).task t =
    { s.task t with
      sendCredit := if (s.streams i).map StreamState.task = some t then
        (s.task t).sendCredit.close else (s.task t).sendCredit } := by
  unfold dropStream
  split <;> rename_i h
  · rename_i state
    by_cases ht : t = state.task
    · subst ht
      simp [h]
    · simp [h, ht, Ne.symm ht]
  · simp [h]

@[simp] theorem outbound_dropStream : (s.dropStream i).outbound = s.outbound := by
  unfold dropStream
  split <;> rfl

@[simp] theorem nextTask_dropStream : (s.dropStream i).nextTask = s.nextTask := by
  unfold dropStream
  split <;> rfl

@[simp] theorem readLoop_dropStream : (s.dropStream i).readLoop = s.readLoop := by
  unfold dropStream
  split <;> rfl

@[simp] theorem received_dropStream : (s.dropStream i).received = s.received := by
  unfold dropStream
  split <;> rfl

@[simp] theorem transmitted_dropStream : (s.dropStream i).transmitted = s.transmitted := by
  unfold dropStream
  split <;> rfl

end DropStream

section CloseRequestBody

variable (s : Agent) (i : Nat)

/-- `close_request_body` changes nothing but the entry of its stream. -/
theorem closeRequestBody_eq : s.closeRequestBody i =
    { s with
      streams := Function.update s.streams i
        ((s.streams i).map fun state => { state with bodyTx := false }) } := by
  unfold closeRequestBody
  split <;> rename_i h
  · simp [h]
  · rw [h, Option.map_none, ← h, Function.update_eq_self]

end CloseRequestBody

end Agent

end Norupo
