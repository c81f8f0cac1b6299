import Norupo.Agent.Session
import Norupo.Foundation.Transition
import Mathlib.Tactic.SplitIfs

/-!
# The tasks of the agent

The agent side of one session as a labelled system: the read loop of `run_session` with
`handle_server_frame`, the `serve_stream` tasks it spawns, and the local service as their
environment. A label performs the code between two consecutive waits of one task. Any frame may
arrive, the local service may answer, stop reading or fail at any wait, and the transport may take
queued frames or disappear.
-/

namespace Norupo

open Async

/-- The moves of the tasks and of their environment. -/
inductive AgentAction
  /-- The read loop takes the next edge frame, at a clock reading. -/
  | recv (frame : ServerFrame) (nowMs : Nat)
  /-- The event receiver takes an event. -/
  | notified
  | deliver
  | reply
  /-- The edge's stream ends or fails, or a shutdown is requested. -/
  | disconnect
  /-- `serve_stream` runs up to its first wait, and the local request is well formed. -/
  | start (task : Nat)
  /-- The same, and building the local request fails. -/
  | startFailed (task : Nat) (error : Text)
  /-- The local service answers. -/
  | respond (task : Nat) (status : Nat) (headers : List Header)
  /-- The local request fails. -/
  | unreachable (task : Nat) (error : Text)
  | sendHead (task : Nat)
  /-- The local response body yields data. -/
  | produce (task : Nat) (payload : Bytes)
  /-- The local response body yields trailers. -/
  | trailers (task : Nat) (headers : List Header)
  /-- The local response body fails. -/
  | bodyFail (task : Nat) (error : Text)
  /-- The local response body ends. -/
  | finish (task : Nat)
  | acquire (task : Nat)
  | sendData (task : Nat)
  | sendEnd (task : Nat)
  | sendReset (task : Nat)
  /-- `drop_stream` at the end of `serve_stream`. -/
  | drop (task : Nat)
  /-- The local HTTP client polls an item off the request body. -/
  | takeBody (task : Nat)
  /-- The local HTTP client polls the end of the request body. -/
  | takeEnd (task : Nat)
  /-- The local HTTP client drops the request body. -/
  | dropBody (task : Nat)
  /-- The transport takes the oldest queued frame. -/
  | transmit
  /-- The RPC ends: nothing takes queued frames any more. -/
  | dropOutbound
  deriving DecidableEq, Repr

/-- The task whose body queue the read loop still holds a sender of. -/
def AgentLoop.sender : AgentLoop → Option Nat
  | .delivering _ target _ => target
  | .replying _ held => held
  | _ => none

namespace Agent

/-- No sender of the task's body queue is left: neither the table's nor the read loop's. -/
def sendersGone (s : Agent) (t : Nat) : Bool :=
  s.streams (s.task t).streamId ≠ some ⟨t, true⟩ && s.readLoop.sender ≠ some t

/-- The `Data` arm up to its first wait. -/
def offer (s : Agent) (i : Nat) (payload : Bytes) : Agent :=
  match s.streams i with
  | some ⟨t, true⟩ =>
    { s.setTask t { s.task t with offered := (s.task t).offered + 1 } with
      readLoop := .delivering i (some t) payload }
  | some ⟨_, false⟩ => { s with readLoop := .delivering i none payload }
  | none => s

/-- The `WindowUpdate` arm. -/
def addCredit (s : Agent) (i increment : Nat) : Agent :=
  match s.streams i with
  | some state =>
    if (s.task state.task).sendCredit.permits + increment ≤ maxPermits then
      s.setTask state.task { s.task state.task with
        sendCredit := (s.task state.task).sendCredit.add increment }
    else { s with readLoop := .crashed }
  | none => s

/-- `handle_server_frame` up to its first wait. -/
def handleServerFrame (s : Agent) (nowMs : Nat) : ServerFrame → Agent
  | .welcome _ _ =>
    { s with readLoop := .notifying (some (.openTunnel (buildOpenTunnel s.options nowMs))) }
  | .tunnelStatus _ => { s with readLoop := .notifying none }
  | .streamOpen request => s.openStream request
  | .streamData i payload => s.offer i payload
  | .streamEnd i _ => s.closeRequestBody i
  | .streamReset i _ _ => s.dropStream i
  | .windowUpdate i increment => s.addCredit i increment
  | .ping nonce => { s with readLoop := .replying (.pong nonce) none }
  | .shutdown _ | .responseHead _ => s

/-- `serve_stream` up to its first wait. -/
def startServe (s : Agent) (t : Nat) (request : StreamOpen) (error : Option Text) : Agent :=
  match request.http, error with
  | none, _ =>
    s.setServe t (.resetting .protocolError "Open frame without an HTTP head".toList)
  | some _, none => s.setTask t { s.task t with serve := .requesting, handed := true }
  | some _, some error =>
    (s.setBody t (s.task t).body.dropRx).setServe t
      (.resetting .protocolError ("bad request: ".toList ++ error))

/-- One move; `none` when it is not enabled. -/
def step (s : Agent) : AgentAction → Option Agent
  | .recv frame nowMs =>
    if s.readLoop = .idle then
      some ({ s with received := s.received ++ [frame] }.handleServerFrame nowMs frame)
    else none
  | .notified =>
    match s.readLoop with
    | .notifying (some frame) => some { s with readLoop := .replying frame none }
    | .notifying none => some { s with readLoop := .idle }
    | _ => none
  | .deliver =>
    match s.readLoop with
    | .delivering i (some t) payload =>
      match (s.task t).body.poll with
      | .ready =>
        some { s.setBody t ((s.task t).body.push (.data payload)) with
          readLoop := .replying (.windowUpdate i (toU32 payload.length)) (some t) }
      | .closed => some { s.dropStream i with readLoop := .idle }
      | .pending => none
    | .delivering i none _ => some { s.dropStream i with readLoop := .idle }
    | _ => none
  | .reply =>
    match s.readLoop, s.outbound.poll with
    | .replying frame _, .ready => some { s.push frame with readLoop := .idle }
    | .replying _ _, .closed => some { s with readLoop := .idle }
    | _, _ => none
  | .disconnect => if s.readLoop = .idle then some { s with readLoop := .stopped } else none
  | .start t =>
    match (s.task t).serve with
    | .starting request => some (s.startServe t request none)
    | _ => none
  | .startFailed t error =>
    match (s.task t).serve with
    | .starting request => some (s.startServe t request (some error))
    | _ => none
  | .respond t status headers =>
    if (s.task t).serve = .requesting then
      some (s.setServe t (.sendingHead ⟨(s.task t).streamId, status, headers⟩))
    else none
  | .unreachable t error =>
    if (s.task t).serve = .requesting then
      some (s.setServe t (.resetting .localUnreachable
        ("cannot reach ".toList ++ s.options.forwardAddr ++ ": ".toList ++ error)))
    else none
  | .sendHead t =>
    match (s.task t).serve, s.outbound.poll with
    | .sendingHead head, .ready => some ((s.push (.responseHead head)).setServe t .reading)
    | .sendingHead _, .closed => some (s.setServe t .dropping)
    | _, _ => none
  | .produce t payload =>
    if (s.task t).serve = .reading then
      some (s.setTask t { s.task t with
        produced := (s.task t).produced ++ payload, serve := Serve.next payload })
    else none
  | .trailers t headers =>
    if (s.task t).serve = .reading then
      some (s.setTask t { s.task t with trailers := headers })
    else none
  | .bodyFail t error =>
    if (s.task t).serve = .reading then
      some (s.setServe t (.resetting .internal ("local body error: ".toList ++ error)))
    else none
  | .finish t => if (s.task t).serve = .reading then some (s.setServe t .ending) else none
  | .acquire t =>
    match (s.task t).serve with
    | .sending payload =>
      match (s.task t).sendCredit.poll (toU32 (payload.take maxChunk).length) with
      | .ready =>
        some (s.setTask t { s.task t with
          sendCredit := (s.task t).sendCredit.take (toU32 (payload.take maxChunk).length)
          serve := .acquired (payload.take maxChunk) (payload.drop maxChunk) })
      | .closed => some (s.setServe t .dropping)
      | .pending => none
    | _ => none
  | .sendData t =>
    match (s.task t).serve, s.outbound.poll with
    | .acquired chunk rest, .ready =>
      some ((s.push (.streamData (s.task t).streamId chunk)).setServe t (Serve.next rest))
    | .acquired _ _, .closed => some (s.setServe t .dropping)
    | _, _ => none
  | .sendEnd t =>
    match (s.task t).serve, s.outbound.poll with
    | .ending, .ready =>
      some ((s.push (.streamEnd (s.task t).streamId (s.task t).trailers)).setServe t .dropping)
    | .ending, .closed => some (s.setServe t .dropping)
    | _, _ => none
  | .sendReset t =>
    match (s.task t).serve, s.outbound.poll with
    | .resetting code message, .ready =>
      some ((s.push (.streamReset (s.task t).streamId code message)).setServe t .dropping)
    | .resetting _ _, .closed => some (s.setServe t .dropping)
    | _, _ => none
  | .drop t =>
    if (s.task t).serve = .dropping then
      let s := s.dropStream (s.task t).streamId
      some (s.setTask t (s.task t).finish)
    else none
  | .takeBody t =>
    match (s.task t).handed && (s.task t).body.rxOpen, (s.task t).body.queue with
    | true, item :: _ =>
      some (s.setTask t { s.task t with
        body := (s.task t).body.pop, items := (s.task t).items ++ [item] })
    | _, _ => none
  | .takeEnd t =>
    if (s.task t).handed && (s.task t).body.rxOpen && (s.task t).body.queue.isEmpty &&
        s.sendersGone t then
      some (s.setTask t { s.task t with ended := true })
    else none
  | .dropBody t =>
    if (s.task t).handed && (s.task t).body.rxOpen then
      some (s.setBody t (s.task t).body.dropRx)
    else none
  | .transmit =>
    match s.outbound.rxOpen, s.outbound.queue with
    | true, frame :: _ =>
      some { s with outbound := s.outbound.pop, transmitted := s.transmitted ++ [frame] }
    | _, _ => none
  | .dropOutbound => some { s with outbound := s.outbound.dropRx }

/-- The moves by what they require and what they do: one case for each way a task can go on. -/
inductive Step (s : Agent) : AgentAction → Agent → Prop
  | recvWelcome {sessionId nodeId nowMs} : s.readLoop = .idle →
      Step s (.recv (.welcome sessionId nodeId) nowMs)
        { s with
          received := s.received ++ [.welcome sessionId nodeId]
          readLoop := .notifying (some (.openTunnel (buildOpenTunnel s.options nowMs))) }
  | recvStatus {status nowMs} : s.readLoop = .idle →
      Step s (.recv (.tunnelStatus status) nowMs)
        { s with
          received := s.received ++ [.tunnelStatus status], readLoop := .notifying none }
  | recvOpen {request nowMs} : s.readLoop = .idle →
      Step s (.recv (.streamOpen request) nowMs)
        ({ s with received := s.received ++ [ServerFrame.streamOpen request] }.openStream request)
  | recvData {i payload t nowMs} : s.readLoop = .idle → s.streams i = some ⟨t, true⟩ →
      Step s (.recv (.streamData i payload) nowMs)
        { s.setTask t { s.task t with offered := (s.task t).offered + 1 } with
          received := s.received ++ [.streamData i payload]
          readLoop := .delivering i (some t) payload }
  | recvDeadData {i payload t nowMs} : s.readLoop = .idle → s.streams i = some ⟨t, false⟩ →
      Step s (.recv (.streamData i payload) nowMs)
        { s with
          received := s.received ++ [.streamData i payload]
          readLoop := .delivering i none payload }
  | recvLateData {i payload nowMs} : s.readLoop = .idle → s.streams i = none →
      Step s (.recv (.streamData i payload) nowMs)
        { s with received := s.received ++ [.streamData i payload] }
  | recvEnd {i headers nowMs} : s.readLoop = .idle →
      Step s (.recv (.streamEnd i headers) nowMs)
        { s with
          received := s.received ++ [.streamEnd i headers]
          streams := Function.update s.streams i
            ((s.streams i).map fun state => { state with bodyTx := false }) }
  | recvReset {i code message nowMs} : s.readLoop = .idle →
      Step s (.recv (.streamReset i code message) nowMs)
        ({ s with received := s.received ++ [ServerFrame.streamReset i code message] }.dropStream i)
  | recvCredit {i increment state nowMs} : s.readLoop = .idle → s.streams i = some state →
      (s.task state.task).sendCredit.permits + increment ≤ maxPermits →
      Step s (.recv (.windowUpdate i increment) nowMs)
        ({ s with received := s.received ++ [ServerFrame.windowUpdate i increment] }.setTask
          state.task { s.task state.task with
            sendCredit := (s.task state.task).sendCredit.add increment })
  | recvCreditLate {i increment nowMs} : s.readLoop = .idle → s.streams i = none →
      Step s (.recv (.windowUpdate i increment) nowMs)
        { s with received := s.received ++ [.windowUpdate i increment] }
  | recvPanic {i increment state nowMs} : s.readLoop = .idle → s.streams i = some state →
      maxPermits < (s.task state.task).sendCredit.permits + increment →
      Step s (.recv (.windowUpdate i increment) nowMs)
        { s with received := s.received ++ [.windowUpdate i increment], readLoop := .crashed }
  | recvPing {nonce nowMs} : s.readLoop = .idle →
      Step s (.recv (.ping nonce) nowMs)
        { s with
          received := s.received ++ [.ping nonce], readLoop := .replying (.pong nonce) none }
  | recvShutdown {reason nowMs} : s.readLoop = .idle →
      Step s (.recv (.shutdown reason) nowMs)
        { s with received := s.received ++ [.shutdown reason] }
  | recvHead {head nowMs} : s.readLoop = .idle →
      Step s (.recv (.responseHead head) nowMs)
        { s with received := s.received ++ [.responseHead head] }
  | notifiedReply {frame} : s.readLoop = .notifying (some frame) →
      Step s .notified { s with readLoop := .replying frame none }
  | notified : s.readLoop = .notifying none → Step s .notified { s with readLoop := .idle }
  | deliver {i t payload} : s.readLoop = .delivering i (some t) payload →
      (s.task t).body.poll = .ready →
      Step s .deliver { s.setBody t ((s.task t).body.push (.data payload)) with
        readLoop := .replying (.windowUpdate i (toU32 payload.length)) (some t) }
  | deliverGone {i t payload} : s.readLoop = .delivering i (some t) payload →
      (s.task t).body.poll = .closed →
      Step s .deliver { s.dropStream i with readLoop := .idle }
  | deliverDead {i payload} : s.readLoop = .delivering i none payload →
      Step s .deliver { s.dropStream i with readLoop := .idle }
  | reply {frame held} : s.readLoop = .replying frame held → s.outbound.poll = .ready →
      Step s .reply { s.push frame with readLoop := .idle }
  | replyGone {frame held} : s.readLoop = .replying frame held → s.outbound.poll = .closed →
      Step s .reply { s with readLoop := .idle }
  | disconnect : s.readLoop = .idle → Step s .disconnect { s with readLoop := .stopped }
  | startBare {t request} : (s.task t).serve = .starting request → request.http = none →
      Step s (.start t)
        (s.setServe t (.resetting .protocolError "Open frame without an HTTP head".toList))
  | start {t request} : (s.task t).serve = .starting request → request.http.isSome = true →
      Step s (.start t) (s.setTask t { s.task t with serve := .requesting, handed := true })
  | startFailedBare {t request error} : (s.task t).serve = .starting request →
      request.http = none →
      Step s (.startFailed t error)
        (s.setServe t (.resetting .protocolError "Open frame without an HTTP head".toList))
  | startFailed {t request error} : (s.task t).serve = .starting request →
      request.http.isSome = true →
      Step s (.startFailed t error)
        ((s.setBody t (s.task t).body.dropRx).setServe t
          (.resetting .protocolError ("bad request: ".toList ++ error)))
  | respond {t status headers} : (s.task t).serve = .requesting →
      Step s (.respond t status headers)
        (s.setServe t (.sendingHead ⟨(s.task t).streamId, status, headers⟩))
  | unreachable {t error} : (s.task t).serve = .requesting →
      Step s (.unreachable t error)
        (s.setServe t (.resetting .localUnreachable
          ("cannot reach ".toList ++ s.options.forwardAddr ++ ": ".toList ++ error)))
  | sendHead {t head} : (s.task t).serve = .sendingHead head → s.outbound.poll = .ready →
      Step s (.sendHead t) ((s.push (.responseHead head)).setServe t .reading)
  | sendHeadGone {t head} : (s.task t).serve = .sendingHead head → s.outbound.poll = .closed →
      Step s (.sendHead t) (s.setServe t .dropping)
  | produce {t payload} : (s.task t).serve = .reading →
      Step s (.produce t payload) (s.setTask t { s.task t with
        produced := (s.task t).produced ++ payload, serve := Serve.next payload })
  | trailers {t headers} : (s.task t).serve = .reading →
      Step s (.trailers t headers) (s.setTask t { s.task t with trailers := headers })
  | bodyFail {t error} : (s.task t).serve = .reading →
      Step s (.bodyFail t error)
        (s.setServe t (.resetting .internal ("local body error: ".toList ++ error)))
  | finish {t} : (s.task t).serve = .reading → Step s (.finish t) (s.setServe t .ending)
  | acquire {t payload} : (s.task t).serve = .sending payload →
      (s.task t).sendCredit.poll (toU32 (payload.take maxChunk).length) = .ready →
      Step s (.acquire t) (s.setTask t { s.task t with
        sendCredit := (s.task t).sendCredit.take (toU32 (payload.take maxChunk).length)
        serve := .acquired (payload.take maxChunk) (payload.drop maxChunk) })
  | acquireClosed {t payload} : (s.task t).serve = .sending payload →
      (s.task t).sendCredit.poll (toU32 (payload.take maxChunk).length) = .closed →
      Step s (.acquire t) (s.setServe t .dropping)
  | sendData {t chunk rest} : (s.task t).serve = .acquired chunk rest →
      s.outbound.poll = .ready →
      Step s (.sendData t)
        ((s.push (.streamData (s.task t).streamId chunk)).setServe t (Serve.next rest))
  | sendDataGone {t chunk rest} : (s.task t).serve = .acquired chunk rest →
      s.outbound.poll = .closed → Step s (.sendData t) (s.setServe t .dropping)
  | sendEnd {t} : (s.task t).serve = .ending → s.outbound.poll = .ready →
      Step s (.sendEnd t)
        ((s.push (.streamEnd (s.task t).streamId (s.task t).trailers)).setServe t .dropping)
  | sendEndGone {t} : (s.task t).serve = .ending → s.outbound.poll = .closed →
      Step s (.sendEnd t) (s.setServe t .dropping)
  | sendReset {t code message} : (s.task t).serve = .resetting code message →
      s.outbound.poll = .ready →
      Step s (.sendReset t)
        ((s.push (.streamReset (s.task t).streamId code message)).setServe t .dropping)
  | sendResetGone {t code message} : (s.task t).serve = .resetting code message →
      s.outbound.poll = .closed → Step s (.sendReset t) (s.setServe t .dropping)
  | drop {t} : (s.task t).serve = .dropping →
      Step s (.drop t) ((s.dropStream (s.task t).streamId).setTask t
        ((s.dropStream (s.task t).streamId).task t).finish)
  | takeBody {t item rest} : (s.task t).handed = true → (s.task t).body.rxOpen = true →
      (s.task t).body.queue = item :: rest →
      Step s (.takeBody t) (s.setTask t { s.task t with
        body := (s.task t).body.pop, items := (s.task t).items ++ [item] })
  | takeEnd {t} : (s.task t).handed = true → (s.task t).body.rxOpen = true →
      (s.task t).body.queue = [] → s.sendersGone t = true →
      Step s (.takeEnd t) (s.setTask t { s.task t with ended := true })
  | dropBody {t} : (s.task t).handed = true → (s.task t).body.rxOpen = true →
      Step s (.dropBody t) (s.setBody t (s.task t).body.dropRx)
  | transmit {frame rest} : s.outbound.rxOpen = true → s.outbound.queue = frame :: rest →
      Step s .transmit
        { s with outbound := s.outbound.pop, transmitted := s.transmitted ++ [frame] }
  | dropOutbound : Step s .dropOutbound { s with outbound := s.outbound.dropRx }

/-- The cases of `handle_server_frame`. -/
theorem recv_cases {s : Agent} (h : s.readLoop = .idle) (frame : ServerFrame) (nowMs : Nat) :
    Step s (.recv frame nowMs)
      ({ s with received := s.received ++ [frame] }.handleServerFrame nowMs frame) := by
  cases frame with
  | welcome sessionId nodeId => exact .recvWelcome h
  | tunnelStatus status => exact .recvStatus h
  | streamOpen request => exact .recvOpen h
  | responseHead head => exact .recvHead h
  | streamData i payload =>
    cases hi : s.streams i with
    | none => simpa [handleServerFrame, offer, hi] using Step.recvLateData h hi
    | some state =>
      obtain ⟨t, live⟩ := state
      cases live with
      | true => simpa [handleServerFrame, offer, hi] using Step.recvData h hi
      | false => simpa [handleServerFrame, offer, hi] using Step.recvDeadData h hi
  | streamEnd i headers =>
    simp only [handleServerFrame, closeRequestBody_eq]
    exact .recvEnd h
  | streamReset i code message => exact .recvReset h
  | windowUpdate i increment =>
    cases hi : s.streams i with
    | none => simpa [handleServerFrame, addCredit, hi] using Step.recvCreditLate h hi
    | some state =>
      by_cases hm : (s.task state.task).sendCredit.permits + increment ≤ maxPermits
      · simpa [handleServerFrame, addCredit, hi, hm] using Step.recvCredit h hi hm
      · simpa [handleServerFrame, addCredit, hi, hm] using Step.recvPanic h hi (by omega)
  | ping nonce => exact .recvPing h
  | shutdown reason => exact .recvShutdown h

/-- An enabled move is one of the cases of `Step`. -/
theorem step_cases {s s' : Agent} {a : AgentAction} (h : s.step a = some s') : Step s a s' := by
  cases a
  case recv frame nowMs =>
    simp only [step] at h
    split at h
    · obtain rfl := Option.some.inj h
      exact recv_cases ‹_› frame nowMs
    · cases h
  case start t | startFailed t error =>
    simp only [step] at h
    split at h
    · rename_i request hs
      obtain rfl := Option.some.inj h
      cases hh : request.http with
      | none =>
        simp only [startServe, hh]
        first | exact .startBare hs hh | exact .startFailedBare hs hh
      | some head =>
        simp only [startServe, hh]
        first | exact .start hs (by simp [hh]) | exact .startFailed hs (by simp [hh])
    · cases h
  all_goals
    simp only [step] at h
    repeat' split at h
  all_goals first
    | cases h; done
    | obtain rfl := Option.some.inj h
  all_goals first
    | exact .deliverDead ‹_›
    | (constructor <;> first | assumption | simp_all)

end Agent

end Norupo
