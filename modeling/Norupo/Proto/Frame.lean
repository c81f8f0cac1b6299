import Norupo.Foundation.Text

/-!
# Frames of the tunnel protocol

The messages of `proto/norupo/v1/tunnel.proto` that the two ends exchange on one session. Fields
that neither end reads (versions, labels, timestamps, the limits echoed in `Welcome`) are left out.
Stream ids and byte counts are natural numbers.
-/

namespace Norupo

/-- A run of payload bytes. -/
abbrev Bytes := List UInt8

/-- A header: values are bytes, they need not be UTF-8. -/
structure Header where
  name : Text
  value : Bytes
  deriving DecidableEq, Repr

/-- The head of a public request, as the edge saw it. -/
structure HttpRequestHead where
  method : Text
  /-- Origin-form target including the query. -/
  path : Text
  /-- The host as seen by the edge, before any rewrite. -/
  authority : Text
  headers : List Header
  version : Text
  upgrade : Text
  deriving DecidableEq, Repr

/-- The head of the local service's response. -/
structure HttpResponseHead where
  streamId : Nat
  status : Nat
  headers : List Header
  deriving DecidableEq, Repr

inductive StreamKind
  | unspecified
  | http
  | tcp
  deriving DecidableEq, Repr

inductive ResetCode
  | unspecified
  | localUnreachable
  | peerClosed
  | protocolError
  | timeout
  | internal
  | refused
  deriving DecidableEq, Repr

/-- A new public connection: start forwarding. -/
structure StreamOpen where
  streamId : Nat
  tunnelId : Text
  kind : StreamKind
  http : Option HttpRequestHead
  remoteAddr : Text
  /-- Send credit granted to the agent for this stream. -/
  initialWindow : Nat
  deriving DecidableEq, Repr

structure HttpTunnelSpec where
  subdomain : Text
  customDomain : Text
  forwardTo : Text
  rewriteHostHeader : Bool
  deriving DecidableEq, Repr

structure TcpTunnelSpec where
  remotePort : Nat
  forwardTo : Text
  deriving DecidableEq, Repr

inductive TunnelSpec
  | http (spec : HttpTunnelSpec)
  | tcp (spec : TcpTunnelSpec)
  deriving DecidableEq, Repr

/-- A registration request; a missing `oneof` is `none`. -/
structure OpenTunnel where
  requestId : Text
  spec : Option TunnelSpec
  deriving DecidableEq, Repr

/-- Outcome of a registration, or notice of a lost one. -/
structure TunnelStatus where
  requestId : Text
  tunnelId : Text
  accepted : Bool
  error : Text
  publicUrl : Text
  routingKey : Text
  deriving DecidableEq, Repr

/-- `ServerFrame`: what the edge sends to the agent. -/
inductive ServerFrame
  | welcome (sessionId nodeId : Text)
  | tunnelStatus (status : TunnelStatus)
  | streamOpen (request : StreamOpen)
  | responseHead (head : HttpResponseHead)
  | streamData (streamId : Nat) (payload : Bytes)
  | streamEnd (streamId : Nat) (trailers : List Header)
  | streamReset (streamId : Nat) (code : ResetCode) (message : Text)
  | windowUpdate (streamId increment : Nat)
  | ping (nonce : Nat)
  | shutdown (reason : Text)
  deriving DecidableEq, Repr

/-- `ClientFrame`: what the agent sends to the edge. -/
inductive ClientFrame
  | unset
  | hello
  | openTunnel (request : OpenTunnel)
  | closeTunnel (tunnelId : Text)
  | responseHead (head : HttpResponseHead)
  | streamData (streamId : Nat) (payload : Bytes)
  | streamEnd (streamId : Nat) (trailers : List Header)
  | streamReset (streamId : Nat) (code : ResetCode) (message : Text)
  | windowUpdate (streamId increment : Nat)
  | pong (nonce : Nat)
  deriving DecidableEq, Repr

/-- The id that an `Open` frame opens. -/
def ServerFrame.opens : ServerFrame → Option Nat
  | .streamOpen request => some request.streamId
  | _ => none

/-- The payload a frame carries for one stream. -/
def ServerFrame.dataFor (i : Nat) : ServerFrame → Bytes
  | .streamData j payload => if j = i then payload else []
  | _ => []

/-- The payload a frame carries for one stream. -/
def ClientFrame.dataFor (i : Nat) : ClientFrame → Bytes
  | .streamData j payload => if j = i then payload else []
  | _ => []

/-- The credit a frame grants for one stream. -/
def ServerFrame.creditFor (i : Nat) : ServerFrame → Nat
  | .windowUpdate j increment => if j = i then increment else 0
  | _ => 0

/-- The credit a frame grants for one stream. -/
def ClientFrame.creditFor (i : Nat) : ClientFrame → Nat
  | .windowUpdate j increment => if j = i then increment else 0
  | _ => 0

section Payloads

variable {i : Nat}

/-- Only a `Data` frame carries a payload. -/
theorem ServerFrame.dataFor_eq_nil {frame : ServerFrame}
    (h : ∀ payload, frame ≠ .streamData i payload) : frame.dataFor i = [] := by
  cases frame with
  | streamData j payload =>
    refine if_neg ?_
    rintro rfl
    exact h payload rfl
  | _ => rfl

theorem ClientFrame.dataFor_eq_nil {frame : ClientFrame}
    (h : ∀ payload, frame ≠ .streamData i payload) : frame.dataFor i = [] := by
  cases frame with
  | streamData j payload =>
    refine if_neg ?_
    rintro rfl
    exact h payload rfl
  | _ => rfl

/-- Only a `WindowUpdate` frame grants credit. -/
theorem ServerFrame.creditFor_eq_zero {frame : ServerFrame}
    (h : ∀ increment, frame ≠ .windowUpdate i increment) : frame.creditFor i = 0 := by
  cases frame with
  | windowUpdate j increment =>
    refine if_neg ?_
    rintro rfl
    exact h increment rfl
  | _ => rfl

theorem ClientFrame.creditFor_eq_zero {frame : ClientFrame}
    (h : ∀ increment, frame ≠ .windowUpdate i increment) : frame.creditFor i = 0 := by
  cases frame with
  | windowUpdate j increment =>
    refine if_neg ?_
    rintro rfl
    exact h increment rfl
  | _ => rfl

end Payloads

/-- Largest payload either end puts in one `StreamData` frame. -/
def maxChunk : Nat := 64 * 1024

/-- Depth of the frame queue of a session, on either end. -/
def outboundQueue : Nat := 1024

/-- `u32::try_from(n).unwrap_or(u32::MAX)`. -/
def toU32 (n : Nat) : Nat := min n 4294967295

/-- The permits that either end acquires for a chunk. -/
def permits (chunk : Bytes) : Nat := toU32 chunk.length

end Norupo
