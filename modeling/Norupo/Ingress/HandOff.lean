import Norupo.Ingress.Transport

/-!
# Handing a request to a sibling node

`PeerClient::forward` of `norupo-server/src/peer.rs`. It replaces the target of the request by one
at the sibling's address and leaves the method, the version and the other headers alone. The host of
a request has two carriers, the authority of its target and its `Host` header; only the second can
survive, so the sibling derives the same key exactly when the `Host` header alone gives that key. A
request of HTTP/2 keeps its version and is not sent at all: the hand-off ends in a 502.

URI parsing and the HTTP client are parameters.
-/

namespace Norupo

open Text

/-- The text of the sibling's target after the scheme. -/
def targetText (record : RouteRecord) (req : HttpRequest) : Text :=
  record.nodeAddr ++ req.uri.pathAndQuery.getD "/".toList

/-- The value of the hop header; a node id that is no header value is replaced. -/
def hopValue (nodeId : Text) : Bytes :=
  if nodeId.all isVisibleChar then asciiBytes nodeId else asciiBytes "unknown".toList

/-- `PeerClient::forward` up to the HTTP client; `none` is the 502 page for a bad peer address. -/
def forward (parseUri : Text → Option Uri) (nodeId : Text) (record : RouteRecord)
    (req : HttpRequest) : Option HttpRequest :=
  (parseUri ("http://".toList ++ targetText record req)).map fun target =>
    { req with uri := target, headers := insertHeader hopHeader (hopValue nodeId) req.headers }

/-- Inserting a header leaves the others alone. -/
theorem getHeader_insertHeader {name other : Text} (h : name ≠ other) (value : Bytes)
    (headers : List Header) :
    getHeader name (insertHeader other value headers) = getHeader name headers := by
  rw [insertHeader, getHeader_append, if_neg (Ne.symm h), Option.or_none, getHeader, getHeader,
    List.find?_filter]
  have hsame : (fun header : Header => decide (header.name ≠ other ∧ header.name = name)) =
      fun header : Header => decide (header.name = name) := by
    funext header
    simp only [decide_eq_decide]
    exact ⟨And.right, fun he => ⟨fun ho => h (he.symm.trans ho), he⟩⟩
  simpa using congrArg (fun p => (headers.find? p).map Header.value) hsame

/-- A node whose routing table places every tunnel on a sibling. -/
def entryNode : NodeView where
  nodeId := "node_b".toList
  lookup := fun key => .ok (some ⟨key, "node_a".toList, "10.0.0.2:8081".toList, "sess_1".toList,
    "tun_1".toList, "acct_1".toList⟩)
  hasSession := fun _ => false

/-- A request for `/` with this authority and these headers. -/
def rootRequest (authority : Option Text) (headers : List Header) : HttpRequest where
  method := "GET".toList
  uri := ⟨authority, "/".toList, some "/".toList⟩
  version := .http11
  headers := headers

end Norupo
