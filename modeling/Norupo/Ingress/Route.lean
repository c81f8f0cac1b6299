import Norupo.Core.Routing
import Norupo.Core.Uri
import Norupo.Proto.Frame
import Norupo.Registry.Memory

/-!
# Routing a public request

The decision part of `ingress::handle` in `norupo-server/src/ingress.rs`: from the host of a request
to the record of its tunnel, and from there to the session on this node, to a sibling node or to an
error page. The answers of the routing table and of the session table are inputs.
-/

namespace Norupo

open Text

/-- `http::Version`, as far as the HTTP server serves it. -/
inductive HttpVersion
  | http10
  | http11
  | http2
  deriving DecidableEq, Repr

/-- A request as the HTTP server delivers it, without its body. Header names are lower case. -/
structure HttpRequest where
  method : Text
  uri : Uri
  version : HttpVersion
  headers : List Header
  deriving DecidableEq, Repr

/-- `HeaderMap::get`: the first value of a name. -/
def getHeader (name : Text) (headers : List Header) : Option Bytes :=
  (headers.find? fun header => header.name = name).map Header.value

/-- `HeaderMap::insert`: the value replaces all values of its name. -/
def insertHeader (name : Text) (value : Bytes) (headers : List Header) : List Header :=
  headers.filter (fun header => header.name ≠ name) ++ [⟨name, value⟩]

/-- Bytes that `HeaderValue::to_str` accepts. -/
def isVisibleAscii (byte : UInt8) : Bool := 32 ≤ byte && byte < 127 || byte = 9

/-- `HeaderValue::to_str`. -/
def toStr (value : Bytes) : Option Text :=
  if value.all isVisibleAscii then some (value.map fun byte => Char.ofNat byte.toNat) else none

/-- ASCII text as bytes. -/
def asciiBytes (text : Text) : Bytes := text.map fun c => UInt8.ofNat c.toNat

def hostHeader : Text := "host".toList

/-- `HOP_HEADER`. -/
def hopHeader : Text := "x-norupo-hop".toList

/-- `INTERNAL_PREFIX`. -/
def internalPath : Text := "/__norupo/".toList

/-- Whether a listener may hand a request to a sibling node. -/
inductive Role
  /-- The internet-facing listener. -/
  | publicListener
  /-- The internal listener that sibling nodes hand off to. -/
  | peerListener
  deriving DecidableEq, Repr

/-- What a node knows when it routes a request. -/
structure NodeView where
  nodeId : Text
  /-- The answer of the routing table. -/
  lookup : Text → Except Error (Option RouteRecord)
  /-- Whether a session is in the session table. -/
  hasSession : Text → Bool

/-- `html_escape`; the characters 34 and 39 are the two quotes. -/
def htmlEscape (raw : Text) : Text :=
  raw.flatMap fun c =>
    if c = '&' then "&amp;".toList
    else if c = '<' then "&lt;".toList
    else if c = '>' then "&gt;".toList
    else if c.toNat = 34 then "&quot;".toList
    else if c.toNat = 39 then "&#x27;".toList
    else [c]

/-- How `handle` goes on with a request. -/
inductive Decision
  /-- The edge's own endpoints. -/
  | internal (path : Text)
  /-- An error page with its status, title and detail. -/
  | errorPage (status : Nat) (title detail : Text)
  /-- `tunnel_not_found`. -/
  | notFound (routingKey : Text)
  /-- `forward_local`: this node holds the session. -/
  | serve (record : RouteRecord)
  /-- This node is named but does not hold the session: release the claim, then not found. -/
  | releaseStale (routingKey : Text) (record : RouteRecord)
  /-- `PeerClient::forward`. -/
  | handOff (routingKey : Text) (record : RouteRecord)
  deriving DecidableEq, Repr

/-- `request_host`: the authority of the target, or else the `Host` header. -/
def requestHost (req : HttpRequest) : Option Text :=
  match req.uri.authority with
  | some authority => some authority
  | none => (getHeader hostHeader req.headers).bind toStr

/-- The routing key that a node derives from a request, if it derives one. -/
def routingKey (req : HttpRequest) : Option Text :=
  (requestHost req).bind fun host => (normalizeHost host).toOption

/-- The key that `handle` looks up: none for the edge's own endpoints. -/
def lookupKey (req : HttpRequest) : Option Text :=
  if (stripPrefix internalPath req.uri.path).isSome then none else routingKey req

/-- The part of `handle` after the routing table has named a record. -/
def place (nodeId : Text) (hasSession : Text → Bool) (role : Role) (req : HttpRequest)
    (key : Text) (record : RouteRecord) : Decision :=
  if record.nodeId = nodeId then
    if hasSession record.sessionId then .serve record else .releaseStale key record
  else if role = .peerListener || (getHeader hopHeader req.headers).isSome then
    .errorPage 508 "Routing loop".toList
      ("The edge cluster disagreed about which node owns this tunnel. Retry in a " ++
        "moment.").toList
  else .handOff key record

/-- `handle`, up to the point where the request is passed on or answered. -/
def handle (node : NodeView) (role : Role) (req : HttpRequest) : Decision :=
  if (stripPrefix internalPath req.uri.path).isSome then .internal req.uri.path
  else match requestHost req with
  | none => .errorPage 400 "Missing host".toList
      ("The request did not carry a <code>Host</code> header, so the edge cannot tell which " ++
        "tunnel it belongs to.").toList
  | some host =>
    match normalizeHost host with
    | .error e => .errorPage 400 "Invalid host".toList (htmlEscape e.toText)
    | .ok key =>
      match node.lookup key with
      | .error _ => .errorPage 502 "Routing unavailable".toList
          ("The edge could not reach its routing table. This is a server-side problem; retry " ++
            "shortly.").toList
      | .ok none => .notFound key
      | .ok (some record) => place node.nodeId node.hasSession role req key record

/-- Only the key and the record that were looked up are passed on, to another node, on the public
listener and without a hop mark. -/
theorem place_handOff {nodeId key key' : Text} {hasSession : Text → Bool} {role : Role}
    {req : HttpRequest} {record record' : RouteRecord}
    (h : place nodeId hasSession role req key record = .handOff key' record') :
    key' = key ∧ record' = record ∧ record.nodeId ≠ nodeId ∧ role = .publicListener ∧
      getHeader hopHeader req.headers = none := by
  unfold place at h
  split at h
  · split at h <;> cases h
  rename_i hnode
  split at h
  · cases h
  rename_i hrole
  obtain ⟨rfl, rfl⟩ := Decision.handOff.inj h
  refine ⟨rfl, rfl, hnode, ?_, ?_⟩
  · cases role <;> simp_all
  · cases hg : getHeader hopHeader req.headers <;> simp_all

/-- A stale claim is released only on the node it names, when that node does not hold the
session. -/
theorem place_releaseStale {nodeId key key' : Text} {hasSession : Text → Bool} {role : Role}
    {req : HttpRequest} {record record' : RouteRecord}
    (h : place nodeId hasSession role req key record = .releaseStale key' record') :
    key' = key ∧ record' = record ∧ record.nodeId = nodeId ∧
      hasSession record.sessionId = false := by
  unfold place at h
  split at h
  · rename_i hnode
    split at h
    · cases h
    · rename_i hs
      obtain ⟨rfl, rfl⟩ := Decision.releaseStale.inj h
      exact ⟨rfl, rfl, hnode, by simpa using hs⟩
  · split at h <;> cases h

/-- The decisions that are made about a record of the routing table. -/
def Decision.isPlaced : Decision → Bool
  | .serve _ | .releaseStale _ _ | .handOff _ _ => true
  | _ => false

/-- A decision about a record is made about the record of the key that was looked up. -/
theorem handle_cases {node : NodeView} {role : Role} {req : HttpRequest} {decision : Decision}
    (h : handle node role req = decision) (hd : decision.isPlaced = true) :
    ∃ key record, lookupKey req = some key ∧ node.lookup key = .ok (some record) ∧
      place node.nodeId node.hasSession role req key record = decision := by
  subst h
  unfold handle at hd ⊢
  split at hd
  · cases hd
  rename_i hpath
  split at hd
  · cases hd
  rename_i host hhost
  split at hd
  · cases hd
  rename_i key hkey
  split at hd
  · cases hd
  · cases hd
  rename_i record hlookup
  refine ⟨key, record, ?_, hlookup, ?_⟩
  · simp [lookupKey, hpath, routingKey, hhost, hkey, Except.toOption]
  · simp [hpath]

/-- The other way around: what is looked up is placed. -/
theorem handle_eq_place {node : NodeView} {role : Role} {req : HttpRequest} {key : Text}
    {record : RouteRecord} (hkey : lookupKey req = some key)
    (hlookup : node.lookup key = .ok (some record)) :
    handle node role req = place node.nodeId node.hasSession role req key record := by
  unfold lookupKey at hkey
  split at hkey
  · cases hkey
  rename_i hpath
  obtain ⟨host, hhost, hnorm⟩ := Option.bind_eq_some_iff.mp hkey
  cases hn : normalizeHost host with
  | error e =>
    rw [hn] at hnorm
    cases hnorm
  | ok key' =>
    rw [hn] at hnorm
    obtain rfl : key' = key := Option.some.inj hnorm
    simp [handle, hpath, hhost, hn, hlookup]

/-- A request is handed off only with the key that was derived from it, and only if no node has
marked it. -/
theorem handle_handOff {node : NodeView} {role : Role} {req : HttpRequest} {key : Text}
    {record : RouteRecord} (h : handle node role req = .handOff key record) :
    lookupKey req = some key ∧ node.lookup key = .ok (some record) ∧
      getHeader hopHeader req.headers = none := by
  obtain ⟨key', record', hkey, hlookup, hplace⟩ := handle_cases h rfl
  obtain ⟨rfl, rfl, -, -, hhop⟩ := place_handOff hplace
  exact ⟨hkey, hlookup, hhop⟩

/-- A request is served only on the node that its record names, which holds the session. -/
theorem handle_serve {node : NodeView} {role : Role} {req : HttpRequest} {record : RouteRecord}
    (h : handle node role req = .serve record) :
    ∃ key, lookupKey req = some key ∧ node.lookup key = .ok (some record) ∧
      record.nodeId = node.nodeId ∧ node.hasSession record.sessionId = true := by
  obtain ⟨key, record', hkey, hlookup, hplace⟩ := handle_cases h rfl
  unfold place at hplace
  split at hplace
  · rename_i hnode
    split at hplace
    · rename_i hsession
      obtain rfl := Decision.serve.inj hplace
      exact ⟨key, hkey, hlookup, hnode, hsession⟩
    · cases hplace
  · split at hplace <;> cases hplace

/-- The key that is looked up is derived from the host. -/
theorem routingKey_of_lookupKey {req : HttpRequest} {key : Text} (h : lookupKey req = some key) :
    routingKey req = some key := by
  unfold lookupKey at h
  split at h
  · cases h
  · exact h

end Norupo
