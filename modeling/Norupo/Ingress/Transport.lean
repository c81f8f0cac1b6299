import Norupo.Ingress.Route

/-!
# The way of a request to another node

`PeerClient` sends a request with an HTTP client over a connection of HTTP/1, and the HTTP server of
the other node reads it again. Both are library code: what becomes of a request on the way is a
parameter, and what is documented of it is stated in parts, so that each result assumes what it
needs. The headers that frame a body are the client's and the server's own: what becomes of a
`transfer-encoding`, and of a `content-length` beside one, is left open.
-/

namespace Norupo

def connectMethod : Text := "CONNECT".toList

def contentLengthHeader : Text := "content-length".toList

def transferEncodingHeader : Text := "transfer-encoding".toList

/-- The HTTP client of a node and the HTTP server that it reaches. -/
structure HttpTransport where
  /-- The request that `handle` is called with on the other node, if there is one. -/
  deliver : HttpRequest → Option HttpRequest
  /-- The `Host` header that the client derives from an authority. -/
  hostFor : Text → Bytes

/-- What a connection of HTTP/1 takes: no request of HTTP/2, and no `CONNECT` of HTTP/1.0. -/
def HttpRequest.isSendable (req : HttpRequest) : Bool :=
  match req.version with
  | .http10 => req.method ≠ connectMethod
  | .http11 => true
  | .http2 => false

/-- The length of the body is stated twice. -/
def DoublyFramed (headers : List Header) : Prop :=
  (getHeader contentLengthHeader headers).isSome ∧
    (getHeader transferEncodingHeader headers).isSome

instance (headers : List Header) : Decidable (DoublyFramed headers) :=
  inferInstanceAs (Decidable (_ ∧ _))

namespace HttpTransport

/-- A hop mark that is sent is received. -/
def KeepsMark (transport : HttpTransport) : Prop :=
  ∀ req got, transport.deliver req = some got → (getHeader hopHeader req.headers).isSome →
    (getHeader hopHeader got.headers).isSome

/-- What is documented of the host of a request: the target is sent in origin form, that of
`CONNECT` in authority form, and a `Host` header is kept, or derived from the target when there is
none. -/
structure CarriesHost (transport : HttpTransport) : Prop where
  refused : ∀ req, req.isSendable = false → transport.deliver req = none
  authority : ∀ req got, transport.deliver req = some got →
    got.uri.authority = if req.method = connectMethod then req.uri.authority else none
  host : ∀ req got, transport.deliver req = some got → getHeader hostHeader got.headers =
    some ((getHeader hostHeader req.headers).getD
      (transport.hostFor (req.uri.authority.getD [])))

/-- What is documented of the rest of a request: its method, its path and query, and the other
headers of a request that has a `Host` header and states the length of its body once. -/
structure CarriesRequest (transport : HttpTransport) : Prop extends CarriesHost transport where
  method : ∀ req got, transport.deliver req = some got → got.method = req.method
  target : ∀ req got, transport.deliver req = some got → req.method ≠ connectMethod →
    got.uri.path = req.uri.path ∧ got.uri.pathAndQuery = req.uri.pathAndQuery
  headers : ∀ req got, transport.deliver req = some got →
    (getHeader hostHeader req.headers).isSome → ¬ DoublyFramed req.headers →
    got.headers.filter (fun header => header.name ≠ transferEncodingHeader) =
      req.headers.filter fun header => header.name ≠ transferEncodingHeader

end HttpTransport

/-- The target of a request as an HTTP client sends it. -/
def sentTarget (req : HttpRequest) : Uri :=
  if req.method = connectMethod then ⟨req.uri.authority, [], none⟩
  else { req.uri with authority := none }

/-- The headers of a request as an HTTP client sends them. -/
def sentHeaders (req : HttpRequest) : List Header :=
  if (getHeader hostHeader req.headers).isSome then req.headers
  else req.headers ++ [⟨hostHeader, asciiBytes (req.uri.authority.getD [])⟩]

/-- A client that adds nothing but a missing `Host` header, and a server that reads what was
sent. -/
def plainTransport : HttpTransport where
  deliver req :=
    if req.isSendable then
      some { req with uri := sentTarget req, headers := sentHeaders req }
    else none
  hostFor := asciiBytes

/-- What a plain transport delivers. -/
theorem deliver_plainTransport {req got : HttpRequest}
    (h : plainTransport.deliver req = some got) :
    req.isSendable = true ∧
      got = { req with uri := sentTarget req, headers := sentHeaders req } := by
  obtain ⟨hs, hgot⟩ := Option.ite_none_right_eq_some.mp h
  exact ⟨hs, (Option.some.inj hgot).symm⟩

/-- A header at the end is found when there is none of its name before. -/
theorem getHeader_append (name : Text) (headers : List Header) (last : Header) :
    getHeader name (headers ++ [last]) =
      (getHeader name headers).or (if last.name = name then some last.value else none) := by
  unfold getHeader
  rw [List.find?_append]
  cases headers.find? fun header => header.name = name with
  | some header => rfl
  | none => by_cases hn : last.name = name <;> simp [hn]

theorem carriesRequest_plainTransport : plainTransport.CarriesRequest where
  refused req h := by simp [plainTransport, h]
  authority req got h := by
    obtain ⟨-, rfl⟩ := deliver_plainTransport h
    simp only [sentTarget]
    split <;> rfl
  host req got h := by
    obtain ⟨-, rfl⟩ := deliver_plainTransport h
    cases hg : getHeader hostHeader req.headers with
    | some value => simp [sentHeaders, hg]
    | none => simp [sentHeaders, hg, getHeader_append, plainTransport]
  method req got h := by
    obtain ⟨-, rfl⟩ := deliver_plainTransport h
    rfl
  target req got h hm := by
    obtain ⟨-, rfl⟩ := deliver_plainTransport h
    rw [sentTarget, if_neg hm]
    exact ⟨rfl, rfl⟩
  headers req got h hh _ := by
    obtain ⟨-, rfl⟩ := deliver_plainTransport h
    rw [sentHeaders, if_pos hh]

theorem keepsMark_plainTransport : plainTransport.KeepsMark := by
  intro req got h hm
  obtain ⟨-, rfl⟩ := deliver_plainTransport h
  obtain ⟨value, hv⟩ := Option.isSome_iff_exists.mp hm
  unfold sentHeaders
  split
  · exact hm
  · rw [getHeader_append, hv]
    rfl

end Norupo
