import Norupo.Ingress.HandOff
import Norupo.Ingress.Headers

/-!
# Entering at the owner and entering at a sibling

`forward_local` of `norupo-server/src/ingress.rs` builds the `Open` frame from the request and from
the address that the request's connection came from. A request that enters at a sibling is sent on
by `PeerClient::forward` and parsed again by the owner's peer listener: its method, target and
headers are the ones that the owner would have seen, its address is the sibling's. How the length of
the body is stated on the way is the HTTP client's own affair, so a request that states it twice is
the one case in which the headers depend on the client.
-/

namespace Norupo

open Text

def upgradeHeader : Text := "upgrade".toList

/-- The `Debug` text of `http::Version`. -/
def HttpVersion.debug : HttpVersion → Text
  | .http10 => "HTTP/1.0".toList
  | .http11 => "HTTP/1.1".toList
  | .http2 => "HTTP/2.0".toList

/-- The arguments that `forward_local` calls `open_http_stream` with. -/
structure Opening where
  tunnelId : Text
  head : HttpRequestHead
  remoteAddr : Text
  deriving DecidableEq, Repr

/-- `forward_local` up to `open_http_stream`. -/
def forwardLocal (record : RouteRecord) (req : HttpRequest) (remoteAddr : Text) : Opening where
  tunnelId := record.tunnelId
  head :=
    { method := req.method
      path := req.uri.pathAndQuery.getD "/".toList
      authority := (requestHost req).getD []
      headers := sanitizeHeaders req.headers
      version := req.version.debug
      upgrade := ((getHeader upgradeHeader req.headers).bind toStr).getD [] }
  remoteAddr := remoteAddr

/-- A request that enters at the public listener of the owner, on a connection from `client`. -/
def enterAtOwner (owner : NodeView) (req : HttpRequest) (client : Text) : Option Opening :=
  match handle owner .publicListener req with
  | .serve record => some (forwardLocal record req client)
  | _ => none

/-- What a sibling sends on of a request that enters at its public listener. -/
def handedOver (parseUri : Text → Option Uri) (sibling : NodeView) (req : HttpRequest) :
    Option HttpRequest :=
  match handle sibling .publicListener req with
  | .handOff _ record => forward parseUri sibling.nodeId record req
  | _ => none

/-- A request that enters at the public listener of a sibling and is handed to the peer listener of
the owner, on a connection from `peer`. The address of the public client goes no further than the
sibling. -/
def enterAtSibling (parseUri : Text → Option Uri) (transport : HttpTransport)
    (sibling owner : NodeView) (req : HttpRequest) (peer : Text) : Option Opening :=
  ((handedOver parseUri sibling req).bind transport.deliver).bind fun got =>
    match handle owner .peerListener got with
    | .serve record => some (forwardLocal record got peer)
    | _ => none

/-- The headers that the agent is told, apart from the mark of the hand-off. -/
def toldHeaders (headers : List Header) : List Header :=
  (sanitizeHeaders headers).filter fun header => header.name ≠ hopHeader

/-- What the agent is told about the request: its method, path, authority, headers apart from the
mark of the hand-off, and the address of the public client. -/
def Opening.view (opening : Opening) : Text × Text × Text × List Header × Text :=
  (opening.head.method, opening.head.path, opening.head.authority,
    opening.head.headers.filter (fun header => header.name ≠ hopHeader), opening.remoteAddr)

/-- A request in origin form with a `Host` header. -/
structure OriginForm (req : HttpRequest) : Prop where
  /-- The target of `CONNECT` has a form of its own. -/
  method : req.method ≠ connectMethod
  authority : req.uri.authority = none
  target : ∃ rest, req.uri.pathAndQuery = some ('/' :: rest) ∧ '#' ∉ rest ∧
    req.uri.path = ('/' :: rest).takeWhile (· ≠ '?')
  host : (getHeader hostHeader req.headers).isSome

/-- The routing table gives both nodes the same answers, and its addresses are addresses without a
path. -/
structure Consistent (sibling owner : NodeView) : Prop where
  lookup : owner.lookup = sibling.lookup
  address : ∀ key record, sibling.lookup key = .ok (some record) →
    ∀ c ∈ record.nodeAddr, endsAuthority c = false

/-- The headers that the agent is told of a request arrive as they were sent. -/
def HttpTransport.KeepsTold (transport : HttpTransport) (req : HttpRequest) : Prop :=
  ∀ got, transport.deliver req = some got → toldHeaders got.headers = toldHeaders req.headers

section HandedOn

variable {parseUri : Text → Option Uri} {transport : HttpTransport} {nodeId : Text}
  {req out got : HttpRequest} {record : RouteRecord}

/-- The values of a name among the headers of other names. -/
theorem getAll_filter_ne {name other : Text} (h : name ≠ other) (headers : List Header) :
    getAll name (headers.filter fun header => header.name ≠ other) = getAll name headers := by
  rw [getAll, getAll, List.filter_filter]
  refine congrArg _ (List.filter_congr fun header _ => ?_)
  by_cases hn : header.name = name
  · simp [hn, h]
  · simp [hn]

/-- The headers that the agent is told do not depend on the coding of the body. -/
theorem toldHeaders_filter (headers : List Header) :
    toldHeaders (headers.filter fun header => header.name ≠ transferEncodingHeader) =
      toldHeaders headers := by
  have hne : connectionHeader ≠ transferEncodingHeader := by decide
  have hhop : isHopByHop transferEncodingHeader = true := by decide
  have hlisted : connectionListed
      (headers.filter fun header => header.name ≠ transferEncodingHeader) =
      connectionListed headers := by
    rw [connectionListed, connectionListed, getAll_filter_ne hne]
  have hsanitized : sanitizeHeaders
      (headers.filter fun header => header.name ≠ transferEncodingHeader) =
      sanitizeHeaders headers := by
    rw [sanitizeHeaders, sanitizeHeaders, hlisted, List.filter_filter]
    refine List.filter_congr fun header _ => ?_
    by_cases hc : header.name = transferEncodingHeader
    · simp [hc, hhop]
    · simp [hc]
  rw [toldHeaders, toldHeaders, hsanitized]

/-- A mark beside the other headers does not change which of them are listed by `Connection`. -/
theorem connectionListed_insertHeader (value : Bytes) (headers : List Header) :
    connectionListed (insertHeader hopHeader value headers) = connectionListed headers := by
  have hne : connectionHeader ≠ hopHeader := by decide
  have hall : getAll connectionHeader (insertHeader hopHeader value headers) =
      getAll connectionHeader headers := by
    rw [← getAll_filter_ne hne headers, getAll, getAll, insertHeader, List.filter_append]
    simp [Ne.symm hne]
  rw [connectionListed, connectionListed, hall]

/-- Apart from the mark, the headers of a handed-off request are sanitized to the same list. -/
theorem toldHeaders_insertHeader (value : Bytes) (headers : List Header) :
    toldHeaders (insertHeader hopHeader value headers) = toldHeaders headers := by
  rw [toldHeaders, toldHeaders, sanitizeHeaders, sanitizeHeaders, connectionListed_insertHeader,
    List.filter_filter, List.filter_filter, insertHeader, List.filter_append, List.filter_filter]
  have hlast : ∀ p : Header → Bool, ([⟨hopHeader, value⟩] : List Header).filter
      (fun header => decide (header.name ≠ hopHeader) && p header) = [] := by simp
  rw [hlast, List.append_nil]
  refine List.filter_congr fun header _ => ?_
  by_cases hh : header.name = hopHeader
  · simp [hh]
  · simp [hh]

/-- The target that a request in origin form is sent on to. -/
theorem target_forward (hparse : ParsesPath parseUri) (ho : OriginForm req)
    (haddr : ∀ c ∈ record.nodeAddr, endsAuthority c = false)
    (h : forward parseUri nodeId record req = some out) :
    out.uri.path = req.uri.path ∧ out.uri.pathAndQuery = req.uri.pathAndQuery := by
  obtain ⟨rest, hquery, hhash, hpath⟩ := ho.target
  obtain ⟨target, htarget, rfl⟩ := Option.map_eq_some_iff.mp h
  rw [targetText, hquery, Option.getD_some] at htarget
  obtain ⟨hquery', hpath'⟩ := hparse.path _ rest target haddr hhash htarget
  exact ⟨hpath'.trans hpath.symm, hquery'.trans hquery.symm⟩

/-- The mark does not touch the headers that frame the body. -/
theorem doublyFramed_insertHeader (value : Bytes) (headers : List Header) :
    DoublyFramed (insertHeader hopHeader value headers) ↔ DoublyFramed headers := by
  have hlength : contentLengthHeader ≠ hopHeader := by decide
  have hcoding : transferEncodingHeader ≠ hopHeader := by decide
  rw [DoublyFramed, DoublyFramed, getHeader_insertHeader hlength, getHeader_insertHeader hcoding]

/-- The owner tells the agent the headers of the request, up to the framing of a body whose length
is stated twice. -/
theorem toldHeaders_deliver (ht : transport.CarriesRequest)
    (hhost : (getHeader hostHeader req.headers).isSome)
    (hsend : forward parseUri nodeId record req = some out)
    (hgot : transport.deliver out = some got) :
    toldHeaders got.headers = toldHeaders req.headers ↔
      (DoublyFramed req.headers → transport.KeepsTold out) := by
  obtain ⟨target, -, rfl⟩ := Option.map_eq_some_iff.mp hsend
  have hne : hostHeader ≠ hopHeader := by decide
  have hmark := toldHeaders_insertHeader (hopValue nodeId) req.headers
  constructor
  · intro heq _ got' hgot'
    obtain rfl := Option.some.inj (hgot.symm.trans hgot')
    exact heq.trans hmark.symm
  · intro hkeeps
    by_cases hframed : DoublyFramed req.headers
    · exact (hkeeps hframed got hgot).trans hmark
    · have hheaders := ht.headers _ got hgot (by rwa [getHeader_insertHeader hne])
        (by rwa [doublyFramed_insertHeader])
      rw [← toldHeaders_filter, hheaders, toldHeaders_filter, hmark]

/-- The owner sees the method, the target and the host of the request. -/
theorem deliver_forward (hparse : ParsesPath parseUri) (ht : transport.CarriesRequest)
    (ho : OriginForm req) (haddr : ∀ c ∈ record.nodeAddr, endsAuthority c = false)
    (hsend : forward parseUri nodeId record req = some out)
    (hgot : transport.deliver out = some got) :
    got.method = req.method ∧ got.uri.pathAndQuery = req.uri.pathAndQuery ∧
      requestHost got = requestHost req ∧ lookupKey got = lookupKey req := by
  obtain ⟨hpath, hquery⟩ := target_forward hparse ho haddr hsend
  obtain ⟨target, -, rfl⟩ := Option.map_eq_some_iff.mp hsend
  have hne : hostHeader ≠ hopHeader := by decide
  have hmethod := ht.method _ got hgot
  have hauthority := ht.authority _ got hgot
  rw [if_neg ho.method] at hauthority
  obtain ⟨hpath', hquery'⟩ := ht.target _ got hgot ho.method
  obtain ⟨value, hvalue⟩ := Option.isSome_iff_exists.mp ho.host
  have hhost := ht.host _ got hgot
  rw [getHeader_insertHeader hne, hvalue, Option.getD_some] at hhost
  have hrequest : requestHost got = requestHost req := by
    rw [requestHost, requestHost, ho.authority, hauthority, hhost, hvalue]
  exact ⟨hmethod, hquery'.trans hquery, hrequest, by
    rw [lookupKey, lookupKey, routingKey, routingKey, hpath'.trans hpath, hrequest]⟩

end HandedOn

/-- A request that is handed off and then served would be served by the owner too, and the agent is
told the same in both cases exactly when the hand-off comes from the public client's own address
and, if the request states the length of its body twice, the HTTP client keeps the headers that are
told. -/
theorem entryNode_irrelevant_iff {parseUri : Text → Option Uri} (hparse : ParsesPath parseUri)
    {transport : HttpTransport} (ht : transport.CarriesRequest) {sibling owner : NodeView}
    (hc : Consistent sibling owner) {req : HttpRequest} (ho : OriginForm req)
    {client peer : Text} {handed : Opening}
    (h : enterAtSibling parseUri transport sibling owner req peer = some handed) :
    ∃ direct, enterAtOwner owner req client = some direct ∧
      (handed.view = direct.view ↔ peer = client ∧ (DoublyFramed req.headers →
        ∀ out, handedOver parseUri sibling req = some out → transport.KeepsTold out)) := by
  obtain ⟨got, hdelivered, hserve⟩ := Option.bind_eq_some_iff.mp h
  obtain ⟨out, hover, hgot⟩ := Option.bind_eq_some_iff.mp hdelivered
  have hsent := hover
  unfold handedOver at hsent
  split at hsent
  swap
  · cases hsent
  rename_i key record hroute
  obtain ⟨hkey, hlookup, -⟩ := handle_handOff hroute
  obtain ⟨hmethod, hquery, hhost, hsame⟩ :=
    deliver_forward hparse ht ho (hc.address key record hlookup) hsent hgot
  split at hserve
  swap
  · cases hserve
  rename_i served hs
  obtain ⟨key', hkey', hlookup', hnode, hsession⟩ := handle_serve hs
  obtain rfl : key' = key := by
    rw [hsame, hkey] at hkey'
    exact Option.some.inj hkey'.symm
  have hdirect : handle owner .publicListener req = .serve served := by
    rw [handle_eq_place hkey hlookup', place, if_pos hnode, if_pos hsession]
  refine ⟨forwardLocal served req client, by rw [enterAtOwner, hdirect], ?_⟩
  obtain rfl := Option.some.inj hserve
  have htold := toldHeaders_deliver ht ho.host hsent hgot
  simp only [toldHeaders] at htold
  simp only [Opening.view, forwardLocal, hmethod, hquery, hhost, Prod.mk.injEq, true_and, htold,
    hover, Option.some.injEq, forall_eq']
  exact and_comm

/-- The node that `entryNode` hands its requests to, with the same routing table. -/
def ownerNode : NodeView :=
  { entryNode with nodeId := "node_a".toList, hasSession := fun _ => true }

theorem consistent_ownerNode : Consistent entryNode ownerNode where
  lookup := rfl
  address key record h := by
    obtain rfl := Option.some.inj (Except.ok.inj h)
    have haddr : ("10.0.0.2:8081".toList.all fun c => !endsAuthority c) = true := rfl
    intro c hc
    simpa using List.all_eq_true.mp haddr c hc

/-- `GET /hello?a=1` for `a.tunnel.com`. -/
def helloRequest : HttpRequest where
  method := "GET".toList
  uri := ⟨none, "/hello".toList, some "/hello?a=1".toList⟩
  version := .http11
  headers := [⟨hostHeader, asciiBytes "a.tunnel.com".toList⟩,
    ⟨"accept".toList, asciiBytes "*/*".toList⟩]

theorem originForm_helloRequest : OriginForm helloRequest where
  method := by decide
  authority := rfl
  target := ⟨"hello?a=1".toList, rfl, by decide, rfl⟩
  host := rfl

/-- A hand-off that comes from the address of the public client. -/
theorem entryNode_irrelevant_same : ∃ handed direct,
    enterAtSibling parsePlainUri plainTransport entryNode ownerNode helloRequest
      "10.0.0.3:41234".toList = some handed ∧
    enterAtOwner ownerNode helloRequest "10.0.0.3:41234".toList = some direct ∧
    handed.view = direct.view := by
  obtain ⟨handed, hh⟩ : ∃ handed, enterAtSibling parsePlainUri plainTransport entryNode ownerNode
      helloRequest "10.0.0.3:41234".toList = some handed := ⟨_, rfl⟩
  have honce : ¬ DoublyFramed helloRequest.headers := by decide
  obtain ⟨direct, hd, hiff⟩ := entryNode_irrelevant_iff parsesPath_parsePlainUri
    carriesRequest_plainTransport consistent_ownerNode originForm_helloRequest hh
  exact ⟨handed, direct, hh, hd, hiff.mpr ⟨rfl, fun htwice => absurd htwice honce⟩⟩

/-- A public client whose request is handed off is taken for the sibling node. -/
theorem handOff_loses_client : ¬ ∀ (parseUri : Text → Option Uri) (transport : HttpTransport)
    (sibling owner : NodeView) (req : HttpRequest) (client peer : Text) (handed direct : Opening),
    ParsesPath parseUri → transport.CarriesRequest → Consistent sibling owner → OriginForm req →
    enterAtSibling parseUri transport sibling owner req peer = some handed →
    enterAtOwner owner req client = some direct → handed.view = direct.view := by
  intro h
  have hview := h parsePlainUri plainTransport entryNode ownerNode helloRequest
    "203.0.113.7:50000".toList "10.0.0.3:41234".toList _ _ parsesPath_parsePlainUri
    carriesRequest_plainTransport consistent_ownerNode originForm_helloRequest rfl rfl
  revert hview
  decide

end Norupo
