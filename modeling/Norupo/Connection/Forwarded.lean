import Norupo.Agent.Target
import Norupo.Ingress.EntryNode

/-!
# The forwarding headers

`serve_stream` of `norupo-client/src/agent.rs` tells the local service the public host and the
scheme in headers of its own. It adds them to the headers that the public client sent, which have
come through `sanitize_headers` on the edge. Neither of the two drops a header of the same name, so
that such a header of the client stands beside, and in front of, the agent's.
-/

namespace Norupo

open Text

def forwardedHostHeader : Text := "x-forwarded-host".toList

def forwardedProtoHeader : Text := "x-forwarded-proto".toList

/-- The values under a name, which is read without regard to case. -/
def valuesOf (name : Text) (headers : List Header) : List Bytes :=
  (headers.filter fun header => eqIgnoreAsciiCase header.name name).map Header.value

/-- A name that the agent sets itself. -/
def isForwarding (name : Text) : Bool :=
  eqIgnoreAsciiCase name forwardedHostHeader || eqIgnoreAsciiCase name forwardedProtoHeader

/-- The local service receives one value of each forwarding header: the authority of the request,
and the scheme that the agent sets. -/
structure Unforged (lib : HttpLibrary) (head : HttpRequestHead) (request : LocalRequest) :
    Prop where
  host : ∃ value, lib.headerText head.authority = some value ∧
    valuesOf forwardedHostHeader request.headers = [value]
  proto : ∃ value, lib.headerText "https".toList = some value ∧
    valuesOf forwardedProtoHeader request.headers = [value]

/-- A letter, a digit or a hyphen. -/
def isNameChar (c : Char) : Bool :=
  isAsciiLowercase (lowerChar c) || isAsciiDigit (lowerChar c) || lowerChar c = '-'

/-- What `HeaderName::try_from` promises: a name is taken over in lower case, and every name of
letters, digits and hyphens is taken. -/
structure HttpLibrary.ReadsNames (lib : HttpLibrary) : Prop where
  lower : ∀ name parsed, lib.headerName name = some parsed → parsed = toAsciiLowercase name
  plain : ∀ name, name ≠ [] → name.length < 2 ^ 16 → name.all isNameChar = true →
    lib.headerName name ≠ none

/-- Headers under the names that the agent sets have no valid value, so that none is kept. -/
def KeepsNone (lib : HttpLibrary) (headers : List Header) : Prop :=
  ∀ header ∈ headers, isForwarding header.name = true → lib.headerBytes header.value = none

theorem valuesOf_append (name : Text) (headers others : List Header) :
    valuesOf name (headers ++ others) = valuesOf name headers ++ valuesOf name others := by
  rw [valuesOf, List.filter_append, List.map_append, ← valuesOf, ← valuesOf]

/-- A name without a value. -/
theorem valuesOf_eq_nil {name : Text} {headers : List Header} : valuesOf name headers = [] ↔
    ∀ header ∈ headers, eqIgnoreAsciiCase header.name name = false := by
  rw [valuesOf, List.map_eq_nil_iff, List.filter_eq_nil_iff]
  refine forall₂_congr fun header _ => ?_
  rw [Bool.not_eq_true]

/-- The headers that the agent sets besides the two. -/
theorem valuesOf_rewrittenHost {lib : HttpLibrary} {options : AgentOptions} {host : List Header}
    (h : rewrittenHost lib options = some host) {name : Text}
    (hname : eqIgnoreAsciiCase "host".toList name = false) : valuesOf name host = [] := by
  rw [valuesOf_eq_nil]
  unfold rewrittenHost at h
  split at h
  · obtain ⟨value, -, rfl⟩ := Option.map_eq_some_iff.mp h
    intro header hheader
    obtain rfl := List.mem_singleton.mp hheader
    exact hname
  · obtain rfl := Option.some.inj h
    simp

theorem valuesOf_forwardedFor {lib : HttpLibrary} {remoteAddr : Text} {client : List Header}
    (h : forwardedFor lib remoteAddr = some client) {name : Text}
    (hname : eqIgnoreAsciiCase "x-forwarded-for".toList name = false) :
    valuesOf name client = [] := by
  rw [valuesOf_eq_nil]
  unfold forwardedFor at h
  split at h
  · obtain ⟨value, -, rfl⟩ := Option.map_eq_some_iff.mp h
    intro header hheader
    obtain rfl := List.mem_singleton.mp hheader
    exact hname
  · obtain rfl := Option.some.inj h
    simp

section Request

variable {lib : HttpLibrary} {options : AgentOptions} {remoteAddr : Text} {head : HttpRequestHead}
  {request : LocalRequest}

/-- The forwarding headers of the request that is built: the client's that are kept, and then the
agent's. -/
theorem valuesOf_localRequest (h : localRequest lib options remoteAddr head = some request) :
    ∃ host proto, lib.headerText head.authority = some host ∧
      lib.headerText "https".toList = some proto ∧
      valuesOf forwardedHostHeader request.headers =
        valuesOf forwardedHostHeader (localHeaders lib options head.headers) ++ [host] ∧
      valuesOf forwardedProtoHeader request.headers =
        valuesOf forwardedProtoHeader (localHeaders lib options head.headers) ++ [proto] := by
  simp only [localRequest, Option.bind_eq_bind, Option.bind_eq_some_iff] at h
  obtain ⟨method, -, uri, -, rewritten, hrewritten, client, hclient, host, hhost, proto, hproto,
    heq⟩ := h
  obtain rfl := Option.some.inj heq
  have hset : ∀ name, eqIgnoreAsciiCase "host".toList name = false →
      eqIgnoreAsciiCase "x-forwarded-for".toList name = false → ∀ kept set : List Header,
      valuesOf name (kept ++ rewritten ++ client ++ set) =
        valuesOf name kept ++ valuesOf name set := by
    intro name hname hfor kept set
    rw [valuesOf_append, valuesOf_append, valuesOf_append, valuesOf_rewrittenHost hrewritten hname,
      valuesOf_forwardedFor hclient hfor, List.append_nil, List.append_nil]
  refine ⟨host, proto, hhost, hproto, ?_, ?_⟩
  · rw [hset _ (by decide) (by decide)]
    rfl
  · rw [hset _ (by decide) (by decide)]
    rfl

/-- The headers of the client that the local service receives. -/
theorem mem_localHeaders {headers : List Header} {header : Header} :
    header ∈ localHeaders lib options headers ↔ ∃ sent ∈ headers,
      ¬ (toAsciiLowercase sent.name = "host".toList ∧ options.rewriteHost = true) ∧
        lib.headerName sent.name = some header.name ∧
        lib.headerBytes sent.value = some header.value := by
  obtain ⟨name, value⟩ := header
  rw [localHeaders, List.mem_filterMap]
  refine exists_congr fun sent => and_congr_right fun _ => ?_
  simp only [Bool.and_eq_true, decide_eq_true_eq, Option.ite_none_left_eq_some]
  refine and_congr_right fun _ => ?_
  cases lib.headerName sent.name with
  | none => simp
  | some parsed =>
    cases lib.headerBytes sent.value with
    | none => simp
    | some bytes => simp

/-- The characters of a name do not depend on its case. -/
theorem all_isNameChar_congr {name other : Text}
    (h : toAsciiLowercase name = toAsciiLowercase other) (ho : other.all isNameChar = true) :
    name.all isNameChar = true := by
  have hlower : ∀ text : Text, text.all isNameChar = (toAsciiLowercase text).all fun c =>
      isAsciiLowercase c || isAsciiDigit c || c = '-' := by
    intro text
    rw [toAsciiLowercase, List.all_map]
    rfl
  rw [hlower, h, ← hlower]
  exact ho

/-- No header of the client is kept under a name exactly when none has a valid value there. -/
theorem valuesOf_localHeaders (hlib : lib.ReadsNames) {headers : List Header} {name : Text}
    (hne : name ≠ []) (hshort : name.length < 2 ^ 16) (hchars : name.all isNameChar = true)
    (hhost : toAsciiLowercase name ≠ "host".toList) :
    valuesOf name (localHeaders lib options headers) = [] ↔ ∀ header ∈ headers,
      eqIgnoreAsciiCase header.name name = true → lib.headerBytes header.value = none := by
  rw [valuesOf_eq_nil]
  constructor
  · intro h header hheader hcase
    rw [eqIgnoreAsciiCase, beq_iff_eq] at hcase
    by_contra hvalue
    obtain ⟨value, hvalue⟩ := Option.ne_none_iff_exists'.mp hvalue
    have hlength : header.name.length = name.length := by
      have hlen := congrArg List.length hcase
      rwa [toAsciiLowercase, toAsciiLowercase, List.length_map, List.length_map] at hlen
    have hparsed : lib.headerName header.name ≠ none := by
      refine hlib.plain _ ?_ (by omega) (all_isNameChar_congr hcase hchars)
      intro hnil
      rw [hnil, List.length_nil] at hlength
      exact hne (List.eq_nil_of_length_eq_zero hlength.symm)
    obtain ⟨parsed, hparsed⟩ := Option.ne_none_iff_exists'.mp hparsed
    have hkept : (⟨parsed, value⟩ : Header) ∈ localHeaders lib options headers := by
      refine mem_localHeaders.mpr ⟨header, hheader, ?_, hparsed, hvalue⟩
      rintro ⟨hh, -⟩
      exact hhost (hcase.symm.trans hh)
    have hsame := h _ hkept
    rw [hlib.lower _ _ hparsed, eqIgnoreAsciiCase, toAsciiLowercase_toAsciiLowercase, hcase,
      beq_self_eq_true] at hsame
    cases hsame
  · intro h header hheader
    obtain ⟨sent, hsent, -, hname, hvalue⟩ := mem_localHeaders.mp hheader
    rw [Bool.eq_false_iff]
    intro hcase
    rw [hlib.lower _ _ hname, eqIgnoreAsciiCase, toAsciiLowercase_toAsciiLowercase] at hcase
    rw [h sent hsent hcase] at hvalue
    cases hvalue

/-- The local service sees the agent's forwarding headers alone exactly when none of the client's is
kept. -/
theorem unforged_iff_keepsNone (hlib : lib.ReadsNames)
    (h : localRequest lib options remoteAddr head = some request) :
    Unforged lib head request ↔ KeepsNone lib head.headers := by
  obtain ⟨host, proto, hhost, hproto, hhosts, hprotos⟩ := valuesOf_localRequest h
  have honly : ∀ {values : List Bytes} {value : Bytes}, values ++ [value] = [value] ↔ values = [] :=
    List.append_left_eq_self
  have hkept : Unforged lib head request ↔
      valuesOf forwardedHostHeader (localHeaders lib options head.headers) = [] ∧
        valuesOf forwardedProtoHeader (localHeaders lib options head.headers) = [] := by
    constructor
    · rintro ⟨⟨value, hvalue, hone⟩, ⟨value', hvalue', hone'⟩⟩
      obtain rfl := Option.some.inj (hhost.symm.trans hvalue)
      obtain rfl := Option.some.inj (hproto.symm.trans hvalue')
      exact ⟨honly.mp (hhosts.symm.trans hone), honly.mp (hprotos.symm.trans hone')⟩
    · rintro ⟨hnone, hnone'⟩
      exact ⟨⟨host, hhost, hhosts.trans (honly.mpr hnone)⟩,
        ⟨proto, hproto, hprotos.trans (honly.mpr hnone')⟩⟩
  rw [hkept, valuesOf_localHeaders hlib (by decide) (by decide) (by decide) (by decide),
    valuesOf_localHeaders hlib (by decide) (by decide) (by decide) (by decide), KeepsNone]
  simp only [isForwarding, Bool.or_eq_true, or_imp, ← forall_and]

end Request

/-- The forwarding headers are not in `HOP_BY_HOP`. -/
theorem isHopByHop_of_isForwarding {name : Text} (h : isForwarding name = true) :
    isHopByHop name = false := by
  rw [isForwarding, Bool.or_eq_true, eqIgnoreAsciiCase, eqIgnoreAsciiCase, beq_iff_eq,
    beq_iff_eq] at h
  rcases h with h | h
  · rw [isHopByHop, h]
    decide
  · rw [isHopByHop, h]
    decide

/-- A forwarding header with a valid value is nominated by a `Connection` header that the edge can
read. -/
def DropsAll (lib : HttpLibrary) (headers : List Header) : Prop :=
  ∀ header ∈ headers, isForwarding header.name = true → lib.headerBytes header.value ≠ none →
    ∃ value ∈ getAll connectionHeader headers, isReadable value = true ∧
      nominates value header.name = true

/-- The edge takes out the forwarding headers that are nominated, and no others. -/
theorem keepsNone_sanitizeHeaders {lib : HttpLibrary} {headers : List Header} :
    KeepsNone lib (sanitizeHeaders headers) ↔ DropsAll lib headers := by
  constructor
  · intro h header hheader hname hvalue
    rw [← mem_connectionListed]
    by_contra hlisted
    refine hvalue (h header ?_ hname)
    rw [sanitizeHeaders, List.mem_filter, isHopByHop_of_isForwarding hname, Bool.not_false,
      Bool.true_and, Bool.not_eq_true', Bool.eq_false_iff, ne_eq, List.contains_iff_mem]
    exact ⟨hheader, hlisted⟩
  · intro h header hheader hname
    rw [sanitizeHeaders, List.mem_filter, isHopByHop_of_isForwarding hname, Bool.not_false,
      Bool.true_and, Bool.not_eq_true', Bool.eq_false_iff, ne_eq, List.contains_iff_mem,
      mem_connectionListed] at hheader
    by_contra hvalue
    exact hheader.2 (h header hheader.1 hname hvalue)

/-- The local service receives one value of each forwarding header, the agent's, exactly when the
`Open` frame has none that is kept; for a request that came through the edge, exactly when each one
that the client sent is nominated by its `Connection` header. Two requests of one authority that are
of that kind are forwarded alike. -/
theorem unforged_iff {lib : HttpLibrary} {options : AgentOptions} {remoteAddr : Text}
    {head : HttpRequestHead} {request : LocalRequest} (hlib : lib.ReadsNames)
    (h : localRequest lib options remoteAddr head = some request) :
    (Unforged lib head request ↔ KeepsNone lib head.headers) ∧
      (∀ record req client, head = (forwardLocal record req client).head →
        (Unforged lib head request ↔ DropsAll lib req.headers)) ∧
      ∀ other request', other.authority = head.authority →
        localRequest lib options remoteAddr other = some request' →
        KeepsNone lib head.headers → KeepsNone lib other.headers →
        valuesOf forwardedHostHeader request'.headers =
            valuesOf forwardedHostHeader request.headers ∧
          valuesOf forwardedProtoHeader request'.headers =
            valuesOf forwardedProtoHeader request.headers := by
  refine ⟨unforged_iff_keepsNone hlib h, ?_, ?_⟩
  · rintro record req client rfl
    rw [unforged_iff_keepsNone hlib h]
    exact keepsNone_sanitizeHeaders
  · intro other request' hauthority h' hnone hnone'
    obtain ⟨⟨host, hhost, hone⟩, ⟨proto, hproto, hone'⟩⟩ :=
      (unforged_iff_keepsNone hlib h).mpr hnone
    obtain ⟨⟨host', hhost', hother⟩, ⟨proto', hproto', hother'⟩⟩ :=
      (unforged_iff_keepsNone hlib h').mpr hnone'
    rw [hauthority, hhost] at hhost'
    rw [hproto] at hproto'
    rw [hone, hone', hother, hother', Option.some.inj hhost', Option.some.inj hproto']
    exact ⟨rfl, rfl⟩

/-- The plain conversions read names as they should. -/
theorem plainLibrary_readsNames : plainLibrary.ReadsNames where
  lower _ _ h := (Option.some.inj h).symm
  plain _ _ _ _ := Option.some_ne_none _

/-- A request with these headers. -/
def headRequest (headers : List Header) : HttpRequestHead :=
  { getRequest "/".toList with headers := headers }

/-- A request whose forwarding header is nominated by its `Connection` header. -/
def nominatedRequest : HttpRequest :=
  rootRequest none [⟨hostHeader, asciiBytes "a.tunnel.com".toList⟩,
    ⟨connectionHeader, asciiBytes "X-Forwarded-Host".toList⟩,
    ⟨forwardedHostHeader, asciiBytes "evil.com".toList⟩]

theorem dropsAll_nominatedRequest : DropsAll plainLibrary nominatedRequest.headers := by
  intro header hheader hname _
  rcases List.mem_cons.mp hheader with rfl | hheader
  · exact absurd hname (by decide)
  rcases List.mem_cons.mp hheader with rfl | hheader
  · exact absurd hname (by decide)
  obtain rfl := List.mem_singleton.mp hheader
  exact ⟨asciiBytes "X-Forwarded-Host".toList, by decide, by decide, by decide⟩

/-- The edge takes that header out, and the local service receives the agent's alone. -/
theorem unforged_accept : ∃ record head request,
    head = (forwardLocal record nominatedRequest "203.0.113.7:50000".toList).head ∧
    localRequest plainLibrary testOptions "203.0.113.7:50000".toList head = some request ∧
    Unforged plainLibrary head request := by
  obtain ⟨record, head, request, hhead, hbuild⟩ : ∃ record head request,
      head = (forwardLocal record nominatedRequest "203.0.113.7:50000".toList).head ∧
      localRequest plainLibrary testOptions "203.0.113.7:50000".toList head = some request :=
    ⟨⟨[], [], [], [], [], []⟩, _, _, rfl, rfl⟩
  exact ⟨record, head, request, hhead, hbuild, ((unforged_iff plainLibrary_readsNames hbuild).2.1
    record nominatedRequest _ hhead).mpr dropsAll_nominatedRequest⟩

/-- A client names a host of its own, which the local service reads first. -/
theorem unforged_spoofed : ¬ ∀ (lib : HttpLibrary) (options : AgentOptions) (remoteAddr : Text)
    (head : HttpRequestHead) (request : LocalRequest), lib.ReadsNames →
    localRequest lib options remoteAddr head = some request → Unforged lib head request := by
  intro h
  obtain ⟨request, hbuild, hvalues⟩ : ∃ request, localRequest plainLibrary testOptions
      "10.1.2.3:50000".toList (headRequest [⟨"X-Forwarded-Host".toList,
        asciiBytes "evil.com".toList⟩]) = some request ∧
      valuesOf forwardedHostHeader request.headers =
        [asciiBytes "evil.com".toList, asciiBytes "a.tunnel.com".toList] := ⟨_, rfl, rfl⟩
  obtain ⟨value, -, hone⟩ := (h _ _ _ _ _ plainLibrary_readsNames hbuild).host
  rw [hvalues] at hone
  exact absurd (List.cons.inj hone).2 (List.cons_ne_nil _ _)

end Norupo
