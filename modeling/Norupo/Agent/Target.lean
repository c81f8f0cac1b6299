import Norupo.Agent.Session
import Norupo.Core.Uri

/-!
# Where the agent forwards to

`parse_forward_target` of `norupo-client/src/config.rs` and the local request of `serve_stream`. The
target of that request is written as the configured address followed by the path that the edge sent,
and is then parsed again: a path that does not start with a slash can extend the address.
-/

namespace Norupo

open Text

/-- `parse_forward_target`. -/
def parseForwardTarget (raw : Text) : Except Text Text :=
  let trimmed := trim raw
  if trimmed.isEmpty then .error "forward target must not be empty".toList
  else
    match parseU16 trimmed with
    | some port =>
      if port = 0 then .error "port 0 is not a valid forward target".toList
      else .ok ("127.0.0.1:".toList ++ (Nat.repr port).toList)
    | none =>
      let withoutScheme := ((stripPrefix "http://".toList trimmed).or
        (stripPrefix "https://".toList trimmed)).getD trimmed
      let authority := withoutScheme.takeWhile (· ≠ '/')
      match rsplitOnce ':' authority with
      | none =>
        .error ("could not parse `".toList ++ raw ++
          "` as a forward target; use a port (3000) or ".toList ++
          "host:port (127.0.0.1:3000)".toList)
      | some (host, port) =>
        if host.isEmpty then
          .error ("forward target `".toList ++ raw ++ "` is missing a host".toList)
        else
          match parseU16 port with
          | none => .error ("`".toList ++ port ++ "` in `".toList ++ raw ++
              "` is not a valid port".toList)
          | some _ => .ok authority

/-- The conversions of the `http` crate that building a request uses. -/
structure HttpLibrary where
  parseMethod : Text → Option Text
  parseUri : Text → Option Uri
  headerName : Text → Option Text
  /-- `HeaderValue::from_bytes`. -/
  headerBytes : Bytes → Option Bytes
  /-- `HeaderValue::from_str`. -/
  headerText : Text → Option Bytes

/-- The request that `serve_stream` hands to the local HTTP client, without its body. -/
structure LocalRequest where
  method : Text
  uri : Uri
  headers : List Header
  deriving DecidableEq, Repr

/-- The public client's headers that are kept. -/
def localHeaders (lib : HttpLibrary) (options : AgentOptions) (headers : List Header) :
    List Header :=
  headers.filterMap fun header =>
    if toAsciiLowercase header.name = "host".toList && options.rewriteHost then none
    else
      match lib.headerName header.name, lib.headerBytes header.value with
      | some name, some value => some ⟨name, value⟩
      | _, _ => none

/-- The `Host` header of the local service. -/
def rewrittenHost (lib : HttpLibrary) (options : AgentOptions) : Option (List Header) :=
  if options.rewriteHost then
    (lib.headerText options.forwardAddr).map fun value => [⟨"host".toList, value⟩]
  else some []

/-- The address of the public client, without its port and the brackets of an IPv6 address. -/
def forwardedFor (lib : HttpLibrary) (remoteAddr : Text) : Option (List Header) :=
  match rsplitOnce ':' remoteAddr with
  | some (ip, _) =>
    let bracket := fun c => c = '[' || c = ']'
    (lib.headerText (trimEnd bracket (ip.dropWhile bracket))).map fun value =>
      [⟨"x-forwarded-for".toList, value⟩]
  | none => some []

/-- The request that `serve_stream` builds; `none` when the builder fails. -/
def localRequest (lib : HttpLibrary) (options : AgentOptions) (remoteAddr : Text)
    (head : HttpRequestHead) : Option LocalRequest := do
  let method ← lib.parseMethod head.method
  let uri ← lib.parseUri ("http://".toList ++ (options.forwardAddr ++ head.path))
  let host ← rewrittenHost lib options
  let client ← forwardedFor lib remoteAddr
  let forwardedHost ← lib.headerText head.authority
  let forwardedProto ← lib.headerText "https".toList
  some
    { method := method
      uri := uri
      headers := localHeaders lib options head.headers ++ host ++ client ++
        [⟨"x-forwarded-host".toList, forwardedHost⟩, ⟨"x-forwarded-proto".toList, forwardedProto⟩] }

/-- A host in front of a port: a name or an address, or an IPv6 address in brackets. -/
def isPlainHost (host : Text) : Bool :=
  host.all (fun c => !endsAuthority c && c ≠ '@') &&
    match host with
    | '[' :: rest => rest.takeWhile (· ≠ ']') ++ [']'] = rest
    | _ => host.all (· ≠ ':')

/-- A plain `host:port`. -/
def isHostPort (addr : Text) : Bool :=
  match rsplitOnce ':' addr with
  | some (host, port) => isPlainHost host && port.all isAsciiDigit
  | none => false

/-- The text in front of the first slash, question mark or hash of a path adds nothing to an
address, or names the same host and port again. -/
def keepsTarget (addr path : Text) : Bool :=
  let extra := authorityText path
  if '@' ∈ extra then
    authorityHost (afterLast '@' extra) = authorityHost addr &&
      authorityPort (afterLast '@' extra) = authorityPort addr
  else if ':' ∈ extra then authorityPort extra = authorityPort addr
  else extra = [] || authorityPort addr = some 0 && extra.all (· = '0')

/-- The text of a target after its scheme and in front of its path. -/
def targetAuthority (trimmed : Text) : Text :=
  (((stripPrefix "http://".toList trimmed).or (stripPrefix "https://".toList trimmed)).getD
    trimmed).takeWhile (· ≠ '/')

/-- The two ways in which a target is accepted: as a port, or for the host and the port of its
authority. -/
theorem parseForwardTarget_eq_ok_iff {raw addr : Text} : parseForwardTarget raw = .ok addr ↔
    (∃ port, parseU16 (trim raw) = some port ∧ port ≠ 0 ∧
        addr = "127.0.0.1:".toList ++ (Nat.repr port).toList) ∨
      (parseU16 (trim raw) = none ∧ addr = targetAuthority (trim raw) ∧ ∃ host port n,
        addr = host ++ ':' :: port ∧ ':' ∉ port ∧ host ≠ [] ∧ parseU16 port = some n) := by
  unfold parseForwardTarget
  dsimp only
  rw [← targetAuthority]
  constructor
  · intro h
    split at h
    · cases h
    split at h
    · rename_i port hport
      split at h
      · cases h
      · rename_i hzero
        exact .inl ⟨port, hport, hzero, (Except.ok.inj h).symm⟩
    · rename_i hport
      split at h
      · cases h
      rename_i host port hsplit
      obtain ⟨hcolon, haddr⟩ := rsplitOnce_eq_some hsplit
      split at h
      · cases h
      rename_i hhost
      split at h
      · cases h
      rename_i n hn
      obtain rfl := Except.ok.inj h
      exact .inr ⟨hport, rfl, host, port, n, haddr, hcolon, by simpa using hhost, hn⟩
  · rintro (⟨port, hport, hzero, rfl⟩ | ⟨hport, haddr, host, port, n, hparts, hcolon, hhost, hn⟩)
    · have hne : (trim raw).isEmpty = false := by
        rw [List.isEmpty_eq_false_iff]
        rintro he
        rw [he] at hport
        cases hport
      simp [hne, hport, hzero]
    · have hne : (trim raw).isEmpty = false := by
        rw [List.isEmpty_eq_false_iff]
        rintro he
        rw [he, hparts] at haddr
        exact absurd haddr (by simp [targetAuthority, stripPrefix])
      have hsplit : rsplitOnce ':' (targetAuthority (trim raw)) = some (host, port) := by
        rw [← haddr, hparts]
        exact rsplitOnce_append hcolon host
      simp [hne, hport, hsplit, hhost, hn, haddr]

/-- The address that is configured ends in a port. -/
theorem parseForwardTarget_eq_ok {raw addr : Text} (h : parseForwardTarget raw = .ok addr) :
    ∃ host digits port, addr = host ++ ':' :: digits ∧ ':' ∉ digits ∧
      parseU16 digits = some port := by
  rcases parseForwardTarget_eq_ok_iff.mp h with ⟨port, hport, -, rfl⟩ |
    ⟨-, -, host, digits, port, haddr, hcolon, -, hn⟩
  · have hrepr := parseU16_repr (parseU16_lt hport)
    refine ⟨"127.0.0.1".toList, (Nat.repr port).toList, port, rfl, ?_, hrepr⟩
    exact fun hmem => absurd (isAsciiDigit_of_parseU16 hrepr hmem) (by decide)
  · exact ⟨host, digits, port, haddr, hcolon, hn⟩

/-- The host of an address with a plain host. -/
theorem authorityHost_of_plain {host rest : Text} (hhost : isPlainHost host = true)
    (hrest : '@' ∉ rest) : authorityHost (host ++ ':' :: rest) = host := by
  simp only [isPlainHost, Bool.and_eq_true, List.all_eq_true] at hhost
  obtain ⟨hchars, hform⟩ := hhost
  have huser : '@' ∉ host ++ ':' :: rest := by
    rw [List.mem_append, List.mem_cons]
    rintro (hmem | hmem | hmem)
    · simpa using hchars '@' hmem
    · cases hmem
    · exact hrest hmem
  rw [authorityHost, afterLast_of_notMem huser]
  split at hform
  · rename_i inner
    rw [decide_eq_true_eq] at hform
    have hclose : ']' ∉ inner.takeWhile (· ≠ ']') := by
      intro hmem
      simpa using List.mem_takeWhile_imp hmem
    have htake : (inner ++ ':' :: rest).takeWhile (· ≠ ']') = inner.takeWhile (· ≠ ']') := by
      conv_lhs => rw [← hform, List.append_assoc, List.singleton_append]
      exact takeWhile_ne_append hclose _
    simp only [List.cons_append, htake]
    rw [hform]
  · rename_i hbracket
    have hcolon : ':' ∉ host := by
      intro hmem
      simpa using List.all_eq_true.mp hform ':' hmem
    split
    · rename_i inner he
      cases host with
      | nil => cases he
      | cons c host =>
        obtain ⟨rfl, -⟩ := List.cons.inj he
        exact absurd rfl (hbracket host)
    · exact takeWhile_ne_append hcolon rest

/-- The port of an address. -/
theorem authorityPort_of_plain {host digits : Text} (h : ':' ∉ digits) :
    authorityPort (host ++ ':' :: digits) = parseU16 digits := by
  rw [authorityPort, rsplitOnce_append h, Option.bind_some]

/-- A plain address is not cut short. -/
theorem endsAuthority_of_plain {host digits : Text} (hhost : isPlainHost host = true)
    (hdigits : digits.all isAsciiDigit = true) :
    ∀ c ∈ host ++ ':' :: digits, endsAuthority c = false := by
  simp only [isPlainHost, Bool.and_eq_true, List.all_eq_true] at hhost hdigits
  intro c hc
  rw [List.mem_append, List.mem_cons] at hc
  rcases hc with hc | rfl | hc
  · simpa using (hhost.1 c hc).1
  · rfl
  · have hdigit := hdigits c hc
    unfold endsAuthority
    simp only [Bool.or_eq_false_iff, decide_eq_false_iff_not]
    refine ⟨⟨?_, ?_⟩, ?_⟩ <;>
    · rintro rfl
      exact absurd hdigit (by decide)

/-- The address is parsed again as it was written. -/
theorem authorityText_append {addr : Text} (h : ∀ c ∈ addr, endsAuthority c = false) (path : Text) :
    authorityText (addr ++ path) = addr ++ authorityText path := by
  unfold authorityText
  exact List.takeWhile_append_of_pos fun c hc => by simp [h c hc]

/-- The local request goes where its path lets it go. -/
theorem localRequest_uri {lib : HttpLibrary} {options : AgentOptions} {remoteAddr : Text}
    {head : HttpRequestHead} {request : LocalRequest}
    (h : localRequest lib options remoteAddr head = some request) :
    lib.parseUri ("http://".toList ++ (options.forwardAddr ++ head.path)) = some request.uri := by
  simp only [localRequest, Option.bind_eq_bind, Option.bind_eq_some_iff] at h
  obtain ⟨method, -, uri, huri, host, -, forwardedFor, -, forwardedHost, -, proto, -, heq⟩ := h
  rw [huri, ← Option.some.inj heq]

/-- The local request goes to the configured host and port exactly when the text in front of the
first slash, question mark or hash of the path keeps them. -/
theorem localRequest_target_iff {lib : HttpLibrary} {options : AgentOptions}
    {raw remoteAddr : Text} {head : HttpRequestHead} {request : LocalRequest}
    (hparse : ParsesUri lib.parseUri) (htarget : parseForwardTarget raw = .ok options.forwardAddr)
    (hplain : isHostPort options.forwardAddr = true)
    (hbuild : localRequest lib options remoteAddr head = some request) :
    request.uri.host = some (authorityHost options.forwardAddr) ∧
        request.uri.port = authorityPort options.forwardAddr ↔
      keepsTarget options.forwardAddr head.path = true := by
  obtain ⟨host, digits, port, haddr, hcolon, hport⟩ := parseForwardTarget_eq_ok htarget
  rw [isHostPort, haddr, rsplitOnce_append hcolon, Bool.and_eq_true] at hplain
  obtain ⟨hhost, hdigits⟩ := hplain
  have hdigit : ∀ c ∈ digits, isAsciiDigit c = true := List.all_eq_true.mp hdigits
  have hauthority := hparse.authority _ _ (localRequest_uri hbuild)
  rw [authorityText_append (haddr ▸ endsAuthority_of_plain hhost hdigits)] at hauthority
  simp only [Uri.host, Uri.port, hauthority, Option.map_some, Option.bind_some, Option.some.injEq,
    keepsTarget]
  split
  · rename_i huser
    rw [authorityHost_append_of_mem huser, authorityPort_of_user huser]
    simp
  · rename_i huser
    have huserDigits : '@' ∉ digits := fun hmem => absurd (hdigit '@' hmem) (by decide)
    have hsame : authorityHost (options.forwardAddr ++ authorityText head.path) =
        authorityHost options.forwardAddr := by
      rw [haddr, authorityHost_of_plain hhost huserDigits, List.append_assoc, List.cons_append,
        authorityHost_of_plain hhost (by simp [huserDigits, huser])]
    rw [and_iff_right hsame]
    split
    · rename_i hlater
      rw [authorityPort_append_of_mem hlater]
      simp
    · rename_i hlater
      -- The path lengthens the port.
      rw [haddr, authorityPort_of_plain hcolon, List.append_assoc, List.cons_append,
        authorityPort_of_plain (by simp [hcolon, hlater]), hport,
        parseU16_append_iff hdigits hport]
      simp

/-- Conversions that accept printable ASCII. -/
def plainLibrary : HttpLibrary where
  parseMethod := some
  parseUri := parsePlainUri
  headerName := fun name => some (toAsciiLowercase name)
  headerBytes := some
  headerText := fun text =>
    if text.all isVisibleChar then some (text.map fun c => UInt8.ofNat c.toNat) else none

/-- A `GET` request with this path. -/
def getRequest (path : Text) : HttpRequestHead :=
  ⟨"GET".toList, path, "a.tunnel.com".toList, [], "HTTP/1.1".toList, []⟩

/-- A path in origin form goes to the configured address. -/
theorem localRequest_target_slash : ∃ request,
    localRequest plainLibrary testOptions "10.1.2.3:50000".toList (getRequest "/index".toList) =
      some request ∧
    request.uri.host = some "127.0.0.1".toList ∧ request.uri.port = some 3000 := by
  obtain ⟨request, hbuild⟩ : ∃ request, localRequest plainLibrary testOptions
      "10.1.2.3:50000".toList (getRequest "/index".toList) = some request := ⟨_, rfl⟩
  have htarget : parseForwardTarget "3000".toList = .ok testOptions.forwardAddr := by decide
  exact ⟨request, hbuild, (localRequest_target_iff parsesUri_parsePlainUri htarget (by decide)
    hbuild).mpr (by decide)⟩

/-- A path that starts with `@` names another host. -/
theorem localRequest_other_host :
    ¬ ∀ (lib : HttpLibrary) (options : AgentOptions) (raw remoteAddr : Text)
      (head : HttpRequestHead) (request : LocalRequest), ParsesUri lib.parseUri →
      parseForwardTarget raw = .ok options.forwardAddr → isHostPort options.forwardAddr = true →
      localRequest lib options remoteAddr head = some request →
      request.uri.host = some (authorityHost options.forwardAddr) ∧
        request.uri.port = authorityPort options.forwardAddr := by
  intro h
  have hhost := (h plainLibrary testOptions "3000".toList "10.1.2.3:50000".toList
    (getRequest "@evil.com/".toList) _ parsesUri_parsePlainUri (by decide) (by decide) rfl).1
  exact absurd hhost (by decide)

end Norupo
