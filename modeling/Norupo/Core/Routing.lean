import Norupo.Core.Error

/-!
# Routing keys

`norupo-core/src/routing.rs`: the canonical form of a host name, which a tunnel is registered under
and a public request is looked up by.
-/

namespace Norupo

open Text

/-- Maximum length of a single DNS label. -/
def maxLabelLen : Nat := 63

/-- Subdomains that are never handed out by default. -/
def reservedSubdomains : List Text :=
  ["www", "api", "admin", "dashboard", "app", "status", "docs", "mail", "smtp", "ns", "ns1", "ns2",
    "mx", "cdn", "static", "assets", "edge", "control", "grpc", "internal", "metrics", "health",
    "localhost", "test", "support", "billing", "account", "login", "auth", "security",
    "norupo"].map String.toList

/-- Characters of generated subdomains. -/
def subdomainAlphabet : Text := "abcdefghijkmnpqrstuvwxyz23456789".toList

/-- Length of a generated subdomain. -/
def generatedSubdomainLen : Nat := 12

/-- `RoutingKey`: the canonical identity of a tunnel. -/
inductive RoutingKey
  | host (name : Text)
  | tcpPort (port : Nat)
  deriving DecidableEq, Repr

/-- `as_storage_key`: the form stored in the routing table. -/
def RoutingKey.asStorageKey : RoutingKey → Text
  | .host name => name
  | .tcpPort port => "tcp:".toList ++ (Nat.repr port).toList

/-- The port-stripping branch of `normalize_host`, on the trimmed host. -/
def stripPort (raw trimmed : Text) : Except Error Text :=
  match trimmed with
  | '[' :: rest =>
    match splitOnce ']' rest with
    | some (address, _) => .ok ('[' :: address ++ [']'])
    | none => .error (.invalidRoute ("unterminated IPv6 host: ".toList ++ raw))
  | _ =>
    match splitOnce ':' trimmed with
    | some (host, port) =>
      if !port.isEmpty && !port.all isAsciiDigit then
        .error (.invalidRoute ("invalid port in host: ".toList ++ raw))
      else .ok host
    | none => .ok trimmed

/-- `normalize_host`: canonicalises a `Host` header or a configured domain into a lookup key. -/
def normalizeHost (raw : Text) : Except Error Text := do
  let trimmed := trim raw
  if trimmed.isEmpty then
    throw (.invalidRoute "empty host".toList)
  let withoutPort ← stripPort raw trimmed
  let withoutRoot := trimEnd (· = '.') withoutPort
  if withoutRoot.isEmpty then
    throw (.invalidRoute "empty host".toList)
  let lowered := toAsciiLowercase withoutRoot
  if !isAscii lowered then
    throw (.invalidRoute ("non-ASCII host (punycode it first): ".toList ++ raw))
  if 253 < byteLen lowered then
    throw (.invalidRoute "host exceeds 253 characters".toList)
  return lowered

/-- The spellings of one host that arrive in practice have one key. -/
example : ["api.tunnel.com", "API.Tunnel.Com", "api.tunnel.com:8080", "api.tunnel.com.",
    "  api.tunnel.com  "].all (fun raw =>
      (normalizeHost raw.toList).toOption = some "api.tunnel.com".toList) = true := by decide

/-- `is_reserved_subdomain`. -/
def isReservedSubdomain (label : Text) : Bool :=
  reservedSubdomains.any fun reserved => eqIgnoreAsciiCase reserved label

/-- `validate_subdomain_syntax`: the DNS-label syntax of a subdomain, ignoring the reserved list. -/
def validateSubdomainSyntax (label : Text) : Except Error Text := do
  let lowered := toAsciiLowercase (trim label)
  if lowered.isEmpty then
    throw (.invalidRoute "subdomain must not be empty".toList)
  if maxLabelLen < byteLen lowered then
    throw (.invalidRoute ("subdomain must be at most ".toList ++ (Nat.repr maxLabelLen).toList ++
      " characters".toList))
  if !lowered.all fun c => isAsciiLowercase c || isAsciiDigit c || c = '-' then
    throw (.invalidRoute "subdomain may only contain a-z, 0-9 and hyphen".toList)
  if lowered.head? = some '-' || lowered.getLast? = some '-' then
    throw (.invalidRoute "subdomain must not start or end with a hyphen".toList)
  if (stripPrefix "xn--".toList lowered).isSome then
    throw (.invalidRoute "subdomain must not use the punycode prefix".toList)
  return lowered

/-- `validate_subdomain`: a user-requested subdomain label, including the reserved list. -/
def validateSubdomain (label : Text) : Except Error Text := do
  let lowered ← validateSubdomainSyntax label
  if isReservedSubdomain lowered then
    throw (.invalidRoute ("subdomain `".toList ++ lowered ++ "` is reserved".toList))
  return lowered

/-- `random_subdomain`, from what the random generator picks for each place. -/
def randomSubdomain (picks : Fin generatedSubdomainLen → Fin subdomainAlphabet.length) : Text :=
  List.ofFn fun place => subdomainAlphabet.get (picks place)

/-- `public_host`: joins a subdomain and the edge's base domain into a public host name. -/
def publicHost (subdomain baseDomain : Text) : Except Error Text := do
  let label ← validateSubdomainSyntax subdomain
  let base ← normalizeHost baseDomain
  let host := label ++ ['.'] ++ base
  if 253 < byteLen host then
    throw (.invalidRoute "resulting host is too long".toList)
  return host

/-- `subdomain_of`: the label of a host that is a direct child of the base domain. -/
def subdomainOf (host baseDomain : Text) : Option Text := do
  let host ← (normalizeHost host).toOption
  let base ← (normalizeHost baseDomain).toOption
  let label ← (stripSuffix base host).bind (stripSuffix ['.'])
  if label.isEmpty || label.contains '.' then none else some label

end Norupo
