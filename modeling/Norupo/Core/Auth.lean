import Norupo.Core.Error

/-!
# Principals

`Principal` of `norupo-core/src/auth.rs`: what a validated token allows. The display name and the
byte rate, which nothing here reads, are left out.
-/

namespace Norupo

open Text

/-- `Limits`: per-account ceilings; zero means unlimited. -/
structure Limits where
  maxTunnels : Nat
  maxConcurrentStreams : Nat
  deriving DecidableEq, Repr

/-- `Limits::default`. -/
def Limits.default : Limits := ⟨8, 512⟩

/-- `Principal`: who a token belongs to, and what they may do. -/
structure Principal where
  accountId : Text
  /-- Reserved subdomains that the account may claim. -/
  reservedSubdomains : List Text
  /-- Verified custom domains, or wildcards of them. -/
  customDomains : List Text
  limits : Limits
  deriving DecidableEq, Repr

namespace Principal

/-- `may_claim_subdomain`. -/
def mayClaimSubdomain (principal : Principal) (subdomain : Text) : Bool :=
  principal.reservedSubdomains.any fun s => eqIgnoreAsciiCase s subdomain

/-- `may_use_custom_domain`: an exact match, or a wildcard when the entry starts with `*.`. -/
def mayUseCustomDomain (principal : Principal) (domain : Text) : Bool :=
  principal.customDomains.any fun allowed =>
    match stripPrefix "*.".toList allowed with
    | some suffix =>
      match stripSuffix suffix domain with
      | some head => head.getLast? = some '.' && 1 < byteLen head
      | none => false
    | none => eqIgnoreAsciiCase allowed domain

end Principal

end Norupo
