import Norupo.Core.Auth

/-!
# Tokens

`StaticTokenAuth` of `norupo-core/src/auth.rs`, the token file of `norupo-server/src/tokens.rs` and
`build_auth` of `norupo-server/src/lib.rs`. Reading the file and parsing its JSON are not modelled:
a file is a table of entries, or the failure to load it. As in `Principal`, the display name and the
byte rate are left out.
-/

namespace Norupo

/-- `LimitsFile`: the ceilings of an entry, each of them optional. -/
structure LimitsFile where
  maxTunnels : Option Nat
  maxConcurrentStreams : Option Nat
  deriving DecidableEq, Repr

/-- `PrincipalFile`: an entry of the token file. -/
structure PrincipalFile where
  accountId : Text
  reservedSubdomains : List Text
  customDomains : List Text
  limits : Option LimitsFile
  deriving DecidableEq, Repr

/-- `From<PrincipalFile> for Principal`: a ceiling that is not given is the default one. -/
def PrincipalFile.toPrincipal (file : PrincipalFile) : Principal where
  accountId := file.accountId
  reservedSubdomains := file.reservedSubdomains
  customDomains := file.customDomains
  limits := match file.limits with
    | some limits =>
      { maxTunnels := limits.maxTunnels.getD Limits.default.maxTunnels
        maxConcurrentStreams :=
          limits.maxConcurrentStreams.getD Limits.default.maxConcurrentStreams }
    | none => Limits.default

/-- `StaticTokenAuth`: a table of tokens. -/
structure StaticTokenAuth where
  tokens : Text → Option Principal
  /-- Every other token is accepted as an anonymous principal. -/
  allowAnonymous : Bool

/-- The principal of a token that is not in the table. -/
def Principal.anonymous : Principal := ⟨"anonymous".toList, [], [], Limits.default⟩

namespace StaticTokenAuth

/-- `StaticTokenAuth::new`. -/
def new (tokens : Text → Option Principal) : StaticTokenAuth := ⟨tokens, false⟩

/-- `StaticTokenAuth::allow_anonymous`. -/
def anonymous : StaticTokenAuth := ⟨fun _ => none, true⟩

/-- `authenticate`. -/
def authenticate (auth : StaticTokenAuth) (token : Text) : Except Error Principal :=
  match auth.tokens token with
  | some principal => .ok principal
  | none =>
    if auth.allowAnonymous then .ok Principal.anonymous
    else .error (.unauthorized "unknown or revoked token".toList)

/-- A token is refused with one text, whatever it is. -/
theorem authenticate_eq_error {auth : StaticTokenAuth} {token : Text} {error : Error} :
    auth.authenticate token = .error error ↔ auth.tokens token = none ∧
      auth.allowAnonymous = false ∧ error = .unauthorized "unknown or revoked token".toList := by
  unfold authenticate
  cases ht : auth.tokens token with
  | some principal => simp
  | none => cases ha : auth.allowAnonymous <;> simp [eq_comm]

end StaticTokenAuth

/-- The options of a server that `build_auth` reads. -/
structure AuthConfig where
  /-- The path of the token file, with what loading it gives. -/
  tokensFile : Option (Text × Except Text (Text → Option PrincipalFile))
  allowAnonymous : Bool

/-- `build_auth`: a token file comes before the anonymous mode, and one of the two has to be
there. -/
def buildAuth (config : AuthConfig) : Except Text StaticTokenAuth :=
  match config.tokensFile with
  | some (_, .ok entries) =>
    .ok (.new fun token => (entries token).map PrincipalFile.toPrincipal)
  | some (path, .error _) => .error ("loading tokens from ".toList ++ path)
  | none =>
    if config.allowAnonymous then .ok .anonymous
    else .error ("no authentication configured: pass --tokens-file, or --allow-anonymous ".toList ++
      "for local development".toList)

/-- What the configuration says of a token: its entry in the token file, or, without a file, nothing
but that everybody is let in. -/
def AuthConfig.Grants (config : AuthConfig) (token : Text) (principal : Principal) : Prop :=
  match config.tokensFile with
  | some (_, .ok entries) => ∃ file, entries token = some file ∧ principal = file.toPrincipal
  | some (_, .error _) => False
  | none => config.allowAnonymous = true ∧ principal = Principal.anonymous

/-- A server that starts accepts the tokens that its configuration grants, as whom it says. -/
theorem buildAuth_authenticate {config : AuthConfig} {auth : StaticTokenAuth}
    (h : buildAuth config = .ok auth) {token : Text} {principal : Principal} :
    auth.authenticate token = .ok principal ↔ config.Grants token principal := by
  unfold buildAuth at h
  unfold AuthConfig.Grants
  split at h
  · rename_i entries hfile
    obtain rfl := Except.ok.inj h
    cases he : entries token <;>
      simp [StaticTokenAuth.authenticate, StaticTokenAuth.new, he, eq_comm]
  · cases h
  · rename_i hfile
    split at h
    · rename_i hanon
      obtain rfl := Except.ok.inj h
      simp [StaticTokenAuth.authenticate, StaticTokenAuth.anonymous, hanon, eq_comm]
    · cases h

end Norupo
