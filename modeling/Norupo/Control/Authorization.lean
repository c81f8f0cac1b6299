import Norupo.Control.Keys

/-!
# Who may have which host name

What `resolve_http_target` of `norupo-server/src/control.rs` hands out. A name is a custom domain of
the account, or one label in front of the base domain. The label was asked for, and then it was
validated, compared with the reserved list and validated once more, or it was generated.
-/

namespace Norupo

open Text

/-- The account has been granted a subdomain, in whatever case the entry is written. -/
def Principal.Granted (principal : Principal) (label : Text) : Prop :=
  ∃ entry ∈ principal.reservedSubdomains, eqIgnoreAsciiCase entry label = true

theorem Principal.granted_iff {principal : Principal} {label : Text} :
    principal.mayClaimSubdomain label = true ↔ principal.Granted label :=
  List.any_eq_true

/-- The check against the reserved list finds every label that is on it. -/
theorem isReservedSubdomain_of_mem {label : Text} (h : label ∈ reservedSubdomains) :
    isReservedSubdomain label = true :=
  List.any_eq_true.mpr ⟨label, h, beq_self_eq_true _⟩

/-- No generated subdomain is on the reserved list: the listed words are shorter. -/
theorem randomSubdomain_notMem
    (picks : Fin generatedSubdomainLen → Fin subdomainAlphabet.length) :
    randomSubdomain picks ∉ reservedSubdomains := by
  have hshort : ∀ word ∈ reservedSubdomains, word.length < generatedSubdomainLen := by decide
  intro hm
  have hlength : (randomSubdomain picks).length = generatedSubdomainLen := List.length_ofFn
  exact absurd hlength (Nat.ne_of_lt (hshort _ hm))

/-- The assertion at the end of `random_subdomain` holds for everything that can be drawn. -/
theorem validateSubdomain_randomSubdomain
    (picks : Fin generatedSubdomainLen → Fin subdomainAlphabet.length) :
    validateSubdomain (randomSubdomain picks) = .ok (randomSubdomain picks) := by
  have hshort : ∀ word ∈ reservedSubdomains, word.length < generatedSubdomainLen := by decide
  have hreserved : isReservedSubdomain (randomSubdomain picks) = false := by
    refine List.any_eq_false.mpr fun word hw he => ?_
    have hlength : word.length = (randomSubdomain picks).length := by
      simpa [toAsciiLowercase] using congrArg List.length (beq_iff_eq.mp he)
    have hdrawn : (randomSubdomain picks).length = generatedSubdomainLen := List.length_ofFn
    exact absurd (hlength.trans hdrawn) (Nat.ne_of_lt (hshort word hw))
  rw [validateSubdomain, bind_eq_ok]
  refine ⟨_, (SafeLabel.randomSubdomain picks).validate_self, ?_⟩
  rw [check_eq_ok, pure_eq_ok, hreserved]
  exact ⟨Bool.false_ne_true, rfl⟩

/-- A host name that is no custom domain of the account is a label in front of the base domain, and
the label is not on the reserved list unless it was granted. No other way of reading the name as a
child of the base domain is nested, or reserved and not granted. -/
theorem resolved_host_authorized {config : NodeConfig} {principal : Principal}
    {picks : Fin generatedSubdomainLen → Fin subdomainAlphabet.length} {spec : HttpTunnelSpec}
    {host publicUrl : Text}
    (h : resolveHttpTarget config principal (randomSubdomain picks) spec =
      .ok (.host host, publicUrl))
    (hcustom : principal.mayUseCustomDomain host = false) :
    ∃ label base, normalizeHost config.baseDomain = .ok base ∧ host = label ++ ['.'] ++ base ∧
      SafeLabel label ∧ (label ∈ reservedSubdomains → principal.Granted label) ∧
      ∀ child, host = child ++ ['.'] ++ base →
        '.' ∉ child ∧ (child ∈ reservedSubdomains → principal.Granted child) := by
  obtain ⟨_, hkey, hhost⟩ := resolveHttpTarget_eq_ok h
  obtain rfl := RoutingKey.host.inj hkey
  rcases hhost with ⟨-, -, hmay⟩ | ⟨-, asked, hpublic, hasked⟩
  · rw [hmay] at hcustom
    cases hcustom
  obtain ⟨label, base, hlabel, hbase, rfl, -⟩ := publicHost_eq_ok hpublic
  have hsafe := (validateSubdomainSyntax_eq_ok.mp hlabel).2
  have hgranted : label ∈ reservedSubdomains → principal.Granted label := by
    intro hm
    rcases hasked with rfl | ⟨hvalid, hclaim⟩
    · rw [(SafeLabel.randomSubdomain picks).validate_self] at hlabel
      exact absurd (Except.ok.inj hlabel ▸ hm) (randomSubdomain_notMem picks)
    · -- The label that was checked is the one that is joined: validating it again changes nothing.
      rw [(validateSubdomainSyntax_eq_ok.mp hvalid).2.validate_self] at hlabel
      obtain rfl := Except.ok.inj hlabel
      exact Principal.granted_iff.mp (hclaim (isReservedSubdomain_of_mem hm))
  refine ⟨label, base, hbase, rfl, hsafe, hgranted, fun child hchild => ?_⟩
  obtain rfl : label = child := by simpa using hchild
  exact ⟨hsafe.dot_notMem, hgranted⟩

/-- An account that was granted one reserved subdomain. -/
def grantedAccount : Principal := ⟨"acct_1".toList, ["API".toList], [], Limits.default⟩

/-- A granted subdomain, asked for in another spelling. -/
theorem resolved_host_granted : grantedAccount.Granted "api".toList := by
  have hresolve : resolveHttpTarget testNode grantedAccount
      (randomSubdomain fun _ => ⟨0, by decide⟩) ⟨" Api ".toList, [], "3000".toList, false⟩ =
        .ok (.host "api.tunnel.com".toList, "https://api.tunnel.com".toList) := by rfl
  obtain ⟨_, base, hbase, -, -, -, hchild⟩ := resolved_host_authorized hresolve (by decide)
  obtain rfl : "tunnel.com".toList = base := Except.ok.inj hbase
  exact (hchild "api".toList rfl).2 (by decide)

end Norupo
