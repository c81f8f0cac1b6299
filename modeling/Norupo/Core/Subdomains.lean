import Norupo.Core.Hosts

/-!
# Subdomains and their public hosts

`public_host` and `subdomain_of` of `norupo-core/src/routing.rs`: one joins a label and the base
domain, the other takes them apart again, whatever the host is spelled like.
-/

namespace Norupo

open Text

variable {host baseDomain label : Text}

/-- What `subdomain_of` takes a host apart into. -/
theorem subdomainOf_eq_some :
    subdomainOf host baseDomain = some label ↔ ∃ base, normalizeHost baseDomain = .ok base ∧
      normalizeHost host = .ok (label ++ ['.'] ++ base) ∧ label ≠ [] ∧ '.' ∉ label := by
  have hok : ∀ {r : Except Error Text} {a : Text}, r.toOption = some a ↔ r = .ok a := by
    intro r a
    cases r <;> simp [Except.toOption]
  simp only [subdomainOf, Option.bind_eq_bind, Option.bind_eq_some_iff, hok, stripSuffix_eq_some,
    Option.ite_none_left_eq_some, Bool.or_eq_true, List.isEmpty_iff, List.contains_iff_mem, not_or,
    Option.some.injEq]
  constructor
  · rintro ⟨name, hname, base, hbase, child, ⟨front, rfl, rfl⟩, ⟨hne, hdot⟩, rfl⟩
    exact ⟨base, hbase, hname, hne, hdot⟩
  · rintro ⟨base, hbase, hname, hne, hdot⟩
    exact ⟨_, hname, base, hbase, label, ⟨label ++ ['.'], rfl, rfl⟩, ⟨hne, hdot⟩, rfl⟩

/-- A subdomain is read off every spelling of its public host; labels that are validated differently
have different hosts; and whatever is read off a host is a label in front of the base domain. -/
theorem subdomainOf_publicHost :
    (∀ subdomain baseDomain host,
      (∀ base, normalizeHost baseDomain = .ok base → base.all isKeyChar = true) →
      publicHost subdomain baseDomain = .ok host →
        ∃ label, validateSubdomainSyntax subdomain = .ok label ∧
          subdomainOf host baseDomain = some label ∧
          ∀ text, Spells text host → subdomainOf text baseDomain = some label) ∧
      (∀ subdomain other baseDomain host, publicHost subdomain baseDomain = .ok host →
        publicHost other baseDomain = .ok host →
          validateSubdomainSyntax subdomain = validateSubdomainSyntax other) ∧
      ∀ host baseDomain label, subdomainOf host baseDomain = some label →
        ∃ base, normalizeHost baseDomain = .ok base ∧
          normalizeHost host = .ok (label ++ ['.'] ++ base) ∧ label ≠ [] ∧ '.' ∉ label := by
  refine ⟨?_, ?_, ?_⟩
  · intro subdomain baseDomain host hbase hpublic
    have hcanonical := CanonicalHost.of_publicHost hpublic hbase
    obtain ⟨label, base, hlabel, hb, rfl, -⟩ := publicHost_eq_ok hpublic
    have hsafe := (validateSubdomainSyntax_eq_ok.mp hlabel).2
    have hread : ∀ text, normalizeHost text = .ok (label ++ ['.'] ++ base) →
        subdomainOf text baseDomain = some label := by
      intro text htext
      exact subdomainOf_eq_some.mpr ⟨base, hb, htext, hsafe.ne_nil, hsafe.dot_notMem⟩
    refine ⟨label, hlabel, hread _ hcanonical.normalizeHost_self, fun text htext => ?_⟩
    exact hread text (hcanonical.normalizeHost_spelling htext)
  · intro subdomain other baseDomain host hpublic hother
    obtain ⟨label, base, hlabel, hb, rfl, -⟩ := publicHost_eq_ok hpublic
    obtain ⟨label', base', hlabel', hb', heq, -⟩ := publicHost_eq_ok hother
    obtain rfl : base = base' := Except.ok.inj (hb.symm.trans hb')
    rw [List.append_cancel_right_eq, List.append_cancel_right_eq] at heq
    rw [hlabel, hlabel', heq]
  · intro host baseDomain label h
    exact subdomainOf_eq_some.mp h

/-- A label in mixed case under a nested base domain, read off another spelling of its host. -/
theorem subdomainOf_publicHost_nested :
    subdomainOf " API.eu.Tunnel.COM.:443".toList "EU.tunnel.com.".toList = some "api".toList := by
  have hbase : ∀ base, normalizeHost "EU.tunnel.com.".toList = .ok base →
      base.all isKeyChar = true := by
    intro base hb
    obtain rfl : "eu.tunnel.com".toList = base := Except.ok.inj hb
    rfl
  obtain ⟨label, hlabel, -, hspelled⟩ := subdomainOf_publicHost.1 " Api".toList
    "EU.tunnel.com.".toList "api.eu.tunnel.com".toList hbase rfl
  obtain rfl : "api".toList = label := Except.ok.inj hlabel
  exact hspelled _ ⟨" ".toList, "API.eu.Tunnel.COM".toList, ".".toList, ":443".toList, [], rfl, rfl,
    rfl, by decide, rfl, .inr ⟨"443".toList, rfl, rfl⟩⟩

end Norupo
