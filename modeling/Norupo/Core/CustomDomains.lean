import Norupo.Core.Hosts
import Mathlib.Data.List.Forall2

/-!
# The allowlist of custom domains

`may_use_custom_domain` of `norupo-core/src/auth.rs` against the rule of its documentation: an exact
match or a wildcard, in whatever case the entry is written. An exact entry is compared without
regard to case; the suffix of a wildcard is compared byte by byte, and domains are in lower case
when they are checked.
-/

namespace Norupo

open Text

/-- The rule for one entry: the domain itself, or anything below the domain of a wildcard. -/
def MatchesEntry (entry domain : Text) : Prop :=
  eqIgnoreAsciiCase entry domain = true ∨
    ∃ suffix below parent, entry = "*.".toList ++ suffix ∧ domain = below ++ ['.'] ++ parent ∧
      below ≠ [] ∧ eqIgnoreAsciiCase parent suffix = true

/-- An entry is no wildcard, or one that is written in lower case. -/
def isLowerEntry (entry : Text) : Bool :=
  match stripPrefix "*.".toList entry with
  | some suffix => toAsciiLowercase suffix = suffix
  | none => true

/-- Two entries are spellings of each other. -/
def SameEntry (entry other : Text) : Prop := eqIgnoreAsciiCase entry other = true

namespace Principal

/-- The rule: some entry of the account matches the domain. -/
def Covers (principal : Principal) (domain : Text) : Prop :=
  ∃ entry ∈ principal.customDomains, MatchesEntry entry domain

/-- If an entry matches the domain, then one does that is exact or a wildcard in lower case. -/
def CoversInLowerCase (principal : Principal) (domain : Text) : Prop :=
  ∀ entry ∈ principal.customDomains, MatchesEntry entry domain →
    ∃ other ∈ principal.customDomains, MatchesEntry other domain ∧ isLowerEntry other = true

end Principal

/-- Only the empty text has no bytes. -/
theorem byteLen_eq_zero {text : Text} : byteLen text = 0 ↔ text = [] := by
  cases text with
  | nil => exact iff_of_true rfl rfl
  | cons c text =>
    have hpos := Char.utf8Size_pos c
    rw [byteLen, List.map_cons, List.sum_cons]
    refine iff_of_false (by omega) (List.cons_ne_nil c text)

/-- What is left in front of the suffix of a wildcard is a name and a dot. -/
theorem wildcardFront_iff {front : Text} :
    (front.getLast? = some '.' && 1 < byteLen front) = true ↔
      ∃ below, front = below ++ ['.'] ∧ below ≠ [] := by
  rw [Bool.and_eq_true, decide_eq_true_eq, decide_eq_true_eq, List.getLast?_eq_some_iff]
  constructor
  · rintro ⟨⟨below, rfl⟩, hlen⟩
    refine ⟨below, rfl, ?_⟩
    rintro rfl
    exact absurd hlen (by decide)
  · rintro ⟨below, rfl, hne⟩
    have hpos : byteLen below ≠ 0 := fun h => hne (byteLen_eq_zero.mp h)
    have hdot : byteLen (below ++ ['.']) = byteLen below + 1 := by
      rw [byteLen, byteLen, List.map_append, List.sum_append]
      rfl
    exact ⟨⟨below, rfl⟩, by omega⟩

/-- Domains are in lower case when they are checked. -/
theorem toAsciiLowercase_of_normalizeHost {raw domain : Text} (h : normalizeHost raw = .ok domain) :
    toAsciiLowercase domain = domain := by
  obtain ⟨-, host, -, -, -, -, rfl⟩ := normalizeHost_eq_ok.mp h
  exact toAsciiLowercase_toAsciiLowercase _

section Entries

variable {domain suffix : Text} (hd : toAsciiLowercase domain = domain)

include hd

/-- The parent of a domain in lower case is in lower case. -/
theorem lower_of_parent {below parent : Text} (h : domain = below ++ ['.'] ++ parent) :
    toAsciiLowercase parent = parent := by
  have happ : toAsciiLowercase (below ++ ['.']) ++ toAsciiLowercase parent =
      below ++ ['.'] ++ parent := by
    rw [← h, ← hd, h, toAsciiLowercase, toAsciiLowercase, toAsciiLowercase, ← List.map_append]
  exact (List.append_inj happ (List.length_map _)).2

/-- The rule for a wildcard. -/
theorem matchesEntry_wildcard : MatchesEntry ("*.".toList ++ suffix) domain ↔
    ∃ below, domain = below ++ ['.'] ++ toAsciiLowercase suffix ∧ below ≠ [] := by
  constructor
  · rintro (hcase | ⟨suffix', below, parent, hentry, hdomain, hne, hcase⟩)
    · -- The wildcard itself, read as a domain, is below its own suffix.
      rw [eqIgnoreAsciiCase, beq_iff_eq, hd] at hcase
      refine ⟨"*".toList, ?_, by decide⟩
      rw [← hcase, toAsciiLowercase, List.map_append]
      rfl
    · obtain rfl := List.append_cancel_left hentry
      rw [eqIgnoreAsciiCase, beq_iff_eq, lower_of_parent hd hdomain] at hcase
      exact ⟨below, by rw [← hcase]; exact hdomain, hne⟩
  · rintro ⟨below, hdomain, hne⟩
    refine .inr ⟨suffix, below, _, rfl, hdomain, hne, ?_⟩
    rw [eqIgnoreAsciiCase, beq_iff_eq, toAsciiLowercase_toAsciiLowercase]

/-- The code follows the rule for exact entries and for wildcards in lower case. -/
theorem mayUseCustomDomain_eq_true (principal : Principal) :
    principal.mayUseCustomDomain domain = true ↔
      ∃ entry ∈ principal.customDomains, MatchesEntry entry domain ∧ isLowerEntry entry = true := by
  rw [Principal.mayUseCustomDomain, List.any_eq_true]
  refine exists_congr fun entry => and_congr_right fun _ => ?_
  cases hs : stripPrefix "*.".toList entry with
  | none =>
    have hexact : MatchesEntry entry domain ↔ eqIgnoreAsciiCase entry domain = true := by
      refine or_iff_left ?_
      rintro ⟨suffix, below, parent, hentry, -⟩
      rw [stripPrefix_eq_some.mpr hentry] at hs
      cases hs
    simp only [isLowerEntry, hs, hexact, and_true]
  | some suffix =>
    obtain rfl := stripPrefix_eq_some.mp hs
    rw [matchesEntry_wildcard hd]
    simp only [isLowerEntry, hs, decide_eq_true_eq]
    cases hfront : stripSuffix suffix domain with
    | none =>
      refine iff_of_false Bool.false_ne_true ?_
      rintro ⟨⟨below, hdomain, -⟩, hlower⟩
      rw [hlower] at hdomain
      rw [stripSuffix_eq_some.mpr hdomain] at hfront
      cases hfront
    | some front =>
      have hdomain := stripSuffix_eq_some.mp hfront
      simp only [wildcardFront_iff]
      constructor
      · rintro ⟨below, rfl, hne⟩
        have hlower := lower_of_parent hd hdomain
        exact ⟨⟨below, by rw [hlower]; exact hdomain, hne⟩, hlower⟩
      · rintro ⟨⟨below, hbelow, hne⟩, hlower⟩
        rw [hlower, hdomain, List.append_cancel_right_eq] at hbelow
        exact ⟨below, hbelow, hne⟩

end Entries

/-- The rule does not tell the spellings of an entry apart. -/
theorem MatchesEntry.congr {entry other domain : Text} (hsame : SameEntry entry other)
    (h : MatchesEntry entry domain) : MatchesEntry other domain := by
  rw [SameEntry, eqIgnoreAsciiCase, beq_iff_eq] at hsame
  rcases h with hcase | ⟨suffix, below, parent, rfl, hdomain, hne, hcase⟩
  · refine .inl ?_
    rwa [eqIgnoreAsciiCase, ← hsame]
  · obtain ⟨start, suffix', rfl, hstart, hsuffix⟩ := List.map_eq_append_iff.mp
      (hsame.symm.trans (List.map_append : toAsciiLowercase ("*.".toList ++ suffix) = _))
    have hself : toAsciiLowercase start = start := by
      apply toAsciiLowercase_eq_self
      intro c hc
      rw [toAsciiLowercase, hstart] at hc
      have hchar : c = '*' ∨ c = '.' := by simpa [lowerChar] using hc
      rcases hchar with rfl | rfl <;> decide
    have hwild : start = "*.".toList := by
      rw [← hself, toAsciiLowercase, hstart]
      rfl
    refine .inr ⟨suffix', below, parent, by rw [hwild], hdomain, hne, ?_⟩
    rw [eqIgnoreAsciiCase, beq_iff_eq] at hcase ⊢
    exact hcase.trans hsuffix.symm

/-- Every entry has its other spelling. -/
theorem exists_sameEntry {entries others : List Text} (h : List.Forall₂ SameEntry entries others)
    {entry : Text} (hentry : entry ∈ entries) : ∃ other ∈ others, SameEntry entry other := by
  induction h with
  | nil => cases hentry
  | cons hsame _ ih =>
    rcases List.mem_cons.mp hentry with rfl | hentry
    · exact ⟨_, List.mem_cons_self, hsame⟩
    · obtain ⟨other, hother, hs⟩ := ih hentry
      exact ⟨other, List.mem_cons_of_mem _ hother, hs⟩

namespace Principal

variable {principal other : Principal} {domain : Text}

/-- The rule does not tell the spellings of an allowlist apart. -/
theorem Covers.congr (h : principal.Covers domain)
    (hsame : List.Forall₂ SameEntry principal.customDomains other.customDomains) :
    other.Covers domain := by
  obtain ⟨entry, hentry, hmatch⟩ := h
  obtain ⟨entry', hentry', hs⟩ := exists_sameEntry hsame hentry
  exact ⟨entry', hentry', hmatch.congr hs⟩

/-- The code decides by the rule exactly when the domain is not matched by wildcards with upper-case
letters alone. -/
theorem mayUse_iff_covers (hd : toAsciiLowercase domain = domain) :
    (principal.mayUseCustomDomain domain = true ↔ principal.Covers domain) ↔
      principal.CoversInLowerCase domain := by
  rw [mayUseCustomDomain_eq_true hd]
  constructor
  · intro h entry hentry hmatch
    exact h.mpr ⟨entry, hentry, hmatch⟩
  · intro h
    constructor
    · rintro ⟨entry, hentry, hmatch, -⟩
      exact ⟨entry, hentry, hmatch⟩
    · rintro ⟨entry, hentry, hmatch⟩
      exact h entry hentry hmatch

end Principal

/-- On a domain in canonical form the code decides by the rule exactly when, if an entry matches it,
one does that is exact or a wildcard in lower case. Two spellings of an allowlist of that kind
decide alike. -/
theorem mayUseCustomDomain_iff {raw domain : Text} (h : normalizeHost raw = .ok domain)
    (principal : Principal) :
    ((principal.mayUseCustomDomain domain = true ↔ principal.Covers domain) ↔
        principal.CoversInLowerCase domain) ∧
      ∀ other : Principal,
        List.Forall₂ SameEntry principal.customDomains other.customDomains →
        principal.CoversInLowerCase domain → other.CoversInLowerCase domain →
        principal.mayUseCustomDomain domain = other.mayUseCustomDomain domain := by
  have hd := toAsciiLowercase_of_normalizeHost h
  refine ⟨Principal.mayUse_iff_covers hd, fun other hsame hlower hother => ?_⟩
  have hback : List.Forall₂ SameEntry other.customDomains principal.customDomains := by
    refine hsame.flip.imp fun entry entry' (hs : SameEntry entry' entry) => ?_
    rw [SameEntry, eqIgnoreAsciiCase, beq_iff_eq] at hs ⊢
    exact hs.symm
  rw [Bool.eq_iff_iff, (Principal.mayUse_iff_covers hd).mpr hlower,
    (Principal.mayUse_iff_covers hd).mpr hother]
  exact ⟨fun hc => hc.congr hsame, fun hc => hc.congr hback⟩

/-- An account with these custom domains. -/
def domainsAccount (customDomains : List Text) : Principal :=
  ⟨"acct_1".toList, [], customDomains, Limits.default⟩

/-- An exact entry in upper case and a wildcard in lower case. -/
theorem mayUseCustomDomain_mixed : (domainsAccount ["EXAMPLE.com".toList,
    "*.example.com".toList]).CoversInLowerCase "shop.example.com".toList := by
  have hdomain : normalizeHost "Shop.example.com".toList = .ok "shop.example.com".toList := rfl
  refine (mayUseCustomDomain_iff hdomain _).1.mp (iff_of_true (by decide) ?_)
  exact ⟨"*.example.com".toList, by decide, .inr ⟨"example.com".toList, "shop".toList,
    "example.com".toList, rfl, rfl, by decide, rfl⟩⟩

/-- A wildcard with an upper-case letter matches nothing. -/
theorem mayUseCustomDomain_upper : ¬ ∀ (raw domain : Text) (principal : Principal),
    normalizeHost raw = .ok domain →
      (principal.mayUseCustomDomain domain = true ↔ principal.Covers domain) := by
  intro h
  have hrule := h "shop.example.com".toList "shop.example.com".toList
    (domainsAccount ["*.Example.com".toList]) rfl
  have hcovers : (domainsAccount ["*.Example.com".toList]).Covers "shop.example.com".toList :=
    ⟨"*.Example.com".toList, by decide, .inr ⟨"Example.com".toList, "shop".toList,
      "example.com".toList, rfl, rfl, by decide, rfl⟩⟩
  exact absurd (hrule.mpr hcovers) (by decide)

end Norupo
