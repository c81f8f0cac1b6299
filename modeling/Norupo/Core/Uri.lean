import Norupo.Foundation.Text

/-!
# URIs

What the program relies on of the `http` crate's `Uri`: the authority of an absolute URI is the text
between the scheme and the path, and its host and its port are read off that text. Parsing itself is
a parameter of the functions that use it.
-/

namespace Norupo

open Text

/-- The parts of a URI that the program reads. -/
structure Uri where
  authority : Option Text
  path : Text
  pathAndQuery : Option Text
  deriving DecidableEq, Repr

/-- Characters that end the authority of a URI. -/
def endsAuthority (c : Char) : Bool := c = '/' || c = '?' || c = '#'

/-- The text before the path, the query or the fragment. -/
def authorityText (rest : Text) : Text := rest.takeWhile fun c => !endsAuthority c

/-- Characters that `HeaderValue::from_str` is documented to accept. -/
def isVisibleChar (c : Char) : Bool := 32 ≤ c.toNat && c.toNat < 127

/-- What is documented of `str::parse::<Uri>`: the authority of an absolute URI is the text after
the scheme and before the path. -/
structure ParsesUri (parseUri : Text → Option Uri) : Prop where
  authority : ∀ rest uri, parseUri ("http://".toList ++ rest) = some uri →
    uri.authority = some (authorityText rest)

/-- What is documented of `str::parse::<Uri>` about an address that is followed by a path. -/
structure ParsesPath (parseUri : Text → Option Uri) : Prop where
  path : ∀ addr rest uri, (∀ c ∈ addr, endsAuthority c = false) → '#' ∉ rest →
    parseUri ("http://".toList ++ (addr ++ '/' :: rest)) = some uri →
      uri.pathAndQuery = some ('/' :: rest) ∧ uri.path = ('/' :: rest).takeWhile (· ≠ '?')

/-- `Authority::host`: what follows the user information, up to the port. -/
def authorityHost (authority : Text) : Text :=
  match afterLast '@' authority with
  | '[' :: rest => '[' :: rest.takeWhile (· ≠ ']') ++ [']']
  | hostPort => hostPort.takeWhile (· ≠ ':')

/-- `Authority::port_u16`: what follows the last colon, as a number. -/
def authorityPort (authority : Text) : Option Nat :=
  (rsplitOnce ':' authority).bind fun p => parseU16 p.2

/-- `Uri::host`. -/
def Uri.host (uri : Uri) : Option Text := uri.authority.map authorityHost

/-- `Uri::port_u16`. -/
def Uri.port (uri : Uri) : Option Nat := uri.authority.bind authorityPort

section Authority

variable {addr extra : Text}

/-- What follows the last `@` of an extended address. -/
theorem afterLast_append_of_mem {c : Char} (h : c ∈ extra) :
    afterLast c (addr ++ extra) = afterLast c extra := by
  obtain ⟨head, rest, hrest, rfl⟩ := rsplitOnce_of_mem h
  rw [afterLast, afterLast, ← List.append_assoc, rsplitOnce_append hrest, rsplitOnce_append hrest]

theorem afterLast_of_notMem {c : Char} (h : c ∉ addr) : afterLast c addr = addr := by
  rw [afterLast, rsplitOnce_eq_none.mpr h]

/-- User information replaces the host in front of it. -/
theorem authorityHost_append_of_mem (h : '@' ∈ extra) :
    authorityHost (addr ++ extra) = authorityHost (afterLast '@' extra) := by
  obtain ⟨head, rest, hrest, rfl⟩ := rsplitOnce_of_mem h
  have hlast : afterLast '@' (head ++ '@' :: rest) = rest := by
    rw [afterLast, rsplitOnce_append hrest]
  rw [authorityHost, authorityHost, afterLast_append_of_mem h, hlast, afterLast_of_notMem hrest]

/-- A later colon replaces the port. -/
theorem authorityPort_append_of_mem (h : ':' ∈ extra) :
    authorityPort (addr ++ extra) = authorityPort extra := by
  obtain ⟨head, rest, hrest, rfl⟩ := rsplitOnce_of_mem h
  rw [authorityPort, authorityPort, ← List.append_assoc, rsplitOnce_append hrest,
    rsplitOnce_append hrest]
  rfl

/-- A port is not read across an `@`. -/
theorem authorityPort_of_user (h : '@' ∈ extra) :
    authorityPort (addr ++ extra) = authorityPort (afterLast '@' extra) := by
  obtain ⟨head, rest, hrest, rfl⟩ := rsplitOnce_of_mem h
  have hlast : afterLast '@' (head ++ '@' :: rest) = rest := by
    rw [afterLast, rsplitOnce_append hrest]
  have htext : addr ++ (head ++ '@' :: rest) = (addr ++ head ++ ['@']) ++ rest := by simp
  rw [hlast, htext]
  by_cases hcolon : ':' ∈ rest
  · exact authorityPort_append_of_mem hcolon
  · have hnone : authorityPort rest = none := by
      rw [authorityPort, rsplitOnce_eq_none.mpr hcolon, Option.bind_none]
    rw [hnone, authorityPort, Option.bind_eq_none_iff]
    rintro ⟨before, port⟩ hp
    obtain ⟨-, heq⟩ := rsplitOnce_eq_some hp
    have hmem : '@' ∈ port := by
      rcases List.append_eq_append_iff.mp heq with ⟨mid, -, hrest'⟩ | ⟨mid, hbefore, hport⟩
      · exact absurd (hrest' ▸ List.mem_append_right mid List.mem_cons_self) hcolon
      · cases mid with
        | nil =>
          rw [List.nil_append] at hport
          exact absurd (hport ▸ List.mem_cons_self) hcolon
        | cons c mid =>
          obtain ⟨rfl, rfl⟩ := List.cons.inj hport
          have hlast := congrArg List.getLast? hbefore
          rw [List.getLast?_append_of_ne_nil _ (by simp),
            List.getLast?_append_of_ne_nil _ (by simp), List.getLast?_singleton] at hlast
          cases mid with
          | nil => cases hlast
          | cons d mid =>
            rw [List.getLast?_cons_cons] at hlast
            exact List.mem_append_left _ (List.mem_of_getLast? hlast.symm)
    cases hparse : parseU16 port with
    | none => rfl
    | some n => exact absurd (isAsciiDigit_of_parseU16 hparse hmem) (by decide)

end Authority

/-- A parser of plain absolute URIs. -/
def parsePlainUri (text : Text) : Option Uri :=
  (stripPrefix "http://".toList text).bind fun rest =>
    if (authorityText rest).all isVisibleChar && !(authorityText rest).isEmpty then
      some
        { authority := some (authorityText rest)
          path := (rest.dropWhile fun c => !endsAuthority c).takeWhile fun c => c ≠ '?' && c ≠ '#'
          pathAndQuery := some ((rest.dropWhile fun c => !endsAuthority c).takeWhile (· ≠ '#')) }
    else none

theorem parsesUri_parsePlainUri : ParsesUri parsePlainUri where
  authority rest uri h := by
    rw [parsePlainUri, stripPrefix_eq_some.mpr rfl, Option.bind_some] at h
    split at h
    · obtain rfl := Option.some.inj h
      rfl
    · cases h

theorem parsesPath_parsePlainUri : ParsesPath parsePlainUri where
  path addr rest uri haddr hhash h := by
    have hdrop : (addr ++ '/' :: rest).dropWhile (fun c => !endsAuthority c) = '/' :: rest := by
      rw [List.dropWhile_append_of_pos fun c hc => by rw [haddr c hc]; rfl]
      rfl
    have hpath : '#' ∉ '/' :: rest := by simp [hhash]
    rw [parsePlainUri, stripPrefix_eq_some.mpr rfl, Option.bind_some, hdrop] at h
    split at h
    · obtain rfl := Option.some.inj h
      constructor
      · rw [Option.some.injEq, List.takeWhile_eq_self_iff]
        intro c hc
        rw [decide_eq_true_eq]
        exact fun he => hpath (he ▸ hc)
      · refine takeWhile_congr fun c hc => ?_
        have hne : c ≠ '#' := fun he => hpath (he ▸ hc)
        simp [hne]
    · cases h

end Norupo
