import Norupo.Agent.Target

/-!
# Targets that can be dialed

What `parse_forward_target` accepts. A bare port always becomes an address of the loopback
interface. The other two forms are passed on as they were typed: their port is parsed and thrown
away, so that a plus sign and the port zero get through, and their host is only checked not to be
empty.
-/

namespace Norupo

open Text

/-- A host without white space, a colon, and a port from 1 to 65535 in digits. -/
def Dialable (addr : Text) : Prop :=
  ∃ host port, addr = host ++ ':' :: port ∧ host ≠ [] ∧
    (∀ c ∈ host, isWhitespace c = false ∧ c ≠ '/') ∧ port ≠ [] ∧ port.all isAsciiDigit = true ∧
    1 ≤ Nat.ofDigitChars 10 port 0 ∧ Nat.ofDigitChars 10 port 0 ≤ 65535

/-- What a target may start with. -/
def schemes : List Text := [[], "http://".toList, "https://".toList]

/-- A target is a bare port, or its host has no white space and its port has no sign and is not
zero. -/
def PlainTarget (raw : Text) : Prop :=
  (parseU16 (trim raw)).isSome = true ∨ ∃ scheme host port path,
    trim raw = scheme ++ (host ++ ':' :: port) ++ path ∧ scheme ∈ schemes ∧
      '/' ∉ host ++ ':' :: port ∧ (∀ c ∈ path.head?, c = '/') ∧ ':' ∉ port ∧
      host.any isWhitespace = false ∧ port.head? ≠ some '+' ∧ port.any (· ≠ '0') = true

section Authority

variable {trimmed authority path : Text}

/-- A text without a slash is all authority. -/
theorem targetAuthority_of_notMem (h : '/' ∉ trimmed) : targetAuthority trimmed = trimmed := by
  have hnone : ∀ scheme : Text, '/' ∈ scheme → stripPrefix scheme trimmed = none := by
    intro scheme hscheme
    rw [Option.eq_none_iff_forall_ne_some]
    intro rest hrest
    rw [stripPrefix_eq_some.mp hrest] at h
    exact h (List.mem_append_left _ hscheme)
  rw [targetAuthority, hnone _ (by decide), hnone _ (by decide), Option.or_none, Option.getD_none,
    takeWhile_ne_of_notMem h]

/-- A target is taken apart into its scheme, its authority and its path. -/
theorem targetAuthority_parts (trimmed : Text) : ∃ scheme ∈ schemes, ∃ path,
    trimmed = scheme ++ targetAuthority trimmed ++ path ∧ (∀ c ∈ path.head?, c = '/') ∧
      '/' ∉ targetAuthority trimmed := by
  have hscheme : ∃ scheme ∈ schemes, trimmed = scheme ++ ((stripPrefix "http://".toList trimmed).or
      (stripPrefix "https://".toList trimmed)).getD trimmed := by
    cases hhttp : stripPrefix "http://".toList trimmed with
    | some rest => exact ⟨"http://".toList, by decide, stripPrefix_eq_some.mp hhttp⟩
    | none =>
      cases hhttps : stripPrefix "https://".toList trimmed with
      | some rest => exact ⟨"https://".toList, by decide, stripPrefix_eq_some.mp hhttps⟩
      | none => exact ⟨[], by decide, rfl⟩
  obtain ⟨scheme, hmem, heq⟩ := hscheme
  refine ⟨scheme, hmem, List.dropWhile (· ≠ '/') (((stripPrefix "http://".toList trimmed).or
    (stripPrefix "https://".toList trimmed)).getD trimmed), ?_, ?_, ?_⟩
  · rw [List.append_assoc, targetAuthority, List.takeWhile_append_dropWhile]
    exact heq
  · intro c hc
    have hnot := List.head?_dropWhile_not (fun d : Char => decide (d ≠ '/'))
      (((stripPrefix "http://".toList trimmed).or (stripPrefix "https://".toList trimmed)).getD
        trimmed)
    rw [Option.mem_def.mp hc] at hnot
    simpa using hnot
  · intro hslash
    simpa using List.mem_takeWhile_imp hslash

/-- The authority in front of a path. -/
theorem takeWhile_authority (hauthority : '/' ∉ authority) (hpath : ∀ c ∈ path.head?, c = '/') :
    (authority ++ path).takeWhile (· ≠ '/') = authority := by
  cases path with
  | nil => rw [List.append_nil, takeWhile_ne_of_notMem hauthority]
  | cons c path =>
    obtain rfl : c = '/' := hpath c rfl
    exact takeWhile_ne_append hauthority path

/-- The authority of a target is what stands there, unless it is the beginning of a scheme. -/
theorem targetAuthority_eq {scheme : Text} (hscheme : scheme ∈ schemes)
    (hauthority : '/' ∉ authority) (hpath : ∀ c ∈ path.head?, c = '/')
    (hlast : ∀ c ∈ authority.getLast?, c ≠ ':') :
    targetAuthority (scheme ++ authority ++ path) = authority := by
  have hcut := takeWhile_authority hauthority hpath
  have hnone : ∀ name : Text, '/' ∉ name ++ [':'] →
      stripPrefix (name ++ [':'] ++ "//".toList) (authority ++ path) = none := by
    intro name hname
    rw [Option.eq_none_iff_forall_ne_some]
    intro rest hrest
    rw [stripPrefix_eq_some.mp hrest, List.append_assoc] at hcut
    have hsame : name ++ [':'] = authority := (takeWhile_ne_append hname _).symm.trans hcut
    exact hlast ':' (by rw [← hsame, List.getLast?_concat]; rfl) rfl
  simp only [schemes, List.mem_cons, List.not_mem_nil, or_false] at hscheme
  rcases hscheme with rfl | rfl | rfl
  · have hhttp : stripPrefix "http://".toList (authority ++ path) = none :=
      hnone "http".toList (by decide)
    have hhttps : stripPrefix "https://".toList (authority ++ path) = none :=
      hnone "https".toList (by decide)
    rw [List.nil_append, targetAuthority, hhttp, hhttps]
    exact hcut
  · have hhttp : stripPrefix "http://".toList ("http://".toList ++ (authority ++ path)) =
        some (authority ++ path) := stripPrefix_eq_some.mpr rfl
    rw [List.append_assoc, targetAuthority, hhttp]
    exact hcut
  · have hhttp : stripPrefix "http://".toList ("https://".toList ++ (authority ++ path)) = none :=
      rfl
    have hhttps : stripPrefix "https://".toList ("https://".toList ++ (authority ++ path)) =
        some (authority ++ path) := stripPrefix_eq_some.mpr rfl
    rw [List.append_assoc, targetAuthority, hhttp, hhttps]
    exact hcut

end Authority

variable {raw addr host port : Text}

/-- A port in digits is none of the characters that the other parts end with. -/
theorem notMem_of_digits {c : Char} (hdigits : port.all isAsciiDigit = true)
    (hc : isAsciiDigit c = false) : c ∉ port := by
  intro hmem
  rw [List.all_eq_true.mp hdigits c hmem] at hc
  cases hc

/-- An address that can be dialed is a target of its own. -/
theorem Dialable.parse_self (h : Dialable addr) : parseForwardTarget addr = .ok addr := by
  obtain ⟨host, port, rfl, hhost, hchars, hport, hdigits, hlow, hhigh⟩ := h
  have hcolon : ':' ∉ port := notMem_of_digits hdigits rfl
  have hslash : '/' ∉ host ++ ':' :: port := by
    rw [List.mem_append, List.mem_cons]
    rintro (hmem | hmem | hmem)
    · exact (hchars _ hmem).2 rfl
    · cases hmem
    · exact notMem_of_digits hdigits rfl hmem
  have htrim : trim (host ++ ':' :: port) = host ++ ':' :: port := by
    have hends := @trim_append (host ++ ':' :: port) [] [] (by simp) (by simp) (by simp) ?_ ?_
    · rwa [List.nil_append, List.append_nil] at hends
    · intro c hc
      rw [List.head?_append_of_ne_nil _ hhost] at hc
      exact (hchars c (List.mem_of_head? hc)).1
    · intro c hc
      rw [List.append_cons, List.getLast?_append_of_ne_nil _ hport] at hc
      exact isWhitespace_of_isAsciiDigit
        (List.all_eq_true.mp hdigits c (List.mem_of_getLast? hc))
  have hvalue : parseU16 port = some (Nat.ofDigitChars 10 port 0) := by
    rw [parseU16_unsigned (head?_ne_sign hdigits)]
    exact ⟨hport, hdigits, rfl, by omega⟩
  rw [parseForwardTarget_eq_ok_iff, htrim, targetAuthority_of_notMem hslash]
  right
  refine ⟨?_, rfl, host, port, _, rfl, hcolon, hhost, hvalue⟩
  cases hparse : parseU16 (host ++ ':' :: port) with
  | none => rfl
  | some n =>
    have hmem : ':' ∈ host ++ ':' :: port := List.mem_append_right _ List.mem_cons_self
    exact absurd (isAsciiDigit_of_parseU16 hparse hmem) (by decide)

/-- A port in digits that is not all zeros is positive. -/
theorem one_le_ofDigitChars_iff (hdigits : port.all isAsciiDigit = true) :
    1 ≤ Nat.ofDigitChars 10 port 0 ↔ port.any (· ≠ '0') = true := by
  rw [Nat.one_le_iff_ne_zero, ne_eq, ofDigitChars_eq_zero_iff hdigits]
  simp

/-- An accepted authority can be dialed when its host has no white space and its port has no sign
and is not zero. -/
theorem dialable_of_parts {n : Nat} (hhost : host ≠ []) (hslash : '/' ∉ host)
    (hchars : host.any isWhitespace = false) (hn : parseU16 port = some n)
    (hsign : port.head? ≠ some '+') (hzero : port.any (· ≠ '0') = true) :
    Dialable (host ++ ':' :: port) := by
  obtain ⟨hport, hdigits, rfl, hlt⟩ := (parseU16_unsigned hsign).mp hn
  refine ⟨host, port, rfl, hhost, fun c hc => ⟨?_, ?_⟩, hport, hdigits,
    (one_le_ofDigitChars_iff hdigits).mpr hzero, by omega⟩
  · exact Bool.eq_false_iff.mpr (List.any_eq_false.mp hchars c hc)
  · rintro rfl
    exact hslash hc

/-- The loopback address of a port. -/
theorem dialable_loopback {n : Nat} (hn : n ≠ 0) (hlt : n < 2 ^ 16) :
    Dialable ("127.0.0.1:".toList ++ (Nat.repr n).toList) := by
  have hdigits := all_isAsciiDigit_repr n
  have hrepr := parseU16_repr hlt
  obtain ⟨-, -, hvalue, -⟩ := (parseU16_unsigned (head?_ne_sign hdigits)).mp hrepr
  refine @dialable_of_parts "127.0.0.1".toList (Nat.repr n).toList n (by decide) (by decide)
    (by decide) hrepr (head?_ne_sign hdigits) ?_
  rw [← one_le_ofDigitChars_iff hdigits, hvalue]
  omega

/-- What is accepted can be dialed, and is accepted again as it is, exactly when the target is a
bare port, or its host has no white space and its port has no sign and is not zero. -/
theorem parseForwardTarget_dialable_iff (h : parseForwardTarget raw = .ok addr) :
    Dialable addr ∧ parseForwardTarget addr = .ok addr ↔ PlainTarget raw := by
  constructor
  · rintro ⟨⟨host, port, rfl, hhost, hchars, hport, hdigits, hlow, -⟩, -⟩
    rcases parseForwardTarget_eq_ok_iff.mp h with ⟨n, hn, -, -⟩ | ⟨-, hauthority, -⟩
    · exact .inl (by rw [hn]; rfl)
    · obtain ⟨scheme, hscheme, path, hraw, hpath, hslash⟩ := targetAuthority_parts (trim raw)
      rw [← hauthority] at hraw hslash
      have hspace : host.any isWhitespace = false :=
        List.any_eq_false.mpr fun c hc => Bool.eq_false_iff.mp (hchars c hc).1
      exact .inr ⟨scheme, host, port, path, hraw, hscheme, hslash, hpath,
        notMem_of_digits hdigits rfl, hspace, head?_ne_sign hdigits,
        (one_le_ofDigitChars_iff hdigits).mp hlow⟩
  · intro hplain
    suffices hdial : Dialable addr from ⟨hdial, hdial.parse_self⟩
    rcases parseForwardTarget_eq_ok_iff.mp h with ⟨n, hn, hzero, rfl⟩ |
      ⟨hnone, hauthority, host, port, n, haddr, hcolon, hhost, hn⟩
    · exact dialable_loopback hzero (parseU16_lt hn)
    · rcases hplain with hsome | ⟨scheme, host', port', path, hraw, hscheme, hslash, hpath,
        hcolon', hchars, hsign, hnonzero⟩
      · rw [hnone] at hsome
        cases hsome
      · -- The authority has one last colon, so the parts are the ones that were checked.
        have hlast : ∀ c ∈ (host' ++ ':' :: port').getLast?, c ≠ ':' := by
          rintro c hc rfl
          have hport' : port' ≠ [] := by
            rintro rfl
            cases hnonzero
          rw [List.append_cons, List.getLast?_append_of_ne_nil _ hport'] at hc
          exact hcolon' (List.mem_of_getLast? hc)
        rw [hraw, targetAuthority_eq hscheme hslash hpath hlast] at hauthority
        have hsplit := rsplitOnce_append hcolon host
        rw [← haddr, hauthority, rsplitOnce_append hcolon'] at hsplit
        obtain ⟨rfl, rfl⟩ := Prod.mk.inj (Option.some.inj hsplit)
        rw [haddr]
        exact dialable_of_parts hhost (fun hmem => hslash (List.mem_append_left _ hmem)) hchars hn
          hsign hnonzero

/-- A URL with a path. -/
theorem parseForwardTarget_dialable_url :
    parseForwardTarget " http://localhost:3000/x ".toList = .ok "localhost:3000".toList ∧
      Dialable "localhost:3000".toList ∧
      parseForwardTarget "localhost:3000".toList = .ok "localhost:3000".toList := by
  have hraw : parseForwardTarget " http://localhost:3000/x ".toList =
      .ok "localhost:3000".toList := by
    decide
  have hplain : PlainTarget " http://localhost:3000/x ".toList := by
    refine .inr ⟨"http://".toList, "localhost".toList, "3000".toList, "/x".toList, by decide,
      by decide, by decide, ?_, by decide, by decide, by decide, by decide⟩
    rintro c ⟨⟩
    rfl
  exact ⟨hraw, (parseForwardTarget_dialable_iff hraw).mpr hplain⟩

/-- The port zero is refused when it is given alone, and gets through behind a host. -/
theorem parseForwardTarget_port_zero : ¬ ∀ raw addr : Text, parseForwardTarget raw = .ok addr →
    Dialable addr ∧ parseForwardTarget addr = .ok addr := by
  intro h
  have hraw : parseForwardTarget "localhost:0".toList = .ok "localhost:0".toList := by decide
  obtain ⟨⟨host, port, haddr, -, -, -, hdigits, hlow, -⟩, -⟩ := h _ _ hraw
  have hsplit := rsplitOnce_append (notMem_of_digits (c := ':') hdigits rfl) host
  rw [← haddr] at hsplit
  obtain ⟨rfl, rfl⟩ := Prod.mk.inj (Option.some.inj hsplit)
  exact absurd hlow (by decide)

end Norupo
