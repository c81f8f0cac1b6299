import Norupo.Core.Hosts

/-!
# What normalization takes off

`normalize_host` of `norupo-core/src/routing.rs` trims once, at the beginning. White space in front
of root dots or of a port comes to light only later, and stays: then the result is no fixed point.
Of a name the function takes off nothing but root dots and a port of digits, while everything after
the bracket of an address literal goes unread.
-/

namespace Norupo

open Text

/-- White space stands between a name and its root dots or its port. -/
def SpacedName (raw : Text) : Prop :=
  (trim raw).head? ≠ some '[' ∧ ∃ name space dots port,
    trim raw = name ++ [space] ++ dots ++ port ∧ ':' ∉ name ∧ isWhitespace space = true ∧
      dots.all (· = '.') = true ∧ IsPort port

/-- Root dots, and then a port. -/
def IsTail (tail : Text) : Prop :=
  ∃ dots port, tail = dots ++ port ∧ dots.all (· = '.') = true ∧ IsPort port

/-- A text is a name in any case, inside white space, with root dots and a port. -/
def Respells (raw name : Text) : Prop :=
  ∃ tail, toAsciiLowercase (trim raw) = name ++ tail ∧ IsTail tail

/-- Nothing but root dots and a port follows the bracket of an address literal. -/
def CleanTail (raw : Text) : Prop :=
  ∀ address rest, trim raw = '[' :: (address ++ ']' :: rest) → ']' ∉ address → IsTail rest

variable {raw key : Text}

/-- An address literal is closed. -/
theorem normalizeHost_closed (h : normalizeHost raw = .ok key) (hb : (trim raw).head? = some '[') :
    ∃ address rest, trim raw = '[' :: (address ++ ']' :: rest) ∧ ']' ∉ address := by
  obtain ⟨-, host, hstrip, -⟩ := normalizeHost_eq_ok.mp h
  rcases stripPort_cases hstrip with ⟨address, rest, ht, hclose, -⟩ | ⟨hplain, -⟩
  · exact ⟨address, rest, ht, hclose⟩
  · exact absurd hb hplain

/-- The key of an address literal is the literal, up to its bracket. -/
theorem normalizeHost_literal {address rest : Text} (hclose : ']' ∉ address)
    (ht : trim raw = '[' :: (address ++ ']' :: rest)) :
    normalizeHost raw = .ok key ↔
      key = '[' :: (toAsciiLowercase address ++ [']']) ∧ isAscii key = true ∧
        byteLen key ≤ 253 := by
  have hstrip : ∀ host, stripPort raw (trim raw) = .ok host ↔ host = '[' :: address ++ [']'] := by
    intro host
    rw [ht, stripPort, splitOnce_append hclose]
    constructor
    · exact fun he => (Except.ok.inj he).symm
    · rintro rfl
      rfl
  have hroot : trimEnd (· = '.') ('[' :: address ++ [']']) = '[' :: address ++ [']'] :=
    List.rdropWhile_concat_neg _ _ _ (by decide)
  have hlower : toAsciiLowercase ('[' :: address ++ [']']) =
      '[' :: (toAsciiLowercase address ++ [']']) := by
    rw [toAsciiLowercase, List.cons_append, List.map_cons, List.map_append]
    rfl
  rw [normalizeHost_eq_ok]
  constructor
  · rintro ⟨-, host, hhost, -, hascii, hshort, rfl⟩
    obtain rfl := (hstrip host).mp hhost
    rw [hroot, hlower] at hascii hshort ⊢
    exact ⟨rfl, hascii, hshort⟩
  · rintro ⟨rfl, hascii, hshort⟩
    refine ⟨by simp [ht], '[' :: address ++ [']'], (hstrip _).mpr rfl, ?_⟩
    rw [hroot, hlower]
    exact ⟨by simp, hascii, hshort, rfl⟩

/-- The key of an address literal is its own key. -/
theorem normalizeHost_literal_self {address rest : Text} (hclose : ']' ∉ address)
    (ht : trim raw = '[' :: (address ++ ']' :: rest)) (h : normalizeHost raw = .ok key) :
    normalizeHost key = .ok key := by
  obtain ⟨hkey, hascii, hshort⟩ := (normalizeHost_literal hclose ht).mp h
  have hlower : ']' ∉ toAsciiLowercase address := by rwa [mem_toAsciiLowercase (by decide)]
  have htrim : trim key = '[' :: (toAsciiLowercase address ++ ']' :: []) := by
    have hnone : ∀ c ∈ ([] : Text), isWhitespace c = true := by simp
    rw [hkey, ← List.cons_append]
    have hlast : ∀ c ∈ ('[' :: toAsciiLowercase address ++ [']']).getLast?,
        isWhitespace c = false := by
      rw [List.getLast?_concat]
      rintro c hc
      obtain rfl : ']' = c := Option.some.inj hc
      decide
    simpa using trim_append hnone hnone (List.cons_ne_nil _ _) (by simp; decide) hlast
  refine (normalizeHost_literal hlower htrim).mpr ⟨?_, hascii, hshort⟩
  rw [toAsciiLowercase_toAsciiLowercase]
  exact hkey

/-- The name that a text without brackets is cut down to, and its tail. -/
theorem normalizeHost_plain (h : normalizeHost raw = .ok key) (hb : (trim raw).head? ≠ some '[') :
    ∃ core dots port, trim raw = core ++ dots ++ port ∧ key = toAsciiLowercase core ∧ core ≠ [] ∧
      ':' ∉ core ∧ (∀ c ∈ core.getLast?, c ≠ '.') ∧ dots.all (· = '.') = true ∧ IsPort port := by
  obtain ⟨-, host, hstrip, hne, -, -, rfl⟩ := normalizeHost_eq_ok.mp h
  rcases stripPort_cases hstrip with ⟨address, rest, ht, -, -⟩ | ⟨-, port, ht, hcolon, hport⟩
  · rw [ht] at hb
    exact absurd rfl hb
  have hsplit : trimEnd (· = '.') host ++ host.rtakeWhile (· = '.') = host :=
    List.rdropWhile_append_rtakeWhile
  refine ⟨trimEnd (· = '.') host, host.rtakeWhile (· = '.'), port, ?_, rfl, hne, ?_, ?_, ?_, hport⟩
  · rw [hsplit, ht]
  · intro hm
    exact hcolon ((List.rdropWhile_prefix _ host).subset hm)
  · intro c hc
    exact of_decide_eq_false (getLast?_trimEnd hc)
  · rw [List.all_eq_true]
    intro c hc
    exact List.mem_rtakeWhile_imp (p := fun c => decide (c = '.')) hc

/-- Normalization makes a text no longer than trimming does. -/
theorem length_normalizeHost_le (h : normalizeHost raw = .ok key) :
    key.length ≤ (trim raw).length := by
  obtain ⟨-, host, hstrip, -, -, -, rfl⟩ := normalizeHost_eq_ok.mp h
  have hroot : (trimEnd (· = '.') host).length ≤ host.length :=
    (List.rdropWhile_prefix _ host).length_le
  rw [toAsciiLowercase, List.length_map]
  rcases stripPort_cases hstrip with ⟨address, rest, ht, -, rfl⟩ | ⟨-, port, ht, -, -⟩
  · rw [ht]
    simp only [List.length_cons, List.length_append, List.cons_append, List.length_nil] at hroot ⊢
    omega
  · rw [ht, List.length_append]
    omega

/-- A name that ends in white space is not its own key. -/
theorem normalizeHost_ne_self {c : Char} (hc : c ∈ key.getLast?) (hs : isWhitespace c = true) :
    normalizeHost key ≠ .ok key := by
  intro h
  have hwhole : trim key = key :=
    (trim_isInfix key).eq_of_length_le (length_normalizeHost_le h)
  rw [← hwhole] at hc
  rw [getLast?_trim hc] at hs
  cases hs

/-- A spaced name is cut down to a text that ends in white space. -/
theorem SpacedName.getLast? (hspaced : SpacedName raw) (h : normalizeHost raw = .ok key) :
    ∃ c ∈ key.getLast?, isWhitespace c = true := by
  obtain ⟨hb, name, space, dots, port, ht, hname, hspace, hdots, hport⟩ := hspaced
  obtain ⟨-, host, hstrip, -, -, -, rfl⟩ := normalizeHost_eq_ok.mp h
  have hnot : ':' ∉ name ++ [space] ++ dots := by
    simp only [List.mem_append, List.mem_singleton, not_or]
    refine ⟨⟨hname, ?_⟩, ?_⟩
    · rintro rfl
      exact absurd hspace (by decide)
    · intro hm
      exact absurd (List.all_eq_true.mp hdots ':' hm) (by decide)
  have hhost : host = name ++ [space] ++ dots := by
    rcases stripPort_eq_ok hstrip with ⟨address, rest, hbracket, -⟩ | ⟨-, hhost⟩
    · rw [hbracket] at hb
      exact absurd rfl hb
    · rw [hhost, ht, takeWhile_of_isPort hnot hport]
  have hroot : trimEnd (· = '.') host = name ++ [space] := by
    rw [hhost]
    refine trimEnd_append (List.all_eq_true.mp hdots) ?_
    rw [List.getLast?_concat]
    rintro c hc
    obtain rfl : space = c := Option.some.inj hc
    rw [decide_eq_false_iff_not]
    rintro rfl
    exact absurd hspace (by decide)
  refine ⟨lowerChar space, ?_, ?_⟩
  · rw [hroot, toAsciiLowercase, List.getLast?_map, List.getLast?_concat]
    rfl
  · rwa [isWhitespace_lowerChar]

/-- A key is a fixed point of `normalize_host` exactly when no white space stood between its name
and the root dots or the port. -/
theorem normalizeHost_self_iff (h : normalizeHost raw = .ok key) :
    normalizeHost key = .ok key ↔ ¬ SpacedName raw := by
  constructor
  · intro hself hspaced
    obtain ⟨c, hc, hs⟩ := hspaced.getLast? h
    exact normalizeHost_ne_self hc hs hself
  · intro hspaced
    by_cases hb : (trim raw).head? = some '['
    · obtain ⟨address, rest, ht, hclose⟩ := normalizeHost_closed h hb
      exact normalizeHost_literal_self hclose ht h
    · obtain ⟨core, dots, port, ht, rfl, hne, hcolon, -, hdots, hport⟩ := normalizeHost_plain h hb
      have hcanonical : CanonicalHost (toAsciiLowercase core) := by
        refine .of_plain h hb fun c hc => ?_
        rw [toAsciiLowercase, List.getLast?_map, Option.mem_def, Option.map_eq_some_iff] at hc
        obtain ⟨space, hlast, rfl⟩ := hc
        rw [isWhitespace_lowerChar, Bool.eq_false_iff]
        intro hs
        obtain ⟨name, rfl⟩ := List.getLast?_eq_some_iff.mp hlast
        refine hspaced ⟨hb, name, space, dots, port, ht, ?_, hs, hdots, hport⟩
        exact fun hm => hcolon (List.mem_append_left _ hm)
      exact hcanonical.normalizeHost_self

/-- A name in mixed case, with a root dot and a port, has no space to leave over. -/
theorem normalizeHost_self_port : ¬ SpacedName " API.tunnel.com.:8080 ".toList := by
  have hkey : normalizeHost " API.tunnel.com.:8080 ".toList = .ok "api.tunnel.com".toList := rfl
  exact (normalizeHost_self_iff hkey).mp rfl

/-- The space in front of a port is left over, and the next pass takes it off. -/
theorem normalizeHost_self_spaced : ¬ ∀ raw key : Text,
    normalizeHost raw = .ok key → normalizeHost key = .ok key := by
  intro h
  have hself := h "a :80".toList "a ".toList rfl
  revert hself
  decide

/-- A tail has no letters. -/
theorem IsTail.notLetter {tail : Text} (h : IsTail tail) {c : Char} (hc : c ∈ tail) :
    ¬ (65 ≤ c.toNat ∧ c.toNat ≤ 90) ∧ ¬ (97 ≤ c.toNat ∧ c.toNat ≤ 122) := by
  obtain ⟨dots, port, rfl, hdots, hport⟩ := h
  rcases List.mem_append.mp hc with hc | hc
  · obtain rfl : c = '.' := by simpa using List.all_eq_true.mp hdots c hc
    decide
  · rcases hport with rfl | ⟨digits, rfl, hdigits⟩
    · cases hc
    rcases List.mem_cons.mp hc with rfl | hc
    · decide
    · have hdigit := List.all_eq_true.mp hdigits c hc
      have hlo : '0' ≤ c ↔ 48 ≤ c.toNat := Iff.rfl
      have hhi : c ≤ '9' ↔ c.toNat ≤ 57 := Iff.rfl
      simp only [isAsciiDigit, Bool.and_eq_true, decide_eq_true_eq, hlo, hhi] at hdigit
      omega

/-- A tail is a tail in any case. -/
theorem isTail_lower {tail : Text} : IsTail (toAsciiLowercase tail) ↔ IsTail tail := by
  constructor
  · intro h
    rwa [toAsciiLowercase_eq_self fun c hc => h.notLetter hc] at h
  · intro h
    have hself : toAsciiLowercase tail = tail := by
      refine (List.map_congr_left fun c hc => ?_).trans (List.map_id tail)
      exact (lowerChar_eq_iff (h.notLetter hc)).mpr rfl
    rwa [hself]

/-- A key spells the trimmed text exactly when nothing but a tail is taken off. -/
theorem respells_iff {core tail : Text} (ht : trim raw = core ++ tail)
    (hkey : key = toAsciiLowercase core) : Respells raw key ↔ IsTail tail := by
  have hlower : toAsciiLowercase (trim raw) = key ++ toAsciiLowercase tail := by
    rw [ht, hkey, toAsciiLowercase, List.map_append]
    rfl
  rw [← isTail_lower]
  constructor
  · rintro ⟨tail', heq, htail⟩
    rw [hlower, List.append_cancel_left_eq] at heq
    rwa [heq]
  · exact fun htail => ⟨_, hlower, htail⟩

/-- A key spells the trimmed text exactly when the text has a clean tail. -/
theorem respells_iff_cleanTail (h : normalizeHost raw = .ok key) :
    Respells raw key ↔ CleanTail raw := by
  by_cases hb : (trim raw).head? = some '['
  · obtain ⟨address, rest, ht, hclose⟩ := normalizeHost_closed h hb
    have hcut : trim raw = ('[' :: address ++ [']']) ++ rest := by simp [ht]
    have hkey : key = toAsciiLowercase ('[' :: address ++ [']']) := by
      rw [((normalizeHost_literal hclose ht).mp h).1]
      simp only [toAsciiLowercase, List.map_append, List.map_cons, List.map_nil, List.cons_append]
      rfl
    rw [respells_iff hcut hkey]
    constructor
    · intro htail address' rest' ht' hclose'
      -- The first closing bracket is where the literal was cut.
      have hsplit := splitOnce_append hclose rest
      rw [(List.cons.inj (ht.symm.trans ht')).2, splitOnce_append hclose' rest'] at hsplit
      obtain ⟨-, rfl⟩ := Prod.mk.inj (Option.some.inj hsplit)
      exact htail
    · exact fun hclean => hclean address rest ht hclose
  · obtain ⟨core, dots, port, ht, hkey, -, -, -, hdots, hport⟩ := normalizeHost_plain h hb
    rw [List.append_assoc] at ht
    rw [respells_iff ht hkey]
    refine iff_of_true ⟨dots, port, rfl, hdots, hport⟩ fun address rest ht' _ => ?_
    rw [ht'] at hb
    exact absurd rfl hb

/-- A key together with root dots and a port spells the trimmed text exactly when nothing else
followed the bracket of an address literal. Then texts of one key spell one name. -/
theorem normalizeHost_respells_iff (h : normalizeHost raw = .ok key) :
    (Respells raw key ↔ CleanTail raw) ∧
      ∀ other, normalizeHost other = .ok key → CleanTail raw → CleanTail other →
        ∃ name, Respells raw name ∧ Respells other name := by
  refine ⟨respells_iff_cleanTail h, fun other hother hraw hclean => ⟨key, ?_, ?_⟩⟩
  · exact (respells_iff_cleanTail h).mpr hraw
  · exact (respells_iff_cleanTail hother).mpr hclean

/-- An address literal with a port is taken apart without a rest. -/
theorem normalizeHost_respells_port : CleanTail " [::1]:8080 ".toList := by
  have hkey : normalizeHost " [::1]:8080 ".toList = .ok "[::1]".toList := rfl
  refine (normalizeHost_respells_iff hkey).1.mp ?_
  exact ⟨":8080".toList, rfl, [], ":8080".toList, rfl, rfl, .inr ⟨"8080".toList, rfl, rfl⟩⟩

/-- What follows an address literal goes unread, whatever it is. -/
theorem normalizeHost_drops_junk : ¬ ∀ raw key : Text,
    normalizeHost raw = .ok key → Respells raw key := by
  intro h
  obtain ⟨tail, hlower, htail⟩ := h "[::1]x".toList "[::1]".toList rfl
  have hcut : "[::1]".toList ++ "x".toList = "[::1]".toList ++ tail := hlower
  obtain rfl := List.append_cancel_left hcut
  exact absurd (htail.notLetter (c := 'x') (by decide)) (by decide)

end Norupo
