import Norupo.Core.Auth
import Norupo.Core.Routing

/-!
# Host names and their spellings

What `normalize_host` computes, and which names it leaves alone: a canonical name is its own key,
and so is every spelling of it that differs in case, in root dots, in a port or in surrounding white
space. Names that come out of the registration paths are canonical.
-/

namespace Norupo

open Text

/-- The characters of DNS names. -/
def isDnsChar (c : Char) : Bool :=
  isAsciiLowercase (lowerChar c) || isAsciiDigit c || c = '-' || c = '.'

/-- The characters of a DNS name in canonical form. -/
def isKeyChar (c : Char) : Bool := isAsciiLowercase c || isAsciiDigit c || c = '-' || c = '.'

/-- A DNS name, by its characters. -/
def isDnsName (name : Text) : Bool := !name.isEmpty && name.all isDnsChar

/-- An entry of `Principal::custom_domains`: a DNS name, or a wildcard of one. -/
def isDomainEntry (entry : Text) : Bool :=
  match stripPrefix "*.".toList entry with
  | some suffix => isDnsName suffix
  | none => isDnsName entry

/-- A name that `normalize_host` leaves alone. -/
structure CanonicalHost (key : Text) : Prop where
  ascii : isAscii key = true
  lower : toAsciiLowercase key = key
  noColon : ':' ∉ key
  nonempty : key ≠ []
  first : ∀ c ∈ key.head?, isWhitespace c = false ∧ c ≠ '['
  last : ∀ c ∈ key.getLast?, isWhitespace c = false ∧ c ≠ '.'
  short : byteLen key ≤ 253

/-- A text is a spelling of a key: white space around the key in any case, with root dots and a
port. -/
def Spells (text key : Text) : Prop :=
  ∃ left core dots port right, text = left ++ (core ++ dots ++ port) ++ right ∧
    left.all isWhitespace = true ∧ right.all isWhitespace = true ∧
    eqIgnoreAsciiCase core key = true ∧ dots.all (· = '.') = true ∧
    (port = [] ∨ ∃ digits, port = ':' :: digits ∧ digits.all isAsciiDigit = true)

/-- No port, or a colon and digits. -/
def IsPort (port : Text) : Prop :=
  port = [] ∨ ∃ digits, port = ':' :: digits ∧ digits.all isAsciiDigit = true

/-- When `normalize_host` succeeds, and with what. -/
theorem normalizeHost_eq_ok {raw key : Text} :
    normalizeHost raw = .ok key ↔ trim raw ≠ [] ∧ ∃ host, stripPort raw (trim raw) = .ok host ∧
      trimEnd (· = '.') host ≠ [] ∧ isAscii (toAsciiLowercase (trimEnd (· = '.') host)) = true ∧
      byteLen (toAsciiLowercase (trimEnd (· = '.') host)) ≤ 253 ∧
      toAsciiLowercase (trimEnd (· = '.') host) = key := by
  unfold normalizeHost
  simp only [check_eq_ok, bind_eq_ok, pure_eq_ok, List.isEmpty_iff, Bool.not_eq_true',
    Bool.not_eq_false, Nat.not_lt, ne_eq]

/-- The two forms that `normalize_host` takes the port off: of an address literal everything after
the bracket goes, of a name a port of digits. -/
theorem stripPort_cases {raw trimmed host : Text} (h : stripPort raw trimmed = .ok host) :
    (∃ address rest, trimmed = '[' :: (address ++ ']' :: rest) ∧ ']' ∉ address ∧
        host = '[' :: address ++ [']']) ∨
      (trimmed.head? ≠ some '[' ∧ ∃ port, trimmed = host ++ port ∧ ':' ∉ host ∧ IsPort port) := by
  unfold stripPort at h
  split at h
  · rename_i rest
    split at h
    · rename_i address after hs
      obtain ⟨hn, rfl⟩ := splitOnce_eq_some hs
      exact .inl ⟨address, after, rfl, hn, (Except.ok.inj h).symm⟩
    · cases h
  · rename_i hb
    have hhead : trimmed.head? ≠ some '[' := by
      intro hh
      obtain ⟨rest, rfl⟩ := List.head?_eq_some_iff.mp hh
      exact hb rest rfl
    refine .inr ⟨hhead, ?_⟩
    split at h
    · rename_i before port hs
      obtain ⟨hn, rfl⟩ := splitOnce_eq_some hs
      split at h
      · cases h
      · rename_i hport
        obtain rfl := Except.ok.inj h
        refine ⟨':' :: port, rfl, hn, .inr ⟨port, rfl, ?_⟩⟩
        cases port with
        | nil => rfl
        | cons c port => simpa using hport
    · rename_i hs
      obtain rfl := Except.ok.inj h
      exact ⟨[], (List.append_nil _).symm, splitOnce_eq_none.mp hs, .inl rfl⟩

/-- A name in front of its port is the text up to the first colon. -/
theorem takeWhile_of_isPort {host port : Text} (hcolon : ':' ∉ host) (hport : IsPort port) :
    (host ++ port).takeWhile (· ≠ ':') = host := by
  rcases hport with rfl | ⟨digits, rfl, -⟩
  · rw [List.append_nil, List.takeWhile_eq_self_iff]
    intro c hc
    rw [decide_eq_true_eq]
    rintro rfl
    exact hcolon hc
  · exact takeWhile_ne_append hcolon digits

/-- What is left of a host when its port is taken off. -/
theorem stripPort_eq_ok {raw trimmed host : Text} (h : stripPort raw trimmed = .ok host) :
    (∃ address rest, trimmed = '[' :: (address ++ ']' :: rest) ∧ host = '[' :: address ++ [']']) ∨
      (trimmed.head? ≠ some '[' ∧ host = trimmed.takeWhile (· ≠ ':')) := by
  rcases stripPort_cases h with ⟨address, rest, ht, -, hh⟩ | ⟨hhead, port, rfl, hcolon, hport⟩
  · exact .inl ⟨address, rest, ht, hh⟩
  · exact .inr ⟨hhead, (takeWhile_of_isPort hcolon hport).symm⟩

/-- A port of digits, or no port, is taken off. -/
theorem stripPort_of_port {raw host port : Text} (hcolon : ':' ∉ host)
    (hfirst : (host ++ port).head? ≠ some '[') (hport : IsPort port) :
    stripPort raw (host ++ port) = .ok host := by
  unfold stripPort
  split
  · rename_i rest he
    rw [he] at hfirst
    exact absurd rfl hfirst
  · rcases hport with rfl | ⟨digits, rfl, hdigits⟩
    · rw [List.append_nil, splitOnce_eq_none.mpr hcolon]
    · rw [splitOnce_append hcolon]
      simp [hdigits]

section Spelling

variable {key core : Text}

/-- Characters at the same place of two texts that differ in case. -/
theorem head?_of_lower (h : toAsciiLowercase core = key) {c : Char} (hc : c ∈ core.head?) :
    lowerChar c ∈ key.head? := by
  rw [← h, toAsciiLowercase, List.head?_map, Option.mem_def.mp hc]
  rfl

theorem getLast?_of_lower (h : toAsciiLowercase core = key) {c : Char} (hc : c ∈ core.getLast?) :
    lowerChar c ∈ key.getLast? := by
  rw [← h, toAsciiLowercase, List.getLast?_map, Option.mem_def.mp hc]
  rfl

/-- Every spelling of a canonical name has that name as its key. -/
theorem CanonicalHost.normalizeHost_spelling (hk : CanonicalHost key) {text : Text}
    (h : Spells text key) : normalizeHost text = .ok key := by
  obtain ⟨left, core, dots, port, right, rfl, hleft, hright, hcase, hdots, hport⟩ := h
  rw [List.all_eq_true] at hleft hright hdots
  have hlower : toAsciiLowercase core = key := by
    rw [eqIgnoreAsciiCase, beq_iff_eq, hk.lower] at hcase
    exact hcase
  have hne : core ≠ [] := by
    rintro rfl
    exact hk.nonempty hlower.symm
  have hcolon : ':' ∉ core ++ dots := by
    rw [List.mem_append, not_or]
    constructor
    · rw [← mem_toAsciiLowercase (by decide), hlower]
      exact hk.noColon
    · intro hm
      exact absurd (hdots ':' hm) (by decide)
  have hfirst : ∀ c ∈ (core ++ dots ++ port).head?, isWhitespace c = false ∧ c ≠ '[' := by
    intro c hc
    rw [List.append_assoc, List.head?_append_of_ne_nil _ hne] at hc
    obtain ⟨hw, hb⟩ := hk.first _ (head?_of_lower hlower hc)
    rw [isWhitespace_lowerChar] at hw
    refine ⟨hw, ?_⟩
    rintro rfl
    exact hb rfl
  have hcore : ∀ c ∈ core.getLast?, isWhitespace c = false ∧ (decide (c = '.')) = false := by
    intro c hc
    obtain ⟨hw, hd⟩ := hk.last _ (getLast?_of_lower hlower hc)
    rw [isWhitespace_lowerChar] at hw
    refine ⟨hw, decide_eq_false ?_⟩
    rintro rfl
    exact hd rfl
  have hlast : ∀ c ∈ (core ++ dots ++ port).getLast?, isWhitespace c = false := by
    intro c hc
    rcases mem_getLast?_append hc with hc | hc
    · rcases hport with rfl | ⟨digits, rfl, hdigits⟩
      · cases hc
      · rcases List.mem_cons.mp (List.mem_of_mem_getLast? hc) with rfl | hm
        · rfl
        · exact isWhitespace_of_isAsciiDigit (List.all_eq_true.mp hdigits c hm)
    · rcases mem_getLast?_append hc with hc | hc
      · have hd := hdots c (List.mem_of_mem_getLast? hc)
        rw [decide_eq_true_eq] at hd
        rw [hd]
        rfl
      · exact (hcore c hc).1
  have htrim := trim_append hleft hright (by simp [hne]) (fun c hc => (hfirst c hc).1) hlast
  refine normalizeHost_eq_ok.mpr ?_
  rw [htrim]
  refine ⟨by simp [hne], core ++ dots, stripPort_of_port hcolon ?_ hport, ?_⟩
  · intro hh
    exact (hfirst '[' hh).2 rfl
  · rw [trimEnd_append hdots fun c hc => (hcore c hc).2, hlower]
    exact ⟨hne, hk.ascii, hk.short, rfl⟩

/-- A canonical name is its own key. -/
theorem CanonicalHost.normalizeHost_self (hk : CanonicalHost key) :
    normalizeHost key = .ok key := by
  refine hk.normalizeHost_spelling ⟨[], key, [], [], [], by simp, rfl, rfl, ?_, rfl, .inl rfl⟩
  rw [eqIgnoreAsciiCase, beq_iff_eq]

end Spelling

/-- Nothing of a key was not in the text it was made from. -/
theorem mem_of_mem_normalizeHost {raw key : Text} (h : normalizeHost raw = .ok key) {c : Char}
    (hc : ¬ (65 ≤ c.toNat ∧ c.toNat ≤ 90) ∧ ¬ (97 ≤ c.toNat ∧ c.toNat ≤ 122)) (hm : c ∈ key) :
    c ∈ raw := by
  obtain ⟨-, host, hport, -, -, -, rfl⟩ := normalizeHost_eq_ok.mp h
  rw [mem_toAsciiLowercase hc] at hm
  have hhost : c ∈ host := (List.rdropWhile_prefix _ host).subset hm
  refine mem_of_mem_trim ?_
  rcases stripPort_eq_ok hport with ⟨address, rest, ht, rfl⟩ | ⟨-, rfl⟩
  · rw [ht]
    simp only [List.cons_append, List.mem_cons, List.mem_append, List.not_mem_nil,
      or_false] at hhost ⊢
    tauto
  · exact (List.takeWhile_prefix _).subset hhost

/-- The key of an address literal ends in its bracket. -/
theorem getLast?_bracket (address : Text) :
    (toAsciiLowercase (trimEnd (· = '.') ('[' :: address ++ [']']))).getLast? = some ']' := by
  have hend : trimEnd (· = '.') ('[' :: address ++ [']']) = '[' :: address ++ [']'] :=
    List.rdropWhile_concat_neg _ _ _ (by decide)
  rw [hend, toAsciiLowercase, List.getLast?_map, List.getLast?_concat]
  rfl

/-- Whether a name that is no address literal has a character is decided by the text before the
port. -/
theorem mem_normalizeHost_iff {raw key : Text} (h : normalizeHost raw = .ok key)
    (hb : ∀ c ∈ key.getLast?, c ≠ ']') {c : Char} (hdot : c ≠ '.')
    (hc : ¬ (65 ≤ c.toNat ∧ c.toNat ≤ 90) ∧ ¬ (97 ≤ c.toNat ∧ c.toNat ≤ 122)) :
    c ∈ key ↔ c ∈ (trim raw).takeWhile (· ≠ ':') := by
  obtain ⟨-, host, hport, -, -, -, rfl⟩ := normalizeHost_eq_ok.mp h
  rw [mem_toAsciiLowercase hc, mem_trimEnd (decide_eq_false hdot)]
  rcases stripPort_eq_ok hport with ⟨address, rest, -, rfl⟩ | ⟨-, rfl⟩
  · exact absurd rfl (hb ']' (getLast?_bracket address))
  · rfl

section Characters

variable {c : Char}

/-- The code points of key characters. -/
theorem isKeyChar_iff : isKeyChar c = true ↔
    (97 ≤ c.toNat ∧ c.toNat ≤ 122) ∨ (48 ≤ c.toNat ∧ c.toNat ≤ 57) ∨ c.toNat = 45 ∨
      c.toNat = 46 := by
  have ha : 'a' ≤ c ↔ 97 ≤ c.toNat := Iff.rfl
  have hz : c ≤ 'z' ↔ c.toNat ≤ 122 := Iff.rfl
  have h0 : '0' ≤ c ↔ 48 ≤ c.toNat := Iff.rfl
  have h9 : c ≤ '9' ↔ c.toNat ≤ 57 := Iff.rfl
  have hdash : c = '-' ↔ c.toNat = 45 := Char.toNat_inj.symm
  have hdot : c = '.' ↔ c.toNat = 46 := Char.toNat_inj.symm
  simp only [isKeyChar, isAsciiLowercase, isAsciiDigit, Bool.or_eq_true, Bool.and_eq_true,
    decide_eq_true_eq, ha, hz, h0, h9, hdash, hdot]
  omega

/-- Key characters are ASCII, no white space, and their own lower case. -/
theorem isAsciiChar_of_isKeyChar (h : isKeyChar c = true) : isAsciiChar c = true := by
  rw [isKeyChar_iff] at h
  rw [isAsciiChar, decide_eq_true_eq]
  omega

theorem isWhitespace_of_isKeyChar (h : isKeyChar c = true) : isWhitespace c = false := by
  rw [isKeyChar_iff] at h
  rw [Bool.eq_false_iff]
  simp only [isWhitespace, ne_eq, Bool.or_eq_true, Bool.and_eq_true, decide_eq_true_eq, beq_iff_eq]
  omega

theorem lowerChar_of_isKeyChar (h : isKeyChar c = true) : lowerChar c = c := by
  rw [isKeyChar_iff] at h
  rcases lowerChar_cases c with ⟨_, _, _⟩ | ⟨-, hc⟩
  · omega
  · exact hc

/-- DNS characters are those whose lower case is a key character. -/
theorem isDnsChar_eq (c : Char) : isDnsChar c = isKeyChar (lowerChar c) := by
  rcases lowerChar_cases c with ⟨hlo, hhi, hc⟩ | ⟨-, hc⟩
  · have hl : isAsciiLowercase (lowerChar c) = true := by
      have ha : 'a' ≤ lowerChar c ↔ 97 ≤ (lowerChar c).toNat := Iff.rfl
      have hz : lowerChar c ≤ 'z' ↔ (lowerChar c).toNat ≤ 122 := Iff.rfl
      simp only [isAsciiLowercase, Bool.and_eq_true, decide_eq_true_eq, ha, hz]
      omega
    rw [isDnsChar, isKeyChar, hl]
    rfl
  · rw [isDnsChar, hc, isKeyChar]

end Characters

/-- A name of key characters that does not end in a dot is canonical. -/
theorem CanonicalHost.of_isKeyChar {key : Text} (hne : key ≠ [])
    (hall : ∀ c ∈ key, isKeyChar c = true) (hlast : ∀ c ∈ key.getLast?, c ≠ '.')
    (hshort : byteLen key ≤ 253) : CanonicalHost key where
  ascii := List.all_eq_true.mpr fun c hc => isAsciiChar_of_isKeyChar (hall c hc)
  lower := (List.map_congr_left fun c hc => lowerChar_of_isKeyChar (hall c hc)).trans
    (List.map_id key)
  noColon hm := absurd (hall ':' hm) (by decide)
  nonempty := hne
  first c hc := by
    have hk := hall c (List.mem_of_mem_head? hc)
    refine ⟨isWhitespace_of_isKeyChar hk, ?_⟩
    rintro rfl
    exact absurd hk (by decide)
  last c hc := ⟨isWhitespace_of_isKeyChar (hall c (List.mem_of_mem_getLast? hc)), hlast c hc⟩
  short := hshort

/-- A normalized name that is no address literal is canonical unless it ends in white space. -/
theorem CanonicalHost.of_plain {raw key : Text} (h : normalizeHost raw = .ok key)
    (hb : (trim raw).head? ≠ some '[') (hlast : ∀ c ∈ key.getLast?, isWhitespace c = false) :
    CanonicalHost key := by
  obtain ⟨-, host, hport, hne, hascii, hshort, rfl⟩ := normalizeHost_eq_ok.mp h
  rcases stripPort_cases hport with ⟨address, rest, ht, -, -⟩ | ⟨-, port, ht, hcolon, -⟩
  · rw [ht] at hb
    exact absurd rfl hb
  have hnonempty : toAsciiLowercase (trimEnd (· = '.') host) ≠ [] := by
    rw [toAsciiLowercase, ne_eq, List.map_eq_nil_iff]
    exact hne
  have hpre : trimEnd (· = '.') host <+: host := List.rdropWhile_prefix _ host
  refine ⟨hascii, toAsciiLowercase_toAsciiLowercase _, ?_, hnonempty, ?_, ?_, hshort⟩
  · rw [mem_toAsciiLowercase (by decide)]
    exact fun hm => hcolon (hpre.subset hm)
  · intro c hc
    rw [toAsciiLowercase, List.head?_map, Option.mem_def, Option.map_eq_some_iff] at hc
    obtain ⟨d, hd, rfl⟩ := hc
    -- The name begins with what the trimmed text begins with.
    obtain ⟨dots, hdots⟩ := hpre
    have hhead : (trim raw).head? = some d := by
      rw [ht, ← hdots, List.append_assoc, List.head?_append_of_ne_nil _ hne, hd]
    rw [isWhitespace_lowerChar, ne_eq, lowerChar_eq_iff (by decide)]
    refine ⟨head?_trim hhead, ?_⟩
    rintro rfl
    exact hb hhead
  · intro c hc
    refine ⟨hlast c hc, ?_⟩
    rw [toAsciiLowercase, List.getLast?_map, Option.mem_def, Option.map_eq_some_iff] at hc
    obtain ⟨d, hd, rfl⟩ := hc
    have hdot := getLast?_trimEnd hd
    rw [decide_eq_false_iff_not] at hdot
    rwa [ne_eq, lowerChar_eq_iff (by decide)]

/-- A normalized name that ends like a DNS name is canonical. -/
theorem CanonicalHost.of_normalizeHost {raw key : Text} (h : normalizeHost raw = .ok key)
    (hend : ∀ c ∈ key.getLast?, isDnsChar c = true) : CanonicalHost key := by
  refine .of_plain h (fun hb => ?_) (fun c hc => ?_)
  · obtain ⟨-, host, hport, -, -, -, rfl⟩ := normalizeHost_eq_ok.mp h
    rcases stripPort_cases hport with ⟨address, rest, -, -, rfl⟩ | ⟨hplain, -⟩
    · exact absurd (hend ']' (getLast?_bracket address)) (by decide)
    · exact hplain hb
  · have hd := hend c hc
    rw [isDnsChar_eq] at hd
    rw [← isWhitespace_lowerChar]
    exact isWhitespace_of_isKeyChar hd

section Labels

variable {raw label : Text}

/-- A DNS label that can be handed out as a subdomain. -/
structure SafeLabel (label : Text) : Prop where
  nonempty : 1 ≤ label.length
  short : label.length ≤ 63
  chars : ∀ c ∈ label, (isAsciiLowercase c || isAsciiDigit c || c = '-') = true
  first : label.head? ≠ some '-'
  last : label.getLast? ≠ some '-'
  notPunycode : ¬ "xn--".toList <+: label

theorem SafeLabel.ne_nil (h : SafeLabel label) : label ≠ [] :=
  List.ne_nil_of_length_pos h.nonempty

/-- The characters of a label are key characters. -/
theorem SafeLabel.isKeyChar (h : SafeLabel label) {c : Char} (hc : c ∈ label) :
    isKeyChar c = true := by
  rw [Norupo.isKeyChar, h.chars c hc, Bool.true_or]

theorem SafeLabel.dot_notMem (h : SafeLabel label) : '.' ∉ label :=
  fun hm => absurd (h.chars '.' hm) (by decide)

/-- The byte length of ASCII text is its length. -/
theorem byteLen_of_isAscii (h : ∀ c ∈ label, isAsciiChar c = true) :
    byteLen label = label.length := by
  induction label with
  | nil => rfl
  | cons c label ih =>
    have hc := h c List.mem_cons_self
    rw [isAsciiChar, decide_eq_true_eq] at hc
    have hsize : c.utf8Size = 1 := by
      rw [Char.utf8Size_eq_one_iff, UInt32.le_iff_toNat_le]
      exact Nat.le_of_lt_succ hc
    have hrest := ih fun d hd => h d (List.mem_cons_of_mem c hd)
    rw [byteLen] at hrest ⊢
    rw [List.map_cons, List.sum_cons, hsize, hrest, List.length_cons, Nat.add_comm]

/-- `validate_subdomain_syntax` lowers and trims, and lets labels through. -/
theorem validateSubdomainSyntax_eq_ok :
    validateSubdomainSyntax raw = .ok label ↔
      toAsciiLowercase (trim raw) = label ∧ SafeLabel label := by
  unfold validateSubdomainSyntax
  simp only [check_eq_ok, pure_eq_ok, List.isEmpty_iff, Bool.not_eq_true', Bool.not_eq_false,
    List.all_eq_true, Nat.not_lt, Bool.or_eq_true, decide_eq_true_eq, not_or]
  constructor
  · rintro ⟨hne, hlen, hall, hends, hpuny, rfl⟩
    have hkey : ∀ c ∈ toAsciiLowercase (trim raw), Norupo.isKeyChar c = true := by
      intro c hc
      have hk := hall c hc
      rw [Norupo.isKeyChar]
      simp only [Bool.or_eq_true, decide_eq_true_eq]
      exact .inl hk
    rw [byteLen_of_isAscii fun c hc => isAsciiChar_of_isKeyChar (hkey c hc)] at hlen
    refine ⟨rfl, List.length_pos_of_ne_nil hne, hlen, ?_, hends.1, hends.2, ?_⟩
    · intro c hc
      simpa using hall c hc
    · rintro ⟨rest, hrest⟩
      exact hpuny (by rw [stripPrefix_eq_some.mpr hrest.symm]; rfl)
  · rintro ⟨rfl, hsafe⟩
    refine ⟨hsafe.ne_nil, ?_, ?_, ⟨hsafe.first, hsafe.last⟩, ?_, rfl⟩
    · rw [byteLen_of_isAscii fun c hc => isAsciiChar_of_isKeyChar (hsafe.isKeyChar hc)]
      exact hsafe.short
    · intro c hc
      simpa using hsafe.chars c hc
    · intro hp
      obtain ⟨rest, hrest⟩ := Option.isSome_iff_exists.mp hp
      exact hsafe.notPunycode ⟨rest, (stripPrefix_eq_some.mp hrest).symm⟩

/-- A label is left alone when it is validated once more. -/
theorem SafeLabel.validate_self (h : SafeLabel label) :
    validateSubdomainSyntax label = .ok label := by
  have htrim : trim label = label := by
    have hspace : ∀ c ∈ label, isWhitespace c = false :=
      fun c hc => isWhitespace_of_isKeyChar (h.isKeyChar hc)
    have hnone : ∀ c ∈ ([] : Text), isWhitespace c = true := by simp
    simpa using trim_append hnone hnone h.ne_nil
      (fun c hc => hspace c (List.mem_of_mem_head? hc))
      (fun c hc => hspace c (List.mem_of_mem_getLast? hc))
  refine validateSubdomainSyntax_eq_ok.mpr ⟨?_, h⟩
  rw [htrim]
  exact (List.map_congr_left fun c hc => lowerChar_of_isKeyChar (h.isKeyChar hc)).trans
    (List.map_id label)

/-- A generated subdomain is a label. -/
theorem SafeLabel.randomSubdomain
    (picks : Fin generatedSubdomainLen → Fin subdomainAlphabet.length) :
    SafeLabel (randomSubdomain picks) := by
  have hletter : (subdomainAlphabet.all fun c => isAsciiLowercase c || isAsciiDigit c) = true := rfl
  have hmem : ∀ c ∈ Norupo.randomSubdomain picks,
      (isAsciiLowercase c || isAsciiDigit c) = true := by
    intro c hc
    obtain ⟨place, rfl⟩ := List.mem_ofFn.mp hc
    exact List.all_eq_true.mp hletter _ (List.get_mem _ _)
  have hlength : (Norupo.randomSubdomain picks).length = 12 := List.length_ofFn
  have hdash : '-' ∉ Norupo.randomSubdomain picks := fun hm => absurd (hmem '-' hm) (by decide)
  refine ⟨by omega, by omega, ?_, ?_, ?_, ?_⟩
  · intro c hc
    rw [hmem c hc, Bool.true_or]
  · exact fun he => hdash (List.mem_of_mem_head? he)
  · exact fun he => hdash (List.mem_of_mem_getLast? he)
  · exact fun hp => hdash (hp.subset (by decide))

end Labels

/-- What `public_host` joins. -/
theorem publicHost_eq_ok {subdomain baseDomain host : Text}
    (h : publicHost subdomain baseDomain = .ok host) :
    ∃ label base, validateSubdomainSyntax subdomain = .ok label ∧
      normalizeHost baseDomain = .ok base ∧ host = label ++ ['.'] ++ base ∧ byteLen host ≤ 253 := by
  unfold publicHost at h
  simp only [bind_eq_ok, check_eq_ok, pure_eq_ok, Nat.not_lt] at h
  obtain ⟨label, hlabel, base, hbase, hshort, rfl⟩ := h
  exact ⟨label, base, hlabel, hbase, rfl, hshort⟩

/-- A subdomain of a base domain of key characters is canonical. -/
theorem CanonicalHost.of_publicHost {subdomain baseDomain host : Text}
    (h : publicHost subdomain baseDomain = .ok host)
    (hbase : ∀ base, normalizeHost baseDomain = .ok base → base.all isKeyChar = true) :
    CanonicalHost host := by
  obtain ⟨label, base, hlabel, hb, rfl, hshort⟩ := publicHost_eq_ok h
  obtain ⟨-, hsafe⟩ := validateSubdomainSyntax_eq_ok.mp hlabel
  have hkey := List.all_eq_true.mp (hbase base hb)
  obtain ⟨-, dotted, -, hne, -, -, rfl⟩ := normalizeHost_eq_ok.mp hb
  refine .of_isKeyChar (by simp) (fun c hc => ?_) (fun c hc => ?_) hshort
  · rw [List.mem_append, List.mem_append, List.mem_singleton] at hc
    rcases hc with (hc | rfl) | hc
    · exact hsafe.isKeyChar hc
    · rfl
    · exact hkey c hc
  · rw [List.getLast?_append_of_ne_nil _ (by simpa [toAsciiLowercase] using hne), toAsciiLowercase,
      List.getLast?_map, Option.mem_def, Option.map_eq_some_iff] at hc
    obtain ⟨d, hd, rfl⟩ := hc
    have hdot := getLast?_trimEnd hd
    rw [decide_eq_false_iff_not] at hdot
    rwa [ne_eq, lowerChar_eq_iff (by decide)]

/-- A domain that a principal with proper entries may use ends like a DNS name. -/
theorem Principal.getLast?_of_mayUse {principal : Principal} {domain : Text}
    (hentries : ∀ entry ∈ principal.customDomains, isDomainEntry entry = true)
    (h : principal.mayUseCustomDomain domain = true) :
    ∀ c ∈ domain.getLast?, isDnsChar c = true := by
  intro c hc
  unfold mayUseCustomDomain at h
  obtain ⟨entry, hmem, hmatch⟩ := List.any_eq_true.mp h
  have hentry := hentries entry hmem
  unfold isDomainEntry at hentry
  split at hmatch
  · rename_i suffix hs
    rw [hs] at hentry
    simp only [isDnsName, Bool.and_eq_true, Bool.not_eq_true', List.isEmpty_eq_false_iff,
      List.all_eq_true] at hentry
    split at hmatch
    · rename_i head hh
      rw [stripSuffix_eq_some.mp hh, List.getLast?_append_of_ne_nil _ hentry.1] at hc
      exact hentry.2 c (List.mem_of_mem_getLast? hc)
    · cases hmatch
  · rename_i hs
    rw [hs] at hentry
    simp only [isDnsName, Bool.and_eq_true, List.all_eq_true] at hentry
    rw [eqIgnoreAsciiCase, beq_iff_eq] at hmatch
    have hlast := getLast?_of_lower hmatch.symm hc
    rw [toAsciiLowercase, List.getLast?_map, Option.mem_def, Option.map_eq_some_iff] at hlast
    obtain ⟨d, hd, he⟩ := hlast
    rw [isDnsChar_eq, ← he, ← isDnsChar_eq]
    exact hentry.2 d (List.mem_of_mem_getLast? hd)

end Norupo
