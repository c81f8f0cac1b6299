import Mathlib.Algebra.Order.Ring.Nat
import Mathlib.Data.List.DropRight
import Mathlib.Tactic.Common

/-!
# Text as lists of characters

A string is the list of its Unicode scalar values. The functions follow the documented behaviour
of the Rust standard library on `str`: lengths are UTF-8 byte lengths, `trim` removes the Unicode
`White_Space` characters, and the ASCII operations leave every other character alone.
-/

/-- A string, as the list of its Unicode scalar values. -/
abbrev Text := List Char

namespace Text

/-- The Unicode `White_Space` property, as `char::is_whitespace` decides it. -/
def isWhitespace (c : Char) : Bool :=
  let n := c.toNat
  (9 ≤ n && n ≤ 13) || n == 0x20 || n == 0x85 || n == 0xA0 || n == 0x1680 ||
    (0x2000 ≤ n && n ≤ 0x200A) || n == 0x2028 || n == 0x2029 || n == 0x202F ||
    n == 0x205F || n == 0x3000

/-- `str::trim_end_matches` for a character predicate. -/
def trimEnd (p : Char → Bool) (s : Text) : Text := (s.reverse.dropWhile p).reverse

/-- `str::trim`. -/
def trim (s : Text) : Text := trimEnd isWhitespace (s.dropWhile isWhitespace)

/-- `str::len`: the number of UTF-8 bytes. -/
def byteLen (s : Text) : Nat := (s.map Char.utf8Size).sum

/-- `char::is_ascii`. -/
def isAsciiChar (c : Char) : Bool := c.toNat < 128

/-- `str::is_ascii`. -/
def isAscii (s : Text) : Bool := s.all isAsciiChar

/-- `u8::is_ascii_digit` on a character. -/
def isAsciiDigit (c : Char) : Bool := '0' ≤ c && c ≤ '9'

/-- `u8::is_ascii_lowercase` on a character. -/
def isAsciiLowercase (c : Char) : Bool := 'a' ≤ c && c ≤ 'z'

/-- `char::to_ascii_lowercase`. -/
def lowerChar (c : Char) : Char :=
  if 'A' ≤ c && c ≤ 'Z' then Char.ofNat (c.toNat + 32) else c

/-- `str::to_ascii_lowercase`. -/
def toAsciiLowercase (s : Text) : Text := s.map lowerChar

/-- `str::eq_ignore_ascii_case`. -/
def eqIgnoreAsciiCase (s t : Text) : Bool := toAsciiLowercase s == toAsciiLowercase t

/-- `str::split_once` at the first occurrence of a character. -/
def splitOnce (c : Char) : Text → Option (Text × Text)
  | [] => none
  | x :: xs =>
    if x = c then some ([], xs)
    else (splitOnce c xs).map fun p => (x :: p.1, p.2)

/-- `str::rsplit_once` at the last occurrence of a character. -/
def rsplitOnce (c : Char) (s : Text) : Option (Text × Text) :=
  (splitOnce c s.reverse).map fun p => (p.2.reverse, p.1.reverse)

/-- The text after the last occurrence of a character, or all of it. -/
def afterLast (c : Char) (s : Text) : Text :=
  match rsplitOnce c s with
  | some (_, rest) => rest
  | none => s

/-- `str::parse::<u16>`: decimal digits after an optional plus sign, in range. -/
def parseU16 (s : Text) : Option Nat :=
  let digits := match s with
    | '+' :: digits => digits
    | digits => digits
  if !digits.isEmpty && digits.all isAsciiDigit && Nat.ofDigitChars 10 digits 0 < 2 ^ 16 then
    some (Nat.ofDigitChars 10 digits 0)
  else none

/-- `str::strip_prefix` with a string pattern. -/
def stripPrefix : Text → Text → Option Text
  | [], s => some s
  | _ :: _, [] => none
  | p :: ps, x :: xs => if x = p then stripPrefix ps xs else none

/-- `str::strip_suffix` with a string pattern. -/
def stripSuffix (suffix s : Text) : Option Text :=
  (stripPrefix suffix.reverse s.reverse).map List.reverse

section Searching

variable {c : Char} {s : Text}

/-- No character of a text is one that does not occur in it. -/
theorem decide_ne_of_notMem (h : c ∉ s) : ∀ x ∈ s, decide (x ≠ c) = true := by
  intro x hx
  rw [decide_eq_true_eq]
  exact fun he => h (he ▸ hx)

/-- A text without the character is not cut short. -/
theorem takeWhile_ne_of_notMem (h : c ∉ s) : s.takeWhile (· ≠ c) = s :=
  List.takeWhile_eq_self_iff.mpr (decide_ne_of_notMem h)

/-- A text without the character, up to its first occurrence. -/
theorem takeWhile_ne_append (h : c ∉ s) (rest : Text) :
    (s ++ c :: rest).takeWhile (· ≠ c) = s := by
  rw [List.takeWhile_append_of_pos (decide_ne_of_notMem h)]
  simp

theorem dropWhile_ne_append (h : c ∉ s) (rest : Text) :
    (s ++ c :: rest).dropWhile (· ≠ c) = c :: rest := by
  rw [List.dropWhile_append_of_pos (decide_ne_of_notMem h)]
  simp

/-- Splitting finds the first occurrence. -/
theorem splitOnce_append (h : c ∉ s) (rest : Text) :
    splitOnce c (s ++ c :: rest) = some (s, rest) := by
  induction s with
  | nil => simp [splitOnce]
  | cons x s ih =>
    rw [List.mem_cons, not_or] at h
    have hx : x ≠ c := Ne.symm h.1
    simp [splitOnce, hx, ih h.2]

/-- A text that is not split does not have the character. -/
theorem splitOnce_eq_none : splitOnce c s = none ↔ c ∉ s := by
  induction s with
  | nil => simp [splitOnce]
  | cons x s ih =>
    by_cases hx : x = c
    · simp [splitOnce, hx]
    · simp [splitOnce, hx, ih, Ne.symm hx]

/-- The two parts surround the first occurrence. -/
theorem splitOnce_eq_some {head rest : Text} (h : splitOnce c s = some (head, rest)) :
    c ∉ head ∧ s = head ++ c :: rest := by
  induction s generalizing head with
  | nil => cases h
  | cons x s ih =>
    rw [splitOnce] at h
    split at h
    · rename_i hx
      obtain ⟨rfl, rfl⟩ := Prod.mk.inj (Option.some.inj h)
      exact ⟨List.not_mem_nil, by rw [hx, List.nil_append]⟩
    · rename_i hx
      obtain ⟨⟨head', rest'⟩, hs, he⟩ := Option.map_eq_some_iff.mp h
      obtain ⟨rfl, rfl⟩ := Prod.mk.inj he
      obtain ⟨hn, rfl⟩ := ih hs
      refine ⟨?_, rfl⟩
      rw [List.mem_cons, not_or]
      exact ⟨Ne.symm hx, hn⟩

/-- Splitting from the end finds the last occurrence. -/
theorem rsplitOnce_append {rest : Text} (h : c ∉ rest) (s : Text) :
    rsplitOnce c (s ++ c :: rest) = some (s, rest) := by
  have hrev : (s ++ c :: rest).reverse = rest.reverse ++ c :: s.reverse := by simp
  rw [rsplitOnce, hrev, splitOnce_append (by simpa using h)]
  simp

theorem rsplitOnce_eq_none : rsplitOnce c s = none ↔ c ∉ s := by
  rw [rsplitOnce, Option.map_eq_none_iff, splitOnce_eq_none, List.mem_reverse]

/-- The two parts surround the last occurrence. -/
theorem rsplitOnce_eq_some {head rest : Text} (h : rsplitOnce c s = some (head, rest)) :
    c ∉ rest ∧ s = head ++ c :: rest := by
  obtain ⟨⟨first, second⟩, hs, he⟩ := Option.map_eq_some_iff.mp h
  obtain ⟨rfl, rfl⟩ := Prod.mk.inj he
  obtain ⟨hn, hrev⟩ := splitOnce_eq_some hs
  refine ⟨by simpa using hn, ?_⟩
  rw [← List.reverse_reverse s, hrev]
  simp

/-- A character that occurs is found. -/
theorem rsplitOnce_of_mem (h : c ∈ s) : ∃ head rest, c ∉ rest ∧ s = head ++ c :: rest := by
  cases hr : rsplitOnce c s with
  | none => exact absurd h (rsplitOnce_eq_none.mp hr)
  | some p => exact ⟨p.1, p.2, rsplitOnce_eq_some hr⟩

end Searching

/-- The pieces of a text that is split have characters of the text only. -/
theorem mem_of_mem_splitOn {c d : Char} {s piece : Text} (hp : piece ∈ s.splitOn c)
    (hd : d ∈ piece) : d ∈ s := by
  induction s generalizing piece with
  | nil =>
    obtain rfl : piece = [] := by simpa using hp
    exact hd
  | cons x s ih =>
    rw [List.splitOn_cons_eq_if_modifyHead] at hp
    split at hp
    · rcases List.mem_cons.mp hp with rfl | hp
      · cases hd
      · exact List.mem_cons_of_mem x (ih hp hd)
    · obtain ⟨first, rest, hs⟩ := List.exists_cons_of_ne_nil (List.splitOn_ne_nil c s)
      rw [hs, List.modifyHead_cons] at hp
      rcases List.mem_cons.mp hp with rfl | hp
      · rcases List.mem_cons.mp hd with rfl | hd
        · exact List.mem_cons_self
        · exact List.mem_cons_of_mem x (ih (hs ▸ List.mem_cons_self) hd)
      · exact List.mem_cons_of_mem x (ih (hs ▸ List.mem_cons_of_mem first hp) hd)

section Stripping

theorem stripPrefix_eq_some {start s rest : Text} :
    stripPrefix start s = some rest ↔ s = start ++ rest := by
  induction start generalizing s with
  | nil => simp [stripPrefix]
  | cons c start ih =>
    cases s with
    | nil => simp [stripPrefix]
    | cons x s =>
      by_cases hx : x = c
      · simp [stripPrefix, hx, ih]
      · simp [stripPrefix, hx]

theorem stripSuffix_eq_some {suffix s head : Text} :
    stripSuffix suffix s = some head ↔ s = head ++ suffix := by
  rw [stripSuffix, Option.map_eq_some_iff]
  constructor
  · rintro ⟨rest, hr, rfl⟩
    rw [stripPrefix_eq_some] at hr
    rw [← List.reverse_reverse s, hr, List.reverse_append, List.reverse_reverse]
  · rintro rfl
    exact ⟨head.reverse, stripPrefix_eq_some.mpr (List.reverse_append), List.reverse_reverse head⟩

end Stripping

section Trimming

variable {p : Char → Bool} {s : Text}

/-- The last character of two texts in a row is the last of one of them. -/
theorem mem_getLast?_append {left right : Text} {c : Char} (h : c ∈ (left ++ right).getLast?) :
    c ∈ right.getLast? ∨ c ∈ left.getLast? := by
  rw [List.getLast?_append, Option.mem_def, Option.or_eq_some_iff] at h
  exact h.imp id And.right

/-- Trimming removes a tail that matches, up to a character that does not. -/
theorem trimEnd_append {tail : Text} (htail : ∀ c ∈ tail, p c = true)
    (hlast : ∀ c ∈ s.getLast?, p c = false) : trimEnd p (s ++ tail) = s := by
  have hdrop : s.reverse.dropWhile p = s.reverse := by
    cases hr : s.reverse with
    | nil => rfl
    | cons c rest =>
      have hc : c ∈ s.getLast? := by
        rw [← List.head?_reverse, hr]
        rfl
      rw [List.dropWhile_cons_of_neg (by rw [hlast c hc]; exact Bool.false_ne_true)]
  rw [trimEnd, List.reverse_append, List.dropWhile_append_of_pos fun c hc =>
    htail c (List.mem_reverse.mp hc), hdrop, List.reverse_reverse]

/-- Trimming keeps the characters that do not match. -/
theorem mem_trimEnd {c : Char} (hc : p c = false) : c ∈ trimEnd p s ↔ c ∈ s := by
  have hs : s.rdropWhile p ++ s.rtakeWhile p = s := List.rdropWhile_append_rtakeWhile
  have hsplit : c ∈ s ↔ c ∈ trimEnd p s ∨ c ∈ s.rtakeWhile p := by
    rw [← List.mem_append, trimEnd, ← List.rdropWhile, hs]
  rw [hsplit, or_iff_left]
  intro hm
  rw [List.mem_rtakeWhile_imp hm] at hc
  cases hc

/-- A trimmed text does not end in a match. -/
theorem getLast?_trimEnd {c : Char} (h : c ∈ (trimEnd p s).getLast?) : p c = false := by
  have hne : s.rdropWhile p ≠ [] := by
    rintro hn
    rw [trimEnd, ← List.rdropWhile, hn] at h
    cases h
  have hlast := List.rdropWhile_last_not p s hne
  have hc : (s.rdropWhile p).getLast hne = c := by
    rw [List.getLast_eq_iff_getLast?_eq_some]
    exact h
  rw [hc] at hlast
  exact Bool.eq_false_iff.mpr hlast

/-- Trimming removes white space on both sides of a text that begins and ends with none. -/
theorem trim_append {left right : Text} (hleft : ∀ c ∈ left, isWhitespace c = true)
    (hright : ∀ c ∈ right, isWhitespace c = true) (hne : s ≠ [])
    (hfirst : ∀ c ∈ s.head?, isWhitespace c = false)
    (hlast : ∀ c ∈ s.getLast?, isWhitespace c = false) : trim (left ++ s ++ right) = s := by
  obtain ⟨c, rest, rfl⟩ := List.exists_cons_of_ne_nil hne
  have hdrop : (c :: rest ++ right).dropWhile isWhitespace = c :: rest ++ right := by
    rw [List.cons_append, List.dropWhile_cons_of_neg]
    rw [hfirst c rfl]
    exact Bool.false_ne_true
  rw [trim, List.append_assoc, List.dropWhile_append_of_pos hleft, hdrop,
    trimEnd_append hright hlast]

/-- A trimmed text does not begin with white space. -/
theorem head?_trim {c : Char} (h : c ∈ (trim s).head?) : isWhitespace c = false := by
  have hpre : trim s <+: s.dropWhile isWhitespace := List.rdropWhile_prefix isWhitespace _
  cases ht : trim s with
  | nil =>
    rw [ht] at h
    cases h
  | cons x rest =>
    rw [ht] at h hpre
    obtain rfl : x = c := Option.some.inj h
    obtain ⟨later, hl⟩ := hpre
    have hd : (s.dropWhile isWhitespace).head? = some x := by
      rw [← hl]
      rfl
    by_contra hw
    have hnot := List.head?_dropWhile_not isWhitespace s
    rw [hd] at hnot
    simp_all

/-- A trimmed text does not end in white space. -/
theorem getLast?_trim {c : Char} (h : c ∈ (trim s).getLast?) : isWhitespace c = false :=
  getLast?_trimEnd h

/-- Trimming leaves a part of the text. -/
theorem trim_isInfix (s : Text) : trim s <:+: s :=
  (List.rdropWhile_prefix isWhitespace _).isInfix.trans (List.dropWhile_suffix _).isInfix

/-- Predicates that agree on a text trim it alike. -/
theorem dropWhile_congr {q : Char → Bool} (h : ∀ c ∈ s, p c = q c) :
    s.dropWhile p = s.dropWhile q := by
  induction s with
  | nil => rfl
  | cons c s ih =>
    have hrest := ih fun d hd => h d (List.mem_cons_of_mem c hd)
    simp only [List.dropWhile_cons, h c List.mem_cons_self, hrest]

theorem takeWhile_congr {q : Char → Bool} (h : ∀ c ∈ s, p c = q c) :
    s.takeWhile p = s.takeWhile q := by
  induction s with
  | nil => rfl
  | cons c s ih =>
    have hrest := ih fun d hd => h d (List.mem_cons_of_mem c hd)
    simp only [List.takeWhile_cons, h c List.mem_cons_self, hrest]

theorem trimEnd_congr {q : Char → Bool} (h : ∀ c ∈ s, p c = q c) : trimEnd p s = trimEnd q s := by
  rw [trimEnd, trimEnd, dropWhile_congr fun c hc => h c (List.mem_reverse.mp hc)]

/-- Trimming keeps characters of the text only. -/
theorem mem_of_mem_trim {c : Char} (h : c ∈ trim s) : c ∈ s := (trim_isInfix s).subset h

end Trimming

section Lowercase

variable {c d : Char} {s : Text}

/-- An upper-case letter moves by 32, every other character stays. -/
theorem lowerChar_cases (c : Char) :
    (65 ≤ c.toNat ∧ c.toNat ≤ 90 ∧ (lowerChar c).toNat = c.toNat + 32) ∨
      (¬ (65 ≤ c.toNat ∧ c.toNat ≤ 90) ∧ lowerChar c = c) := by
  have hA : 'A' ≤ c ↔ 65 ≤ c.toNat := Iff.rfl
  have hZ : c ≤ 'Z' ↔ c.toNat ≤ 90 := Iff.rfl
  by_cases h : 65 ≤ c.toNat ∧ c.toNat ≤ 90
  · refine .inl ⟨h.1, h.2, ?_⟩
    have hvalid : (c.toNat + 32).isValidChar := .inl (by omega)
    simp only [lowerChar, hA, hZ, h, decide_true, Bool.and_self, if_true]
    rw [Char.ofNat, dif_pos hvalid]
    rfl
  · refine .inr ⟨h, ?_⟩
    simp only [lowerChar, hA, hZ, ← Bool.decide_and, decide_eq_true_eq, h, if_false]

/-- Lowering a character and a character that is no letter. -/
theorem lowerChar_eq_iff (hd : ¬ (65 ≤ d.toNat ∧ d.toNat ≤ 90) ∧ ¬ (97 ≤ d.toNat ∧ d.toNat ≤ 122)) :
    lowerChar c = d ↔ c = d := by
  rcases lowerChar_cases c with ⟨hlo, hhi, hc⟩ | ⟨-, hc⟩
  · constructor
    · rintro rfl
      omega
    · rintro rfl
      omega
  · rw [hc]

/-- A lowered text has a character that is no letter where the text has it. -/
theorem mem_toAsciiLowercase
    (hd : ¬ (65 ≤ d.toNat ∧ d.toNat ≤ 90) ∧ ¬ (97 ≤ d.toNat ∧ d.toNat ≤ 122)) :
    d ∈ toAsciiLowercase s ↔ d ∈ s := by
  rw [toAsciiLowercase, List.mem_map]
  constructor
  · rintro ⟨c, hc, he⟩
    exact (lowerChar_eq_iff hd).mp he ▸ hc
  · intro h
    exact ⟨d, h, (lowerChar_eq_iff hd).mpr rfl⟩

/-- A property that does not tell letters by their case. -/
theorem lowerChar_congr {q : Char → Bool}
    (hq : ∀ c d : Char, 65 ≤ c.toNat → c.toNat ≤ 90 → d.toNat = c.toNat + 32 → q d = q c)
    (c : Char) : q (lowerChar c) = q c := by
  rcases lowerChar_cases c with ⟨hlo, hhi, hc⟩ | ⟨-, hc⟩
  · exact hq c _ hlo hhi hc
  · rw [hc]

@[simp] theorem isWhitespace_lowerChar (c : Char) :
    isWhitespace (lowerChar c) = isWhitespace c := by
  refine lowerChar_congr (fun c d hlo hhi hd => ?_) c
  rw [Bool.eq_iff_iff]
  simp only [isWhitespace, hd, Bool.or_eq_true, Bool.and_eq_true, decide_eq_true_eq, beq_iff_eq]
  omega

/-- Lowering twice is lowering once. -/
@[simp] theorem lowerChar_lowerChar (c : Char) : lowerChar (lowerChar c) = lowerChar c := by
  rcases lowerChar_cases c with ⟨hlo, hhi, hc⟩ | ⟨-, hc⟩
  · rcases lowerChar_cases (lowerChar c) with ⟨_, _, _⟩ | ⟨-, h⟩
    · omega
    · exact h
  · rw [hc, hc]

@[simp] theorem toAsciiLowercase_toAsciiLowercase (s : Text) :
    toAsciiLowercase (toAsciiLowercase s) = toAsciiLowercase s := by
  rw [toAsciiLowercase, toAsciiLowercase, List.map_map]
  exact List.map_congr_left fun c _ => lowerChar_lowerChar c

/-- A text whose lower case has no letters is its own lower case. -/
theorem toAsciiLowercase_eq_self {text : Text} (h : ∀ c ∈ toAsciiLowercase text,
    ¬ (65 ≤ c.toNat ∧ c.toNat ≤ 90) ∧ ¬ (97 ≤ c.toNat ∧ c.toNat ≤ 122)) :
    toAsciiLowercase text = text := by
  refine (List.map_congr_left fun c hc => ?_).trans (List.map_id text)
  exact ((lowerChar_eq_iff (h _ (List.mem_map_of_mem hc))).mp rfl).symm

end Lowercase

section Numbers

variable {s t : Text} {n : Nat}

/-- Without a sign, a text of digits is read in decimal. -/
theorem parseU16_unsigned (h : s.head? ≠ some '+') : parseU16 s = some n ↔
    s ≠ [] ∧ s.all isAsciiDigit = true ∧ Nat.ofDigitChars 10 s 0 = n ∧ n < 2 ^ 16 := by
  unfold parseU16
  split
  · exact absurd rfl h
  · simp only [Bool.and_eq_true, Bool.not_eq_true', List.isEmpty_eq_false_iff, decide_eq_true_eq,
      Option.ite_none_right_eq_some, Option.some.injEq]
    constructor
    · rintro ⟨⟨⟨hne, hall⟩, hlt⟩, rfl⟩
      exact ⟨hne, hall, rfl, hlt⟩
    · rintro ⟨hne, hall, rfl, hlt⟩
      exact ⟨⟨⟨hne, hall⟩, hlt⟩, rfl⟩

/-- A digit is no white space. -/
theorem isWhitespace_of_isAsciiDigit {c : Char} (h : isAsciiDigit c = true) :
    isWhitespace c = false := by
  have hlo : '0' ≤ c ↔ 48 ≤ c.toNat := Iff.rfl
  have hhi : c ≤ '9' ↔ c.toNat ≤ 57 := Iff.rfl
  simp only [isAsciiDigit, Bool.and_eq_true, decide_eq_true_eq, hlo, hhi] at h
  rw [Bool.eq_false_iff]
  simp only [isWhitespace, ne_eq, Bool.or_eq_true, Bool.and_eq_true, decide_eq_true_eq, beq_iff_eq]
  omega

/-- Digits are no sign. -/
theorem head?_ne_sign (h : s.all isAsciiDigit = true) : s.head? ≠ some '+' := by
  intro hs
  exact absurd (List.all_eq_true.mp h '+' (List.mem_of_head? hs)) (by decide)

/-- Numbers consist of digits and a sign. -/
theorem isAsciiDigit_of_parseU16 (h : parseU16 s = some n) {c : Char} (hc : c ∈ s) :
    c = '+' ∨ isAsciiDigit c = true := by
  unfold parseU16 at h
  split at h
  all_goals
    simp only [Option.ite_none_right_eq_some, Bool.and_eq_true, List.all_eq_true] at h
  · rcases List.mem_cons.mp hc with rfl | hc
    · exact .inl rfl
    · exact .inr (h.1.1.2 c hc)
  · exact .inr (h.1.1.2 c hc)

/-- Numbers are in range. -/
theorem parseU16_lt (h : parseU16 s = some n) : n < 2 ^ 16 := by
  unfold parseU16 at h
  split at h
  all_goals
    simp only [Option.ite_none_right_eq_some, Bool.and_eq_true, decide_eq_true_eq] at h
    obtain ⟨⟨-, hlt⟩, heq⟩ := h
    rw [← Option.some.inj heq]
    exact hlt

/-- Numbers are written in digits. -/
theorem all_isAsciiDigit_repr (n : Nat) : (Nat.repr n).toList.all isAsciiDigit = true := by
  rw [Nat.toList_repr, List.all_eq_true]
  intro c hc
  have hdigit := Nat.isDigit_of_mem_toDigits (by decide) (by decide) hc
  simpa [isAsciiDigit, Char.isDigit, Char.le_def] using hdigit

/-- A number is read back as it is written. -/
theorem parseU16_repr (h : n < 2 ^ 16) : parseU16 (Nat.repr n).toList = some n := by
  have hall := all_isAsciiDigit_repr n
  rw [parseU16_unsigned (head?_ne_sign hall)]
  rw [Nat.toList_repr] at hall ⊢
  exact ⟨Nat.toDigits_ne_nil, hall, Nat.ofDigitChars_ten_toDigits, h⟩

/-- Only a text of zeros is read as zero. -/
theorem ofDigitChars_eq_zero_iff (ht : t.all isAsciiDigit = true) :
    Nat.ofDigitChars 10 t 0 = 0 ↔ t.all (· = '0') = true := by
  induction t with
  | nil => simp
  | cons c t ih =>
    simp only [List.all_cons, Bool.and_eq_true] at ht
    obtain ⟨hc, ht⟩ := ht
    have hdigit : 48 ≤ c.toNat := by
      simp only [isAsciiDigit, Bool.and_eq_true, decide_eq_true_eq] at hc
      exact hc.1
    have hchar : c.toNat - 48 = 0 ↔ c = '0' := by
      constructor
      · intro h
        have hn : c.toNat = '0'.toNat := by
          change c.toNat = 48
          omega
        rw [← Char.ofNat_toNat c, hn]
        rfl
      · rintro rfl
        rfl
    rw [Nat.ofDigitChars_cons, Nat.ofDigitChars_eq_ofDigitChars_zero, List.all_cons,
      Bool.and_eq_true, ← ih ht, decide_eq_true_eq, ← hchar]
    have hpow : 0 < 10 ^ t.length := Nat.pow_pos (by decide)
    rw [Nat.add_eq_zero_iff, Nat.mul_eq_zero]
    constructor
    · rintro ⟨h | h, hrest⟩
      · omega
      · exact ⟨by simpa using h, hrest⟩
    · rintro ⟨h, hrest⟩
      exact ⟨.inr (by simpa using h), hrest⟩

/-- Further digits make another number, except for zeros after zero. -/
theorem ofDigitChars_append_eq_iff (hs : Nat.ofDigitChars 10 s 0 = n)
    (ht : t.all isAsciiDigit = true) :
    Nat.ofDigitChars 10 (s ++ t) 0 = n ↔ t = [] ∨ n = 0 ∧ t.all (· = '0') = true := by
  rw [Nat.ofDigitChars_append, hs, Nat.ofDigitChars_eq_ofDigitChars_zero,
    ← ofDigitChars_eq_zero_iff ht]
  cases t with
  | nil => simp
  | cons c t =>
    have hpow : 10 ≤ 10 ^ (c :: t).length := by
      rw [List.length_cons, Nat.pow_succ]
      have : 0 < 10 ^ t.length := Nat.pow_pos (by decide)
      omega
    have hmul : 10 * n ≤ 10 ^ (c :: t).length * n := Nat.mul_le_mul_right n hpow
    constructor
    · intro h
      obtain rfl : n = 0 := by omega
      exact .inr ⟨rfl, by simpa using h⟩
    · rintro (h | ⟨rfl, h⟩)
      · cases h
      · simpa using h

/-- A number with more characters is the same number only if they are zeros after zero. -/
theorem parseU16_append_iff (hs : s.all isAsciiDigit = true) (hn : parseU16 s = some n) :
    parseU16 (s ++ t) = some n ↔ t = [] ∨ n = 0 ∧ t.all (· = '0') = true := by
  obtain ⟨hne, -, hvalue, hlt⟩ := (parseU16_unsigned (head?_ne_sign hs)).mp hn
  have hsign : (s ++ t).head? ≠ some '+' := by
    rw [List.head?_append_of_ne_nil _ hne]
    exact head?_ne_sign hs
  rw [parseU16_unsigned hsign, List.all_append, hs, Bool.true_and]
  constructor
  · rintro ⟨-, ht, heq, -⟩
    exact (ofDigitChars_append_eq_iff hvalue ht).mp heq
  · intro hzeros
    have ht : t.all isAsciiDigit = true := by
      rcases hzeros with rfl | ⟨-, hzeros⟩
      · rfl
      · rw [List.all_eq_true] at hzeros ⊢
        intro c hc
        rw [of_decide_eq_true (hzeros c hc)]
        rfl
    exact ⟨by simp [hne], ht, (ofDigitChars_append_eq_iff hvalue ht).mpr hzeros, hlt⟩

end Numbers

end Text
