import Norupo.Foundation.Text

/-!
# Reading markup

A reader of markup is in the text between two tags, inside a tag, or inside a quoted attribute of a
tag; one character at a time it moves from one to the other. What it has read up to some point
matters for the rest only through this mode. Character references are decoded in the same manner: a
reader either has an open reference or has none.
-/

namespace Markup

/-- Where a reader of markup is. -/
inductive Mode
  | text
  | tag
  /-- Inside a quoted attribute, up to the next such mark. -/
  | quoted (mark : Char)
  deriving DecidableEq, Repr

/-- The quotation marks `"` and `'`. -/
def isQuote (c : Char) : Bool := c.toNat = 34 || c.toNat = 39

/-- The mode after one character. -/
def Mode.next : Mode → Char → Mode
  | .text, c => if c = '<' then .tag else .text
  | .tag, c => if c = '>' then .text else if isQuote c then .quoted c else .tag
  | .quoted mark, c => if c = mark then .tag else .quoted mark

/-- The mode after a text. -/
def modeAfter (mode : Mode) (s : Text) : Mode := s.foldl Mode.next mode

/-- Whether a character stands between the tags. -/
def Mode.isContent (mode : Mode) (c : Char) : Bool := mode = .text && c ≠ '<'

/-- The characters of the tags. -/
def tags (mode : Mode) : Text → Text
  | [] => []
  | c :: s => if mode.isContent c then tags (mode.next c) s else c :: tags (mode.next c) s

/-- The characters between the tags. -/
def content (mode : Mode) : Text → Text
  | [] => []
  | c :: s => if mode.isContent c then c :: content (mode.next c) s else content (mode.next c) s

section Reading

variable (mode : Mode) (s t : Text)

theorem modeAfter_append : modeAfter mode (s ++ t) = modeAfter (modeAfter mode s) t :=
  List.foldl_append

theorem tags_append : tags mode (s ++ t) = tags mode s ++ tags (modeAfter mode s) t := by
  induction s generalizing mode with
  | nil => rfl
  | cons c s ih =>
    simp only [List.cons_append, tags, ih]
    split <;> rfl

theorem content_append :
    content mode (s ++ t) = content mode s ++ content (modeAfter mode s) t := by
  induction s generalizing mode with
  | nil => rfl
  | cons c s ih =>
    simp only [List.cons_append, content, ih]
    split <;> rfl

end Reading

/-- A text that opens no tag is content, and leaves the reader where it was. -/
theorem plain_of_notMem {s : Text} (h : '<' ∉ s) :
    modeAfter .text s = .text ∧ tags .text s = [] ∧ content .text s = s := by
  induction s with
  | nil => exact ⟨rfl, rfl, rfl⟩
  | cons c s ih =>
    have hc : c ≠ '<' := fun he => h (he ▸ List.mem_cons_self)
    obtain ⟨hmode, htags, hcontent⟩ := ih fun hs => h (List.mem_cons_of_mem c hs)
    have hnext : Mode.text.next c = .text := if_neg hc
    have hin : Mode.text.isContent c = true := by simp [Mode.isContent, hc]
    refine ⟨?_, ?_, ?_⟩
    · rw [modeAfter, List.foldl_cons, hnext]
      exact hmode
    · rw [tags, if_pos hin, hnext, htags]
    · rw [content, if_pos hin, hnext, hcontent]

/-- A text that opens no tag can stand between two others without a change to their tags. -/
theorem insert_plain {before plain : Text} (hb : modeAfter .text before = .text)
    (hp : '<' ∉ plain) (after : Text) :
    tags .text (before ++ plain ++ after) = tags .text (before ++ after) ∧
      content .text (before ++ plain ++ after) =
        content .text before ++ plain ++ content .text after := by
  obtain ⟨hmode, htags, hcontent⟩ := plain_of_notMem hp
  constructor
  · rw [tags_append, tags_append, tags_append, modeAfter_append, hb, hmode, htags, List.append_nil]
  · rw [content_append, content_append, modeAfter_append, hb, hmode, hcontent]

/-- Some of the named and numbered character references. -/
def reference (name : Text) : Option Char :=
  if name = "amp".toList then some '&'
  else if name = "lt".toList then some '<'
  else if name = "gt".toList then some '>'
  else if name = "quot".toList then some (Char.ofNat 34)
  else if name = "#x27".toList then some (Char.ofNat 39)
  else if name = "middot".toList then some (Char.ofNat 183)
  else none

/-- The references of a text decoded, for a reader with the name of an open reference, if any. What
is no reference stays as it is. -/
def decode : Option Text → Text → Text
  | none, [] => []
  | some name, [] => '&' :: name
  | none, c :: s => if c = '&' then decode (some []) s else c :: decode none s
  | some name, c :: s =>
    if c = ';' then
      match reference name with
      | some d => d :: decode none s
      | none => '&' :: name ++ c :: decode none s
    else if c = '&' then '&' :: name ++ decode (some []) s
    else decode (some (name ++ [c])) s

/-- The open reference after a text. -/
def openAfter : Option Text → Text → Option Text
  | pending, [] => pending
  | none, c :: s => openAfter (if c = '&' then some [] else none) s
  | some name, c :: s =>
    openAfter (if c = ';' then none else if c = '&' then some [] else some (name ++ [c])) s

theorem openAfter_append (pending : Option Text) (s t : Text) :
    openAfter pending (s ++ t) = openAfter (openAfter pending s) t := by
  induction s generalizing pending with
  | nil => cases pending <;> rfl
  | cons c s ih => cases pending <;> simp only [List.cons_append, openAfter, ih]

/-- A text that leaves no reference open is decoded on its own. -/
theorem decode_append {s : Text} {pending : Option Text} (h : openAfter pending s = none)
    (t : Text) : decode pending (s ++ t) = decode pending s ++ decode none t := by
  induction s generalizing pending with
  | nil =>
    obtain rfl : pending = none := h
    rfl
  | cons c s ih =>
    simp only [List.cons_append]
    cases pending with
    | none =>
      simp only [decode]
      by_cases hamp : c = '&'
      · have hrest : openAfter (some []) s = none := by simpa [openAfter, hamp] using h
        rw [if_pos hamp, if_pos hamp, ih hrest]
      · have hrest : openAfter none s = none := by simpa [openAfter, hamp] using h
        rw [if_neg hamp, if_neg hamp, ih hrest, List.cons_append]
    | some name =>
      simp only [decode]
      by_cases hend : c = ';'
      · have hrest : openAfter none s = none := by simpa [openAfter, hend] using h
        rw [if_pos hend, if_pos hend]
        cases reference name <;> simp [ih hrest]
      rw [if_neg hend, if_neg hend]
      by_cases hamp : c = '&'
      · have hrest : openAfter (some []) s = none := by simpa [openAfter, hend, hamp] using h
        rw [if_pos hamp, if_pos hamp, ih hrest, List.append_assoc]
      · have hrest : openAfter (some (name ++ [c])) s = none := by
          simpa [openAfter, hend, hamp] using h
        rw [if_neg hamp, if_neg hamp, ih hrest]

/-- What a reader sees of a text. -/
def shown (s : Text) : Text := decode none (content .text s)

/-- A text after which a reader is between two tags, with no open reference. -/
def Complete (s : Text) : Prop :=
  modeAfter .text s = .text ∧ openAfter none (content .text s) = none

instance (s : Text) : Decidable (Complete s) := inferInstanceAs (Decidable (_ ∧ _))

/-- Complete texts are read one after the other. -/
theorem Complete.append {s t : Text} (hs : Complete s) (ht : Complete t) : Complete (s ++ t) := by
  refine ⟨?_, ?_⟩
  · rw [modeAfter_append, hs.1, ht.1]
  · rw [content_append, openAfter_append, hs.2, hs.1, ht.2]

/-- An escape of single characters that opens no tag and that decoding undoes. -/
structure Escape where
  escape : Char → Text
  opens_no_tag : ∀ c, '<' ∉ escape c
  closed : ∀ c, openAfter none (escape c) = none
  decodes : ∀ c rest, decode none (escape c ++ rest) = c :: decode none rest

namespace Escape

variable (e : Escape)

theorem notMem_flatMap (raw : Text) : '<' ∉ raw.flatMap e.escape := by
  rw [List.mem_flatMap]
  rintro ⟨c, -, hc⟩
  exact e.opens_no_tag c hc

/-- Decoding undoes the escape of a whole text. -/
theorem decode_flatMap (raw rest : Text) :
    decode none (raw.flatMap e.escape ++ rest) = raw ++ decode none rest := by
  induction raw with
  | nil => rfl
  | cons c raw ih => rw [List.flatMap_cons, List.append_assoc, e.decodes, ih, List.cons_append]

/-- An escaped text is complete. -/
theorem complete_flatMap (raw : Text) : Complete (raw.flatMap e.escape) := by
  obtain ⟨hmode, -, hcontent⟩ := plain_of_notMem (e.notMem_flatMap raw)
  refine ⟨hmode, ?_⟩
  rw [hcontent]
  induction raw with
  | nil => rfl
  | cons c raw ih =>
    obtain ⟨hmode, -, hcontent⟩ := plain_of_notMem (e.notMem_flatMap raw)
    rw [List.flatMap_cons, openAfter_append, e.closed, ih hmode hcontent]

/-- What a reader makes of an escaped text after a complete one: the tags are those of the rest, and
the text itself stands where it was written. -/
theorem read_insert {before : Text} (hb : Complete before) (raw after : Text) :
    tags .text (before ++ raw.flatMap e.escape ++ after) = tags .text (before ++ after) ∧
      shown (before ++ raw.flatMap e.escape ++ after) = shown before ++ raw ++ shown after := by
  obtain ⟨htags, hcontent⟩ := insert_plain hb.1 (e.notMem_flatMap raw) after
  refine ⟨htags, ?_⟩
  rw [shown, hcontent, List.append_assoc, decode_append hb.2, e.decode_flatMap, List.append_assoc]
  rfl

end Escape

end Markup
