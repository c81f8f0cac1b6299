import Mathlib.Data.List.Basic
import Mathlib.Tactic.Common

/-!
# Patterns with repetition and one capture

The part of Lua's patterns that is made of character classes. An item stands for one character of a
class, for as many characters of a class as possible, or for an end of the capture. A repetition
takes all it can and gives characters back, one by one, until the rest of the pattern matches; a
pattern is tried at the start of the text only, as with the anchor `^`.
-/

namespace Pattern

variable {α β : Type*}

/-- One item of a pattern. -/
inductive Item (α : Type*)
  /-- One character of the class. -/
  | single (p : α → Bool)
  /-- The class followed by `*`. -/
  | star (p : α → Bool)
  /-- The opening parenthesis of the capture. -/
  | openCapture
  /-- The closing parenthesis of the capture. -/
  | closeCapture

/-- `max_expand`: go on after the longest run of the class, or else after a shorter one. -/
def maxExpand (p : α → Bool) (goOn : List α → Option β) : List α → Option β
  | [] => goOn []
  | c :: text => if p c then (maxExpand p goOn text).or (goOn (c :: text)) else goOn (c :: text)

/-- Match the items at the start of a text. The capture was opened at `start`, and `captured` is
what it holds once it has been closed. -/
def matchItems : List (Item α) → List α → Option (List α) → List α → Option (Option (List α))
  | [], _, captured, _ => some captured
  | .single p :: items, start, captured, text => match text with
    | [] => none
    | c :: text => if p c then matchItems items start captured text else none
  | .star p :: items, start, captured, text => maxExpand p (matchItems items start captured) text
  | .openCapture :: items, _, captured, text => matchItems items text captured text
  | .closeCapture :: items, start, _, text =>
    matchItems items start (some (start.take (start.length - text.length))) text

/-- What an anchored pattern captures. -/
def capture (items : List (Item α)) (text : List α) : Option (List α) :=
  (matchItems items [] none text).join

section Repetition

variable {p : α → Bool} {goOn : List α → Option β}

/-- A repetition in front of something that cannot start with its class takes the whole run. -/
theorem maxExpand_of_stops (h : ∀ c text, p c = true → goOn (c :: text) = none) (text : List α) :
    maxExpand p goOn text = goOn (text.dropWhile p) := by
  induction text with
  | nil => rfl
  | cons c text ih =>
    rw [maxExpand]
    split
    · rename_i hc
      rw [ih, h c text hc, Option.or_none, List.dropWhile_cons_of_pos hc]
    · rename_i hc
      rw [List.dropWhile_cons_of_neg hc]

/-- A repetition takes the whole run when the rest matches after it. -/
theorem maxExpand_of_matches {text : List α} (h : (goOn (text.dropWhile p)).isSome = true) :
    maxExpand p goOn text = goOn (text.dropWhile p) := by
  induction text with
  | nil => rfl
  | cons c text ih =>
    rw [maxExpand]
    split
    · rename_i hc
      rw [List.dropWhile_cons_of_pos hc] at h ⊢
      rw [ih h, Option.or_of_isSome h]
    · rename_i hc
      rw [List.dropWhile_cons_of_neg hc]

end Repetition

end Pattern
