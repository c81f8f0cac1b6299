import Mathlib.Data.List.Basic
import Mathlib.Tactic.Common

/-!
# Feeding a shared log

A feeder is supplied with contents and emits them, piece by piece, into a log that others write to
as well. It is open until it gives up; what it has emitted and what it still has in hand are then
all it was supplied with, and at any time what it has emitted is a prefix of that.
-/

namespace Async

/-- What a feeder has emitted, has in hand, and was supplied with. -/
@[ext]
structure Feed (β : Type*) where
  emitted : List β
  pending : List β
  supplied : List β
  isOpen : Prop

namespace Feed

variable {β : Type*} {f f' : Feed β}

/-- The steps of a feeder. -/
inductive Step (f : Feed β) : Feed β → Prop
  | quiet : Step f f
  | supply (xs : List β) : f.isOpen → f.pending = [] →
      Step f { f with pending := xs, supplied := f.supplied ++ xs }
  | emit (xs rest : List β) : f.isOpen → f.pending = xs ++ rest →
      Step f { f with emitted := f.emitted ++ xs, pending := rest }
  /-- The feeder gives up, possibly after it was supplied with something more. -/
  | stop (xs : List β) : Step f ⟨f.emitted, [], f.supplied ++ xs, False⟩

theorem Step.of_eq {g : Feed β} (h : Step f g) (he : f' = g) : Step f f' := he ▸ h

/-- Contents are emitted in the order they were supplied, without gaps. -/
structure Faithful (f : Feed β) : Prop where
  open_eq : f.isOpen → f.emitted ++ f.pending = f.supplied
  isPrefix : f.emitted <+: f.supplied

/-- Every step keeps a feeder faithful. -/
theorem Faithful.step (hf : Faithful f) (h : Step f f') : Faithful f' := by
  cases h with
  | quiet => exact hf
  | supply xs ho hp =>
    have heq := hf.open_eq ho
    rw [hp, List.append_nil] at heq
    exact ⟨fun _ => by simp only [heq], heq ▸ List.prefix_append _ _⟩
  | emit xs rest ho hp =>
    have heq := hf.open_eq ho
    rw [hp, ← List.append_assoc] at heq
    exact ⟨fun _ => heq, ⟨_, heq⟩⟩
  | stop xs => exact ⟨False.elim, hf.isPrefix.trans (List.prefix_append _ _)⟩

end Feed

end Async
