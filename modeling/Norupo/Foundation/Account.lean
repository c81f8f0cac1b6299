import Mathlib.Algebra.Order.Ring.Nat
import Mathlib.Tactic.Common

/-!
# Accounts

An account sets what a party has used, or still has at hand, against what it was given after the
opening of the account. A step enters the same amount on both sides, or loses something and is not
intact afterwards. Nothing is ever used that was not given, and as long as the account is intact
everything that was given is accounted for.
-/

namespace Async

/-- What has been used or is at hand, what was given, and whether nothing has been lost. -/
structure Account where
  spent : Nat
  earned : Nat
  intact : Prop

namespace Account

variable {a a' : Account} {opening : Nat}

/-- The balance of an account. -/
structure Settled (opening : Nat) (a : Account) : Prop where
  le : a.spent ≤ opening + a.earned
  eq : a.intact → a.spent = opening + a.earned

/-- What a step enters. -/
structure Step (a a' : Account) : Prop where
  le : a'.spent + a.earned ≤ a.spent + a'.earned
  eq : a'.intact → a.intact ∧ a'.spent + a.earned = a.spent + a'.earned

/-- An account that has just been opened. -/
theorem Settled.new (hs : a.spent = opening) (he : a.earned = 0) : Settled opening a :=
  ⟨by omega, fun _ => by omega⟩

/-- Every step keeps the balance. -/
theorem Settled.step (hs : Settled opening a) (h : Step a a') : Settled opening a' := by
  have hle := hs.le
  have hstep := h.le
  refine ⟨by omega, fun hi => ?_⟩
  obtain ⟨hold, heq⟩ := h.eq hi
  have := hs.eq hold
  omega

/-- Nothing is entered. -/
theorem Step.quiet (hs : a'.spent = a.spent) (he : a'.earned = a.earned)
    (hi : a'.intact → a.intact) : Step a a' :=
  ⟨by rw [hs, he], fun h => ⟨hi h, by rw [hs, he]⟩⟩

/-- The same amount is entered on both sides. -/
theorem Step.enter (n : Nat) (hs : a'.spent = a.spent + n) (he : a'.earned = a.earned + n)
    (hi : a'.intact → a.intact) : Step a a' :=
  ⟨by omega, fun h => ⟨hi h, by omega⟩⟩

/-- Something is lost. -/
theorem Step.lose (hs : a'.spent ≤ a.spent) (he : a.earned ≤ a'.earned) (hi : ¬ a'.intact) :
    Step a a' :=
  ⟨by omega, fun h => absurd h hi⟩

end Account

end Async
