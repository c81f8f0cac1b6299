import Norupo.Foundation.Text

/-!
# Errors of the core domain

`norupo-core/src/error.rs`: the failures that routing, authentication and the routing table report,
with the texts shown to users. A result is an `Except Error`.
-/

namespace Norupo

/-- `Error`: every failure mode the core domain can produce, with its detail text. -/
inductive Error
  | routeTaken (detail : Text)
  | invalidRoute (detail : Text)
  | unauthorized (detail : Text)
  | limitExceeded (detail : Text)
  | registryUnavailable (detail : Text)
  | internal (detail : Text)
  deriving DecidableEq, Repr

/-- The `Display` text of an error. -/
def Error.toText : Error → Text
  | .routeTaken d => "routing key `".toList ++ d ++ "` is already claimed".toList
  | .invalidRoute d => "invalid routing target: ".toList ++ d
  | .unauthorized d => "unauthorized: ".toList ++ d
  | .limitExceeded d => "limit exceeded: ".toList ++ d
  | .registryUnavailable d => "routing table unavailable: ".toList ++ d
  | .internal d => d

section Results

variable {ε α β : Type} {b : β}

/-- A sequence succeeds exactly when both of its parts do. -/
theorem bind_eq_ok {x : Except ε α} {f : α → Except ε β} :
    (x >>= f) = .ok b ↔ ∃ a, x = .ok a ∧ f a = .ok b := by
  cases x <;> simp [bind, Except.bind]

/-- A check succeeds exactly when its condition does not hold. -/
theorem check_eq_ok {c : Prop} [Decidable c] {e : ε} {f : Unit → Except ε β} :
    (if c then (throw e >>= f) else f ()) = .ok b ↔ ¬ c ∧ f () = .ok b := by
  by_cases hc : c
  · simp [hc, bind, Except.bind, throw, throwThe, MonadExceptOf.throw]
  · simp [hc]

theorem pure_eq_ok {a : β} : (pure a : Except ε β) = .ok b ↔ a = b := by
  simp [pure, Except.pure]

end Results

end Norupo
