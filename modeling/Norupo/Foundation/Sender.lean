import Norupo.Foundation.Feed
import Mathlib.Algebra.Order.Ring.Nat

/-!
# A sender that pays

A sender is a feeder that pays for a piece before it emits it. As long as it is open it has paid for
what it has emitted and for the piece it has in hand, and for nothing else.
-/

namespace Async

/-- What a sender was supplied with and has not paid for, has paid for, and has emitted. -/
@[ext]
structure Sender (β : Type*) where
  supplied : List β
  unpaid : List β
  held : List β
  emitted : List β
  paid : Nat
  isOpen : Prop

namespace Sender

variable {β : Type*} {cost : β → Nat} {f f' : Sender β}

/-- The steps of a sender. -/
inductive Step (cost : β → Nat) (f : Sender β) : Sender β → Prop
  | quiet : Step cost f f
  | supply (xs : List β) : f.isOpen → f.unpaid = [] → f.held = [] →
      Step cost f { f with unpaid := xs, supplied := f.supplied ++ xs }
  | pay (x : β) (rest : List β) : f.isOpen → f.unpaid = x :: rest → f.held = [] →
      Step cost f { f with unpaid := rest, held := [x], paid := f.paid + cost x }
  | emit (x : β) : f.isOpen → f.held = [x] →
      Step cost f { f with held := [], emitted := f.emitted ++ [x] }
  /-- The sender gives up, possibly after it was supplied with something more. -/
  | stop (xs : List β) : Step cost f ⟨f.supplied ++ xs, [], [], f.emitted, f.paid, False⟩

theorem Step.of_eq {g : Sender β} (h : Step cost f g) (he : f' = g) : Step cost f f' := he ▸ h

/-- A sender is a feeder of the pieces it holds and those it has not paid for. -/
def feed (f : Sender β) : Feed β := ⟨f.emitted, f.held ++ f.unpaid, f.supplied, f.isOpen⟩

/-- Paying is nothing that a feeder does. -/
theorem Step.feed (h : Step cost f f') : Feed.Step f.feed f'.feed := by
  cases h with
  | quiet => exact .quiet
  | supply xs ho hu hh =>
    exact (Feed.Step.supply xs ho (by simp [Sender.feed, hu, hh])).of_eq (by simp [Sender.feed, hh])
  | pay x rest ho hu hh => exact Feed.Step.quiet.of_eq (by simp [Sender.feed, hu, hh])
  | emit x ho hh =>
    exact (Feed.Step.emit [x] f.unpaid ho (by simp [Sender.feed, hh])).of_eq rfl
  | stop xs => exact .stop xs

/-- Pieces are emitted in the order they were supplied, and paid for once. -/
structure Exact (cost : β → Nat) (f : Sender β) : Prop where
  faithful : f.feed.Faithful
  paid_eq : f.isOpen → f.paid = ((f.emitted ++ f.held).map cost).sum

/-- A sender that has not been supplied with anything. -/
theorem Exact.new {o : Prop} : Exact cost ⟨[], [], [], [], 0, o⟩ :=
  ⟨⟨fun _ => rfl, List.prefix_rfl⟩, fun _ => rfl⟩

/-- Every step keeps a sender exact. -/
theorem Exact.step (hf : Exact cost f) (h : Step cost f f') : Exact cost f' := by
  refine ⟨hf.faithful.step h.feed, ?_⟩
  cases h with
  | quiet => exact hf.paid_eq
  | supply xs ho hu hh => exact hf.paid_eq
  | pay x rest ho hu hh =>
    intro _
    have hpaid := hf.paid_eq ho
    rw [hh, List.append_nil] at hpaid
    simp [hpaid]
  | emit x ho hh =>
    intro _
    have hpaid := hf.paid_eq ho
    rw [hh] at hpaid
    simpa using hpaid
  | stop xs => exact False.elim

/-- A sender that has nothing left has emitted, and paid for, all it was supplied with. -/
theorem Exact.settled (hf : Exact cost f) (ho : f.isOpen) (hu : f.unpaid = []) (hh : f.held = []) :
    f.emitted = f.supplied ∧ f.paid = (f.supplied.map cost).sum := by
  have hall := hf.faithful.open_eq ho
  simp only [feed, hu, hh, List.append_nil] at hall
  have hpaid := hf.paid_eq ho
  rw [hh, List.append_nil, hall] at hpaid
  exact ⟨hall, hpaid⟩

/-- Between two moments at which a sender has nothing left, it emits and pays for what it is
supplied with. -/
theorem Exact.between {xs ys : List β} {n : Nat} {o : Prop} (hf : Exact cost f) (ho : f.isOpen)
    (hu : f.unpaid = []) (hh : f.held = [])
    (hf' : Exact cost ⟨f.supplied ++ xs, [], [], f.emitted ++ ys, f.paid + n, o⟩) (ho' : o) :
    ys = xs ∧ n = (xs.map cost).sum := by
  obtain ⟨hemitted, hpaid⟩ := hf.settled ho hu hh
  obtain ⟨hemitted', hpaid'⟩ := hf'.settled ho' rfl rfl
  simp only [hemitted, List.append_cancel_left_eq] at hemitted'
  simp only [hpaid, List.map_append, List.sum_append, Nat.add_left_cancel_iff] at hpaid'
  exact ⟨hemitted', hpaid'⟩

/-- The moves of so many passes through a loop that pays and then emits. -/
def passes {α : Type*} (pay emit : α) : Nat → List α
  | 0 => []
  | n + 1 => pay :: emit :: passes pay emit n

end Sender

end Async
