import Mathlib.Data.List.Basic

/-!
# Clients of a shared store

Several clients make their calls on one store. A relation says when two stores are the same in the
eyes of a client. When the replies to a client depend on nothing else, and no call of another client
can be seen, what it gets in an interleaving with all the others is what it gets from a store of its
own.
-/

namespace Sharing

variable {ι σ α β : Type*}

/-- The replies to the calls of all clients, each with the client that gets it. -/
def replies (perform : ι → σ → α → σ × β) : σ → List (ι × α) → List (ι × β)
  | _, [] => []
  | s, (i, a) :: calls => (i, (perform i s a).2) :: replies perform (perform i s a).1 calls

/-- The replies to the calls of a single client. -/
def solo (perform : σ → α → σ × β) : σ → List α → List β
  | _, [] => []
  | s, a :: calls => (perform s a).2 :: solo perform (perform s a).1 calls

/-- The part of one client in what belongs to all of them. -/
def own [DecidableEq ι] (i : ι) (items : List (ι × α)) : List α :=
  items.filterMap fun item => if item.1 = i then some item.2 else none

section Own

variable [DecidableEq ι] {i j : ι} {item : α} {items : List (ι × α)}

@[simp] theorem own_nil : own i ([] : List (ι × α)) = [] := rfl

@[simp] theorem own_cons_self : own i ((i, item) :: items) = item :: own i items :=
  List.filterMap_cons_some (if_pos rfl)

theorem own_cons_of_ne (h : j ≠ i) : own i ((j, item) :: items) = own i items :=
  List.filterMap_cons_none (if_neg h)

/-- The part of a client in order, taken from the order of everything. -/
theorem own_sublist (i : ι) (items : List (ι × α)) :
    (own i items).Sublist (items.map Prod.snd) := by
  induction items with
  | nil => exact List.Sublist.slnil
  | cons item items ih =>
    obtain ⟨j, item⟩ := item
    by_cases h : j = i
    · subst h
      rw [own_cons_self]
      exact ih.cons_cons item
    · rw [own_cons_of_ne h]
      exact ih.cons item

end Own

/-- The clients keep out of each other's sight. -/
structure Separate (perform : ι → σ → α → σ × β) (Same : ι → σ → σ → Prop) : Prop where
  reply : ∀ i s t a, Same i s t → (perform i s a).2 = (perform i t a).2
  next : ∀ i s t a, Same i s t → Same i (perform i s a).1 (perform i t a).1
  others : ∀ i j s t a, i ≠ j → Same i s t → Same i (perform j s a).1 t

/-- The replies to a client among others are those to the client alone. -/
theorem Separate.own_replies [DecidableEq ι] {perform : ι → σ → α → σ × β}
    {Same : ι → σ → σ → Prop} (h : Separate perform Same) {i : ι} {s t : σ} (hs : Same i s t)
    (calls : List (ι × α)) :
    own i (replies perform s calls) = solo (perform i) t (own i calls) := by
  induction calls generalizing s t with
  | nil => rfl
  | cons call calls ih =>
    obtain ⟨j, a⟩ := call
    by_cases hj : j = i
    · subst hj
      rw [replies, own_cons_self, own_cons_self, solo, h.reply j s t a hs, ih (h.next j s t a hs)]
    · rw [replies, own_cons_of_ne hj, own_cons_of_ne hj, ih (h.others i j s t a (Ne.symm hj) hs)]

end Sharing
