import Mathlib.Data.List.Induction
import Mathlib.Data.List.Nodup
import Mathlib.Tactic.Common

/-!
# Multimaps in order of insertion

A map from keys to lists of values. Keys stand in the order in which they were first added, and the
values of a key in the order in which they were added, so that iteration lists the pairs key by key.
-/

/-- Keys in the order they were first added, each with its values. -/
structure Multimap (κ ν : Type*) where
  entries : List (κ × List ν)
  nodup : (entries.map Prod.fst).Nodup

namespace Multimap

variable {κ ν : Type*}

/-- The pairs of a list of entries, key by key. -/
def pairs (es : List (κ × List ν)) : List (κ × ν) := es.flatMap fun e => e.2.map (Prod.mk e.1)

/-- The pairs in order of iteration. -/
def iter (m : Multimap κ ν) : List (κ × ν) := pairs m.entries

/-- A map without keys. -/
def empty : Multimap κ ν := ⟨[], List.nodup_nil⟩

/-- The entries of the keys that satisfy a predicate. -/
def filterKeys (p : κ → Bool) (m : Multimap κ ν) : Multimap κ ν where
  entries := m.entries.filter fun e => p e.1
  nodup := m.nodup.sublist (List.filter_sublist.map Prod.fst)

/-- The pairs of the entries whose keys satisfy a predicate. -/
theorem pairs_filter (p : κ → Bool) (es : List (κ × List ν)) :
    pairs (es.filter fun e => p e.1) = (pairs es).filter fun e => p e.1 := by
  induction es with
  | nil => rfl
  | cons e es ih =>
    rw [pairs, pairs, List.flatMap_cons, List.filter_append, ← pairs, ← pairs, ← ih]
    cases hp : p e.1 with
    | true =>
      have hkeep : (e.2.map (Prod.mk e.1)).filter (fun e => p e.1) = e.2.map (Prod.mk e.1) := by
        rw [List.filter_eq_self]
        simp [hp]
      rw [List.filter_cons, if_pos hp, pairs, List.flatMap_cons, hkeep, ← pairs]
    | false =>
      have hdrop : (e.2.map (Prod.mk e.1)).filter (fun e => p e.1) = [] := by
        rw [List.filter_eq_nil_iff]
        simp [hp]
      rw [List.filter_cons, hp, if_neg Bool.false_ne_true, hdrop, List.nil_append]

variable [DecidableEq κ]

/-- Add a value to the entry of its key, or a new entry at the end. -/
def addTo (k : κ) (v : ν) : List (κ × List ν) → List (κ × List ν)
  | [] => [(k, [v])]
  | e :: es => if e.1 = k then (e.1, e.2 ++ [v]) :: es else e :: addTo k v es

/-- Adding a value keeps the keys, or adds its key at the end. -/
theorem keys_addTo (k : κ) (v : ν) (es : List (κ × List ν)) :
    (addTo k v es).map Prod.fst =
      if k ∈ es.map Prod.fst then es.map Prod.fst else es.map Prod.fst ++ [k] := by
  induction es with
  | nil => rfl
  | cons e es ih =>
    unfold addTo
    by_cases he : e.1 = k
    · simp [he]
    · rw [if_neg he, List.map_cons, ih, List.map_cons]
      by_cases hm : k ∈ es.map Prod.fst
      · rw [if_pos hm, if_pos (List.mem_cons_of_mem _ hm)]
      · rw [if_neg hm, if_neg (by simpa [Ne.symm he] using hm), List.cons_append]

/-- Add a value to a key. -/
def append (m : Multimap κ ν) (k : κ) (v : ν) : Multimap κ ν where
  entries := addTo k v m.entries
  nodup := by
    rw [keys_addTo]
    split
    · exact m.nodup
    · rename_i hk
      refine List.nodup_append.mpr ⟨m.nodup, List.nodup_singleton k, ?_⟩
      rintro a ha b hb rfl
      exact hk (List.mem_singleton.mp hb ▸ ha)

/-- Adding a value makes at most one more entry. -/
theorem length_entries_append_le (m : Multimap κ ν) (k : κ) (v : ν) :
    (m.append k v).entries.length ≤ m.entries.length + 1 := by
  have hkeys := congrArg List.length (keys_addTo k v m.entries)
  rw [List.length_map] at hkeys
  rw [append, hkeys]
  split
  · rw [List.length_map]
    exact Nat.le_succ _
  · rw [List.length_append, List.length_map]
    exact Nat.le_refl _

/-- The map that is built from pairs, one after the other. -/
def ofList (l : List (κ × ν)) : Multimap κ ν := l.foldl (fun m e => m.append e.1 e.2) empty

/-- Building a map, on its entries. -/
def addAll (l : List (κ × ν)) (es : List (κ × List ν)) : List (κ × List ν) :=
  l.foldl (fun es e => addTo e.1 e.2 es) es

theorem addAll_append (l l' : List (κ × ν)) (es : List (κ × List ν)) :
    addAll (l ++ l') es = addAll l' (addAll l es) :=
  List.foldl_append

theorem entries_ofList (l : List (κ × ν)) : (ofList l).entries = addAll l [] := by
  induction l using List.reverseRecOn with
  | nil => rfl
  | append_singleton l e ih =>
    rw [addAll_append, ← ih, ofList, List.foldl_append]
    rfl

/-- A value of a key that is the last one, or none yet, goes to the end. -/
theorem addTo_last {k : κ} {es : List (κ × List ν)} (hk : k ∉ es.map Prod.fst) (v : ν) :
    addTo k v es = es ++ [(k, [v])] ∧
      ∀ vs, addTo k v (es ++ [(k, vs)]) = es ++ [(k, vs ++ [v])] := by
  induction es with
  | nil => exact ⟨rfl, fun vs => by simp [addTo]⟩
  | cons e es ih =>
    rw [List.map_cons, List.mem_cons, not_or] at hk
    obtain ⟨hnew, hold⟩ := ih hk.2
    have hne : e.1 ≠ k := Ne.symm hk.1
    exact ⟨by simp [addTo, hne, hnew], fun vs => by simp [addTo, hne, hold]⟩

/-- The values of a new key make one entry at the end. -/
theorem addAll_entry {k : κ} {es : List (κ × List ν)} (hk : k ∉ es.map Prod.fst) (v : ν)
    (vs : List ν) : addAll ((v :: vs).map (Prod.mk k)) es = es ++ [(k, v :: vs)] := by
  induction vs using List.reverseRecOn with
  | nil => exact (addTo_last hk v).1
  | append_singleton vs w ih =>
    rw [← List.cons_append, List.map_append, addAll_append, ih]
    exact (addTo_last hk w).2 (v :: vs)

/-- Adding pairs key by key appends them. -/
theorem pairs_addAll {es added : List (κ × List ν)} (hnodup : (added.map Prod.fst).Nodup)
    (hnew : ∀ k ∈ added.map Prod.fst, k ∉ es.map Prod.fst) :
    pairs (addAll (pairs added) es) = pairs es ++ pairs added := by
  induction added generalizing es with
  | nil => simp [pairs, addAll]
  | cons e added ih =>
    obtain ⟨k, vs⟩ := e
    rw [List.map_cons, List.nodup_cons] at hnodup
    have hk : k ∉ es.map Prod.fst := hnew k List.mem_cons_self
    have hrest : ∀ j ∈ added.map Prod.fst, j ∉ es.map Prod.fst :=
      fun j hj => hnew j (List.mem_cons_of_mem k hj)
    have hcons : pairs ((k, vs) :: added) = vs.map (Prod.mk k) ++ pairs added := rfl
    rw [hcons, addAll_append]
    cases vs with
    | nil => exact ih hnodup.2 hrest
    | cons v vs =>
      rw [addAll_entry hk, ih hnodup.2]
      · simp [pairs]
      · intro j hj
        rw [List.map_append, List.mem_append, not_or]
        refine ⟨hrest j hj, ?_⟩
        rintro hm
        obtain rfl : j = k := by simpa using hm
        exact hnodup.1 hj

/-- A map is built again from its pairs, restricted by their keys. -/
theorem iter_ofList_filter (m : Multimap κ ν) (p : κ → Bool) :
    (ofList (m.iter.filter fun e => p e.1)).iter = m.iter.filter fun e => p e.1 := by
  rw [iter, entries_ofList, iter, ← pairs_filter]
  exact pairs_addAll (m.filterKeys p).nodup (by simp)

end Multimap
