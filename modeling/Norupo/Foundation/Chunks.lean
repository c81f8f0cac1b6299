import Mathlib.Algebra.Order.Ring.Nat
import Mathlib.Tactic.Common

/-!
# Cutting a list into chunks

A list is cut into chunks of one size, of which only the last may be shorter. There is one way to do
so: every chunk is the front of what is left. A loop that cuts is therefore determined by the shape
of its result, however it is written.
-/

namespace Chunks

variable {α : Type*} {n : Nat} {xs chunk : List α} {chunks chunks' : List (List α)}

/-- The chunks of a list: none is empty or too long, and only the last may be short. -/
structure Cuts (n : Nat) (xs : List α) (chunks : List (List α)) : Prop where
  flatten : chunks.flatten = xs
  ne_nil : ∀ chunk ∈ chunks, chunk ≠ []
  length_le : ∀ chunk ∈ chunks, chunk.length ≤ n
  full : ∀ chunk ∈ chunks.dropLast, chunk.length = n

/-- Nothing is cut into no chunks. -/
theorem Cuts.nil : Cuts n ([] : List α) [] where
  flatten := rfl
  ne_nil := by simp
  length_le := by simp
  full := by simp

/-- Only nothing is cut into no chunks. -/
theorem Cuts.eq_nil_iff (h : Cuts n xs chunks) : chunks = [] ↔ xs = [] := by
  constructor
  · rintro rfl
    exact h.flatten.symm
  · rintro rfl
    refine List.eq_nil_iff_forall_not_mem.mpr fun chunk hchunk => h.ne_nil chunk hchunk ?_
    exact List.flatten_eq_nil_iff.mp h.flatten chunk hchunk

/-- The front of a list, and the chunks of what is left. -/
theorem Cuts.cons (hn : 0 < n) (hne : xs ≠ []) (h : Cuts n (xs.drop n) chunks) :
    Cuts n xs (xs.take n :: chunks) where
  flatten := by rw [List.flatten_cons, h.flatten, List.take_append_drop]
  ne_nil := by
    refine List.forall_mem_cons.mpr ⟨?_, h.ne_nil⟩
    rw [ne_eq, List.take_eq_nil_iff, not_or]
    exact ⟨Nat.ne_of_gt hn, hne⟩
  length_le := List.forall_mem_cons.mpr ⟨List.length_take_le _ _, h.length_le⟩
  full := by
    cases hchunks : chunks with
    | nil => simp
    | cons next rest =>
      rw [List.dropLast_cons_of_ne_nil (List.cons_ne_nil _ _), ← hchunks]
      refine List.forall_mem_cons.mpr ⟨?_, h.full⟩
      have hleft : xs.drop n ≠ [] := fun hnil =>
        absurd (h.eq_nil_iff.mpr hnil) (by rw [hchunks]; exact List.cons_ne_nil _ _)
      rw [ne_eq, List.drop_eq_nil_iff] at hleft
      rw [List.length_take]
      omega

/-- The first chunk is the front of the list. -/
theorem Cuts.uncons (h : Cuts n xs (chunk :: chunks)) :
    chunk = xs.take n ∧ Cuts n (xs.drop n) chunks := by
  have hflat : chunk ++ chunks.flatten = xs := h.flatten
  have hle := h.length_le chunk List.mem_cons_self
  have hdrop : chunk = xs.take n ∧ chunks.flatten = xs.drop n := by
    cases hchunks : chunks with
    | nil =>
      rw [hchunks, List.flatten_nil, List.append_nil] at hflat
      rw [← hflat, List.take_of_length_le hle, List.drop_of_length_le hle]
      exact ⟨rfl, rfl⟩
    | cons next rest =>
      have hlen : chunk.length = n := by
        refine h.full chunk ?_
        rw [hchunks, List.dropLast_cons_of_ne_nil (List.cons_ne_nil _ _)]
        exact List.mem_cons_self
      rw [← hchunks, ← hflat, List.take_left' hlen, List.drop_left' hlen]
      exact ⟨rfl, rfl⟩
  refine ⟨hdrop.1, hdrop.2, fun c hc => h.ne_nil c (List.mem_cons_of_mem _ hc),
    fun c hc => h.length_le c (List.mem_cons_of_mem _ hc), fun c hc => h.full c ?_⟩
  rw [List.dropLast_cons_of_ne_nil (List.ne_nil_of_mem (List.dropLast_subset _ hc))]
  exact List.mem_cons_of_mem _ hc

/-- There is one way to cut a list. -/
theorem Cuts.unique (h : Cuts n xs chunks) (h' : Cuts n xs chunks') : chunks = chunks' := by
  induction chunks generalizing xs chunks' with
  | nil => exact (h'.eq_nil_iff.mpr (h.eq_nil_iff.mp rfl)).symm
  | cons chunk chunks ih =>
    obtain ⟨rfl, hrest⟩ := h.uncons
    cases chunks' with
    | nil => exact h.eq_nil_iff.mpr (h'.eq_nil_iff.mp rfl)
    | cons chunk' chunks' =>
      obtain ⟨rfl, hrest'⟩ := h'.uncons
      rw [ih hrest hrest']

/-- The number of chunks is the length divided by the size, rounded up. -/
theorem Cuts.length_eq (hn : 0 < n) (h : Cuts n xs chunks) :
    chunks.length = (xs.length + n - 1) / n := by
  induction chunks generalizing xs with
  | nil =>
    obtain rfl := h.eq_nil_iff.mp rfl
    rw [List.length_nil, List.length_nil, Nat.zero_add, Nat.div_eq_of_lt (Nat.sub_one_lt_of_lt hn)]
  | cons chunk chunks ih =>
    have hpos : 0 < xs.length := by
      rw [List.length_pos_iff]
      exact fun hnil => absurd (h.eq_nil_iff.mpr hnil) (List.cons_ne_nil _ _)
    rw [List.length_cons, ih h.uncons.2, List.length_drop]
    rcases Nat.lt_or_ge n xs.length with hlt | hge
    · have hsum : xs.length + n - 1 = xs.length - n + n - 1 + n := by omega
      rw [hsum, Nat.add_div_right _ hn]
    · -- One chunk is enough, and nothing is left.
      have hsum : xs.length + n - 1 = xs.length - 1 + n := by omega
      rw [hsum, Nat.add_div_right _ hn, Nat.sub_eq_zero_of_le hge,
        Nat.div_eq_of_lt (by omega), Nat.div_eq_of_lt (by omega)]

end Chunks
