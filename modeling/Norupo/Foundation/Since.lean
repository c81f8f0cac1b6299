import Mathlib.Data.List.Induction
import Mathlib.Tactic.Common

/-!
# The last event of a kind

`Since P Q es` says of a finite history, oldest event first, that some event satisfies `P` and no
later one satisfies `Q`. With `Q` weaker than `P` this is "the last event of its kind was a `P`",
which is how ownership at a moment is read off a history.
-/

namespace History

variable {ε : Type*} {P Q : ε → Prop} {es : List ε} {e : ε}

/-- Some event satisfies `P`, and no event after it satisfies `Q`. -/
def Since (P Q : ε → Prop) (es : List ε) : Prop :=
  ∃ before e after, es = before ++ e :: after ∧ P e ∧ ∀ e' ∈ after, ¬ Q e'

@[simp] theorem not_since_nil : ¬ Since P Q [] := by
  rintro ⟨before, e, after, he, -, -⟩
  simp at he

/-- One more event either establishes the property afresh or leaves the older witness standing. -/
theorem since_append_singleton :
    Since P Q (es ++ [e]) ↔ P e ∨ (¬ Q e ∧ Since P Q es) := by
  constructor
  · rintro ⟨before, e', after, he, hP, hQ⟩
    rcases List.eq_nil_or_concat after with rfl | ⟨after', last, rfl⟩
    · left
      obtain ⟨-, rfl⟩ := List.append_inj' he rfl |>.imp_right List.singleton_inj.mp
      exact hP
    · right
      rw [List.concat_eq_append, ← List.cons_append, ← List.append_assoc] at he
      obtain ⟨rfl, hl⟩ := List.append_inj' he rfl
      obtain rfl : e = last := List.singleton_inj.mp hl
      refine ⟨hQ e (by simp), before, e', after', rfl, hP, fun x hx => hQ x (by simp [hx])⟩
  · rintro (hP | ⟨hQ, before, e', after, rfl, hP, hafter⟩)
    · exact ⟨es, e, [], rfl, hP, by simp⟩
    · refine ⟨before, e', after ++ [e], by simp, hP, ?_⟩
      intro x hx
      rcases List.mem_append.mp hx with hx | hx
      · exact hafter x hx
      · obtain rfl := List.mem_singleton.mp hx
        exact hQ

/-- Two last events of the same kind are the same event: what one determines agrees. -/
theorem Since.unique {β : Type*} {P : β → ε → Prop} {b c : β}
    (hdet : ∀ e b c, P b e → P c e → b = c)
    (hb : Since (P b) (fun e => ∃ x, P x e) es) (hc : Since (P c) (fun e => ∃ x, P x e) es) :
    b = c := by
  induction es using List.reverseRecOn with
  | nil => exact (not_since_nil hb).elim
  | append_singleton es e ih =>
    rcases since_append_singleton.mp hb with hb | ⟨hnb, hb⟩
    · rcases since_append_singleton.mp hc with hc | ⟨hnc, -⟩
      · exact hdet e b c hb hc
      · exact (hnc ⟨b, hb⟩).elim
    · rcases since_append_singleton.mp hc with hc | ⟨-, hc⟩
      · exact (hnb ⟨c, hc⟩).elim
      · exact ih hb hc

end History
