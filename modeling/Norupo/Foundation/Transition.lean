import Mathlib.Data.List.Basic
import Mathlib.Data.List.Induction
import Mathlib.Tactic.Common

/-!
# Executions of labelled systems

A system is a partial function `step : σ → α → Option σ`: the label says who moves and what the
environment supplies, and `none` says that the move is not enabled. `exec` performs a fixed list of
labels, so that a concrete execution can be evaluated; `Run` is the reachability relation, with a
condition on the state each step is taken from. Invariants are derived from `Run.invariant`.
-/

namespace Transition

variable {σ α : Type*}

/-- Perform a list of labels in order, stopping at the first that is not enabled. -/
def exec (step : σ → α → Option σ) : σ → List α → Option σ
  | s, [] => some s
  | s, a :: as => (step s a).bind fun s' => exec step s' as

@[simp] theorem exec_nil (step : σ → α → Option σ) (s : σ) : exec step s [] = some s := rfl

@[simp] theorem exec_cons (step : σ → α → Option σ) (s : σ) (a : α) (as : List α) :
    exec step s (a :: as) = (step s a).bind fun s' => exec step s' as := rfl

/-- Splitting an execution after its first part. -/
theorem exec_append (step : σ → α → Option σ) (s : σ) (as bs : List α) :
    exec step s (as ++ bs) = (exec step s as).bind fun s' => exec step s' bs := by
  induction as generalizing s with
  | nil => rfl
  | cons a as ih =>
    cases ha : step s a with
    | none => simp [ha]
    | some s' => simp [ha, ih]

/-- An execution of two parts reaches the end of the first and goes on from there. -/
theorem exec_append_eq_some {step : σ → α → Option σ} {s t : σ} {as bs : List α} :
    exec step s (as ++ bs) = some t ↔
      ∃ mid, exec step s as = some mid ∧ exec step mid bs = some t := by
  rw [exec_append, Option.bind_eq_some_iff]

/-- An execution ends with its last label. -/
theorem exec_concat_eq_some {step : σ → α → Option σ} {s t : σ} {as : List α} {a : α} :
    exec step s (as ++ [a]) = some t ↔ ∃ mid, exec step s as = some mid ∧ step mid a = some t := by
  simp [exec_append_eq_some]

/-- Every label of a performed list satisfies a Boolean check in the state it is taken from. -/
def meets (step : σ → α → Option σ) (ok : σ → α → Bool) : σ → List α → Bool
  | _, [] => true
  | s, a :: as => ok s a && match step s a with
    | some s' => meets step ok s' as
    | none => true

/-- The states reached from `start` by steps that all satisfy `allowed` where they are taken. -/
inductive Run (step : σ → α → Option σ) (allowed : σ → α → Prop) (start : σ) : σ → Prop
  | nil : Run step allowed start start
  | snoc {s a s'} : Run step allowed start s → allowed s a → step s a = some s' →
      Run step allowed start s'

/-- Reachability without any condition on the steps. -/
abbrev Reachable (step : σ → α → Option σ) (start : σ) : σ → Prop :=
  Run step (fun _ _ => True) start

variable {step : σ → α → Option σ} {allowed : σ → α → Prop} {start : σ}

/-- A property of the start that every allowed step keeps holds in every state reached. -/
theorem Run.invariant {P : σ → Prop} {s : σ} (h : Run step allowed start s) (hstart : P start)
    (hstep : ∀ s a s', P s → allowed s a → step s a = some s' → P s') : P s := by
  induction h with
  | nil => exact hstart
  | snoc _ ha hs ih => exact hstep _ _ _ ih ha hs

/-- A system whose steps are matched by the steps of another one reaches only states that are
related to states of the other. -/
theorem Run.simulate {τ β : Type*} {step' : τ → β → Option τ} {allowed' : τ → β → Prop} {start' : τ}
    {R : σ → τ → Prop} {s : σ} (h : Run step allowed start s) (hstart : R start start')
    (hstep : ∀ s t a s', R s t → allowed s a → step s a = some s' →
      ∃ b t', allowed' t b ∧ step' t b = some t' ∧ R s' t') :
    ∃ t, Run step' allowed' start' t ∧ R s t := by
  induction h with
  | nil => exact ⟨start', .nil, hstart⟩
  | snoc _ ha hs ih =>
    obtain ⟨t, ht, hrel⟩ := ih
    obtain ⟨b, t', hb, hs', hrel'⟩ := hstep _ t _ _ hrel ha hs
    exact ⟨t', .snoc ht hb hs', hrel'⟩

/-- Weakening the condition on the steps reaches no fewer states. -/
theorem Run.mono {allowed' : σ → α → Prop} {s : σ} (h : Run step allowed start s)
    (hle : ∀ s a, allowed s a → allowed' s a) : Run step allowed' start s := by
  induction h with
  | nil => exact Run.nil
  | snoc _ ha hs ih => exact Run.snoc ih (hle _ _ ha) hs

/-- Forgetting the condition. -/
theorem Run.reachable {s : σ} (h : Run step allowed start s) : Reachable step start s :=
  h.mono fun _ _ _ => trivial

/-- An evaluated execution reaches its result. -/
theorem Reachable.of_exec {mid s : σ} {as : List α} (hmid : Reachable step start mid)
    (he : exec step mid as = some s) : Reachable step start s := by
  induction as generalizing mid with
  | nil =>
    obtain rfl : mid = s := by simpa using he
    exact hmid
  | cons a as ih =>
    cases ha : step mid a with
    | none => simp [ha] at he
    | some mid' => exact ih (Run.snoc hmid trivial ha) (by simpa [ha] using he)

/-- A property of histories and states that every step keeps holds after every execution. -/
theorem exec_history {P : List α → σ → Prop} (hstart : P [] start)
    (hstep : ∀ as s a s', P as s → step s a = some s' → P (as ++ [a]) s') {as : List α} {s : σ}
    (he : exec step start as = some s) : P as s := by
  induction as using List.reverseRecOn generalizing s with
  | nil =>
    obtain rfl : start = s := by simpa using he
    exact hstart
  | append_singleton as a ih =>
    obtain ⟨mid, hmid, hs⟩ := exec_concat_eq_some.mp he
    exact hstep as mid a s (ih hmid) hs

/-- The sum of a quantity over the labels that are taken. -/
def tally (step : σ → α → Option σ) (f : σ → α → Nat) : σ → List α → Nat
  | _, [] => 0
  | s, a :: as => match step s a with
    | some s' => f s a + tally step f s' as
    | none => 0

@[simp] theorem tally_nil (step : σ → α → Option σ) (f : σ → α → Nat) (s : σ) :
    tally step f s [] = 0 := rfl

/-- The sum over two parts of an execution. -/
theorem tally_append {f : σ → α → Nat} {s t : σ} {as : List α} (he : exec step s as = some t)
    (bs : List α) : tally step f s (as ++ bs) = tally step f s as + tally step f t bs := by
  induction as generalizing s with
  | nil =>
    obtain rfl : s = t := by simpa using he
    simp
  | cons a as ih =>
    cases ha : step s a with
    | none => simp [ha] at he
    | some s' =>
      have hrest := ih (s := s') (by simpa [ha] using he)
      simp [tally, ha, hrest, Nat.add_assoc]

/-- The last label adds its quantity. -/
theorem tally_concat {f : σ → α → Nat} {s t t' : σ} {as : List α} {a : α}
    (he : exec step s as = some t) (hs : step t a = some t') :
    tally step f s (as ++ [a]) = tally step f s as + f t a := by
  rw [tally_append he]
  simp [tally, hs]

/-- What the labels that are taken put out, in order. -/
def trace {β : Type*} (step : σ → α → Option σ) (f : σ → α → List β) : σ → List α → List β
  | _, [] => []
  | s, a :: as => match step s a with
    | some s' => f s a ++ trace step f s' as
    | none => []

@[simp] theorem trace_nil {β : Type*} (step : σ → α → Option σ) (f : σ → α → List β) (s : σ) :
    trace step f s [] = [] := rfl

/-- What two parts of an execution put out. -/
theorem trace_append {β : Type*} {f : σ → α → List β} {s t : σ} {as : List α}
    (he : exec step s as = some t) (bs : List α) :
    trace step f s (as ++ bs) = trace step f s as ++ trace step f t bs := by
  induction as generalizing s with
  | nil =>
    obtain rfl : s = t := by simpa using he
    rfl
  | cons a as ih =>
    cases ha : step s a with
    | none => simp [ha] at he
    | some s' =>
      have hrest := ih (s := s') (by simpa [ha] using he)
      simp [trace, ha, hrest]

/-- The last label puts out its part. -/
theorem trace_concat {β : Type*} {f : σ → α → List β} {s t t' : σ} {as : List α} {a : α}
    (he : exec step s as = some t) (hs : step t a = some t') :
    trace step f s (as ++ [a]) = trace step f s as ++ f t a := by
  rw [trace_append he]
  simp [trace, hs]

/-- Every state on the way through a list of labels has the property. -/
def Always (step : σ → α → Option σ) (P : σ → Prop) : σ → List α → Prop
  | s, [] => P s
  | s, a :: as => P s ∧ ∀ s', step s a = some s' → Always step P s' as

/-- Every label that is taken satisfies the condition in the state it is taken from. -/
def Throughout (step : σ → α → Option σ) (C : σ → α → Prop) : σ → List α → Prop
  | _, [] => True
  | s, a :: as => ∀ s', step s a = some s' → C s a ∧ Throughout step C s' as

/-- An evaluated list of labels that pass the check satisfies the condition throughout. -/
theorem Throughout.of_meets {ok : σ → α → Bool} {s : σ} {as : List α}
    (h : meets step ok s as = true) : Throughout step (fun s a => ok s a = true) s as := by
  induction as generalizing s with
  | nil => trivial
  | cons a as ih =>
    intro s' hs
    simp only [meets, hs, Bool.and_eq_true] at h
    exact ⟨h.1, ih h.2⟩

/-- A condition on the labels alone holds throughout a list of them. -/
theorem Throughout.of_forall {C : α → Prop} {s : σ} {as : List α} (h : ∀ a ∈ as, C a) :
    Throughout step (fun _ a => C a) s as := by
  induction as generalizing s with
  | nil => trivial
  | cons a as ih =>
    exact fun _ _ => ⟨h a List.mem_cons_self, ih fun b hb => h b (List.mem_cons_of_mem a hb)⟩

/-- An execution whose labels satisfy the condition is a run. -/
theorem Run.of_throughout {mid s : σ} {as : List α} (hmid : Run step allowed start mid)
    (he : exec step mid as = some s) (ht : Throughout step allowed mid as) :
    Run step allowed start s := by
  induction as generalizing mid with
  | nil =>
    obtain rfl : mid = s := by simpa using he
    exact hmid
  | cons a as ih =>
    cases ha : step mid a with
    | none => simp [ha] at he
    | some mid' =>
      obtain ⟨hc, hrest⟩ := ht mid' ha
      exact ih (Run.snoc hmid hc ha) (by simpa [ha] using he) hrest

/-- An evaluated execution whose labels pass the check is a run. -/
theorem Run.of_exec {ok : σ → α → Bool} {mid s : σ} {as : List α}
    (hmid : Run step (fun s a => ok s a = true) start mid)
    (he : exec step mid as = some s) (hm : meets step ok mid as = true) :
    Run step (fun s a => ok s a = true) start s :=
  hmid.of_throughout he (.of_meets hm)

/-- The last state on the way has the property too. -/
theorem Always.of_exec {P : σ → Prop} {s t : σ} {as : List α} (h : Always step P s as)
    (he : exec step s as = some t) : P t := by
  induction as generalizing s with
  | nil =>
    obtain rfl : s = t := by simpa using he
    exact h
  | cons a as ih =>
    cases ha : step s a with
    | none => simp [ha] at he
    | some s' => exact ih (h.2 s' ha) (by simpa [ha] using he)

/-- In an environment that keeps to `E`, when a step keeps the property exactly if it satisfies the
condition, an execution keeps the property exactly if all its steps do. -/
theorem Throughout.always_iff {I P : σ → Prop} {E C : σ → α → Prop}
    (hI : ∀ s a s', I s → E s a → step s a = some s' → I s')
    (hstep : ∀ s a s', I s → P s → E s a → step s a = some s' → (P s' ↔ C s a))
    {s : σ} {as : List α} (he : Throughout step E s as) (hi : I s) (hp : P s) :
    Always step P s as ↔ Throughout step C s as := by
  induction as generalizing s with
  | nil => exact ⟨fun _ => trivial, fun _ => hp⟩
  | cons a as ih =>
    constructor
    · rintro ⟨-, h⟩ s' hs
      obtain ⟨ha, hrest⟩ := he s' hs
      have hp' : P s' := by
        cases as with
        | nil => exact h s' hs
        | cons b bs => exact (h s' hs).1
      exact ⟨(hstep s a s' hi hp ha hs).mp hp', (ih hrest (hI s a s' hi ha hs) hp').mp (h s' hs)⟩
    · intro h
      refine ⟨hp, fun s' hs => ?_⟩
      obtain ⟨ha, hrest⟩ := he s' hs
      obtain ⟨hc, hcs⟩ := h s' hs
      exact (ih hrest (hI s a s' hi ha hs) ((hstep s a s' hi hp ha hs).mpr hc)).mpr hcs

/-- Every execution keeps to an environment that allows everything. -/
theorem Throughout.trivial (s : σ) (as : List α) : Throughout step (fun _ _ => True) s as := by
  induction as generalizing s with
  | nil => exact True.intro
  | cons a as ih => exact fun s' _ => ⟨True.intro, ih s'⟩

/-- When a step keeps the property exactly if it satisfies the condition, an execution keeps the
property exactly if all its steps do. -/
theorem always_iff_throughout {I P : σ → Prop} {C : σ → α → Prop}
    (hI : ∀ s a s', I s → step s a = some s' → I s')
    (hstep : ∀ s a s', I s → P s → step s a = some s' → (P s' ↔ C s a))
    {s : σ} (hi : I s) (hp : P s) (as : List α) :
    Always step P s as ↔ Throughout step C s as :=
  (Throughout.trivial s as).always_iff (fun s a s' hi _ hs => hI s a s' hi hs)
    (fun s a s' hi hp _ hs => hstep s a s' hi hp hs) hi hp

end Transition
