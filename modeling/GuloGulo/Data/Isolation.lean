import Mathlib.Data.List.Basic

/-!
# Isolation

A machine that answers inputs and serves several parties. What one of them is
answered does not depend on the others if its answers depend on a view of the
state only, and the inputs of the others leave the view alone. Both may need a
condition on the inputs and the states they find.
-/

namespace GuloGulo.Data
variable {σ ι ο ν : Type}

/-- The inputs with what they are answered, one after another. -/
def serve (step : σ → ι → ο × σ) : σ → List ι → List (ι × ο)
  | _, [] => []
  | s, i :: rest => (i, (step s i).1) :: serve step (step s i).2 rest

/-- Every input meets a condition where it comes. -/
def Meets (step : σ → ι → ο × σ) (C : σ → ι → Prop) : σ → List ι → Prop
  | _, [] => True
  | s, i :: rest => C s i ∧ Meets step C (step s i).2 rest

/-- Under a condition, the inputs of one party see no more than a view, and no
others change it. -/
structure Isolates (step : σ → ι → ο × σ) (mine : ι → Bool) (C : σ → ι → Prop) (view : σ → ν) : Prop where
  others : ∀ s i, mine i = false → C s i → view (step s i).2 = view s
  own : ∀ s t i, mine i = true → C s i → C t i → view s = view t →
    (step s i).1 = (step t i).1 ∧ view (step s i).2 = view (step t i).2

variable {step : σ → ι → ο × σ} {mine : ι → Bool} {C : σ → ι → Prop} {view : σ → ν}

/-- The answers to one party's inputs. -/
def answers (step : σ → ι → ο × σ) (mine : ι → Bool) (s : σ) (inputs : List ι) : List (ι × ο) :=
  (serve step s inputs).filter fun served => mine served.1

theorem answers_skip {s : σ} {i : ι} {rest : List ι} (other : mine i = false) :
    answers step mine s (i :: rest) = answers step mine (step s i).2 rest := by
  rw [answers, serve, List.filter_cons, other]
  rfl

theorem answers_own {s : σ} {i : ι} {rest : List ι} (own : mine i = true) :
    answers step mine s (i :: rest) = (i, (step s i).1) :: answers step mine (step s i).2 rest := by
  rw [answers, serve, List.filter_cons, own]
  rfl

/-- Inputs of the others only are answered to the others only. -/
theorem answers_nil {s : σ} {inputs : List ι} (none : inputs.filter mine = []) : answers step mine s inputs = [] := by
  induction inputs generalizing s with
  | nil => rfl
  | cons i rest ih =>
    cases own : mine i with
    | true =>
      rw [List.filter_cons, if_pos own] at none
      cases none
    | false =>
      rw [List.filter_cons, own, if_neg Bool.false_ne_true] at none
      rw [answers_skip own]
      exact ih none

/-- Two runs in which one party makes the same inputs answer it the same. -/
theorem Isolates.answers_eq (isolates : Isolates step mine C view) {inputs inputs' : List ι} {s t : σ}
    (same : inputs.filter mine = inputs'.filter mine) (views : view s = view t) (meets : Meets step C s inputs)
    (meets' : Meets step C t inputs') : answers step mine s inputs = answers step mine t inputs' := by
  induction inputs generalizing s t inputs' with
  | nil =>
    rw [answers_nil same.symm]
    rfl
  | cons i rest ih =>
    cases own : mine i with
    | false =>
      rw [List.filter_cons, own, if_neg Bool.false_ne_true] at same
      rw [answers_skip own]
      exact ih same ((isolates.others s i own meets.1).trans views) meets.2 meets'
    | true =>
      rw [List.filter_cons, if_pos own] at same
      induction inputs' generalizing t with
      | nil => cases same
      | cons j rest' ih' =>
        cases also : mine j with
        | false =>
          rw [List.filter_cons, also, if_neg Bool.false_ne_true] at same
          rw [answers_skip also]
          exact ih' same (views.trans (isolates.others t j also meets'.1).symm) meets'.2
        | true =>
          rw [List.filter_cons, if_pos also] at same
          obtain ⟨rfl, tails⟩ := List.cons_eq_cons.mp same
          obtain ⟨answer, after⟩ := isolates.own s t i own meets.1 meets'.1 views
          rw [answers_own own, answers_own own, answer, ih tails after meets.2 meets'.2]

end GuloGulo.Data
