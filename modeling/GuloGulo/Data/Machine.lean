/-!
# Runs of a machine

A machine is a set of states to start in and a relation between a state, an
event and the next state. Its runs are kept with their events, the latest
first, so that an invariant may speak of what has happened.
-/

namespace GuloGulo.Data

structure Machine (σ ε : Type) where
  Start : σ → Prop
  Step : σ → ε → σ → Prop

namespace Machine
variable {σ ε : Type}

inductive Run (m : Machine σ ε) : List ε → σ → Prop where
  | start {s : σ} (h : m.Start s) : Run m [] s
  | next {past : List ε} {s s' : σ} {e : ε} (run : Run m past s) (step : m.Step s e s') : Run m (e :: past) s'

/-- What holds at the start and is kept by every step holds in every run. -/
theorem Run.invariant {m : Machine σ ε} {P : List ε → σ → Prop} (start : ∀ s, m.Start s → P [] s)
    (keeps : ∀ past s e s', P past s → m.Step s e s' → P (e :: past) s') {past : List ε} {s : σ} (run : m.Run past s) :
    P past s := by
  induction run with
  | start h => exact start _ h
  | next _ step ih => exact keeps _ _ _ _ ih step

/-- The steps that meet a condition on what is there before them. -/
def restrict (m : Machine σ ε) (C : σ → ε → Prop) : Machine σ ε := ⟨m.Start, fun s e s' => m.Step s e s' ∧ C s e⟩

theorem Run.unrestricted {m : Machine σ ε} {C : σ → ε → Prop} {past : List ε} {s : σ} (run : (m.restrict C).Run past s) :
    m.Run past s := by
  induction run with
  | start h => exact .start h
  | next _ step ih => exact .next ih step.1

/-- An event that has happened was a step of the run. -/
theorem Run.happened {m : Machine σ ε} {past : List ε} {s : σ} (run : m.Run past s) {later earlier : List ε} {e : ε}
    (h : past = later ++ e :: earlier) : ∃ before after, m.Run earlier before ∧ m.Step before e after := by
  induction run generalizing later with
  | start => simp at h
  | next run step ih =>
    cases later with
    | nil =>
      cases h
      exact ⟨_, _, run, step⟩
    | cons _ later =>
      cases h
      exact ih rfl

/-- The machine that goes on from a state. -/
def resume (m : Machine σ ε) (s : σ) : Machine σ ε := ⟨fun t => t = s, m.Step⟩

section
variable {ι : Type} (exec : σ → ι → ε × σ) (guard : σ → ι → Bool)

/-- What a list of inputs does, one after another. -/
def replay : List ι → List ε × σ → List ε × σ
  | [], r => r
  | i :: rest, (past, s) =>
    match exec s i with
    | (e, s') => replay rest (e :: past, s')

def permitted : List ι → σ → Bool
  | [], _ => true
  | i :: rest, s => guard s i && permitted rest (exec s i).2

theorem Run.replay {m : Machine σ ε} {exec : σ → ι → ε × σ} {guard : σ → ι → Bool}
    (sound : ∀ s i, guard s i = true → m.Step s (exec s i).1 (exec s i).2) {inputs : List ι} {past : List ε} {s : σ}
    (run : m.Run past s) (h : permitted exec guard inputs s = true) :
    m.Run (Machine.replay exec inputs (past, s)).1 (Machine.replay exec inputs (past, s)).2 := by
  induction inputs generalizing past s with
  | nil => exact run
  | cons i rest ih =>
    rw [permitted, Bool.and_eq_true] at h
    exact ih (run.next (sound s i h.1)) h.2

end

end Machine

end GuloGulo.Data
