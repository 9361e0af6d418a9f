/-!
# Fixed windows

A window starts with the first amount after the last one elapsed, and counts
what comes before it elapses itself.
-/

namespace GuloGulo.Data

@[ext] structure Window where
  start : Int
  total : Nat
  deriving DecidableEq

namespace Window

def Running (length : Nat) (w : Window) (t : Int) : Prop := t - w.start < length

instance (length : Nat) (w : Window) (t : Int) : Decidable (w.Running length t) :=
  inferInstanceAs (Decidable (_ < _))

/-- The window that is running at a time, or one that starts then. -/
def current (length : Nat) (w : Option Window) (t : Int) : Window :=
  match w with
  | some w => if w.Running length t then w else ⟨t, 0⟩
  | none => ⟨t, 0⟩

def add (w : Window) (n : Nat) : Window := ⟨w.start, w.total + n⟩

/-- The last window of the amounts, the latest of which stands first. -/
def last (length : Nat) : List (Int × Nat) → Option Window
  | [] => none
  | (t, n) :: earlier => some ((current length (last length earlier) t).add n)

variable {length : Nat} {w : Window} {t : Int}

theorem current_of_running (h : w.Running length t) : current length (some w) t = w := if_pos h

theorem current_of_elapsed (h : ¬ w.Running length t) : current length (some w) t = ⟨t, 0⟩ := if_neg h

theorem not_running_mono {t' : Int} (h : ¬ w.Running length t) (later : t ≤ t') : ¬ w.Running length t' := by
  unfold Running at h ⊢
  omega

end Window

end GuloGulo.Data
