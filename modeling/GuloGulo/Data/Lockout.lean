/-!
# Lockouts

Failures are counted, and the one that reaches the limit locks until a later
time. A count is dropped when its lock is over and the next attempt is made,
or when an attempt succeeds.
-/

namespace GuloGulo.Data

structure Lockout where
  maxFailures : Nat
  /-- When a lock ends that is set at a time. -/
  ends : Int → Int
  /-- Up to this time a lock lasts. -/
  reach : Int
  positive : 1 ≤ maxFailures
  lasts : ∀ now, 0 ≤ now → now ≤ reach → now < ends now
  ordered : ∀ now later, now ≤ later → ends now ≤ ends later

/-- What is kept of the failures; `lockedUntil` is 0 before the first lock. -/
structure Attempts where
  failed : Nat
  lockedUntil : Int
  deriving DecidableEq

namespace Lockout

/-- The lock that is on at a time. -/
def locks (state : Option Attempts) (now : Int) : Bool :=
  match state with
  | some a => decide (now < a.lockedUntil)
  | none => false

/-- What is left of the failures when an attempt is made and there is no lock
on. -/
def lapse (state : Option Attempts) (now : Int) : Option Attempts :=
  match state with
  | some a => if a.lockedUntil ≠ 0 ∧ a.lockedUntil ≤ now then none else some a
  | none => none

def fail (l : Lockout) (state : Option Attempts) (now : Int) : Attempts :=
  let previous := state.getD ⟨0, 0⟩
  let failed := previous.failed + 1
  ⟨failed, if l.maxFailures ≤ failed then l.ends now else previous.lockedUntil⟩

/-- The end of a lock that is on. -/
def announced (a : Attempts) (now : Int) : Option Int := if now < a.lockedUntil then some a.lockedUntil else none

/-- How an attempt ended; a failure says until when it locks. -/
inductive Attempt where
  | success
  | failure (lockedUntil : Option Int)
  deriving DecidableEq

/-- The failures since the last success or the last lock, the latest attempt
standing first. -/
def failures : List Attempt → Nat
  | .failure none :: past => failures past + 1
  | _ => 0

/-- The ends of the locks. -/
def locksOf (past : List Attempt) : List Int :=
  past.filterMap fun a => match a with
    | .failure lockedUntil => lockedUntil
    | .success => none

/-- What one operation may do at a time: the attempt it makes, and the failures
that are kept. -/
inductive Moves (l : Lockout) (now : Int) (state : Option Attempts) : Option Attempt → Option Attempts → Prop where
  | rest : Moves l now state none state
  /-- An attempt that is not let through. -/
  | refused : Moves l now state (some (.failure (announced (l.fail state now) now))) (some (l.fail state now))
  /-- An attempt that is let through and ends before it is decided. -/
  | lapsed (free : locks state now = false) : Moves l now state none (lapse state now)
  | failed (free : locks state now = false) : Moves l now state
      (some (.failure (announced (l.fail (lapse state now) now) now))) (some (l.fail (lapse state now) now))
  | succeeded (free : locks state now = false) : Moves l now state (some .success) none

/-- While locks last, the failures kept are those since the last lock, and every
lock is over or is the one that is kept. -/
structure Kept (l : Lockout) (past : List Attempt) (now : Int) (state : Option Attempts) : Prop where
  started : 0 ≤ now
  within : now ≤ l.reach
  counted : match state with
    | none => failures past = 0
    | some a => (a.lockedUntil = 0 ∧ failures past = a.failed ∧ a.failed < l.maxFailures) ∨
      (0 < a.lockedUntil ∧ failures past = 0 ∧ l.maxFailures ≤ a.failed)
  elapsed : ∀ t ∈ locksOf past, t ≤ now ∨ ∃ a, state = some a ∧ t ≤ a.lockedUntil
  near : ∀ a, state = some a → a.lockedUntil ≤ l.ends now

variable {l : Lockout} {now : Int} {state state' : Option Attempts} {past : List Attempt} {attempt : Option Attempt}

theorem kept_lapse (h : Kept l past now state) (free : locks state now = false) : Kept l past now (lapse state now) := by
  cases state with
  | none => exact h
  | some a =>
    have unlocked : a.lockedUntil ≤ now := Int.not_lt.mp (of_decide_eq_false free)
    by_cases locked : a.lockedUntil ≠ 0
    · rw [show lapse (some a) now = none from if_pos ⟨locked, unlocked⟩]
      rcases h.counted with ⟨zero, _⟩ | ⟨_, none, _⟩
      · exact absurd zero locked
      · refine ⟨h.started, h.within, none, fun t ht => .inl ?_, nofun⟩
        rcases h.elapsed t ht with before | ⟨b, same, before⟩
        · exact before
        · cases same
          exact Int.le_trans before unlocked
    · rw [show lapse (some a) now = some a from if_neg fun both => locked both.1]
      exact h

/-- The failure that reaches the limit locks. -/
theorem kept_locked (h : Kept l past now state) {failed : Nat} (limit : l.maxFailures ≤ failed) :
    Kept l (.failure (announced ⟨failed, l.ends now⟩ now) :: past) now (some ⟨failed, l.ends now⟩) := by
  have lasts : now < l.ends now := l.lasts now h.started h.within
  have on : announced ⟨failed, l.ends now⟩ now = some (l.ends now) := if_pos lasts
  rw [on]
  refine ⟨h.started, h.within, .inr ⟨Int.lt_of_le_of_lt h.started lasts, rfl, limit⟩, ?_, ?_⟩
  · intro t ht
    rcases List.mem_cons.mp ht with rfl | ht
    · exact .inr ⟨_, rfl, Int.le_refl _⟩
    · rcases h.elapsed t ht with before | ⟨a, same, before⟩
      · exact .inl before
      · exact .inr ⟨_, rfl, Int.le_trans before (h.near a same)⟩
  · intro a ha
    cases ha
    exact Int.le_refl _

/-- A failure below the limit is counted. -/
theorem kept_counted (h : Kept l past now state) (below : (state.getD ⟨0, 0⟩).failed + 1 < l.maxFailures) :
    Kept l (.failure (announced ⟨(state.getD ⟨0, 0⟩).failed + 1, (state.getD ⟨0, 0⟩).lockedUntil⟩ now) :: past) now
      (some ⟨(state.getD ⟨0, 0⟩).failed + 1, (state.getD ⟨0, 0⟩).lockedUntil⟩) := by
  have started := h.started
  have unlocked : (state.getD ⟨0, 0⟩).lockedUntil = 0 ∧ failures past = (state.getD ⟨0, 0⟩).failed := by
    cases state with
    | none => exact ⟨rfl, h.counted⟩
    | some a =>
      rcases h.counted with ⟨zero, same, _⟩ | ⟨_, _, limit⟩
      · exact ⟨zero, same⟩
      · simp only [Option.getD_some] at below
        omega
  rw [unlocked.1]
  have off : announced ⟨(state.getD ⟨0, 0⟩).failed + 1, 0⟩ now = none := if_neg (Int.not_lt.mpr started)
  rw [off]
  refine ⟨started, h.within, .inl ⟨rfl, ?_, below⟩, ?_, ?_⟩
  · rw [failures, unlocked.2]
  · intro t ht
    rcases h.elapsed t ht with before | ⟨a, same, before⟩
    · exact .inl before
    · rw [same] at unlocked
      exact .inl (Int.le_trans before (unlocked.1.symm ▸ started))
  · intro a ha
    cases ha
    exact Int.le_trans started (Int.le_of_lt (l.lasts now started h.within))

theorem kept_fail (h : Kept l past now state) :
    Kept l (.failure (announced (l.fail state now) now) :: past) now (some (l.fail state now)) := by
  unfold fail
  by_cases limit : l.maxFailures ≤ (state.getD ⟨0, 0⟩).failed + 1
  · simp only [if_pos limit]
    exact kept_locked h limit
  · simp only [if_neg limit]
    exact kept_counted h (Nat.lt_of_not_le limit)

theorem kept_moves (h : Kept l past now state) (moves : Moves l now state attempt state') :
    Kept l (attempt.toList ++ past) now state' := by
  cases moves with
  | rest => exact h
  | refused => exact kept_fail h
  | lapsed free => exact kept_lapse h free
  | failed free => exact kept_fail (kept_lapse h free)
  | succeeded free =>
    refine ⟨h.started, h.within, rfl, fun t ht => .inl ?_, nofun⟩
    rcases h.elapsed t ht with before | ⟨a, same, before⟩
    · exact before
    · subst same
      exact Int.le_trans before (Int.not_lt.mp (of_decide_eq_false free))

/-- One more failure does not exceed the limit. -/
theorem failures_bound (h : Kept l past now state) : failures past + 1 ≤ l.maxFailures := by
  have positive := l.positive
  cases state with
  | none =>
    have none : failures past = 0 := h.counted
    omega
  | some a =>
    rcases h.counted with ⟨_, same, below⟩ | ⟨_, none, _⟩
    · omega
    · omega

/-- Where no lock is on, every lock is over. -/
theorem locks_over (h : Kept l past now state) (free : locks state now = false) : ∀ t ∈ locksOf past, t ≤ now := by
  intro t ht
  rcases h.elapsed t ht with before | ⟨a, same, before⟩
  · exact before
  · subst same
    exact Int.le_trans before (Int.not_lt.mp (of_decide_eq_false free))

end Lockout
end GuloGulo.Data
