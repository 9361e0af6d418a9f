import GuloGulo.Js.Number

/-!
# Doubles that are whole numbers

A sum or a quotient is the double that is nearest to the exact result. Whole
numbers up to `2 ^ 53` are doubles, and beyond it every second, every fourth
and so on.
-/

namespace GuloGulo.Js
namespace Number

/-- The double nearest to a whole number. -/
def nearestWhole (n : Nat) : Nat := roundHalfEven n (Nat.pow 2 (n.log2 - 52)) * Nat.pow 2 (n.log2 - 52)

/-- The whole numbers of either sign that are doubles. -/
def IsDouble (n : Int) : Prop := nearestWhole n.natAbs = n.natAbs ∧ n.natAbs.log2 < 1024

instance (n : Int) : Decidable (IsDouble n) := inferInstanceAs (Decidable (_ ∧ _))

/-- `a + b`. -/
def add (a b : Nat) : Nat := nearestWhole (a + b)

/-- `q / d`. -/
def divide (q : Rat) (d : Nat) : Rat :=
  match nearest false q.num.toNat (q.den * d) with
  | finite q => q
  | nan | infinite _ => 0

theorem le_roundHalfEven (num den : Nat) : num / den ≤ roundHalfEven num den := by
  unfold roundHalfEven
  dsimp only
  split
  · exact Nat.le_succ _
  · exact Nat.le_refl _

theorem roundHalfEven_le (num den : Nat) : roundHalfEven num den ≤ num / den + 1 := by
  unfold roundHalfEven
  dsimp only
  split
  · exact Nat.le_refl _
  · exact Nat.le_succ _

theorem roundHalfEven_mono {a b : Nat} (h : a ≤ b) (den : Nat) : roundHalfEven a den ≤ roundHalfEven b den := by
  rcases Nat.lt_or_eq_of_le (Nat.div_le_div_right (c := den) h) with below | same
  · exact Nat.le_trans (roundHalfEven_le a den) (Nat.le_trans below (le_roundHalfEven b den))
  · have remainders : a % den ≤ b % den := by
      have left := Nat.div_add_mod a den
      have right := Nat.div_add_mod b den
      rw [same] at left
      omega
    unfold roundHalfEven
    dsimp only
    rw [same]
    split
    · rename_i up
      rw [if_pos]
      rcases up with more | ⟨half, odd⟩
      · exact .inl (by omega)
      · rcases Nat.lt_or_eq_of_le remainders with further | equal
        · exact .inl (by omega)
        · exact .inr ⟨equal ▸ half, odd⟩
    · split
      · exact Nat.le_succ _
      · exact Nat.le_refl _

theorem nearestWhole_of_lt {n : Nat} (h : n < 9007199254740992) : nearestWhole n = n := by
  have exact53 : n.log2 - 52 = 0 := by
    by_cases zero : n = 0
    · rw [zero]
      decide
    · have : n.log2 < 53 := (Nat.log2_lt zero).mpr h
      omega
  rw [nearestWhole, exact53, show Nat.pow 2 0 = 1 from rfl, roundHalfEven_one, Nat.mul_one]

/-- Between two powers of two the nearest double is between them too. -/
theorem nearestWhole_bounds {n : Nat} (h : n ≠ 0) :
    Nat.pow 2 n.log2 ≤ nearestWhole n ∧ nearestWhole n ≤ Nat.pow 2 (n.log2 + 1) := by
  change 2 ^ n.log2 ≤ nearestWhole n ∧ nearestWhole n ≤ 2 ^ (n.log2 + 1)
  have low : 2 ^ n.log2 ≤ n := Nat.log2_self_le h
  have high : n < 2 ^ (n.log2 + 1) := Nat.lt_log2_self
  have split (k : Nat) (hk : n.log2 - 52 ≤ k) : 2 ^ k = 2 ^ (k - (n.log2 - 52)) * 2 ^ (n.log2 - 52) := by
    rw [← Nat.pow_add, Nat.sub_add_cancel hk]
  have positive : 0 < 2 ^ (n.log2 - 52) := Nat.pow_pos (by decide)
  rw [split n.log2 (Nat.sub_le _ _)] at low
  rw [split (n.log2 + 1) (by omega)] at high
  constructor
  · rw [split n.log2 (Nat.sub_le _ _)]
    apply Nat.mul_le_mul_right
    exact Nat.le_trans ((Nat.le_div_iff_mul_le positive).mpr low) (le_roundHalfEven _ _)
  · rw [split (n.log2 + 1) (by omega)]
    apply Nat.mul_le_mul_right
    exact Nat.le_trans (roundHalfEven_le _ _) ((Nat.div_lt_iff_lt_mul positive).mpr high)

theorem nearestWhole_mono {a b : Nat} (h : a ≤ b) : nearestWhole a ≤ nearestWhole b := by
  by_cases zero : a = 0
  · rw [zero]
    exact Nat.zero_le _
  have present : b ≠ 0 := by omega
  have logs : a.log2 ≤ b.log2 := (Nat.le_log2 present).mpr (Nat.le_trans (Nat.log2_self_le zero) h)
  rcases Nat.lt_or_eq_of_le logs with below | same
  · calc nearestWhole a ≤ 2 ^ (a.log2 + 1) := (nearestWhole_bounds zero).2
      _ ≤ 2 ^ b.log2 := Nat.pow_le_pow_right (by decide) below
      _ ≤ nearestWhole b := (nearestWhole_bounds present).1
  · rw [nearestWhole, nearestWhole, same]
    exact Nat.mul_le_mul_right _ (roundHalfEven_mono h _)

theorem add_mono {a a' : Nat} (h : a ≤ a') (b : Nat) : add a b ≤ add a' b := nearestWhole_mono (Nat.add_le_add_right h b)

/-- Below `2 ^ 53` a sum with a positive number is more. -/
theorem lt_add {a b : Nat} (small : a + 1 < 9007199254740992) (positive : 0 < b) : a < add a b := by
  calc a < nearestWhole (a + 1) := by rw [nearestWhole_of_lt small]; exact Nat.lt_succ_self a
    _ ≤ nearestWhole (a + b) := nearestWhole_mono (Nat.add_le_add_left positive a)

/-- Of a small number the rounding decides nothing. -/
theorem lt_add_iff {a b t : Nat} (h : t < 9007199254740992) : t < add a b ↔ t < a + b := by
  by_cases small : a + b < 9007199254740992
  · rw [add, nearestWhole_of_lt small]
  · have large : nearestWhole 9007199254740992 ≤ add a b := nearestWhole_mono (Nat.le_of_not_lt small)
    rw [show nearestWhole 9007199254740992 = 9007199254740992 by decide +kernel] at large
    omega

theorem add_of_lt {a b : Nat} (h : a + b < 9007199254740992) : add a b = a + b := nearestWhole_of_lt h

end Number

example : (Number.add 9223372036854775808 1000, Number.add 9223372036854775808 1025) =
    (9223372036854775808, 9223372036854777856) := by decide +kernel

end GuloGulo.Js
