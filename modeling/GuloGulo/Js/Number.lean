import GuloGulo.Js.Uri
import Mathlib.Data.Rat.Init
import Mathlib.Data.List.TakeWhile

/-!
# Numbers of texts

`Number` of a text: the double that is nearest to the numeral, and NaN where
there is none.
-/

namespace GuloGulo.Js

inductive Number where
  | nan
  | infinite (negative : Bool)
  | finite (q : Rat)
  deriving DecidableEq

namespace Number

/-- `2 ^ k ≤ num / den`. -/
def powerLe (k : Int) (num den : Nat) : Bool :=
  if 0 ≤ k then decide (den * Nat.pow 2 k.toNat ≤ num) else decide (den ≤ num * Nat.pow 2 (-k).toNat)

/-- Half goes to the even one. -/
def roundHalfEven (num den : Nat) : Nat :=
  let q := num / den
  let r := num % den
  if den < 2 * r ∨ (2 * r = den ∧ q % 2 = 1) then q + 1 else q

/-- The double nearest to a fraction, of 53 bits and down to `2 ^ -1074`. -/
def nearest (negative : Bool) (num den : Nat) : Number :=
  if num = 0 then finite 0
  else
    let k : Int := (num.log2 : Int) - den.log2
    let log := if powerLe k num den then k else k - 1
    let e := max (log - 52) (-1074)
    let significand := if 0 ≤ e then roundHalfEven num (den * Nat.pow 2 e.toNat)
      else roundHalfEven (num * Nat.pow 2 (-e).toNat) den
    let value : Rat := if 0 ≤ e then significand * (Nat.pow 2 e.toNat : Nat) else significand / (Nat.pow 2 (-e).toNat : Nat)
    if (Nat.pow 2 1024 : Nat) ≤ value then infinite negative else finite (if negative then -value else value)

/-- `whole * 10 ^ exponent`. -/
def scaled (negative : Bool) (whole : Nat) (exponent : Int) : Number :=
  if 0 ≤ exponent then nearest negative (whole * Nat.pow 10 exponent.toNat) 1
  else nearest negative whole (Nat.pow 10 (-exponent).toNat)

/-- Digits after an optional sign. -/
def signedDigits : JsString → Option Int
  | 43 :: s => if isDigits s then some (parseDecimal s) else none
  | 45 :: s => if isDigits s then some (-(parseDecimal s)) else none
  | s => if isDigits s then some (parseDecimal s) else none

/-- The exponent of a numeral, nothing being none. -/
def exponentPart : JsString → Option Int
  | [] => some 0
  | u :: s => if u = 101 ∨ u = 69 then signedDigits s else none

/-- A decimal numeral without a sign. -/
def unsigned (negative : Bool) (s : JsString) : Number :=
  if s = js "Infinity" then infinite negative
  else
    let whole := s.takeWhile isDigit
    let rest := s.dropWhile isDigit
    let point := rest.head? = some 46
    let fraction := if point then (rest.drop 1).takeWhile isDigit else []
    let tail := if point then (rest.drop 1).dropWhile isDigit else rest
    if whole ++ fraction = [] then nan
    else match exponentPart tail with
      | some exponent => scaled negative (parseDecimal (whole ++ fraction)) (exponent - fraction.length)
      | none => nan

def digitValue (u : UInt16) : Nat :=
  if isDigit u then u.toNat - 48 else if isUpper u then u.toNat - 55 else if isLower u then u.toNat - 87 else 36

def radixNumeral (radix : Nat) (s : JsString) : Number :=
  if s ≠ [] ∧ s.all (fun u => decide (digitValue u < radix)) then
    nearest false (s.foldl (fun n u => n * radix + digitValue u) 0) 1
  else nan

def numeral : JsString → Number
  | [] => finite 0
  | 43 :: s => unsigned false s
  | 45 :: s => unsigned true s
  | 48 :: u :: s =>
    if u = 120 ∨ u = 88 then radixNumeral 16 s
    else if u = 111 ∨ u = 79 then radixNumeral 8 s
    else if u = 98 ∨ u = 66 then radixNumeral 2 s
    else unsigned false (48 :: u :: s)
  | s => unsigned false s

/-- `Number(s)`. -/
def ofText (s : JsString) : Number := numeral (trim s)

/-- `n >= x`, which NaN is not less than. -/
def le : Number → Nat → Bool
  | nan, _ => false
  | infinite negative, _ => negative
  | finite q, n => decide (q ≤ n)

theorem roundHalfEven_one (n : Nat) : roundHalfEven n 1 = n := by
  unfold roundHalfEven
  rw [Nat.div_one, Nat.mod_one]
  exact if_neg (by omega)

/-- A whole number below `2 ^ 53` is a double. -/
theorem nearest_whole {n : Nat} (h : n < 9007199254740992) : nearest false n 1 = finite n := by
  unfold nearest
  by_cases zero : n = 0
  · subst zero
    rfl
  rw [if_neg zero]
  have low : Nat.pow 2 n.log2 ≤ n := Nat.log2_self_le zero
  have bound : n.log2 < 53 := (Nat.log2_lt zero).mpr h
  have one : Nat.log2 1 = 0 := by decide
  have power : powerLe ((n.log2 : Int) - (Nat.log2 1 : Nat)) n 1 = true := by
    rw [one]
    simp only [powerLe]
    rw [if_pos (by omega)]
    simpa using low
  obtain ⟨d, hd⟩ : ∃ d : Nat, d = 52 - n.log2 := ⟨_, rfl⟩
  have exponent : max ((n.log2 : Int) - (Nat.log2 1 : Nat) - 52) (-1074) = -(d : Int) := by
    rw [one]
    omega
  have small : ¬ ((Nat.pow 2 1024 : Nat) : Rat) ≤ n := by
    rw [Rat.natCast_le_natCast, Nat.not_le]
    exact Nat.lt_trans h (by decide +kernel)
  simp only [power, if_true, exponent]
  have significand : (if 0 ≤ -(d : Int) then roundHalfEven n (1 * Nat.pow 2 (-(d : Int)).toNat)
      else roundHalfEven (n * Nat.pow 2 (- -(d : Int)).toNat) 1) = n * Nat.pow 2 d := by
    by_cases whole : d = 0
    · subst whole
      rw [if_pos (by decide)]
      exact (roundHalfEven_one n).trans (Nat.mul_one n).symm
    · rw [if_neg (by omega), Int.neg_neg, Int.toNat_natCast, roundHalfEven_one]
  rw [significand]
  have value : (if 0 ≤ -(d : Int) then ((n * Nat.pow 2 d : Nat) : Rat) * (Nat.pow 2 (-(d : Int)).toNat : Nat)
      else ((n * Nat.pow 2 d : Nat) : Rat) / (Nat.pow 2 (- -(d : Int)).toNat : Nat)) = n := by
    by_cases whole : d = 0
    · subst whole
      rw [if_pos (by decide)]
      simp
    · have positive : ((Nat.pow 2 d : Nat) : Rat) ≠ 0 := by
        intro zero
        exact absurd (Rat.natCast_eq_zero_iff.mp zero) (Nat.pos_iff_ne_zero.mp (Nat.pow_pos (by decide)))
      rw [if_neg (by omega), Int.neg_neg, Int.toNat_natCast, Rat.natCast_mul, Rat.mul_div_cancel positive]
  rw [value, if_neg small]
  rfl

theorem isDigit_not_space {u : UInt16} (h : isDigit u = true) : isWhiteSpace u = false := by
  simp only [isDigit, Bool.and_eq_true, decide_eq_true_eq, UInt16.le_iff_toNat_le, UInt16.reduceToNat] at h
  exact isWhiteSpace_visible (by omega)

theorem numeral_digits {s : JsString} (digits : isDigits s = true) : numeral s = unsigned false s := by
  obtain ⟨some', all⟩ : s.isEmpty = false ∧ ∀ u ∈ s, isDigit u = true := by simpa [isDigits] using digits
  have differs {u : UInt16} (hu : u ∈ s) (v : UInt16) (hv : isDigit v = false) : u ≠ v := by
    rintro rfl
    rw [all u hu] at hv
    cases hv
  unfold numeral
  split
  · cases some'
  · exact absurd rfl (differs List.mem_cons_self 43 (by decide))
  · exact absurd rfl (differs List.mem_cons_self 45 (by decide))
  · rename_i u rest
    have second : u ∈ 48 :: u :: rest := List.mem_cons_of_mem _ List.mem_cons_self
    rw [if_neg, if_neg, if_neg]
    · rintro (same | same)
      · exact differs second 98 (by decide) same
      · exact differs second 66 (by decide) same
    · rintro (same | same)
      · exact differs second 111 (by decide) same
      · exact differs second 79 (by decide) same
    · rintro (same | same)
      · exact differs second 120 (by decide) same
      · exact differs second 88 (by decide) same
  · rfl

theorem unsigned_digits {s : JsString} (digits : isDigits s = true) : unsigned false s = nearest false (parseDecimal s) 1 := by
  obtain ⟨some', all⟩ : s.isEmpty = false ∧ ∀ u ∈ s, isDigit u = true := by simpa [isDigits] using digits
  have finite : s ≠ js "Infinity" := by
    rintro rfl
    exact absurd digits (by decide)
  have whole : s.takeWhile isDigit = s := List.takeWhile_eq_self_iff.mpr all
  have rest : s.dropWhile isDigit = [] := List.dropWhile_eq_nil_iff.mpr all
  have present : ¬ s = [] := by simpa using some'
  simp only [unsigned, if_neg finite, whole, rest, List.head?_nil, reduceCtorEq, if_false, List.append_nil, if_neg present,
    exponentPart, List.length_nil, scaled]
  simp

/-- A numeral in the spelling that numbers are printed in. -/
theorem ofText_decimal {n : Nat} (h : n < 9007199254740992) : ofText (decimal n) = finite n := by
  have digits := isDigits_decimal n
  have clean : ∀ u ∈ decimal n, isWhiteSpace u = false := by
    intro u hu
    have all : ∀ u ∈ decimal n, isDigit u = true := by
      simp only [isDigits, Bool.and_eq_true, List.all_eq_true] at digits
      exact digits.2
    exact isDigit_not_space (all u hu)
  rw [ofText, trim_clean clean, numeral_digits digits, unsigned_digits digits, parseDecimal_decimal, nearest_whole h]

end Number

example : ([js "12", js " 0x1F ", js "", js "1e3", js "4x", js "-2.5"].map Number.ofText) =
    [.finite 12, .finite 31, .finite 0, .finite 1000, .nan, .finite (-5 / 2)] := by decide +kernel

end GuloGulo.Js
