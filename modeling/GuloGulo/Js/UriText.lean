import GuloGulo.Js.Uri
import GuloGulo.Js.Decode

/-!
# Any text as a URI component

`decodeURIComponent` undoes `encodeURIComponent` on every text without lone
surrogates, of which the latter makes a `URIError`.
-/

namespace GuloGulo.Js

theorem percentByte_encodeByte {b : UInt8} (h : 128 ≤ b.toNat) (rest : JsString) :
    percentByte (encodeByte b ++ rest) = some (b.toNat, rest) := by
  have small := b.toNat_lt
  have escaped : isUnreserved (UInt16.ofNat b.toNat) = false := by
    have big : 128 ≤ (UInt16.ofNat b.toNat).toNat := by
      rw [UInt16.toNat_ofNat', Nat.mod_eq_of_lt (by omega)]
      exact h
    simp only [isUnreserved, isAlnum, isAlpha, isUpper, isLower, isDigit, Bool.or_eq_false_iff, Bool.and_eq_false_iff,
      decide_eq_false_iff_not, beq_eq_false_iff_ne, ne_eq, UInt16.le_iff_toNat_le, ← UInt16.toNat_inj,
      UInt16.reduceToNat]
    omega
  have whole : 16 * (b.toNat / 16) + b.toNat % 16 = b.toNat := by omega
  rw [encodeByte, if_neg (by rw [escaped]; exact Bool.false_ne_true)]
  simp [percentByte, hexValue_upperHexUnit (show b.toNat / 16 < 16 by omega),
    hexValue_upperHexUnit (show b.toNat % 16 < 16 by omega), whole]

theorem percentByte_encode {n : Nat} (low : 128 ≤ n) (high : n < 256) (rest : JsString) :
    percentByte (encodeByte (UInt8.ofNat n) ++ rest) = some (n, rest) := by
  have value := byte_toNat high
  rw [percentByte_encodeByte (by omega), value]

theorem continuationByte_encode {n : Nat} (h : n < 64) (rest : JsString) :
    continuationByte (encodeByte (UInt8.ofNat (0x80 + n)) ++ rest) = some (n, rest) := by
  rw [continuationByte, percentByte_encode (by omega) (by omega)]
  simp only [Option.bind_some]
  rw [if_pos (by omega), Nat.add_sub_cancel_left]

/-- An escaped code point in front. -/
theorem decodeFrom_escaped {n : Nat} (low : 128 ≤ n) (high : n < 256) (fuel : Nat) (rest : JsString) :
    decodeFrom (fuel + 1) (encodeByte (UInt8.ofNat n) ++ rest) = (do
      let (units, rest) ← escapedUnits n rest
      (units ++ ·) <$> decodeFrom fuel rest) := by
  have front := percentByte_encode low high rest
  cases shape : encodeByte (UInt8.ofNat n) ++ rest with
  | nil =>
    rw [shape] at front
    cases front
  | cons u more =>
    rw [shape] at front
    have percent : u = 37 := by
      by_contra other
      unfold percentByte at front
      split at front
      · rename_i same
        cases same
        rw [if_neg other] at front
        cases front
      · cases front
    rw [decodeFrom, if_pos percent, front]
    rfl

theorem decodeFrom_bmp {n : Nat} (bound : n < 0x10000) (scalar : n < 0xD800 ∨ 0xE000 ≤ n) (fuel : Nat) (rest : JsString) :
    decodeFrom (fuel + 1) ((utf8Bmp n).flatMap encodeByte ++ rest) = (UInt16.ofNat n :: ·) <$> decodeFrom fuel rest := by
  unfold utf8Bmp
  split
  · rename_i one
    have value : (UInt8.ofNat n).toNat = n := byte_toNat (by omega)
    have small : UInt8.ofNat n < 128 := by
      rw [UInt8.lt_iff_toNat_lt, value]
      exact one
    rw [List.flatMap_singleton, decodeFrom_encodeByte small, value]
  · split
    · rename_i more two
      have whole : (0xC0 + n / 0x40 - 0xC0) * 0x40 + n % 0x40 = n := by omega
      rw [List.flatMap_cons, List.flatMap_singleton, List.append_assoc, decodeFrom_escaped (by omega) (by omega),
        escapedUnits, if_neg (by omega), if_pos (by omega), continuationByte_encode (by omega)]
      simp only [Option.bind_eq_bind, Option.bind_some, whole]
      rfl
    · rename_i more three
      have whole : (0xE0 + n / 0x1000 - 0xE0) * 0x1000 + n / 0x40 % 0x40 * 0x40 + n % 0x40 = n := by omega
      rw [List.flatMap_cons, List.flatMap_cons, List.flatMap_singleton, List.append_assoc, List.append_assoc,
        decodeFrom_escaped (by omega) (by omega), escapedUnits, if_neg (by omega), if_neg (by omega), if_pos (by omega),
        continuationByte_encode (by omega)]
      simp only [Option.bind_eq_bind, Option.bind_some, continuationByte_encode (show n % 0x40 < 64 by omega), whole]
      rw [if_neg (by omega)]
      rfl

/-- The four bytes of a code point beyond the plane of the single units. -/
theorem escapedUnits_four {a b c d n : Nat} {s s₁ s₂ rest : JsString} (bounds : 0x10000 ≤ n ∧ n ≤ 0x10FFFF) (first : a < 5)
    (second : continuationByte s = some (b, s₁)) (third : continuationByte s₁ = some (c, s₂))
    (fourth : continuationByte s₂ = some (d, rest)) (whole : a * 0x40000 + b * 0x1000 + c * 0x40 + d = n) :
    escapedUnits (0xF0 + a) s =
      some ([UInt16.ofNat (0xD800 + (n - 0x10000) / 0x400), UInt16.ofNat (0xDC00 + (n - 0x10000) % 0x400)], rest) := by
  have inside : ¬ (n < 0x10000 ∨ 0x10FFFF < n) := by omega
  rw [escapedUnits, if_neg (by omega), if_neg (by omega), if_neg (by omega), if_pos (by omega)]
  refine Option.bind_eq_some_iff.mpr ⟨(b, s₁), second, ?_⟩
  refine Option.bind_eq_some_iff.mpr ⟨(c, s₂), third, ?_⟩
  refine Option.bind_eq_some_iff.mpr ⟨(d, rest), fourth, ?_⟩
  dsimp only
  rw [Nat.add_sub_cancel_left, whole, if_neg inside]

theorem escapedUnits_pair {a b c d n : Nat} (bounds : 0x10000 ≤ n ∧ n ≤ 0x10FFFF) (rest : JsString) (first : a < 5)
    (second : b < 64) (third : c < 64) (fourth : d < 64) (whole : a * 0x40000 + b * 0x1000 + c * 0x40 + d = n) :
    escapedUnits (0xF0 + a) (encodeByte (UInt8.ofNat (0x80 + b)) ++ (encodeByte (UInt8.ofNat (0x80 + c)) ++
      (encodeByte (UInt8.ofNat (0x80 + d)) ++ rest))) =
        some ([UInt16.ofNat (0xD800 + (n - 0x10000) / 0x400), UInt16.ofNat (0xDC00 + (n - 0x10000) % 0x400)], rest) :=
  escapedUnits_four bounds first (continuationByte_encode second _) (continuationByte_encode third _)
    (continuationByte_encode fourth _) whole

theorem decodeFrom_pair {hi lo : UInt16} (high : isHighSurrogate hi) (low : isLowSurrogate lo) (fuel : Nat)
    (rest : JsString) : decodeFrom (fuel + 1) ((utf8Pair hi lo).flatMap encodeByte ++ rest) =
      (hi :: lo :: ·) <$> decodeFrom fuel rest := by
  have hiBounds : 0xD800 ≤ hi.toNat ∧ hi.toNat ≤ 0xDBFF := by
    simpa [isHighSurrogate, UInt16.le_iff_toNat_le] using high
  have loBounds : 0xDC00 ≤ lo.toNat ∧ lo.toNat ≤ 0xDFFF := by
    simpa [isLowSurrogate, UInt16.le_iff_toNat_le] using low
  simp only [utf8Pair]
  generalize hn : 0x10000 + (hi.toNat - 0xD800) * 0x400 + (lo.toNat - 0xDC00) = n
  have one : 0xD800 + (n - 0x10000) / 0x400 = hi.toNat := by omega
  have two : 0xDC00 + (n - 0x10000) % 0x400 = lo.toNat := by omega
  rw [List.flatMap_cons, List.flatMap_cons, List.flatMap_cons, List.flatMap_singleton, List.append_assoc,
    List.append_assoc, List.append_assoc, decodeFrom_escaped (by omega) (by omega),
    escapedUnits_pair (n := n) (by omega) rest (by omega) (by omega) (by omega) (by omega) (by omega), one, two,
    UInt16.ofNat_toNat, UInt16.ofNat_toNat]
  simp

theorem scalar_bounds {u : UInt16} (high : isHighSurrogate u = false) (low : isLowSurrogate u = false) :
    u.toNat < 0xD800 ∨ 0xE000 ≤ u.toNat := by
  simp only [isHighSurrogate, isLowSurrogate, Bool.and_eq_false_iff, decide_eq_false_iff_not,
    UInt16.le_iff_toNat_le, UInt16.reduceToNat] at high low
  omega

theorem replacement_scalar : isHighSurrogate 0xFFFD = false ∧ isLowSurrogate 0xFFFD = false := by decide

theorem decodeFrom_encode {s : JsString} (h : toWellFormed s = s) {fuel : Nat} (enough : s.length ≤ fuel) :
    decodeFrom fuel (encodeURIComponent s) = some s := by
  have single {u : UInt16} (high : isHighSurrogate u = false) (low : isLowSurrogate u = false) (fuel : Nat)
      (rest : JsString) : decodeFrom (fuel + 1) ((utf8Bmp u.toNat).flatMap encodeByte ++ rest) =
        (u :: ·) <$> decodeFrom fuel rest := by
    rw [decodeFrom_bmp u.toNat_lt (scalar_bounds high low), UInt16.ofNat_toNat]
  obtain ⟨noHigh, noLow⟩ := replacement_scalar
  unfold encodeURIComponent
  induction s using utf8.induct generalizing fuel with
  | case1 => cases fuel <;> rfl
  | case2 u surrogate =>
    rw [toWellFormed, if_pos surrogate] at h
    cases h
    simp [noHigh, noLow] at surrogate
  | case3 u scalar =>
    obtain ⟨fuel, rfl⟩ : ∃ n, fuel = n + 1 := ⟨fuel - 1, by simp only [List.length_cons] at enough; omega⟩
    rw [utf8, if_neg scalar]
    simp only [Bool.or_eq_true, not_or, Bool.not_eq_true] at scalar
    have run := single scalar.1 scalar.2 fuel []
    rw [List.append_nil] at run
    rw [run]
    cases fuel <;> rfl
  | case4 u v rest hi lo ih =>
    obtain ⟨fuel, rfl⟩ : ∃ n, fuel = n + 1 := ⟨fuel - 1, by simp only [List.length_cons] at enough; omega⟩
    rw [toWellFormed, if_pos hi, if_pos lo] at h
    have more : toWellFormed rest = rest := (List.cons.inj (List.cons.inj h).2).2
    rw [utf8, if_pos hi, if_pos lo, List.flatMap_append, decodeFrom_pair hi lo,
      ih more (by simp only [List.length_cons] at enough; omega)]
    rfl
  | case5 u v rest hi lo ih =>
    rw [toWellFormed, if_pos hi, if_neg lo] at h
    rw [← (List.cons.inj h).1, noHigh] at hi
    cases hi
  | case6 u v rest hi lo ih =>
    rw [toWellFormed, if_neg hi, if_pos lo] at h
    rw [← (List.cons.inj h).1, noLow] at lo
    cases lo
  | case7 u v rest hi lo ih =>
    obtain ⟨fuel, rfl⟩ : ∃ n, fuel = n + 1 := ⟨fuel - 1, by simp only [List.length_cons] at enough; omega⟩
    rw [toWellFormed, if_neg hi, if_neg lo] at h
    rw [utf8, if_neg hi, if_neg lo, List.flatMap_append,
      single (Bool.eq_false_iff.mpr hi) (Bool.eq_false_iff.mpr lo), ih (List.cons.inj h).2 (by simp only [List.length_cons] at enough ⊢; omega)]
    rfl

/-- An encoded text has at least its units. -/
theorem length_le_encode (s : JsString) : s.length ≤ (encodeURIComponent s).length := by
  have bytes (l : List UInt8) : l.length ≤ (l.flatMap encodeByte).length := by
    induction l with
    | nil => simp
    | cons b l ih =>
      have one := encodeByte_length b
      simp only [List.flatMap_cons, List.length_append, List.length_cons]
      omega
  have bmp (n : Nat) : 1 ≤ (utf8Bmp n).length := by
    unfold utf8Bmp
    split
    · simp
    · split <;> simp
  have units : s.length ≤ (utf8 s).length := by
    induction s using utf8.induct with
    | case1 => simp
    | case2 u surrogate =>
      rw [utf8, if_pos surrogate, replacement_eq]
      exact bmp 0xFFFD
    | case3 u scalar =>
      rw [utf8, if_neg scalar]
      exact bmp u.toNat
    | case4 u v rest hi lo ih =>
      rw [utf8, if_pos hi, if_pos lo]
      simp [utf8Pair]
      omega
    | case5 u v rest hi lo ih =>
      rw [utf8, if_pos hi, if_neg lo, replacement_eq]
      have := bmp 0xFFFD
      simp only [List.length_append, List.length_cons] at ih ⊢
      omega
    | case6 u v rest hi lo ih =>
      rw [utf8, if_neg hi, if_pos lo, replacement_eq]
      have := bmp 0xFFFD
      simp only [List.length_append, List.length_cons] at ih ⊢
      omega
    | case7 u v rest hi lo ih =>
      rw [utf8, if_neg hi, if_neg lo]
      have := bmp u.toNat
      simp only [List.length_append, List.length_cons] at ih ⊢
      omega
  exact Nat.le_trans units (bytes (utf8 s))

/-- `encodeURIComponent` loses nothing of a text without lone surrogates. -/
theorem decodeURIComponent_encodeURIComponent {s : JsString} (h : toWellFormed s = s) :
    decodeURIComponent (encodeURIComponent s) = some s := decodeFrom_encode h (length_le_encode s)

theorem encodeURIComponent_eq_nil {s : JsString} (h : encodeURIComponent s = []) : s = [] := by
  have short := length_le_encode s
  rw [h] at short
  exact List.length_eq_zero_iff.mp (Nat.le_zero.mp short)

end GuloGulo.Js
