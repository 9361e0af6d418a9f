import GuloGulo.Mail.Parser

/-!
# Quoted-printable text

What quoted-printable text stands for, character by character, against
`decodeQuotedPrintable`, which goes by code units.
-/

namespace GuloGulo.Mail.Message
open Js

/-- The text without its soft line breaks. -/
def withoutSoftBreaks : JsString → JsString
  | 61 :: 13 :: 10 :: rest => withoutSoftBreaks rest
  | u :: rest => u :: withoutSoftBreaks rest
  | [] => []

/-- `=XX` is a byte, and any other character is encoded by itself. -/
def characterBytes : JsString → List UInt8
  | 61 :: a :: b :: rest =>
    match hexValue a, hexValue b with
    | some hi, some lo => UInt8.ofNat (16 * hi + lo) :: characterBytes rest
    | _, _ => utf8 [61] ++ characterBytes (a :: b :: rest)
  | u :: v :: rest =>
    if isHighSurrogate u && isLowSurrogate v then utf8 [u, v] ++ characterBytes rest
    else utf8 [u] ++ characterBytes (v :: rest)
  | [u] => utf8 [u]
  | [] => []

/-- The bytes that a quoted-printable text stands for. -/
def quotedPrintableBytes (text : JsString) : List UInt8 := characterBytes (withoutSoftBreaks text)

/-- How many characters are beyond U+FFFF. -/
def supplementary : JsString → Nat
  | u :: v :: rest =>
    if isHighSurrogate u && isLowSurrogate v then supplementary rest + 1 else supplementary (v :: rest)
  | _ => 0

/-- The text is an encoding of the bytes: soft line breaks may stand anywhere,
any byte may be escaped in either case, and ASCII but the equals sign may stand
for itself. -/
inductive Encodes : List UInt8 → JsString → Prop where
  | nil : Encodes [] []
  | soft {bytes : List UInt8} {text : JsString} (rest : Encodes bytes text) : Encodes bytes (61 :: 13 :: 10 :: text)
  | escaped {a b : UInt16} {hi lo : Nat} {bytes : List UInt8} {text : JsString} (high : hexValue a = some hi)
      (low : hexValue b = some lo) (rest : Encodes bytes text) :
      Encodes (UInt8.ofNat (16 * hi + lo) :: bytes) (61 :: a :: b :: text)
  | itself {u : UInt16} {bytes : List UInt8} {text : JsString} (ascii : u < 128) (plain : u ≠ 61)
      (rest : Encodes bytes text) : Encodes (UInt8.ofNat u.toNat :: bytes) (u :: text)

attribute [local simp] withoutSoftBreaks in
theorem replaceAll_softBreaks (s : JsString) : replaceAll s [61, 13, 10] [] = withoutSoftBreaks s := by
  unfold replaceAll
  induction s using withoutSoftBreaks.induct with
  | case1 rest ih =>
    rw [withoutSoftBreaks, ← ih]
    rfl
  | case2 u rest other ih =>
    have apart : startsWith (u :: rest) [61, 13, 10] = false := by
      rw [Bool.eq_false_iff, startsWith, ne_eq, List.isPrefixOf_iff_prefix]
      rintro ⟨tail, shape⟩
      simp only [List.cons_append, List.nil_append, List.cons.injEq] at shape
      exact other tail shape.1.symm shape.2.symm
    rw [withoutSoftBreaks, replaceFrom, if_neg (by rw [apart]; exact Bool.false_ne_true), ih]
    exact other
  | case3 => rfl

section
variable {u v : UInt16} {s : JsString}

theorem supplementary_scalar (h : isHighSurrogate u = false) : supplementary (u :: s) = supplementary s := by
  cases s with
  | nil => rfl
  | cons v s => rw [supplementary, h, Bool.false_and, if_neg Bool.false_ne_true]

theorem hexValue_scalar {n : Nat} (h : hexValue u = some n) : isHighSurrogate u = false := by
  rw [Bool.eq_false_iff]
  intro high
  simp only [isHighSurrogate, Bool.and_eq_true, decide_eq_true_eq, UInt16.le_iff_toNat_le, UInt16.reduceToNat] at high
  have digit : isDigit u = false := by
    simp only [isDigit, Bool.and_eq_false_iff, decide_eq_false_iff_not, UInt16.le_iff_toNat_le, UInt16.reduceToNat]
    omega
  have upper : (decide (65 ≤ u) && decide (u ≤ 70)) = false := by
    simp only [Bool.and_eq_false_iff, decide_eq_false_iff_not, UInt16.le_iff_toNat_le, UInt16.reduceToNat]
    omega
  have lower : (decide (97 ≤ u) && decide (u ≤ 102)) = false := by
    simp only [Bool.and_eq_false_iff, decide_eq_false_iff_not, UInt16.le_iff_toNat_le, UInt16.reduceToNat]
    omega
  rw [hexValue, digit, upper, lower] at h
  cases h

theorem withoutSoftBreaks_other (h : u ≠ 61) : withoutSoftBreaks (u :: s) = u :: withoutSoftBreaks s := by
  rw [withoutSoftBreaks]
  rintro rest rfl
  exact absurd rfl h

attribute [local simp] hexBytes in
theorem hexBytes_other (h : u ≠ 61) : hexBytes (u :: s) = utf8 [u] ++ hexBytes s := by
  rw [hexBytes]
  rintro a b rest rfl
  exact absurd rfl h

theorem hexBytes_escaped {a b : UInt16} {hi lo : Nat} (high : hexValue a = some hi) (low : hexValue b = some lo) :
    hexBytes (61 :: a :: b :: s) = UInt8.ofNat (16 * hi + lo) :: hexBytes s := by
  rw [hexBytes, high, low]

/-- A character beyond U+FFFF has four bytes, and its two units apart have six. -/
theorem hexBytes_characters (s : JsString) :
    (hexBytes s).length = (characterBytes s).length + 2 * supplementary s ∧
      (supplementary s = 0 → hexBytes s = characterBytes s) := by
  induction s using characterBytes.induct with
  | case1 a b rest hi lo low high ih =>
    have same : supplementary (61 :: a :: b :: rest) = supplementary rest := by
      rw [supplementary_scalar (by decide), supplementary_scalar (hexValue_scalar high),
        supplementary_scalar (hexValue_scalar low)]
    have bytes : characterBytes (61 :: a :: b :: rest) = UInt8.ofNat (16 * hi + lo) :: characterBytes rest := by
      rw [characterBytes, high, low]
    rw [hexBytes_escaped high low, bytes, same, List.length_cons, List.length_cons, ih.1]
    exact ⟨Nat.add_right_comm _ _ _, fun none => by rw [ih.2 none]⟩
  | case2 a b rest none' ih =>
    have same : supplementary (61 :: a :: b :: rest) = supplementary (a :: b :: rest) := supplementary_scalar (by decide)
    have units : hexBytes (61 :: a :: b :: rest) = utf8 [61] ++ hexBytes (a :: b :: rest) := by
      rw [hexBytes]
      split
      · rename_i hi lo high low
        exact (none' hi lo high low).elim
      · rfl
    have characters : characterBytes (61 :: a :: b :: rest) = utf8 [61] ++ characterBytes (a :: b :: rest) := by
      rw [characterBytes]
      split
      · rename_i hi lo high low
        exact (none' hi lo high low).elim
      · rfl
    rw [units, characters, same, List.length_append, List.length_append, ih.1]
    exact ⟨(Nat.add_assoc _ _ _).symm, fun none => by rw [ih.2 none]⟩
  | case3 u v rest other pair ih =>
    obtain ⟨high, low⟩ := Bool.and_eq_true_iff.mp pair
    have first : u ≠ 61 := by
      rintro rfl
      exact absurd high (by decide)
    have second : v ≠ 61 := by
      rintro rfl
      exact absurd low (by decide)
    have units : hexBytes (u :: v :: rest) = utf8 [u] ++ (utf8 [v] ++ hexBytes rest) := by
      rw [hexBytes_other first, hexBytes_other second]
    have six : (utf8 [u]).length = 3 ∧ (utf8 [v]).length = 3 := by
      simp [utf8, high, low, replacement]
    have characters : characterBytes (u :: v :: rest) = utf8 [u, v] ++ characterBytes rest := by
      rw [characterBytes, if_pos pair]
      exact other
    have four : (utf8 [u, v]).length = 4 := by
      simp [utf8, high, low, utf8Pair]
    have more : supplementary (u :: v :: rest) = supplementary rest + 1 := by rw [supplementary, if_pos pair]
    rw [units, characters, more]
    simp only [List.length_append, six, four, ih.1]
    exact ⟨by omega, fun none => absurd none (Nat.succ_ne_zero _)⟩
  | case4 u v rest other pair ih =>
    have units : hexBytes (u :: v :: rest) = utf8 [u] ++ hexBytes (v :: rest) := by
      rw [hexBytes]
      rintro a b tail rfl shape
      exact other b tail rfl (List.cons.inj shape).2
    have characters : characterBytes (u :: v :: rest) = utf8 [u] ++ characterBytes (v :: rest) := by
      rw [characterBytes, if_neg pair]
      exact other
    have same : supplementary (u :: v :: rest) = supplementary (v :: rest) := by rw [supplementary, if_neg pair]
    rw [units, characters, same, List.length_append, List.length_append, ih.1]
    exact ⟨(Nat.add_assoc _ _ _).symm, fun none => by rw [ih.2 none]⟩
  | case5 u =>
    have units : hexBytes [u] = characterBytes [u] := by
      rw [hexBytes, characterBytes, hexBytes, List.append_nil]
      intro _ _ _ _ shape
      cases shape
    rw [units]
    exact ⟨rfl, fun _ => rfl⟩
  | case6 => exact ⟨rfl, fun _ => rfl⟩

/-- Decoding an encoding of bytes gives the bytes. -/
theorem decodeQuotedPrintable_encodes {bytes : List UInt8} {text : JsString} (h : Encodes bytes text) :
    decodeQuotedPrintable text false = bytes := by
  have decodes : hexBytes (withoutSoftBreaks text) = bytes := by
    induction h with
    | nil => rfl
    | soft _ ih => exact ih
    | @escaped a b hi lo bytes text high low _ ih =>
      have digit {u v : UInt16} {n : Nat} (h : hexValue u = some n) (none : hexValue v = none) : u ≠ v := by
        rintro rfl
        rw [none] at h
        cases h
      have whole : withoutSoftBreaks (61 :: a :: b :: text) = 61 :: a :: b :: withoutSoftBreaks text := by
        rw [withoutSoftBreaks, withoutSoftBreaks_other (digit high rfl), withoutSoftBreaks_other (digit low rfl)]
        rintro rest _ shape
        exact digit high rfl (List.cons.inj shape).1
      rw [whole, hexBytes_escaped high low, ih]
    | @itself u bytes text ascii plain _ ih =>
      rw [withoutSoftBreaks_other plain, hexBytes_other plain, ih, utf8_ascii (by simpa using ascii)]
      rfl
  rw [decodeQuotedPrintable, if_neg Bool.false_ne_true, replaceAll_softBreaks, decodes]

/-- The bytes are those of the characters just if none of them is beyond U+FFFF,
where each of its two units is encoded by itself. -/
theorem decodeQuotedPrintable_iff (text : JsString) :
    (decodeQuotedPrintable text false = quotedPrintableBytes text ↔ supplementary (withoutSoftBreaks text) = 0) ∧
    ∀ bytes, Encodes bytes text → decodeQuotedPrintable text false = bytes := by
  refine ⟨?_, fun bytes h => decodeQuotedPrintable_encodes h⟩
  obtain ⟨length, same⟩ := hexBytes_characters (withoutSoftBreaks text)
  rw [decodeQuotedPrintable, if_neg Bool.false_ne_true, replaceAll_softBreaks, quotedPrintableBytes]
  constructor
  · intro equal
    rw [equal] at length
    omega
  · exact same

/-- A word that is folded at a soft line break. -/
theorem decodeQuotedPrintable_iff_folded : decodeQuotedPrintable (js "caf=C3=\r\n=a9") false = [99, 97, 102, 0xC3, 0xA9] ∧
    decodeQuotedPrintable (js "x=\r\n é=4") false = quotedPrintableBytes (js "x=\r\n é=4") := by
  have accent : Encodes [0xA9] (js "=a9") :=
    .escaped (show hexValue 97 = some 10 from rfl) (show hexValue 57 = some 9 from rfl) .nil
  have letter : Encodes [0xC3, 0xA9] (js "=C3=\r\n=a9") :=
    .escaped (show hexValue 67 = some 12 from rfl) (show hexValue 51 = some 3 from rfl) accent.soft
  have encodes : Encodes [99, 97, 102, 0xC3, 0xA9] (js "caf=C3=\r\n=a9") :=
    .itself (show (99 : UInt16) < 128 by decide) (by decide) (.itself (show (97 : UInt16) < 128 by decide) (by decide)
      (.itself (show (102 : UInt16) < 128 by decide) (by decide) letter))
  exact ⟨(decodeQuotedPrintable_iff _).2 _ encodes, (decodeQuotedPrintable_iff _).1.mpr (by decide)⟩

/-- The two units of a face are decoded as two replacement characters. -/
theorem decodeQuotedPrintable_face :
    ¬ ∀ text, isWellFormed text = true → decodeQuotedPrintable text false = quotedPrintableBytes text := by
  intro same
  exact absurd (same (js "😀") (by decide)) (by decide)

end

end GuloGulo.Mail.Message
