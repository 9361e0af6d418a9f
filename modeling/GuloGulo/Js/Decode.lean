import GuloGulo.Js.Text
import Mathlib.Algebra.Ring.Nat

/-!
# Decoding UTF-8

The decoder of the Encoding Standard, which `Buffer.toString('utf8')` and
`TextDecoder` run: a sequence that cannot go on is one U+FFFD, and the byte it
stopped at is read again.
-/

namespace GuloGulo.Js

/-- How many bytes are to come, in which range the next one has to be, and the
bits so far. -/
structure Utf8State where
  left : Nat
  lower : Nat
  upper : Nat
  codePoint : Nat

namespace Utf8State

def idle : Utf8State := ⟨0, 0x80, 0xBF, 0⟩

end Utf8State

/-- The units of a code point. -/
def codePointUnits (n : Nat) : JsString :=
  if n < 0x10000 then [UInt16.ofNat n]
  else [UInt16.ofNat (0xD800 + (n - 0x10000) / 0x400), UInt16.ofNat (0xDC00 + (n - 0x10000) % 0x400)]

/-- The first byte of a sequence. -/
def startUtf8 (n : Nat) : JsString × Utf8State :=
  if n < 0x80 then ([UInt16.ofNat n], .idle)
  else if 0xC2 ≤ n ∧ n ≤ 0xDF then ([], ⟨1, 0x80, 0xBF, n - 0xC0⟩)
  else if 0xE0 ≤ n ∧ n ≤ 0xEF then
    ([], ⟨2, if n = 0xE0 then 0xA0 else 0x80, if n = 0xED then 0x9F else 0xBF, n - 0xE0⟩)
  else if 0xF0 ≤ n ∧ n ≤ 0xF4 then
    ([], ⟨3, if n = 0xF0 then 0x90 else 0x80, if n = 0xF4 then 0x8F else 0xBF, n - 0xF0⟩)
  else ([0xFFFD], .idle)

def stepUtf8 (st : Utf8State) (n : Nat) : JsString × Utf8State :=
  if st.left = 0 then startUtf8 n
  else if n < st.lower ∨ st.upper < n then (0xFFFD :: (startUtf8 n).1, (startUtf8 n).2)
  else if st.left = 1 then (codePointUnits (st.codePoint * 64 + n % 64), .idle)
  else ([], ⟨st.left - 1, 0x80, 0xBF, st.codePoint * 64 + n % 64⟩)

def decodeUtf8 : Utf8State → List UInt8 → JsString
  | st, [] => if st.left = 0 then [] else [0xFFFD]
  | st, b :: rest => (stepUtf8 st b.toNat).1 ++ decodeUtf8 (stepUtf8 st b.toNat).2 rest

/-- `Buffer.toString('utf8')`. -/
def utf8Text (bytes : List UInt8) : JsString := decodeUtf8 .idle bytes

def byteOrderMark : UInt16 := 0xFEFF

/-- What `new TextDecoder('utf-8')` decodes: a byte order mark in front is dropped. -/
def utf8Decode (bytes : List UInt8) : JsString :=
  match utf8Text bytes with
  | [] => []
  | u :: rest => if u = byteOrderMark then rest else u :: rest

theorem byte_toNat {n : Nat} (h : n < 256) : (UInt8.ofNat n).toNat = n := UInt8.toNat_ofNat_of_lt' h

attribute [local simp] decodeUtf8 in
theorem decodeUtf8_start {n : Nat} (h : n < 256) (rest : List UInt8) :
    decodeUtf8 .idle (UInt8.ofNat n :: rest) = (startUtf8 n).1 ++ decodeUtf8 (startUtf8 n).2 rest := by
  rw [decodeUtf8, byte_toNat h]
  rfl

/-- A byte in the middle of a sequence. -/
theorem decodeUtf8_continue {left lower upper cp n : Nat} (h : n < 256) (low : lower ≤ n) (high : n ≤ upper)
    (rest : List UInt8) :
    decodeUtf8 ⟨left + 2, lower, upper, cp⟩ (UInt8.ofNat n :: rest) =
      decodeUtf8 ⟨left + 1, 0x80, 0xBF, cp * 64 + n % 64⟩ rest := by
  have inside : ¬ (n < lower ∨ upper < n) := by omega
  rw [decodeUtf8, byte_toNat h, stepUtf8]
  simp [inside]

/-- The last byte of a sequence. -/
theorem decodeUtf8_finish {lower upper cp n : Nat} (h : n < 256) (low : lower ≤ n) (high : n ≤ upper)
    (rest : List UInt8) :
    decodeUtf8 ⟨1, lower, upper, cp⟩ (UInt8.ofNat n :: rest) =
      codePointUnits (cp * 64 + n % 64) ++ decodeUtf8 .idle rest := by
  have inside : ¬ (n < lower ∨ upper < n) := by omega
  rw [decodeUtf8, byte_toNat h, stepUtf8]
  simp [inside]

theorem decodeUtf8_bmp {n : Nat} (bound : n < 0x10000) (scalar : n < 0xD800 ∨ 0xE000 ≤ n) (rest : List UInt8) :
    decodeUtf8 .idle (utf8Bmp n ++ rest) = UInt16.ofNat n :: decodeUtf8 .idle rest := by
  unfold utf8Bmp
  split
  · rename_i one
    rw [List.singleton_append, decodeUtf8_start (by omega), startUtf8, if_pos one]
    rfl
  · split
    · rename_i more two
      have first : startUtf8 (0xC0 + n / 0x40) = ([], ⟨1, 0x80, 0xBF, n / 0x40⟩) := by
        rw [startUtf8, if_neg (by omega), if_pos (by omega), Nat.add_sub_cancel_left]
      have whole : n / 0x40 * 64 + (0x80 + n % 0x40) % 64 = n := by omega
      rw [List.cons_append, List.singleton_append, decodeUtf8_start (by omega), first, List.nil_append,
        decodeUtf8_finish (by omega) (by omega) (by omega), whole, codePointUnits, if_pos bound]
      rfl
    · rename_i more three
      have first : startUtf8 (0xE0 + n / 0x1000) = ([], ⟨2, if 0xE0 + n / 0x1000 = 0xE0 then 0xA0 else 0x80,
          if 0xE0 + n / 0x1000 = 0xED then 0x9F else 0xBF, n / 0x1000⟩) := by
        rw [startUtf8, if_neg (by omega), if_neg (by omega), if_pos (by omega), Nat.add_sub_cancel_left]
      have low : (if 0xE0 + n / 0x1000 = 0xE0 then 0xA0 else 0x80) ≤ 0x80 + n / 0x40 % 0x40 := by
        split <;> omega
      have high : 0x80 + n / 0x40 % 0x40 ≤ (if 0xE0 + n / 0x1000 = 0xED then 0x9F else 0xBF) := by
        split <;> omega
      have whole : (n / 0x1000 * 64 + (0x80 + n / 0x40 % 0x40) % 64) * 64 + (0x80 + n % 0x40) % 64 = n := by omega
      rw [List.cons_append, List.cons_append, List.singleton_append, decodeUtf8_start (by omega), first,
        List.nil_append, decodeUtf8_continue (by omega) low high, decodeUtf8_finish (by omega) (by omega) (by omega),
        whole, codePointUnits, if_pos bound]
      rfl

theorem decodeUtf8_pair {hi lo : UInt16} (high : isHighSurrogate hi) (low : isLowSurrogate lo) (rest : List UInt8) :
    decodeUtf8 .idle (utf8Pair hi lo ++ rest) = hi :: lo :: decodeUtf8 .idle rest := by
  have hiBounds : 0xD800 ≤ hi.toNat ∧ hi.toNat ≤ 0xDBFF := by
    simpa [isHighSurrogate, UInt16.le_iff_toNat_le] using high
  have loBounds : 0xDC00 ≤ lo.toNat ∧ lo.toNat ≤ 0xDFFF := by
    simpa [isLowSurrogate, UInt16.le_iff_toNat_le] using low
  simp only [utf8Pair]
  generalize hn : 0x10000 + (hi.toNat - 0xD800) * 0x400 + (lo.toNat - 0xDC00) = n
  have bounds : 0x10000 ≤ n ∧ n < 0x110000 := by omega
  have first : startUtf8 (0xF0 + n / 0x40000) = ([], ⟨3, if 0xF0 + n / 0x40000 = 0xF0 then 0x90 else 0x80,
      if 0xF0 + n / 0x40000 = 0xF4 then 0x8F else 0xBF, n / 0x40000⟩) := by
    rw [startUtf8, if_neg (by omega), if_neg (by omega), if_neg (by omega), if_pos (by omega),
      Nat.add_sub_cancel_left]
  have lower : (if 0xF0 + n / 0x40000 = 0xF0 then 0x90 else 0x80) ≤ 0x80 + n / 0x1000 % 0x40 := by
    split <;> omega
  have upper : 0x80 + n / 0x1000 % 0x40 ≤ (if 0xF0 + n / 0x40000 = 0xF4 then 0x8F else 0xBF) := by
    split <;> omega
  have whole : ((n / 0x40000 * 64 + (0x80 + n / 0x1000 % 0x40) % 64) * 64 + (0x80 + n / 0x40 % 0x40) % 64) * 64 +
      (0x80 + n % 0x40) % 64 = n := by omega
  have units : codePointUnits n = [hi, lo] := by
    have one : 0xD800 + (n - 0x10000) / 0x400 = hi.toNat := by omega
    have two : 0xDC00 + (n - 0x10000) % 0x400 = lo.toNat := by omega
    rw [codePointUnits, if_neg (by omega), one, two, UInt16.ofNat_toNat, UInt16.ofNat_toNat]
  rw [List.cons_append, List.cons_append, List.cons_append, List.singleton_append, decodeUtf8_start (by omega), first,
    List.nil_append, decodeUtf8_continue (by omega) lower upper,
    decodeUtf8_continue (by omega) (by omega) (by omega), decodeUtf8_finish (by omega) (by omega) (by omega), whole,
    units]
  rfl

theorem replacement_eq : replacement = utf8Bmp 0xFFFD := by decide

/-- Decoding undoes the encoding, lone surrogates apart. -/
theorem utf8Text_utf8 (s : JsString) : utf8Text (utf8 s) = toWellFormed s := by
  have lone (rest : List UInt8) : decodeUtf8 .idle (replacement ++ rest) = 0xFFFD :: decodeUtf8 .idle rest := by
    rw [replacement_eq, decodeUtf8_bmp (by omega) (by omega)]
    rfl
  have single {u : UInt16} (h : isHighSurrogate u = false) (l : isLowSurrogate u = false) (rest : List UInt8) :
      decodeUtf8 .idle (utf8Bmp u.toNat ++ rest) = u :: decodeUtf8 .idle rest := by
    have bound := u.toNat_lt
    have scalar : u.toNat < 0xD800 ∨ 0xE000 ≤ u.toNat := by
      simp only [isHighSurrogate, isLowSurrogate, Bool.and_eq_false_iff, decide_eq_false_iff_not,
        UInt16.le_iff_toNat_le, UInt16.reduceToNat] at h l
      omega
    rw [decodeUtf8_bmp bound scalar, UInt16.ofNat_toNat]
  rw [utf8Text]
  induction s using utf8.induct with
  | case1 => rfl
  | case2 u surrogate =>
    rw [utf8, if_pos surrogate, toWellFormed, if_pos surrogate, ← List.append_nil replacement, lone]
    rfl
  | case3 u scalar =>
    rw [utf8, if_neg scalar, toWellFormed, if_neg scalar]
    simp only [Bool.or_eq_true, not_or, Bool.not_eq_true] at scalar
    rw [← List.append_nil (utf8Bmp u.toNat), single scalar.1 scalar.2]
    rfl
  | case4 u v rest high low ih =>
    rw [utf8, if_pos high, if_pos low, toWellFormed, if_pos high, if_pos low, decodeUtf8_pair high low, ih]
  | case5 u v rest high low ih =>
    rw [utf8, if_pos high, if_neg low, toWellFormed, if_pos high, if_neg low, lone, ih]
  | case6 u v rest high low ih =>
    rw [utf8, if_neg high, if_pos low, toWellFormed, if_neg high, if_pos low, lone, ih]
  | case7 u v rest high low ih =>
    rw [utf8, if_neg high, if_neg low, toWellFormed, if_neg high, if_neg low,
      single (by simpa using high) (by simpa using low), ih]

/-- A decoder that drops the byte order mark gives every other text back. -/
theorem utf8Decode_utf8 {s : JsString} (h : isWellFormed s) : utf8Decode (utf8 s) = s ↔ s.head? ≠ some byteOrderMark := by
  rw [utf8Decode, utf8Text_utf8, toWellFormed_of_isWellFormed h]
  cases s with
  | nil => exact ⟨nofun, fun _ => rfl⟩
  | cons u s =>
    dsimp only
    rw [List.head?_cons, ne_eq, Option.some_inj]
    split
    · rename_i mark
      exact ⟨fun same => absurd (congrArg List.length same) (by simp), fun other => absurd mark other⟩
    · rename_i other
      exact ⟨fun _ => other, fun _ => rfl⟩

theorem codePointUnits_length (n : Nat) : (codePointUnits n).length ≤ 2 := by
  unfold codePointUnits
  split <;> simp

/-- A sequence that has begun stands for at most one unit more. -/
def pending (st : Utf8State) : Nat := if st.left = 0 then 0 else 1

theorem startUtf8_length (n : Nat) : (startUtf8 n).1.length + pending (startUtf8 n).2 ≤ 1 := by
  unfold startUtf8
  split
  · simp [pending, Utf8State.idle]
  · split
    · simp [pending]
    · split
      · simp [pending]
      · split <;> simp [pending, Utf8State.idle]

theorem stepUtf8_length (st : Utf8State) (n : Nat) :
    (stepUtf8 st n).1.length + pending (stepUtf8 st n).2 ≤ 1 + pending st := by
  have start := startUtf8_length n
  have units := codePointUnits_length (st.codePoint * 64 + n % 64)
  unfold stepUtf8
  split
  · omega
  · rename_i begun
    have one : pending st = 1 := if_neg begun
    split
    · simp only [List.length_cons]
      omega
    · split
      · have idle : pending Utf8State.idle = 0 := rfl
        simp only [idle]
        omega
      · have more (st : Utf8State) : pending st ≤ 1 := by
          unfold pending
          split <;> omega
        have := more ⟨st.left - 1, 0x80, 0xBF, st.codePoint * 64 + n % 64⟩
        simp only [List.length_nil]
        omega

theorem decodeUtf8_length (st : Utf8State) (bytes : List UInt8) :
    (decodeUtf8 st bytes).length ≤ bytes.length + pending st := by
  induction bytes generalizing st with
  | nil =>
    rw [decodeUtf8, pending]
    split <;> simp
  | cons b rest ih =>
    have step := stepUtf8_length st b.toNat
    have more := ih (stepUtf8 st b.toNat).2
    rw [decodeUtf8, List.length_append, List.length_cons]
    omega

theorem utf8Text_length (bytes : List UInt8) : (utf8Text bytes).length ≤ bytes.length :=
  decodeUtf8_length .idle bytes

theorem utf8Decode_length (bytes : List UInt8) : (utf8Decode bytes).length ≤ bytes.length := by
  have bound := utf8Text_length bytes
  unfold utf8Decode
  cases h : utf8Text bytes with
  | nil => exact Nat.zero_le _
  | cons u rest =>
    rw [h, List.length_cons] at bound
    dsimp only
    split
    · omega
    · exact bound

end GuloGulo.Js
