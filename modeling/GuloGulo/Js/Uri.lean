import GuloGulo.Js.Value

/-!
# Escaping and decimal numerals

`encodeURIComponent` and `decodeURIComponent` as ECMAScript defines them on
code units, and the decimal numerals a template literal writes. Both
directions are proved inverse on what the sources pass: ASCII names and
natural numbers.
-/

namespace GuloGulo.Js

theorem utf8_ascii {s : JsString} (h : ∀ u ∈ s, u < 128) :
    utf8 s = s.map fun u => UInt8.ofNat u.toNat := by
  have plain (u : UInt16) (hu : u < 128) :
      isHighSurrogate u = false ∧ isLowSurrogate u = false ∧ utf8Bmp u.toNat = [UInt8.ofNat u.toNat] := by
    have hn : u.toNat < 128 := by simpa using UInt16.lt_iff_toNat_lt.mp hu
    simp [isHighSurrogate, isLowSurrogate, utf8Bmp, hn, UInt16.le_iff_toNat_le]
    omega
  induction s using utf8.induct with
  | case1 => rfl
  | case2 u hsur =>
    obtain ⟨hi, lo, _⟩ := plain u (h u (by simp))
    simp [hi, lo] at hsur
  | case3 u _ =>
    obtain ⟨hi, lo, bytes⟩ := plain u (h u (by simp))
    simp [utf8, hi, lo, bytes]
  | case4 u v rest hi' _ _ =>
    obtain ⟨hi, _, _⟩ := plain u (h u (by simp))
    simp [hi] at hi'
  | case5 u v rest hi' _ _ =>
    obtain ⟨hi, _, _⟩ := plain u (h u (by simp))
    simp [hi] at hi'
  | case6 u v rest _ lo' _ =>
    obtain ⟨_, lo, _⟩ := plain u (h u (by simp))
    simp [lo] at lo'
  | case7 u v rest _ _ ih =>
    obtain ⟨hi, lo, bytes⟩ := plain u (h u (by simp))
    simp only [utf8, hi, lo, bytes, Bool.false_eq_true, ↓reduceIte, ih (fun w hw => h w (by simp [hw]))]
    rfl

theorem byteLength_ascii {s : JsString} (h : ∀ u ∈ s, u < 128) : byteLength s = s.length := by
  simp [byteLength, utf8_ascii h]

/-- The characters `encodeURIComponent` leaves alone. -/
def isUnreserved (u : UInt16) : Bool :=
  isAlnum u || u == 45 || u == 95 || u == 46 || u == 33 || u == 126 || u == 42 || u == 39 ||
    u == 40 || u == 41

def upperHexUnit (n : Nat) : UInt16 := UInt16.ofNat (if n < 10 then 48 + n else 55 + n)

def encodeByte (b : UInt8) : JsString :=
  let u := UInt16.ofNat b.toNat
  if isUnreserved u then [u] else [37, upperHexUnit (b.toNat / 16), upperHexUnit (b.toNat % 16)]

/-- The runtime throws on a lone surrogate; every caller passes an identifier
checked against an ASCII pattern. -/
def encodeURIComponent (s : JsString) : JsString := (utf8 s).flatMap encodeByte

def hexValue (u : UInt16) : Option Nat :=
  if isDigit u then some (u.toNat - 48)
  else if 65 ≤ u && u ≤ 70 then some (u.toNat - 55)
  else if 97 ≤ u && u ≤ 102 then some (u.toNat - 87)
  else none

/-- The byte of a `%XX` at the front. -/
def percentByte : JsString → Option (Nat × JsString)
  | u :: a :: b :: rest =>
    if u = 37 then
      match hexValue a, hexValue b with
      | some hi, some lo => some (16 * hi + lo, rest)
      | _, _ => none
    else none
  | _ => none

/-- A continuation byte at the front. -/
def continuationByte (s : JsString) : Option (Nat × JsString) :=
  (percentByte s).bind fun p => if 0x80 ≤ p.1 ∧ p.1 < 0xC0 then some (p.1 - 0x80, p.2) else none

/-- The code units of the escaped code point whose first byte is `b`, and the
text after it. Overlong forms, surrogates and stray bytes are malformed. -/
def escapedUnits (b : Nat) (s : JsString) : Option (JsString × JsString) :=
  if b < 0x80 then some ([UInt16.ofNat b], s)
  else if 0xC2 ≤ b ∧ b < 0xE0 then do
    let (c, s) ← continuationByte s
    some ([UInt16.ofNat ((b - 0xC0) * 0x40 + c)], s)
  else if 0xE0 ≤ b ∧ b < 0xF0 then do
    let (c, s) ← continuationByte s
    let (d, s) ← continuationByte s
    let n := (b - 0xE0) * 0x1000 + c * 0x40 + d
    if n < 0x800 ∨ (0xD800 ≤ n ∧ n ≤ 0xDFFF) then none else some ([UInt16.ofNat n], s)
  else if 0xF0 ≤ b ∧ b < 0xF5 then do
    let (c, s) ← continuationByte s
    let (d, s) ← continuationByte s
    let (e, s) ← continuationByte s
    let n := (b - 0xF0) * 0x40000 + c * 0x1000 + d * 0x40 + e
    if n < 0x10000 ∨ 0x10FFFF < n then none
    else some ([UInt16.ofNat (0xD800 + (n - 0x10000) / 0x400),
      UInt16.ofNat (0xDC00 + (n - 0x10000) % 0x400)], s)
  else none

def decodeFrom : Nat → JsString → Option JsString
  | _, [] => some []
  | 0, _ :: _ => none
  | fuel + 1, u :: rest =>
    if u = 37 then do
      let (b, rest) ← percentByte (u :: rest)
      let (units, rest) ← escapedUnits b rest
      (units ++ ·) <$> decodeFrom fuel rest
    else (u :: ·) <$> decodeFrom fuel rest

/-- `none` is the `URIError` of a malformed sequence. -/
def decodeURIComponent (s : JsString) : Option JsString := decodeFrom s.length s

theorem hexValue_upperHexUnit {n : Nat} (h : n < 16) : hexValue (upperHexUnit n) = some n := by
  have all : ∀ n < 16, hexValue (upperHexUnit n) = some n := by decide
  exact all n h

theorem decodeFrom_encodeByte {b : UInt8} (hb : b < 128) (fuel : Nat) (rest : JsString) :
    decodeFrom (fuel + 1) (encodeByte b ++ rest) =
      (UInt16.ofNat b.toNat :: ·) <$> decodeFrom fuel rest := by
  have hn : b.toNat < 128 := by simpa using UInt8.lt_iff_toNat_lt.mp hb
  simp only [encodeByte]
  split
  · rename_i keep
    have hne : UInt16.ofNat b.toNat ≠ 37 := by
      intro h; rw [h] at keep; exact absurd keep (by decide)
    simp only [List.cons_append, List.nil_append, decodeFrom, if_neg hne]
  · have split16 : 16 * (b.toNat / 16) + b.toNat % 16 = b.toNat := by omega
    simp [decodeFrom, percentByte, hexValue_upperHexUnit (show b.toNat / 16 < 16 by omega),
      hexValue_upperHexUnit (show b.toNat % 16 < 16 by omega), split16, escapedUnits, hn]

theorem encodeByte_length (b : UInt8) : 1 ≤ (encodeByte b).length := by
  simp only [encodeByte]; split <;> simp

theorem decodeURIComponent_encode {s : JsString} (h : ∀ u ∈ s, u < 128) :
    decodeURIComponent (encodeURIComponent s) = some s := by
  have run (t : JsString) (ht : ∀ u ∈ t, u < 128) : ∀ fuel, t.length ≤ fuel →
      decodeFrom fuel ((t.map fun u => UInt8.ofNat u.toNat).flatMap encodeByte) = some t := by
    induction t with
    | nil => intro fuel _; cases fuel <;> rfl
    | cons u t ih =>
      intro fuel hf
      obtain ⟨fuel, rfl⟩ : ∃ n, fuel = n + 1 := ⟨fuel - 1, by simp at hf; omega⟩
      have hu : u.toNat < 128 := by simpa using UInt16.lt_iff_toNat_lt.mp (ht u (by simp))
      have hb : (UInt8.ofNat u.toNat).toNat = u.toNat := by simp; omega
      have h8 : UInt8.ofNat u.toNat < 128 := by rw [UInt8.lt_iff_toNat_lt, hb]; exact hu
      rw [List.map_cons, List.flatMap_cons, decodeFrom_encodeByte h8,
        ih (fun v hv => ht v (by simp [hv])) fuel (by simpa using hf), hb]
      simp
  unfold decodeURIComponent encodeURIComponent
  rw [utf8_ascii h]
  apply run s h
  induction s with
  | nil => simp
  | cons u s ih =>
    have := ih (fun v hv => h v (by simp [hv]))
    have := encodeByte_length (UInt8.ofNat u.toNat)
    simp only [List.length_cons, List.map_cons, List.flatMap_cons, List.length_append]
    omega

theorem encodeURIComponent_no_slash (s : JsString) : 47 ∉ encodeURIComponent s := by
  have digit : ∀ n < 16, (47 : UInt16) ≠ upperHexUnit n := by decide
  intro h
  obtain ⟨b, _, hb⟩ := List.mem_flatMap.mp h
  have hn := b.toNat_lt
  simp only [encodeByte] at hb
  split at hb
  · rename_i keep
    rw [← List.mem_singleton.mp hb] at keep
    exact absurd keep (by decide)
  · simp [digit (b.toNat / 16) (by omega), digit (b.toNat % 16) (by omega)] at hb

theorem encodeURIComponent_ne_nil {s : JsString} (h : ∀ u ∈ s, u < 128) (hs : s ≠ []) :
    encodeURIComponent s ≠ [] := by
  intro he
  have := decodeURIComponent_encode h
  rw [he] at this
  simp only [decodeURIComponent, List.length_nil, decodeFrom, Option.some.injEq] at this
  exact hs this.symm

/-- `${n}` of a natural number below 10²¹. -/
def decimal (n : Nat) : JsString := (Nat.toDigits 10 n).map fun c => UInt16.ofNat c.toNat

/-- `Number` of a text of decimal digits, before rounding. -/
def parseDecimal (s : JsString) : Nat := Nat.ofDigitChars 10 (s.map fun u => Char.ofNat u.toNat) 0

/-- `/^\d+$/`. -/
def isDigits (s : JsString) : Bool := !s.isEmpty && s.all isDigit

theorem toDigits_char {n : Nat} {c : Char} (h : c ∈ Nat.toDigits 10 n) :
    48 ≤ c.toNat ∧ c.toNat ≤ 57 := by
  have hd := Nat.isDigit_of_mem_toDigits (by decide) (by decide) h
  simp only [Char.isDigit, Bool.and_eq_true, decide_eq_true_eq] at hd
  exact ⟨hd.1, hd.2⟩

theorem parseDecimal_decimal (n : Nat) : parseDecimal (decimal n) = n := by
  have back : (decimal n).map (fun u => Char.ofNat u.toNat) = Nat.toDigits 10 n := by
    rw [decimal, List.map_map]
    conv => rhs; rw [← List.map_id (Nat.toDigits 10 n)]
    apply List.map_congr_left
    intro c hc
    have := toDigits_char hc
    have hm : c.toNat % 65536 = c.toNat := by omega
    simp only [Function.comp, UInt16.toNat_ofNat', Nat.reducePow, hm, id]
    exact Char.ofNat_toNat c
  rw [parseDecimal, back]
  exact Nat.ofDigitChars_toDigits (by decide) (by decide)

theorem isDigits_decimal (n : Nat) : isDigits (decimal n) = true := by
  have hne : decimal n ≠ [] := by simp [decimal]
  have hall : (decimal n).all isDigit = true := by
    simp only [decimal, List.all_eq_true, List.mem_map]
    rintro u ⟨c, hc, rfl⟩
    have := toDigits_char hc
    have hm : c.toNat % 65536 = c.toNat := by omega
    simp [isDigit, UInt16.le_iff_toNat_le, hm, this]
  simp [isDigits, hne, hall]

theorem decimal_no_slash (n : Nat) : 47 ∉ decimal n := by
  intro h
  have hd := isDigits_decimal n
  simp only [isDigits, Bool.and_eq_true, List.all_eq_true] at hd
  exact absurd (hd.2 47 h) (by decide)

end GuloGulo.Js
