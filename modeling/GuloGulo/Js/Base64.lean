import GuloGulo.Js.Text

/-!
# Base64

`Buffer.toString('base64')` and `Buffer.from(text, 'base64')`. Decoding stops at
the padding, takes both alphabets and passes over everything else.
-/

namespace GuloGulo.Js

def base64Unit (n : Nat) : UInt16 :=
  UInt16.ofNat (if n < 26 then 65 + n else if n < 52 then 71 + n else if n < 62 then n - 4
    else if n = 62 then 43 else 47)

/-- `=`. -/
def base64Pad : UInt16 := 61

def base64 : List UInt8 → JsString
  | [] => []
  | [a] => [base64Unit (a.toNat / 4), base64Unit (a.toNat % 4 * 16), base64Pad, base64Pad]
  | [a, b] => [base64Unit (a.toNat / 4), base64Unit (a.toNat % 4 * 16 + b.toNat / 16),
      base64Unit (b.toNat % 16 * 4), base64Pad]
  | a :: b :: c :: rest =>
    base64Unit (a.toNat / 4) :: base64Unit (a.toNat % 4 * 16 + b.toNat / 16) ::
      base64Unit (b.toNat % 16 * 4 + c.toNat / 64) :: base64Unit (c.toNat % 64) :: base64 rest

def base64Value (u : UInt16) : Option Nat :=
  if isUpper u then some (u.toNat - 65)
  else if isLower u then some (u.toNat - 71)
  else if isDigit u then some (u.toNat + 4)
  else if u == 43 || u == 45 then some 62
  else if u == 47 || u == 95 then some 63
  else none

def sextets (s : JsString) : List Nat := (s.takeWhile fun u => u != base64Pad).filterMap base64Value

/-- Four sextets are three bytes; bits left over at the end are dropped. -/
def sextetBytes : List Nat → List UInt8
  | a :: b :: c :: d :: rest =>
    UInt8.ofNat (a * 4 + b / 16) :: UInt8.ofNat (b % 16 * 16 + c / 4) :: UInt8.ofNat (c % 4 * 64 + d) :: sextetBytes rest
  | [a, b, c] => [UInt8.ofNat (a * 4 + b / 16), UInt8.ofNat (b % 16 * 16 + c / 4)]
  | [a, b] => [UInt8.ofNat (a * 4 + b / 16)]
  | [_] | [] => []

def fromBase64 (s : JsString) : List UInt8 := sextetBytes (sextets s)

/-- The alphabet and the padding. -/
def isBase64 (u : UInt16) : Bool := isAlnum u || u == 43 || u == 47 || u == base64Pad

theorem base64Unit_value {n : Nat} (h : n < 64) :
    base64Value (base64Unit n) = some n ∧ (base64Unit n != base64Pad) = true ∧ isBase64 (base64Unit n) = true := by
  have all : ∀ n < 64, base64Value (base64Unit n) = some n ∧ (base64Unit n != base64Pad) = true ∧
      isBase64 (base64Unit n) = true := by decide
  exact all n h

theorem sextets_cons {n : Nat} (h : n < 64) (s : JsString) : sextets (base64Unit n :: s) = n :: sextets s := by
  obtain ⟨value, unpadded, _⟩ := base64Unit_value h
  rw [sextets, List.takeWhile_cons]
  simp only [unpadded, if_true, List.filterMap_cons, value]
  rfl

theorem sextets_pad (s : JsString) : sextets (base64Pad :: s) = [] := rfl

/-- What is encoded is decoded. -/
theorem fromBase64_base64 (bytes : List UInt8) : fromBase64 (base64 bytes) = bytes := by
  have back (b : UInt8) {n : Nat} (h : n = b.toNat) : UInt8.ofNat n = b := by
    rw [h]
    exact UInt8.ofNat_toNat
  rw [fromBase64]
  induction bytes using base64.induct with
  | case1 => rfl
  | case2 a =>
    have ha := a.toNat_lt
    rw [base64, sextets_cons (by omega), sextets_cons (by omega), sextets_pad, sextetBytes, back a (by omega)]
  | case3 a b =>
    have ha := a.toNat_lt
    have hb := b.toNat_lt
    rw [base64, sextets_cons (by omega), sextets_cons (by omega), sextets_cons (by omega), sextets_pad, sextetBytes,
      back a (by omega), back b (by omega)]
  | case4 a b c rest ih =>
    have ha := a.toNat_lt
    have hb := b.toNat_lt
    have hc := c.toNat_lt
    rw [base64, sextets_cons (by omega), sextets_cons (by omega), sextets_cons (by omega), sextets_cons (by omega),
      sextetBytes, ih, back a (by omega), back b (by omega), back c (by omega)]

theorem base64_units (bytes : List UInt8) : ∀ u ∈ base64 bytes, isBase64 u := by
  have unit {n : Nat} (h : n < 64) : isBase64 (base64Unit n) := (base64Unit_value h).2.2
  have padding : isBase64 base64Pad := by decide
  induction bytes using base64.induct with
  | case1 => simp [base64]
  | case2 a =>
    have ha := a.toNat_lt
    simp only [base64, List.mem_cons, List.not_mem_nil, or_false, forall_eq_or_imp, forall_eq]
    exact ⟨unit (by omega), unit (by omega), padding, padding⟩
  | case3 a b =>
    have ha := a.toNat_lt
    have hb := b.toNat_lt
    simp only [base64, List.mem_cons, List.not_mem_nil, or_false, forall_eq_or_imp, forall_eq]
    exact ⟨unit (by omega), unit (by omega), unit (by omega), padding⟩
  | case4 a b c rest ih =>
    have ha := a.toNat_lt
    have hb := b.toNat_lt
    have hc := c.toNat_lt
    simp only [base64, List.mem_cons, forall_eq_or_imp]
    exact ⟨unit (by omega), unit (by omega), unit (by omega), unit (by omega), ih⟩

theorem sextetBytes_length (ns : List Nat) : (sextetBytes ns).length ≤ ns.length := by
  induction ns using sextetBytes.induct with
  | case1 a b c d rest ih =>
    simp only [sextetBytes, List.length_cons]
    omega
  | _ => simp [sextetBytes]

/-- Decoding never gives more bytes than there were units. -/
theorem fromBase64_length (s : JsString) : (fromBase64 s).length ≤ s.length :=
  calc (fromBase64 s).length ≤ (sextets s).length := sextetBytes_length _
    _ ≤ (s.takeWhile fun u => u != base64Pad).length := List.length_filterMap_le _ _
    _ ≤ s.length := (List.takeWhile_sublist _).length_le

end GuloGulo.Js
