import GuloGulo.Js.Text

/-!
# JavaScript values and the host

`JsValue` is an `unknown` argument, as far as the sources tell values apart.
`Host` collects what the sources take from the JavaScript runtime and from
`node:crypto` and what depends on Unicode or locale tables: its fields carry
the documented facts the code relies on.
-/

namespace GuloGulo.Js

/-- An argument of unknown type. Functions, symbols and bigints are `other`;
`nonFinite` is NaN and both infinities; an invalid `Date` is `date none`. -/
inductive JsValue where
  | undefined
  | null
  | bool (b : Bool)
  | number (q : Rat)
  | nonFinite
  | string (s : JsString)
  | date (time : Option Int)
  | array (items : List JsValue)
  | object (fields : List (JsString × JsValue))
  | other

namespace JsValue

/-- `typeof value === 'object'`, without `null`. -/
def isObject : JsValue → Bool
  | date _ | array _ | object _ => true
  | _ => false

/-- An object that is not an array. -/
def isRecord : JsValue → Bool
  | date _ | object _ => true
  | _ => false

/-- Property access; a missing property is `undefined`. -/
def get (v : JsValue) (key : String) : JsValue :=
  match v with
  | object fields => (fields.find? fun f => f.1 == js key).elim undefined Prod.snd
  | _ => undefined

def isUndefined : JsValue → Bool
  | undefined => true
  | _ => false

def isNullish : JsValue → Bool
  | undefined | null => true
  | _ => false

/-- `a ?? b`. -/
def orElse (a b : JsValue) : JsValue := if a.isNullish then b else a

/-- A default of a destructured parameter, which replaces `undefined` only. -/
def orDefault (a b : JsValue) : JsValue := if a.isUndefined then b else a

def isString (v : JsValue) (s : JsString) : Bool :=
  match v with
  | string t => t == s
  | _ => false

def isTrue : JsValue → Bool
  | bool b => b
  | _ => false

def asString? : JsValue → Option JsString
  | string s => some s
  | _ => none

/-- `Number.isInteger`, with the integer. -/
def asInteger? : JsValue → Option Int
  | number q => if q.den = 1 then some q.num else none
  | _ => none

end JsValue

/-- `Number.MAX_SAFE_INTEGER`. -/
def maxSafeInteger : Nat := 9007199254740991

/-- The largest time value a `Date` holds, in milliseconds. -/
def maxTime : Int := 8640000000000000

/-- What `new Date` does to a number of milliseconds; `none` is NaN. -/
def timeClip (t : Int) : Option Int := if -maxTime ≤ t ∧ t ≤ maxTime then some t else none

structure Host where
  toUpperCase : JsString → JsString
  toLowerCase : JsString → JsString
  /-- `Date.parse`; `none` is NaN. -/
  parseDate : JsString → Option Int
  /-- What `new Date` makes of an array or a plain object, by way of its text. -/
  dateOfObject : JsValue → Option Int
  sha256 : List UInt8 → List UInt8
  /-- `a.localeCompare(b) <= 0`. -/
  localeLe : JsString → JsString → Bool
  toUpperCase_nil : toUpperCase [] = []
  /-- Upper-casing has no context, and an ASCII unit maps to an ASCII unit. -/
  toUpperCase_ascii : ∀ u s, u < 128 → toUpperCase (u :: s) = asciiUpper u :: toUpperCase s
  toLowerCase_ascii : ∀ s, (∀ u ∈ s, u < 128) → toLowerCase s = s.map asciiLower
  parseDate_clip : ∀ s t, parseDate s = some t → timeClip t = some t
  sha256_length : ∀ b, (sha256 b).length = 32

def hexUnit (n : Nat) : UInt16 := UInt16.ofNat (if n < 10 then 48 + n else 87 + n)

/-- `Buffer.toString('hex')`. -/
def hex (bytes : List UInt8) : JsString :=
  bytes.flatMap fun b => [hexUnit (b.toNat / 16), hexUnit (b.toNat % 16)]

def base64UrlUnit (n : Nat) : UInt16 :=
  UInt16.ofNat (if n < 26 then 65 + n else if n < 52 then 71 + n else if n < 62 then n - 4
    else if n = 62 then 45 else 95)

/-- `Buffer.toString('base64url')`. -/
def base64Url : List UInt8 → JsString
  | [] => []
  | [a] => [base64UrlUnit (a.toNat / 4), base64UrlUnit (a.toNat % 4 * 16)]
  | [a, b] => [base64UrlUnit (a.toNat / 4), base64UrlUnit (a.toNat % 4 * 16 + b.toNat / 16),
      base64UrlUnit (b.toNat % 16 * 4)]
  | a :: b :: c :: rest =>
    base64UrlUnit (a.toNat / 4) :: base64UrlUnit (a.toNat % 4 * 16 + b.toNat / 16) ::
      base64UrlUnit (b.toNat % 16 * 4 + c.toNat / 64) :: base64UrlUnit (c.toNat % 64) ::
      base64Url rest

def isBase64Url (u : UInt16) : Bool := isAlnum u || u == 45 || u == 95

theorem isBase64Url_unit {n : Nat} (h : n < 64) : isBase64Url (base64UrlUnit n) := by
  have all : ∀ n < 64, isBase64Url (base64UrlUnit n) := by decide
  exact all n h

attribute [local simp] base64Url in
theorem base64Url_units (bytes : List UInt8) : ∀ u ∈ base64Url bytes, isBase64Url u := by
  have bound (b : UInt8) : b.toNat < 256 := b.toNat_lt
  induction bytes using base64Url.induct with
  | case1 => simp [base64Url]
  | case2 a =>
    have ha := bound a
    simp only [base64Url, List.mem_cons, List.not_mem_nil, or_false, forall_eq_or_imp, forall_eq]
    exact ⟨isBase64Url_unit (by omega), isBase64Url_unit (by omega)⟩
  | case3 a b =>
    have ha := bound a
    have hb := bound b
    simp only [base64Url, List.mem_cons, List.not_mem_nil, or_false, forall_eq_or_imp, forall_eq]
    exact ⟨isBase64Url_unit (by omega), isBase64Url_unit (by omega), isBase64Url_unit (by omega)⟩
  | case4 a b c rest ih =>
    have ha := bound a
    have hb := bound b
    have hc := bound c
    simp only [base64Url, List.mem_cons, forall_eq_or_imp]
    exact ⟨isBase64Url_unit (by omega), isBase64Url_unit (by omega), isBase64Url_unit (by omega),
      isBase64Url_unit (by omega), ih⟩

theorem base64Url_length (bytes : List UInt8) :
    (base64Url bytes).length = (4 * bytes.length + 2) / 3 := by
  induction bytes using base64Url.induct with
  | case1 => rfl
  | case2 | case3 => simp [base64Url]
  | case4 a b c rest ih => simp only [base64Url, List.length_cons, ih]; omega

theorem base64UrlUnit_injective {m n : Nat} (hm : m < 64) (hn : n < 64) (h : base64UrlUnit m = base64UrlUnit n) :
    m = n := by
  have all : ∀ m < 64, ∀ n < 64, base64UrlUnit m = base64UrlUnit n → m = n := by decide
  exact all m hm n hn h

theorem base64Url_injective {a b : List UInt8} (h : base64Url a = base64Url b) : a = b := by
  have bound (b : UInt8) : b.toNat < 256 := b.toNat_lt
  have lengths : a.length = b.length := by
    have := congrArg List.length h
    rw [base64Url_length, base64Url_length] at this
    omega
  induction a using base64Url.induct generalizing b with
  | case1 => exact (List.length_eq_zero_iff.mp lengths.symm).symm
  | case2 x =>
    rcases b with _ | ⟨x', _ | ⟨y', rest'⟩⟩
    · cases lengths
    · have hx := bound x
      have hx' := bound x'
      simp only [base64Url, List.cons.injEq, and_true] at h
      have first := base64UrlUnit_injective (by omega) (by omega) h.1
      have second := base64UrlUnit_injective (by omega) (by omega) h.2
      rw [UInt8.toNat_inj.mp (by omega : x.toNat = x'.toNat)]
    · cases lengths
  | case3 x y =>
    rcases b with _ | ⟨x', _ | ⟨y', _ | ⟨z', rest'⟩⟩⟩
    · cases lengths
    · cases lengths
    · have hx := bound x
      have hx' := bound x'
      have hy := bound y
      have hy' := bound y'
      simp only [base64Url, List.cons.injEq, and_true] at h
      have first := base64UrlUnit_injective (by omega) (by omega) h.1
      have second := base64UrlUnit_injective (by omega) (by omega) h.2.1
      have third := base64UrlUnit_injective (by omega) (by omega) h.2.2
      rw [UInt8.toNat_inj.mp (by omega : x.toNat = x'.toNat), UInt8.toNat_inj.mp (by omega : y.toNat = y'.toNat)]
    · cases lengths
  | case4 x y z rest ih =>
    rcases b with _ | ⟨x', _ | ⟨y', _ | ⟨z', rest'⟩⟩⟩
    · cases lengths
    · cases lengths
    · cases lengths
    · have hx := bound x
      have hx' := bound x'
      have hy := bound y
      have hy' := bound y'
      have hz := bound z
      have hz' := bound z'
      simp only [base64Url, List.cons.injEq] at h
      have first := base64UrlUnit_injective (by omega) (by omega) h.1
      have second := base64UrlUnit_injective (by omega) (by omega) h.2.1
      have third := base64UrlUnit_injective (by omega) (by omega) h.2.2.1
      have fourth := base64UrlUnit_injective (by omega) (by omega) h.2.2.2.1
      rw [UInt8.toNat_inj.mp (by omega : x.toNat = x'.toNat), UInt8.toNat_inj.mp (by omega : y.toNat = y'.toNat),
        UInt8.toNat_inj.mp (by omega : z.toNat = z'.toNat), ih h.2.2.2.2 (by simpa using lengths)]

/-- What holds of every hexadecimal digit holds in a digest's text. -/
theorem hex_units {p : UInt16 → Prop} (digits : ∀ n < 16, p (hexUnit n)) (bytes : List UInt8) : ∀ u ∈ hex bytes, p u := by
  intro u inside
  obtain ⟨b, _, h⟩ := List.mem_flatMap.mp inside
  have small : b.toNat < 256 := b.toNat_lt
  simp only [List.mem_cons, List.not_mem_nil, or_false] at h
  rcases h with rfl | rfl
  · exact digits _ (by omega)
  · exact digits _ (by omega)

theorem hex_length (bytes : List UInt8) : (hex bytes).length = 2 * bytes.length := by
  induction bytes with
  | nil => rfl
  | cons b bytes ih =>
    rw [hex, List.flatMap_cons, List.length_append, List.length_cons]
    change 2 + (hex bytes).length = 2 * (bytes.length + 1)
    omega

theorem hexUnit_injective {m n : Nat} (hm : m < 16) (hn : n < 16) (h : hexUnit m = hexUnit n) : m = n := by
  have all : ∀ m < 16, ∀ n < 16, hexUnit m = hexUnit n → m = n := by decide
  exact all m hm n hn h

theorem hex_injective {a b : List UInt8} (h : hex a = hex b) : a = b := by
  induction a generalizing b with
  | nil =>
    have lengths := congrArg List.length h
    rw [hex_length, hex_length] at lengths
    exact (List.length_eq_zero_iff.mp (by rw [List.length_nil] at lengths; omega)).symm
  | cons x a ih =>
    cases b with
    | nil =>
      have lengths := congrArg List.length h
      rw [hex_length, hex_length] at lengths
      simp at lengths
    | cons y b =>
      have hx : x.toNat < 256 := x.toNat_lt
      have hy : y.toNat < 256 := y.toNat_lt
      obtain ⟨high, rest⟩ := List.cons.inj h
      obtain ⟨low, rest⟩ := List.cons.inj rest
      have highs := hexUnit_injective (by omega) (by omega) high
      have lows := hexUnit_injective (by omega) (by omega) low
      have same : x = y := UInt8.toNat_inj.mp (by omega)
      rw [same, ih rest]

theorem toUpperCase_of_ascii {host : Host} {s : JsString} (h : ∀ u ∈ s, u < 128) :
    host.toUpperCase s = s.map asciiUpper := by
  induction s with
  | nil => exact host.toUpperCase_nil
  | cons u s ih =>
    rw [List.forall_mem_cons] at h
    rw [host.toUpperCase_ascii u s h.1, ih h.2, List.map_cons]

end GuloGulo.Js
