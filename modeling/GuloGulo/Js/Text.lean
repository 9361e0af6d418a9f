/-!
# JavaScript strings

A string is its list of UTF-16 code units, lone surrogates included, and the
methods the sources call are functions on that list. `utf8` is the encoding
`Buffer.byteLength`, the hash functions and the database driver use; it
replaces a lone surrogate by U+FFFD.
-/

namespace GuloGulo.Js

abbrev JsString := List UInt16

instance : LawfulBEq JsString := inferInstanceAs (LawfulBEq (List UInt16))

/-- The code units of one Unicode scalar value. -/
def charUnits (c : Char) : JsString :=
  if c.toNat < 0x10000 then [UInt16.ofNat c.toNat]
  else [UInt16.ofNat (0xD800 + (c.toNat - 0x10000) / 0x400),
    UInt16.ofNat (0xDC00 + (c.toNat - 0x10000) % 0x400)]

/-- A string literal of the sources. -/
def js (s : String) : JsString := s.toList.flatMap charUnits

def isDigit (u : UInt16) : Bool := 48 ≤ u && u ≤ 57
def isUpper (u : UInt16) : Bool := 65 ≤ u && u ≤ 90
def isLower (u : UInt16) : Bool := 97 ≤ u && u ≤ 122
def isAlpha (u : UInt16) : Bool := isUpper u || isLower u
def isAlnum (u : UInt16) : Bool := isAlpha u || isDigit u
def isHighSurrogate (u : UInt16) : Bool := 0xD800 ≤ u && u ≤ 0xDBFF
def isLowSurrogate (u : UInt16) : Bool := 0xDC00 ≤ u && u ≤ 0xDFFF

/-- `\p{Cc}`. -/
def isControl (u : UInt16) : Bool := u ≤ 0x1F || (0x7F ≤ u && u ≤ 0x9F)

/-- `\s`, which is also what `trim` removes. -/
def isWhiteSpace (u : UInt16) : Bool :=
  (9 ≤ u && u ≤ 13) || u == 0x20 || u == 0xA0 || u == 0x1680 || (0x2000 ≤ u && u ≤ 0x200A) ||
    u == 0x2028 || u == 0x2029 || u == 0x202F || u == 0x205F || u == 0x3000 || u == 0xFEFF

/-- The line terminators, which `.` does not match. -/
def isLineTerminator (u : UInt16) : Bool := u == 10 || u == 13 || u == 0x2028 || u == 0x2029

def asciiUpper (u : UInt16) : UInt16 := if isLower u then u - 32 else u
def asciiLower (u : UInt16) : UInt16 := if isUpper u then u + 32 else u

/-- A property of every unit, checked unit by unit. -/
theorem forall_of_all {s : JsString} {p : UInt16 → Prop} [DecidablePred p] (h : s.all (fun u => decide (p u)) = true) :
    ∀ u ∈ s, p u := fun u hu => of_decide_eq_true (List.all_eq_true.mp h u hu)

/-- The text before a separator that it does not hold. -/
theorem append_separator_injective {u : UInt16} {a b x y : JsString} (ha : u ∉ a) (hb : u ∉ b)
    (h : a ++ u :: x = b ++ u :: y) : a = b ∧ x = y := by
  induction a generalizing b with
  | nil =>
    cases b with
    | nil =>
      cases h
      exact ⟨rfl, rfl⟩
    | cons v b =>
      cases h
      exact absurd List.mem_cons_self hb
  | cons v a ih =>
    cases b with
    | nil =>
      cases h
      exact absurd List.mem_cons_self ha
    | cons w b =>
      rw [List.cons_append, List.cons_append, List.cons.injEq] at h
      obtain ⟨rfl, h⟩ := h
      obtain ⟨rfl, rfl⟩ := ih (fun m => ha (List.mem_cons_of_mem _ m)) (fun m => hb (List.mem_cons_of_mem _ m)) h
      exact ⟨rfl, rfl⟩

/-- The text after a separator that it does not hold. -/
theorem append_separator_injective_right {u : UInt16} {a b x y : JsString} (hx : u ∉ x) (hy : u ∉ y)
    (h : a ++ u :: x = b ++ u :: y) : a = b ∧ x = y := by
  have flipped := congrArg List.reverse h
  simp only [List.reverse_append, List.reverse_cons, List.append_assoc, List.singleton_append] at flipped
  obtain ⟨hxy, hab⟩ := append_separator_injective (fun m => hx (List.mem_reverse.mp m))
    (fun m => hy (List.mem_reverse.mp m)) flipped
  exact ⟨List.reverse_inj.mp hab, List.reverse_inj.mp hxy⟩

/-- The number of code points: what a pattern with the flag `u` counts. -/
def codePoints : JsString → Nat
  | [] => 0
  | [_] => 1
  | u :: v :: rest =>
    if isHighSurrogate u && isLowSurrogate v then codePoints rest + 1 else codePoints (v :: rest) + 1

/-- `/^[first][rest]{0,max}$/`. -/
def isName (first rest : UInt16 → Bool) (max : Nat) : JsString → Bool
  | [] => false
  | u :: us => first u && decide (us.length ≤ max) && us.all rest

def startsWith (s t : JsString) : Bool := t.isPrefixOf s
def endsWith (s t : JsString) : Bool := t.isSuffixOf s

def includes (s t : JsString) : Bool :=
  startsWith s t || match s with
    | [] => false
    | _ :: rest => includes rest t

/-- `replaceAll` with two strings; `skip` counts the units of the match that
are still to be passed over. -/
def replaceFrom (t r : JsString) : Nat → JsString → JsString
  | _, [] => []
  | skip + 1, _ :: rest => replaceFrom t r skip rest
  | 0, u :: rest =>
    if startsWith (u :: rest) t then r ++ replaceFrom t r (t.length - 1) rest
    else u :: replaceFrom t r 0 rest

def replaceAll (s t r : JsString) : JsString := replaceFrom t r 0 s

/-- `split` at one code unit. -/
def split (s : JsString) (sep : UInt16) : List JsString := s.splitOn sep

def join (ls : List JsString) (sep : JsString) : JsString := List.intercalate sep ls

def trimStart (s : JsString) : JsString := s.dropWhile isWhiteSpace
def trim (s : JsString) : JsString := (trimStart (trimStart s).reverse).reverse

/-- `indexOf` of one code unit, as the text before it and the text after it. -/
def cut (s : JsString) (u : UInt16) : Option (JsString × JsString) :=
  match s with
  | [] => none
  | v :: rest => if v = u then some ([], rest) else (cut rest u).map fun p => (v :: p.1, p.2)

/-- The UTF-8 bytes of U+FFFD. -/
def replacement : List UInt8 := [0xEF, 0xBF, 0xBD]

def utf8Bmp (n : Nat) : List UInt8 :=
  if n < 0x80 then [UInt8.ofNat n]
  else if n < 0x800 then [UInt8.ofNat (0xC0 + n / 0x40), UInt8.ofNat (0x80 + n % 0x40)]
  else [UInt8.ofNat (0xE0 + n / 0x1000), UInt8.ofNat (0x80 + n / 0x40 % 0x40),
    UInt8.ofNat (0x80 + n % 0x40)]

/-- The four bytes of the code point of a surrogate pair. -/
def utf8Pair (hi lo : UInt16) : List UInt8 :=
  let n := 0x10000 + (hi.toNat - 0xD800) * 0x400 + (lo.toNat - 0xDC00)
  [UInt8.ofNat (0xF0 + n / 0x40000), UInt8.ofNat (0x80 + n / 0x1000 % 0x40),
    UInt8.ofNat (0x80 + n / 0x40 % 0x40), UInt8.ofNat (0x80 + n % 0x40)]

def utf8 : JsString → List UInt8
  | [] => []
  | [u] => if isHighSurrogate u || isLowSurrogate u then replacement else utf8Bmp u.toNat
  | u :: v :: rest =>
    if isHighSurrogate u then
      if isLowSurrogate v then utf8Pair u v ++ utf8 rest else replacement ++ utf8 (v :: rest)
    else if isLowSurrogate u then replacement ++ utf8 (v :: rest)
    else utf8Bmp u.toNat ++ utf8 (v :: rest)

/-- `Buffer.byteLength(s, 'utf8')`. -/
def byteLength (s : JsString) : Nat := (utf8 s).length

/-- The string without its lone surrogates: what UTF-8 transport keeps of it. -/
def toWellFormed : JsString → JsString
  | [] => []
  | [u] => if isHighSurrogate u || isLowSurrogate u then [0xFFFD] else [u]
  | u :: v :: rest =>
    if isHighSurrogate u then
      if isLowSurrogate v then u :: v :: toWellFormed rest else 0xFFFD :: toWellFormed (v :: rest)
    else if isLowSurrogate u then 0xFFFD :: toWellFormed (v :: rest)
    else u :: toWellFormed (v :: rest)

def isWellFormed (s : JsString) : Bool := toWellFormed s == s

/-- The encoding of a text is cut where no surrogate pair is. -/
theorem utf8_append (a b : JsString) {u : UInt16} (h : isLowSurrogate u = false) :
    utf8 (a ++ u :: b) = utf8 a ++ utf8 (u :: b) := by
  induction a using utf8.induct with
  | case1 => rfl
  | case2 v hv =>
    simp only [List.cons_append, List.nil_append, utf8, h, hv, Bool.false_eq_true, ↓reduceIte]
    by_cases hi : isHighSurrogate v
    · simp [hi]
    · simp only [hi, Bool.false_eq_true, ↓reduceIte]
      have : isLowSurrogate v = true := by simpa [hi] using hv
      simp [this]
  | case3 v hv =>
    obtain ⟨hi, lo⟩ : isHighSurrogate v = false ∧ isLowSurrogate v = false := by simpa using hv
    simp [utf8, hi, lo]
  | case4 v w rest hi lo ih => simp only [List.cons_append, utf8, hi, lo, ↓reduceIte, ih, List.append_assoc]
  | case5 v w rest hi lo ih | case6 v w rest hi lo ih | case7 v w rest hi lo ih =>
    simp only [List.cons_append] at ih
    simp [utf8, hi, lo, ih]

theorem toWellFormed_append (a b : JsString) {u : UInt16} (h : isLowSurrogate u = false) :
    toWellFormed (a ++ u :: b) = toWellFormed a ++ toWellFormed (u :: b) := by
  induction a using toWellFormed.induct with
  | case1 => rfl
  | case2 v hv =>
    simp only [List.cons_append, List.nil_append, toWellFormed, h, hv, Bool.false_eq_true, ↓reduceIte]
    by_cases hi : isHighSurrogate v
    · simp [hi]
    · simp only [hi, Bool.false_eq_true, ↓reduceIte]
      have : isLowSurrogate v = true := by simpa [hi] using hv
      simp [this]
  | case3 v hv =>
    obtain ⟨hi, lo⟩ : isHighSurrogate v = false ∧ isLowSurrogate v = false := by simpa using hv
    simp [toWellFormed, hi, lo]
  | case4 v w rest hi lo ih => simp only [List.cons_append, toWellFormed, hi, lo, ↓reduceIte, ih]
  | case5 v w rest hi lo ih | case6 v w rest hi lo ih | case7 v w rest hi lo ih =>
    simp only [List.cons_append] at ih
    simp [toWellFormed, hi, lo, ih]

theorem toWellFormed_length (s : JsString) : (toWellFormed s).length = s.length := by
  induction s using toWellFormed.induct with
  | case1 => rfl
  | case2 u hu | case3 u hu => simp [toWellFormed, hu]
  | case4 u v rest hi lo ih | case5 u v rest hi lo ih | case6 u v rest hi lo ih
  | case7 u v rest hi lo ih => simpa [toWellFormed, hi, lo] using ih

theorem isUpper_asciiLower (u : UInt16) : isUpper (asciiLower u) = false := by
  unfold asciiLower
  split
  · rename_i upper
    simp only [isUpper, Bool.and_eq_true, decide_eq_true_eq, UInt16.le_iff_toNat_le, UInt16.reduceToNat] at upper
    simp only [isUpper, Bool.and_eq_false_iff, decide_eq_false_iff_not, UInt16.le_iff_toNat_le, UInt16.reduceToNat,
      UInt16.toNat_add]
    omega
  · rename_i plain
    simpa using plain

theorem map_asciiLower_of_not_upper {s : JsString} (h : ∀ u ∈ s, isUpper u = false) : s.map asciiLower = s := by
  have same : ∀ u ∈ s, asciiLower u = id u := fun u hu => by simp [asciiLower, h u hu]
  rw [List.map_congr_left same, List.map_id]

theorem asciiLower_lowered (s : JsString) : (s.map asciiLower).map asciiLower = s.map asciiLower := by
  apply map_asciiLower_of_not_upper
  intro u mem
  obtain ⟨v, _, rfl⟩ := List.mem_map.mp mem
  exact isUpper_asciiLower v

theorem toWellFormed_of_isWellFormed {s : JsString} (h : isWellFormed s) : toWellFormed s = s :=
  eq_of_beq h

theorem isWhiteSpace_visible {u : UInt16} (h : 33 ≤ u.toNat ∧ u.toNat ≤ 126) : isWhiteSpace u = false := by
  simp only [isWhiteSpace, Bool.or_eq_false_iff, Bool.and_eq_false_iff, decide_eq_false_iff_not, beq_eq_false_iff_ne, ne_eq,
    UInt16.le_iff_toNat_le, ← UInt16.toNat_inj, UInt16.reduceToNat]
  omega

theorem isAlnum_ascii (u : UInt16) (h : isAlnum u) : u < 128 := by
  simp only [isAlnum, isAlpha, isUpper, isLower, isDigit, Bool.or_eq_true, Bool.and_eq_true, decide_eq_true_eq,
    UInt16.le_iff_toNat_le, UInt16.reduceToNat] at h
  rw [UInt16.lt_iff_toNat_lt]
  simp only [UInt16.reduceToNat]
  omega

/-- What holds of the units that a name may have holds in a name. -/
theorem isName_units {first rest : UInt16 → Bool} {p : UInt16 → Prop} {max : Nat} {s : JsString}
    (h : isName first rest max s = true) (hf : ∀ u, first u = true → p u) (hr : ∀ u, rest u = true → p u) :
    ∀ u ∈ s, p u := by
  cases s with
  | nil => cases h
  | cons v s =>
    simp only [isName, Bool.and_eq_true, List.all_eq_true] at h
    rw [List.forall_mem_cons]
    exact ⟨hf v h.1.1, fun u hu => hr u (h.2 u hu)⟩

theorem trimStart_clean {s : JsString} (clean : ∀ u ∈ s, isWhiteSpace u = false) : trimStart s = s := by
  cases s with
  | nil => rfl
  | cons u s => simp [trimStart, clean u List.mem_cons_self]

theorem trim_clean {s : JsString} (clean : ∀ u ∈ s, isWhiteSpace u = false) : trim s = s := by
  have reversed : ∀ u ∈ s.reverse, isWhiteSpace u = false := fun u mem => clean u (List.mem_reverse.mp mem)
  rw [trim, trimStart_clean clean, trimStart_clean reversed, List.reverse_reverse]

end GuloGulo.Js
