import GuloGulo.Net.Address

/-!
# Spelling out an address

Texts of a number: eight groups of any number of digits, or the last two as an
IPv4 address.
-/

namespace GuloGulo.Net
open Js

/-- Four digits. -/
def groupText (h : Nat) : JsString :=
  [hexUnit (h / 4096 % 16), hexUnit (h / 256 % 16), hexUnit (h / 16 % 16), hexUnit (h % 16)]

/-- No more digits than it needs, from two to four. -/
def shortText (h : Nat) : JsString :=
  if h < 256 then [hexUnit (h / 16 % 16), hexUnit (h % 16)]
  else if h < 4096 then [hexUnit (h / 256 % 16), hexUnit (h / 16 % 16), hexUnit (h % 16)]
  else groupText h

def octetText (n : Nat) : JsString :=
  if n < 10 then [UInt16.ofNat (48 + n)]
  else if n < 100 then [UInt16.ofNat (48 + n / 10), UInt16.ofNat (48 + n % 10)]
  else [UInt16.ofNat (48 + n / 100), UInt16.ofNat (48 + n / 10 % 10), UInt16.ofNat (48 + n % 10)]

def octetsText (o : Octets) : JsString := join [octetText o.a, octetText o.b, octetText o.c, octetText o.d] [46]

section
variable {h n : Nat} {g s : JsString} {gs : List JsString} {hs : List Nat}

theorem hexUnit_digit (small : n < 16) : isHexDigit (hexUnit n) = true ∧ hexDigit (hexUnit n) = n := by
  have all : ∀ n < 16, isHexDigit (hexUnit n) = true ∧ hexDigit (hexUnit n) = n := by decide
  exact all n small

theorem group_groupText (small : h < 65536) : group? (groupText h) = some h := by
  obtain ⟨d1, v1⟩ := hexUnit_digit (n := h / 4096 % 16) (by omega)
  obtain ⟨d2, v2⟩ := hexUnit_digit (n := h / 256 % 16) (by omega)
  obtain ⟨d3, v3⟩ := hexUnit_digit (n := h / 16 % 16) (by omega)
  obtain ⟨d4, v4⟩ := hexUnit_digit (n := h % 16) (by omega)
  rw [group_eq_some]
  simp only [groupText, List.all_cons, List.all_nil, d1, d2, d3, d4, hexValue, List.foldl_cons, List.foldl_nil, v1, v2, v3,
    v4, List.length_cons, List.length_nil]
  refine ⟨⟨rfl, by omega, by omega⟩, by omega⟩

theorem group_shortText (small : h < 65536) : group? (shortText h) = some h := by
  obtain ⟨d2, v2⟩ := hexUnit_digit (n := h / 256 % 16) (by omega)
  obtain ⟨d3, v3⟩ := hexUnit_digit (n := h / 16 % 16) (by omega)
  obtain ⟨d4, v4⟩ := hexUnit_digit (n := h % 16) (by omega)
  unfold shortText
  split
  · rw [group_eq_some]
    simp only [List.all_cons, List.all_nil, d3, d4, hexValue, List.foldl_cons, List.foldl_nil, v3, v4, List.length_cons,
      List.length_nil]
    refine ⟨⟨rfl, by omega, by omega⟩, by omega⟩
  · split
    · rw [group_eq_some]
      simp only [List.all_cons, List.all_nil, d2, d3, d4, hexValue, List.foldl_cons, List.foldl_nil, v2, v3, v4,
        List.length_cons, List.length_nil]
      refine ⟨⟨rfl, by omega, by omega⟩, by omega⟩
    · exact group_groupText small

theorem group_units (read : group? g = some h) : g ≠ [] ∧ 58 ∉ g ∧ 46 ∉ g ∧ 37 ∉ g := by
  obtain ⟨⟨digits, least, _⟩, _⟩ := group_eq_some.mp read
  have digits := List.all_eq_true.mp digits
  have absent (u : UInt16) (other : isHexDigit u = false) : u ∉ g := by
    intro mem
    rw [digits u mem] at other
    cases other
  exact ⟨List.ne_nil_of_length_pos least, absent 58 rfl, absent 46 rfl, absent 37 rfl⟩

theorem octets_none (plain : 46 ∉ s) : octets? s = none := by
  cases found : octets? s with
  | none => rfl
  | some o =>
    obtain ⟨a, b, c, d, parts, _⟩ := octets_eq_some found
    have joined : [46].intercalate (split s 46) = s := List.intercalate_splitOn 46
    rw [parts] at joined
    rw [← joined] at plain
    simp at plain

theorem dotted_group (read : group? g = some h) : dotted g = some [h] := by
  rw [dotted, octets_none (group_units read).2.2.1, plain, read]
  rfl

/-- What is read of groups in a row. -/
inductive Row : List JsString → List Nat → Prop where
  | last {g : JsString} {h : Nat} (read : group? g = some h) : Row [g] [h]
  | cons {g : JsString} {h : Nat} {gs : List JsString} {hs : List Nat} (read : group? g = some h) (rest : Row gs hs) :
      Row (g :: gs) (h :: hs)

theorem Row.join_cons {g : JsString} (row : Row gs hs) : join (g :: gs) [58] = g ++ 58 :: join gs [58] := by
  unfold join
  cases row <;> simp [List.intercalate_cons_cons]

theorem Row.length (row : Row gs hs) : gs.length = hs.length := by
  induction row with
  | last => rfl
  | cons _ _ ih => simp [ih]

theorem Row.groups (row : Row gs hs) (few : gs.length ≤ n) : groups? dotted n (join gs [58]) = some hs := by
  induction row generalizing n with
  | last read =>
    cases n with
    | zero => simp at few
    | succ n =>
      have single (g : JsString) : join [g] [58] = g := by simp [join]
      rw [single, groups_last (group_units read).2.1, dotted_group read]
  | cons read rest ih =>
    cases n with
    | zero => simp at few
    | succ n =>
      rw [List.length_cons] at few
      rw [rest.join_cons, groups_cons (group_units read).2.1, read, ih (by omega)]

theorem cutZeros_group (plain : 58 ∉ g) (more : cutZeros s = none) (other : startsWith s [58] = false) :
    cutZeros (g ++ 58 :: s) = none := by
  have here : startsWith (58 :: s) [58, 58] = false := by
    cases s with
    | nil => rfl
    | cons u s => simpa [startsWith] using other
  induction g with
  | nil => simp [cutZeros, here, more]
  | cons u g ih =>
    simp only [List.mem_cons, not_or] at plain
    have next : startsWith (u :: (g ++ 58 :: s)) [58, 58] = false := by
      simp [startsWith, List.isPrefixOf_cons_cons, plain.1]
    simp [cutZeros, next, ih plain.2]

theorem cutZeros_plain (plain : 58 ∉ s) : cutZeros s = none := by
  cases found : cutZeros s with
  | none => rfl
  | some p =>
    rw [cutZeros_eq_some found] at plain
    simp at plain

theorem Row.noZeros (row : Row gs hs) : cutZeros (join gs [58]) = none ∧ startsWith (join gs [58]) [58] = false := by
  have first {g : JsString} {h : Nat} (read : group? g = some h) (s : JsString) : startsWith (g ++ s) [58] = false := by
    obtain ⟨some, plain, _⟩ := group_units read
    cases g with
    | nil => exact absurd rfl some
    | cons u g =>
      simp only [List.mem_cons, not_or] at plain
      simp [startsWith, List.isPrefixOf_cons_cons, plain.1]
  induction row with
  | last read =>
    have single (g : JsString) : join [g] [58] = g := by simp [join]
    rw [single]
    have here := first read []
    rw [List.append_nil] at here
    exact ⟨cutZeros_plain (group_units read).2.1, here⟩
  | cons read rest ih =>
    rw [rest.join_cons]
    exact ⟨cutZeros_group (group_units read).2.1 ih.1 ih.2, first read _⟩

/-- Eight groups in a row are an address. -/
theorem Row.hextets (row : Row gs hs) (eight : hs.length = 8) : hextets? (join gs [58]) = some hs := by
  have count : gs.length ≤ 8 := by rw [row.length, eight]
  rw [hextets?, row.noZeros.1]
  simp [row.groups count, eight]

theorem Row.units (row : Row gs hs) : 37 ∉ join gs [58] ∧ (1 < gs.length → 58 ∈ join gs [58]) := by
  induction row with
  | last read =>
    have single (g : JsString) : join [g] [58] = g := by simp [join]
    rw [single]
    exact ⟨(group_units read).2.2.2, by simp⟩
  | cons read rest ih =>
    rw [rest.join_cons]
    have plain := (group_units read).2.2.2
    simp [plain, ih.1]

theorem Row.address (row : Row gs hs) (eight : hs.length = 8) : address? (join gs [58]) = some (.v6 (value hs)) := by
  have colon : 58 ∈ join gs [58] := row.units.2 (by rw [row.length, eight]; omega)
  have noOctets : octets? (join gs [58]) = none := by
    cases found : octets? (join gs [58]) with
    | none => rfl
    | some o =>
      have unit := octets_units found colon
      simp [isDigit] at unit
  rw [address?, noOctets, zoned?, cut_eq_none.mpr row.units.1]
  simp [row.hextets eight]

theorem octet_octetText (small : n ≤ 255) : octet? (octetText n) = some n := by
  have all : ∀ n < 256, octet? (octetText n) = some n := by decide +kernel
  exact all n (by omega)

theorem octets_octetsText {o : Octets} (small : o.a ≤ 255 ∧ o.b ≤ 255 ∧ o.c ≤ 255 ∧ o.d ≤ 255) :
    octets? (octetsText o) = some o := by
  obtain ⟨ha, hb, hc, hd⟩ := small
  have plain {n : Nat} (small : n ≤ 255) : 46 ∉ octetText n := by
    intro mem
    have digit := octet_units (octet_octetText small) 46 mem
    simp [isDigit] at digit
  have parts : split (octetsText o) 46 = [octetText o.a, octetText o.b, octetText o.c, octetText o.d] := by
    apply List.splitOn_intercalate
    · simp [plain, ha, hb, hc, hd]
    · simp
  rw [octets?, parts]
  simp [octet_octetText, ha, hb, hc, hd]

end

end GuloGulo.Net
