import GuloGulo.Js.Lines
import GuloGulo.Js.Value
import Mathlib.Data.List.Basic
import Mathlib.Data.List.TakeDrop

/-!
# Internet addresses and their texts

An address is a number; one number has many texts. IPv4 is written as four
octets, IPv6 as eight groups with at most one run of zero groups left out, the
last two groups as an IPv4 address if one likes, and a zone behind it.
-/

namespace GuloGulo.Net
open Js

def decimalValue (s : JsString) : Nat := s.foldl (fun n u => n * 10 + (u.toNat - 48)) 0

/-- A number to 255 without leading zeros. -/
def octet? (s : JsString) : Option Nat :=
  if s.all isDigit ∧ 1 ≤ s.length ∧ s.length ≤ 3 ∧ (s.head? = some 48 → s.length = 1) ∧ decimalValue s ≤ 255 then
    some (decimalValue s)
  else none

structure Octets where
  a : Nat
  b : Nat
  c : Nat
  d : Nat
  deriving DecidableEq

def octets? (s : JsString) : Option Octets :=
  match (split s 46).map octet? with
  | [some a, some b, some c, some d] => some ⟨a, b, c, d⟩
  | _ => none

def Octets.value (o : Octets) : Nat := ((o.a * 256 + o.b) * 256 + o.c) * 256 + o.d

def isHexDigit (u : UInt16) : Bool := isDigit u || (97 ≤ u && u ≤ 102) || (65 ≤ u && u ≤ 70)

def hexDigit (u : UInt16) : Nat :=
  if u ≤ 57 then u.toNat - 48 else if u ≤ 70 then u.toNat - 55 else u.toNat - 87

def hexValue (s : JsString) : Nat := s.foldl (fun n u => n * 16 + hexDigit u) 0

/-- A group: one to four hexadecimal digits. -/
def group? (s : JsString) : Option Nat :=
  if s.all isHexDigit ∧ 1 ≤ s.length ∧ s.length ≤ 4 then some (hexValue s) else none

/-- At most so many groups with colons between them; `last` reads what is after
the last colon. -/
def groups? (last : JsString → Option (List Nat)) : Nat → JsString → Option (List Nat)
  | 0, _ => none
  | n + 1, s =>
    match cut s 58 with
    | none => last s
    | some (g, rest) =>
      match group? g, groups? last n rest with
      | some h, some hs => some (h :: hs)
      | _, _ => none

def plain (s : JsString) : Option (List Nat) := (group? s).map fun h => [h]

/-- A last group, or an IPv4 address in the place of the last two. -/
def dotted (s : JsString) : Option (List Nat) :=
  match octets? s with
  | some o => some [o.a * 256 + o.b, o.c * 256 + o.d]
  | none => plain s

/-- The text before the first `::` and the text after it. -/
def cutZeros : JsString → Option (JsString × JsString)
  | [] => none
  | u :: s => if startsWith (u :: s) [58, 58] then some ([], s.drop 1) else (cutZeros s).map fun p => (u :: p.1, p.2)

/-- The groups on one side of the `::`, if there are any. -/
def side? (last : JsString → Option (List Nat)) (s : JsString) : Option (List Nat) :=
  if s = [] then some [] else groups? last 7 s

/-- The eight groups that a text without a zone stands for. -/
def hextets? (s : JsString) : Option (List Nat) :=
  match cutZeros s with
  | none => (groups? dotted 8 s).filter fun hs => hs.length == 8
  | some (left, right) =>
    match side? plain left, side? dotted right with
    | some l, some r => if l.length + r.length ≤ 7 then some (l ++ (List.replicate (8 - l.length - r.length) 0 ++ r)) else none
    | _, _ => none

def isZoneUnit (u : UInt16) : Bool := isAlnum u || u == 45 || u == 46 || u == 58

/-- The groups of a text that may have a zone. -/
def zoned? (s : JsString) : Option (List Nat) :=
  match cut s 37 with
  | none => hextets? s
  | some (address, zone) => if zone ≠ [] ∧ zone.all isZoneUnit then hextets? address else none

def value (hs : List Nat) : Nat := hs.foldl (fun n h => n * 65536 + h) 0

inductive Address where
  | v4 (n : Nat)
  | v6 (n : Nat)
  deriving DecidableEq

def address? (s : JsString) : Option Address :=
  match octets? s with
  | some o => some (.v4 o.value)
  | none => (zoned? s).map fun hs => .v6 (value hs)

/-- `isIP` of Node. -/
def isIP (s : JsString) : Nat :=
  match address? s with
  | some (.v4 _) => 4
  | some (.v6 _) => 6
  | none => 0

/-- The addresses that begin with these bits. -/
structure Block where
  base : Nat
  bits : Nat

def Block.contains (width : Nat) (b : Block) (n : Nat) : Bool := n >>> (width - b.bits) == b.base >>> (width - b.bits)

/-- The blocks of IPv4 that are private or reserved. -/
def reservedIpv4 : List Block :=
  [⟨Octets.value ⟨0, 0, 0, 0⟩, 8⟩, ⟨Octets.value ⟨10, 0, 0, 0⟩, 8⟩, ⟨Octets.value ⟨127, 0, 0, 0⟩, 8⟩,
    ⟨Octets.value ⟨100, 64, 0, 0⟩, 10⟩, ⟨Octets.value ⟨169, 254, 0, 0⟩, 16⟩, ⟨Octets.value ⟨172, 16, 0, 0⟩, 12⟩,
    ⟨Octets.value ⟨192, 0, 0, 0⟩, 24⟩, ⟨Octets.value ⟨192, 0, 2, 0⟩, 24⟩, ⟨Octets.value ⟨192, 168, 0, 0⟩, 16⟩,
    ⟨Octets.value ⟨198, 18, 0, 0⟩, 15⟩, ⟨Octets.value ⟨198, 51, 0, 0⟩, 16⟩, ⟨Octets.value ⟨203, 0, 113, 0⟩, 24⟩,
    ⟨Octets.value ⟨224, 0, 0, 0⟩, 3⟩]

/-- The blocks of IPv6 that are private or reserved: unspecified, loopback,
unique local, link local, multicast and documentation. -/
def reservedIpv6 : List Block :=
  [⟨0, 128⟩, ⟨1, 128⟩, ⟨0xfc00 <<< 112, 7⟩, ⟨0xfe80 <<< 112, 10⟩, ⟨0xff00 <<< 112, 8⟩, ⟨0x20010db8 <<< 96, 32⟩]

/-- The number is private or reserved, as an IPv4 address. -/
def isListed4 (n : Nat) : Bool := reservedIpv4.any fun block => block.contains 32 n

/-- In `::ffff:0:0/96`. -/
def isMapped (n : Nat) : Bool := n >>> 32 == 0xffff

def isListed6 (n : Nat) : Bool :=
  (reservedIpv6.any fun block => block.contains 128 n) || isMapped n && isListed4 (n % 4294967296)

def Address.isListed : Address → Bool
  | v4 n => isListed4 n
  | v6 n => isListed6 n

section
variable {s t : JsString} {u : UInt16}

theorem cut_eq_none : cut s u = none ↔ u ∉ s := by
  induction s with
  | nil => simp [cut]
  | cons v s ih =>
    unfold cut
    by_cases same : v = u
    · simp [same]
    · simp [same, ih, Ne.symm (a := v) same]

end

section
variable {s t : JsString} {h n : Nat} {hs : List Nat} {last : JsString → Option (List Nat)}

theorem group_eq_some : group? s = some h ↔ (s.all isHexDigit = true ∧ 1 ≤ s.length ∧ s.length ≤ 4) ∧ hexValue s = h := by
  unfold group?
  by_cases fine : s.all isHexDigit ∧ 1 ≤ s.length ∧ s.length ≤ 4
  · rw [if_pos fine]
    simp only [Option.some.injEq, fine, and_self, true_and]
  · rw [if_neg fine]
    simp only [reduceCtorEq, fine, false_and]

attribute [local simp] groups? in
/-- Groups are the last one, or one before others. -/
theorem groups_eq_some (read : groups? last (n + 1) s = some hs) : (58 ∉ s ∧ last s = some hs) ∨
    ∃ g h rest hs', s = g ++ 58 :: rest ∧ 58 ∉ g ∧ group? g = some h ∧ groups? last n rest = some hs' ∧ hs = h :: hs' := by
  unfold groups? at read
  cases found : cut s 58 with
  | none =>
    rw [found] at read
    exact .inl ⟨cut_eq_none.mp found, read⟩
  | some p =>
    obtain ⟨g, rest⟩ := p
    rw [found] at read
    dsimp only at read
    cases first : group? g with
    | none =>
      rw [first] at read
      cases read
    | some h =>
      cases others : groups? last n rest with
      | none =>
        rw [first, others] at read
        cases read
      | some hs' =>
        rw [first, others] at read
        cases read
        exact .inr ⟨g, h, rest, hs', cut_eq_some found, not_mem_of_cut found, first, others, rfl⟩

theorem groups_cons {g rest : JsString} (plain : 58 ∉ g) : groups? last (n + 1) (g ++ 58 :: rest) =
    match group? g, groups? last n rest with
    | some h, some hs => some (h :: hs)
    | _, _ => none := by
  rw [groups?, cut_append plain]

theorem groups_last (plain : 58 ∉ s) : groups? last (n + 1) s = last s := by
  rw [groups?, cut_eq_none.mpr plain]

end

theorem cutZeros_eq_some {s left right : JsString} (h : cutZeros s = some (left, right)) : s = left ++ 58 :: 58 :: right := by
  induction s generalizing left with
  | nil => cases h
  | cons u s ih =>
    unfold cutZeros at h
    split at h
    · rename_i here
      cases h
      cases s with
      | nil => simp [startsWith] at here
      | cons v s =>
        simp [startsWith] at here
        obtain ⟨rfl, rfl⟩ := here
        rfl
    · cases rest : cutZeros s with
      | none =>
        rw [rest] at h
        cases h
      | some p =>
        rw [rest] at h
        cases h
        rw [ih rest]
        rfl

section
variable {s : JsString} {u : UInt16} {h n : Nat} {hs : List Nat}

theorem hexDigit_lt (digit : isHexDigit u = true) : hexDigit u < 16 := by
  simp only [isHexDigit, isDigit, Bool.or_eq_true, Bool.and_eq_true, decide_eq_true_eq, UInt16.le_iff_toNat_le,
    UInt16.reduceToNat] at digit
  simp only [hexDigit, UInt16.le_iff_toNat_le, UInt16.reduceToNat]
  split
  · omega
  · split <;> omega

/-- A lower-case digit is told by its value. -/
theorem hexDigit_eq (digit : isHexDigit u = true) (lower : isUpper u = false) (small : n < 16) :
    hexDigit u = n ↔ u = hexUnit n := by
  simp only [isHexDigit, isDigit, Bool.or_eq_true, Bool.and_eq_true, decide_eq_true_eq, UInt16.le_iff_toNat_le,
    UInt16.reduceToNat] at digit
  simp only [isUpper, Bool.and_eq_false_iff, decide_eq_false_iff_not, UInt16.le_iff_toNat_le, UInt16.reduceToNat] at lower
  rw [← UInt16.toNat_inj, hexUnit, UInt16.toNat_ofNat_of_lt' (by unfold UInt16.size; split <;> omega)]
  simp only [hexDigit, UInt16.le_iff_toNat_le, UInt16.reduceToNat]
  split
  · split <;> omega
  · split
    · omega
    · split <;> omega

/-- A group by its digits. -/
theorem group_digits (read : group? s = some h) : (∀ u ∈ s, isHexDigit u = true) ∧
    ((∃ a, s = [a] ∧ h = hexDigit a) ∨ (∃ a b, s = [a, b] ∧ h = hexDigit a * 16 + hexDigit b) ∨
      (∃ a b c, s = [a, b, c] ∧ h = (hexDigit a * 16 + hexDigit b) * 16 + hexDigit c) ∨
      ∃ a b c d, s = [a, b, c, d] ∧ h = ((hexDigit a * 16 + hexDigit b) * 16 + hexDigit c) * 16 + hexDigit d) := by
  obtain ⟨⟨digits, least, most⟩, rfl⟩ := group_eq_some.mp read
  refine ⟨List.all_eq_true.mp digits, ?_⟩
  match s, least, most with
  | [a], _, _ => exact .inl ⟨a, rfl, by simp [hexValue]⟩
  | [a, b], _, _ => exact .inr (.inl ⟨a, b, rfl, by simp [hexValue]⟩)
  | [a, b, c], _, _ => exact .inr (.inr (.inl ⟨a, b, c, rfl, by simp [hexValue]⟩))
  | [a, b, c, d], _, _ => exact .inr (.inr (.inr ⟨a, b, c, d, rfl, by simp [hexValue]⟩))

theorem group_lt (read : group? s = some h) : h < 65536 := by
  obtain ⟨digits, ⟨a, rfl, rfl⟩ | ⟨a, b, rfl, rfl⟩ | ⟨a, b, c, rfl, rfl⟩ | ⟨a, b, c, d, rfl, rfl⟩⟩ := group_digits read
  · have := hexDigit_lt (digits a (by simp))
    omega
  · have := hexDigit_lt (digits a (by simp))
    have := hexDigit_lt (digits b (by simp))
    omega
  · have := hexDigit_lt (digits a (by simp))
    have := hexDigit_lt (digits b (by simp))
    have := hexDigit_lt (digits c (by simp))
    omega
  · have := hexDigit_lt (digits a (by simp))
    have := hexDigit_lt (digits b (by simp))
    have := hexDigit_lt (digits c (by simp))
    have := hexDigit_lt (digits d (by simp))
    omega

theorem octet_le (read : octet? s = some n) : n ≤ 255 := by
  unfold octet? at read
  split at read
  · rename_i fine
    cases read
    exact fine.2.2.2.2
  · cases read

theorem octets_eq_some {o : Octets} (read : octets? s = some o) :
    ∃ a b c d, split s 46 = [a, b, c, d] ∧ octet? a = some o.a ∧ octet? b = some o.b ∧ octet? c = some o.c ∧
      octet? d = some o.d := by
  unfold octets? at read
  split at read
  · rename_i parts
    cases read
    have four := congrArg List.length parts
    rw [List.length_map] at four
    obtain ⟨a, b, c, d, same⟩ := List.length_eq_four.mp four
    rw [same] at parts
    simp only [List.map_cons, List.map_nil, List.cons.injEq, and_true] at parts
    exact ⟨a, b, c, d, same, parts⟩
  · cases read

end

/-- The first `k` groups are written out, or zeros are left out before. -/
def Leads : Nat → JsString → List Nat → Prop
  | 0, _, _ => True
  | k + 1, s, hs => (∃ rest hs', s = 58 :: rest ∧ hs = 0 :: hs') ∨
    ∃ g h rest hs', s = g ++ 58 :: rest ∧ 58 ∉ g ∧ group? g = some h ∧ hs = h :: hs' ∧ Leads k rest hs'

/-- What an address of this many groups is. -/
structure Groups (count : Nat) (hs : List Nat) : Prop where
  count : hs.length = count
  small : ∀ h ∈ hs, h < 65536

section
variable {s left right zone : JsString} {k n m : Nat} {hs l r : List Nat}

theorem plain_eq_some (read : plain s = some hs) : ∃ h, group? s = some h ∧ hs = [h] := by
  obtain ⟨h, first, rfl⟩ := Option.map_eq_some_iff.mp read
  exact ⟨h, first, rfl⟩

theorem dotted_small (read : dotted s = some hs) : hs.length ≤ 2 ∧ ∀ h ∈ hs, h < 65536 := by
  unfold dotted at read
  split at read
  · rename_i o found
    obtain ⟨_, _, _, _, _, a, b, c, d⟩ := octets_eq_some found
    have := octet_le a
    have := octet_le b
    have := octet_le c
    have := octet_le d
    cases read
    simp only [List.length_cons, List.length_nil, List.mem_cons, List.not_mem_nil, or_false, forall_eq_or_imp, forall_eq]
    omega
  · obtain ⟨h, first, rfl⟩ := plain_eq_some read
    have := group_lt first
    simpa

theorem plain_small (read : plain s = some hs) : ∀ h ∈ hs, h < 65536 := by
  obtain ⟨h, first, rfl⟩ := plain_eq_some read
  simpa using group_lt first

theorem groups_small {last : JsString → Option (List Nat)} (small : ∀ s hs, last s = some hs → ∀ h ∈ hs, h < 65536)
    (read : groups? last n s = some hs) : ∀ h ∈ hs, h < 65536 := by
  induction n generalizing s hs with
  | zero => cases read
  | succ n ih =>
    rcases groups_eq_some read with ⟨_, read⟩ | ⟨g, h, rest, hs', _, _, first, others, rfl⟩
    · exact small s hs read
    · simp only [List.mem_cons, forall_eq_or_imp]
      exact ⟨group_lt first, ih others⟩

theorem side_small {last : JsString → Option (List Nat)} (small : ∀ s hs, last s = some hs → ∀ h ∈ hs, h < 65536)
    (read : side? last s = some hs) : ∀ h ∈ hs, h < 65536 := by
  unfold side? at read
  split at read
  · cases read
    exact List.forall_mem_nil _
  · exact groups_small small read

/-- Eight groups, or zeros between the two sides. -/
theorem hextets_eq_some (read : hextets? s = some hs) :
    (cutZeros s = none ∧ groups? dotted 8 s = some hs ∧ hs.length = 8) ∨
      ∃ left right l r, s = left ++ 58 :: 58 :: right ∧ side? plain left = some l ∧ side? dotted right = some r ∧
        l.length + r.length ≤ 7 ∧ hs = l ++ (List.replicate (8 - l.length - r.length) 0 ++ r) := by
  unfold hextets? at read
  split at read
  · rename_i found
    simp only [Option.filter_eq_some_iff, beq_iff_eq] at read
    exact .inl ⟨found, read⟩
  · rename_i left right found
    split at read
    · rename_i l r readLeft readRight
      split at read
      · rename_i few
        cases read
        exact .inr ⟨left, right, l, r, cutZeros_eq_some found, readLeft, readRight, few, rfl⟩
      · cases read
    · cases read

theorem hextets_groups (read : hextets? s = some hs) : Groups 8 hs := by
  have smallDotted : ∀ s hs, dotted s = some hs → ∀ h ∈ hs, h < 65536 := fun _ _ read => (dotted_small read).2
  rcases hextets_eq_some read with ⟨_, read, count⟩ | ⟨left, right, l, r, _, readLeft, readRight, few, rfl⟩
  · exact ⟨count, groups_small smallDotted read⟩
  · constructor
    · simp only [List.length_append, List.length_replicate]
      omega
    · have smallLeft := side_small (fun _ _ => plain_small) readLeft
      have smallRight := side_small smallDotted readRight
      intro h mem
      simp only [List.mem_append, List.mem_replicate] at mem
      rcases mem with mem | ⟨_, rfl⟩ | mem
      · exact smallLeft h mem
      · omega
      · exact smallRight h mem

theorem leads_of_groups (read : groups? dotted n s = some hs) (many : k + 2 ≤ hs.length) : Leads k s hs := by
  induction k generalizing n s hs with
  | zero => trivial
  | succ k ih =>
    cases n with
    | zero => cases read
    | succ n =>
      rcases groups_eq_some read with ⟨_, read⟩ | ⟨g, h, rest, hs', rfl, clean, first, others, rfl⟩
      · have := (dotted_small read).1
        omega
      · rw [List.length_cons] at many
        exact .inr ⟨g, h, rest, hs', rfl, clean, first, rfl, ih others (by omega)⟩

/-- After the groups on the left come zeros. -/
theorem leads_of_left (read : groups? plain n left = some l) : Leads k (left ++ 58 :: 58 :: right) (l ++ 0 :: r) := by
  induction k generalizing n left l with
  | zero => trivial
  | succ k ih =>
    cases n with
    | zero => cases read
    | succ n =>
      rcases groups_eq_some read with ⟨clean, read⟩ | ⟨g, h, rest, hs', rfl, clean, first, others, rfl⟩
      · obtain ⟨h, first, rfl⟩ := plain_eq_some read
        refine .inr ⟨left, h, 58 :: right, 0 :: r, rfl, clean, first, rfl, ?_⟩
        cases k with
        | zero => trivial
        | succ k => exact .inl ⟨right, r, rfl, rfl⟩
      · exact .inr ⟨g, h, rest ++ 58 :: 58 :: right, hs' ++ 0 :: r, by simp, clean, first, rfl, ih others⟩

theorem leads_zone (leads : Leads k s hs) : Leads k (s ++ zone) hs := by
  induction k generalizing s hs with
  | zero => trivial
  | succ k ih =>
    rcases leads with ⟨rest, hs', rfl, same⟩ | ⟨g, h, rest, hs', rfl, clean, first, same, others⟩
    · exact .inl ⟨rest ++ zone, hs', rfl, same⟩
    · exact .inr ⟨g, h, rest ++ zone, hs', by simp, clean, first, same, ih others⟩

theorem leads_of_hextets (read : hextets? s = some hs) : Leads 2 s hs := by
  rcases hextets_eq_some read with ⟨_, read, count⟩ | ⟨left, right, l, r, rfl, readLeft, readRight, few, rfl⟩
  · exact leads_of_groups read (by omega)
  · obtain ⟨zeros, more⟩ : ∃ m, 8 - l.length - r.length = m + 1 := ⟨7 - l.length - r.length, by omega⟩
    rw [more, List.replicate_succ]
    unfold side? at readLeft
    split at readLeft
    · rename_i none
      cases readLeft
      cases none
      exact .inl ⟨58 :: right, _, rfl, rfl⟩
    · exact leads_of_left readLeft

theorem zoned_eq_some (read : zoned? s = some hs) : (37 ∉ s ∧ hextets? s = some hs) ∨
    ∃ address zone, s = address ++ 37 :: zone ∧ 37 ∉ address ∧ hextets? address = some hs := by
  unfold zoned? at read
  split at read
  · rename_i found
    exact .inl ⟨cut_eq_none.mp found, read⟩
  · rename_i address zone found
    split at read
    · exact .inr ⟨address, zone, cut_eq_some found, not_mem_of_cut found, read⟩
    · cases read

theorem leads_of_zoned (read : zoned? s = some hs) : Leads 2 s hs := by
  rcases zoned_eq_some read with ⟨_, read⟩ | ⟨address, zone, rfl, _, read⟩
  · exact leads_of_hextets read
  · exact leads_zone (leads_of_hextets read)

theorem zoned_groups (read : zoned? s = some hs) : Groups 8 hs := by
  rcases zoned_eq_some read with ⟨_, read⟩ | ⟨_, _, _, _, read⟩
  · exact hextets_groups read
  · exact hextets_groups read

end

/-- What the groups of an address may be written with. -/
def isGroupUnit (u : UInt16) : Bool := isAlnum u || u == 46 || u == 58

/-- What an address may be written with. -/
def isAddressUnit (u : UInt16) : Bool := isGroupUnit u || u == 37 || u == 45

section
variable {s : JsString} {u : UInt16} {h n : Nat} {hs : List Nat} {o : Octets}

theorem isAlnum_of_isHexDigit (digit : isHexDigit u = true) : isAlnum u = true := by
  simp only [isHexDigit, isAlnum, isAlpha, isUpper, isLower, isDigit, Bool.or_eq_true, Bool.and_eq_true,
    decide_eq_true_eq, UInt16.le_iff_toNat_le, UInt16.reduceToNat] at digit ⊢
  omega

theorem isGroupUnit_of_isAlnum (h : isAlnum u = true) : isGroupUnit u = true := by
  simp [isGroupUnit, h]

theorem octet_units (read : octet? s = some n) : ∀ u ∈ s, isDigit u = true := by
  unfold octet? at read
  split at read
  · rename_i fine
    exact List.all_eq_true.mp fine.1
  · cases read

theorem octets_units (read : octets? s = some o) (mem : u ∈ s) : isDigit u = true ∨ u = 46 := by
  by_cases dot : u = 46
  · exact .inr dot
  · obtain ⟨a, b, c, d, parts, ha, hb, hc, hd⟩ := octets_eq_some read
    obtain ⟨part, isPart, mem⟩ := mem_split_of_mem mem dot
    rw [parts] at isPart
    simp only [List.mem_cons, List.not_mem_nil, or_false] at isPart
    rcases isPart with rfl | rfl | rfl | rfl
    · exact .inl (octet_units ha u mem)
    · exact .inl (octet_units hb u mem)
    · exact .inl (octet_units hc u mem)
    · exact .inl (octet_units hd u mem)

theorem isGroupUnit_of_octets (h : isDigit u = true ∨ u = 46) : isGroupUnit u = true := by
  rcases h with digit | rfl
  · simp [isGroupUnit, isAlnum, digit]
  · rfl

theorem plain_units (read : plain s = some hs) : ∀ u ∈ s, isGroupUnit u = true := by
  obtain ⟨h, first, _⟩ := plain_eq_some read
  exact fun u mem => isGroupUnit_of_isAlnum (isAlnum_of_isHexDigit ((group_digits first).1 u mem))

theorem dotted_units (read : dotted s = some hs) : ∀ u ∈ s, isGroupUnit u = true := by
  unfold dotted at read
  split at read
  · rename_i o found
    exact fun u mem => isGroupUnit_of_octets (octets_units found mem)
  · exact plain_units read

theorem groups_units {last : JsString → Option (List Nat)}
    (units : ∀ s hs, last s = some hs → ∀ u ∈ s, isGroupUnit u = true) (read : groups? last n s = some hs) :
    ∀ u ∈ s, isGroupUnit u = true := by
  induction n generalizing s hs with
  | zero => cases read
  | succ n ih =>
    rcases groups_eq_some read with ⟨_, read⟩ | ⟨g, h, rest, hs', rfl, _, first, others, rfl⟩
    · exact units s hs read
    · intro u mem
      simp only [List.mem_append, List.mem_cons] at mem
      rcases mem with mem | rfl | mem
      · exact isGroupUnit_of_isAlnum (isAlnum_of_isHexDigit ((group_digits first).1 u mem))
      · rfl
      · exact ih others u mem

theorem side_units {last : JsString → Option (List Nat)}
    (units : ∀ s hs, last s = some hs → ∀ u ∈ s, isGroupUnit u = true) (read : side? last s = some hs) :
    ∀ u ∈ s, isGroupUnit u = true := by
  unfold side? at read
  split at read
  · rename_i none
    subst none
    exact List.forall_mem_nil _
  · exact groups_units units read

theorem hextets_units (read : hextets? s = some hs) : ∀ u ∈ s, isGroupUnit u = true := by
  rcases hextets_eq_some read with ⟨_, read, _⟩ | ⟨left, right, l, r, rfl, readLeft, readRight, _⟩
  · exact groups_units (fun _ _ => dotted_units) read
  · intro u mem
    simp only [List.mem_append, List.mem_cons] at mem
    rcases mem with mem | rfl | rfl | mem
    · exact side_units (fun _ _ => plain_units) readLeft u mem
    · rfl
    · rfl
    · exact side_units (fun _ _ => dotted_units) readRight u mem

attribute [local simp] isAddressUnit in
theorem isAddressUnit_of_isGroupUnit (h : isGroupUnit u = true) : isAddressUnit u = true := by
  rw [isAddressUnit, h, Bool.true_or, Bool.true_or]

theorem zoned_units (read : zoned? s = some hs) : ∀ u ∈ s, isAddressUnit u = true := by
  unfold zoned? at read
  split at read
  · exact fun u mem => isAddressUnit_of_isGroupUnit (hextets_units read u mem)
  · rename_i address zone found
    split at read
    · rename_i fine
      rw [cut_eq_some found]
      intro u mem
      simp only [List.mem_append, List.mem_cons] at mem
      rcases mem with mem | rfl | mem
      · exact isAddressUnit_of_isGroupUnit (hextets_units read u mem)
      · rfl
      · have unit := List.all_eq_true.mp fine.2 u mem
        simp only [isZoneUnit, isAddressUnit, isGroupUnit, Bool.or_eq_true] at unit ⊢
        tauto
    · cases read

theorem address_units {a : Address} (read : address? s = some a) : ∀ u ∈ s, isAddressUnit u = true := by
  unfold address? at read
  split at read
  · rename_i o found
    exact fun u mem => isAddressUnit_of_isGroupUnit (isGroupUnit_of_octets (octets_units found mem))
  · obtain ⟨hs, read, _⟩ := Option.map_eq_some_iff.mp read
    exact zoned_units read

theorem isAddressUnit_printable (h : isAddressUnit u = true) : isWhiteSpace u = false := by
  simp only [isAddressUnit, isGroupUnit, isAlnum, isAlpha, isUpper, isLower, isDigit, Bool.or_eq_true, Bool.and_eq_true,
    decide_eq_true_eq, beq_iff_eq, UInt16.le_iff_toNat_le, ← UInt16.toNat_inj, UInt16.reduceToNat] at h
  simp only [isWhiteSpace, Bool.or_eq_false_iff, Bool.and_eq_false_iff, decide_eq_false_iff_not, beq_eq_false_iff_ne,
    ne_eq, UInt16.le_iff_toNat_le, ← UInt16.toNat_inj, UInt16.reduceToNat]
  omega

theorem isAddressUnit_ascii (h : isAddressUnit u = true) : u < 128 := by
  simp only [isAddressUnit, isGroupUnit, isAlnum, isAlpha, isUpper, isLower, isDigit, Bool.or_eq_true, Bool.and_eq_true,
    decide_eq_true_eq, beq_iff_eq, UInt16.le_iff_toNat_le, UInt16.lt_iff_toNat_lt, ← UInt16.toNat_inj,
    UInt16.reduceToNat] at h ⊢
  omega

end

/-- The text ends with a digit or a colon. -/
def EndsWell (s : JsString) : Prop := ∃ u, s.getLast? = some u ∧ (isHexDigit u = true ∨ u = 58)

section
variable {s t : JsString} {n : Nat} {hs : List Nat} {o : Octets}

theorem EndsWell.append (ends : EndsWell t) (s : JsString) : EndsWell (s ++ t) := by
  obtain ⟨u, last, unit⟩ := ends
  have some' : t ≠ [] := by
    rintro rfl
    cases last
  exact ⟨u, by rw [List.getLast?_append_of_ne_nil s some', last], unit⟩

theorem EndsWell.cons (ends : EndsWell t) (u : UInt16) : EndsWell (u :: t) := ends.append [u]

theorem endsWell_of_units (some' : s ≠ []) (digits : ∀ u ∈ s, isHexDigit u = true) : EndsWell s :=
  ⟨s.getLast some', List.getLast?_eq_some_getLast some', .inl (digits _ (List.getLast_mem some'))⟩

theorem octets_end (read : octets? s = some o) : EndsWell s := by
  obtain ⟨a, b, c, d, parts, _, _, _, hd⟩ := octets_eq_some read
  have joined : [46].intercalate (split s 46) = s := List.intercalate_splitOn 46
  have some' : d ≠ [] := by
    rintro rfl
    simp [octet?] at hd
  have digits : ∀ u ∈ d, isHexDigit u = true := by
    intro u mem
    rw [isHexDigit, octet_units hd u mem, Bool.true_or, Bool.true_or]
  rw [← joined, parts]
  simp only [List.intercalate_cons_cons, List.intercalate_singleton]
  exact ((((endsWell_of_units some' digits).append _).append _).append _)

theorem plain_end (read : plain s = some hs) : EndsWell s := by
  obtain ⟨h, first, _⟩ := plain_eq_some read
  obtain ⟨⟨digits, least, _⟩, _⟩ := group_eq_some.mp first
  exact endsWell_of_units (List.ne_nil_of_length_pos least) (List.all_eq_true.mp digits)

theorem dotted_end (read : dotted s = some hs) : EndsWell s := by
  unfold dotted at read
  split at read
  · rename_i o found
    exact octets_end found
  · exact plain_end read

theorem groups_end (read : groups? dotted n s = some hs) : EndsWell s := by
  induction n generalizing s hs with
  | zero => cases read
  | succ n ih =>
    rcases groups_eq_some read with ⟨_, read⟩ | ⟨g, h, rest, hs', rfl, _, _, others, _⟩
    · exact dotted_end read
    · exact ((ih others).cons 58).append g

theorem hextets_end (read : hextets? s = some hs) : EndsWell s := by
  rcases hextets_eq_some read with ⟨_, read, _⟩ | ⟨left, right, l, r, rfl, _, readRight, _⟩
  · exact groups_end read
  · unfold side? at readRight
    split at readRight
    · rename_i none
      subst none
      exact ⟨58, by simp, .inr rfl⟩
    · exact (((groups_end readRight).cons 58).cons 58).append left

theorem EndsWell.not_endsWith (ends : EndsWell s) {u : UInt16} (other : isHexDigit u = false ∧ u ≠ 58) :
    endsWith s [u] = false := by
  obtain ⟨v, last, unit⟩ := ends
  by_contra there
  obtain ⟨before, rfl⟩ := List.isSuffixOf_iff_suffix.mp (Bool.not_eq_false _ ▸ there)
  rw [List.getLast?_append, List.getLast?_singleton] at last
  cases last
  rw [other.1] at unit
  simp [other.2] at unit

end

section
variable {s : JsString} {u v : UInt16} {n : Nat}

theorem asciiLower_eq_iff (plain : isAlpha v = false) : asciiLower u = v ↔ u = v := by
  unfold asciiLower
  simp only [isAlpha, isUpper, isLower, Bool.or_eq_false_iff, Bool.and_eq_false_iff, decide_eq_false_iff_not,
    UInt16.le_iff_toNat_le, UInt16.reduceToNat, ← UInt16.toNat_inj] at plain ⊢
  split
  · rename_i upper
    simp only [Bool.and_eq_true, decide_eq_true_eq] at upper
    simp only [UInt16.toNat_add, UInt16.reduceToNat]
    omega
  · rfl

theorem isDigit_lower : isDigit (asciiLower u) = isDigit u := by
  unfold asciiLower
  split
  · rename_i upper
    simp only [isUpper, isDigit, Bool.and_eq_true, decide_eq_true_eq, UInt16.le_iff_toNat_le, UInt16.reduceToNat,
      UInt16.toNat_add] at upper ⊢
    have : ¬ u.toNat ≤ 57 := by omega
    have : ¬ (u.toNat + 32) % 65536 ≤ 57 := by omega
    simp only [*, decide_false, Bool.and_false]
  · rfl

theorem isHexDigit_lower : isHexDigit (asciiLower u) = isHexDigit u := by
  unfold isHexDigit
  rw [isDigit_lower]
  unfold asciiLower
  split
  · rename_i upper
    simp only [isUpper, Bool.and_eq_true, decide_eq_true_eq, UInt16.le_iff_toNat_le, UInt16.reduceToNat,
      UInt16.toNat_add] at upper ⊢
    rw [Bool.eq_iff_iff]
    simp only [isDigit, Bool.or_eq_true, Bool.and_eq_true, decide_eq_true_eq, UInt16.le_iff_toNat_le, UInt16.reduceToNat]
    omega
  · rfl

theorem hexDigit_lower (digit : isHexDigit u = true) : hexDigit (asciiLower u) = hexDigit u := by
  unfold asciiLower
  split
  · rename_i upper
    simp only [isUpper, Bool.and_eq_true, decide_eq_true_eq, UInt16.le_iff_toNat_le, UInt16.reduceToNat] at upper
    simp only [isHexDigit, isDigit, Bool.or_eq_true, Bool.and_eq_true, decide_eq_true_eq, UInt16.le_iff_toNat_le,
      UInt16.reduceToNat] at digit
    simp only [hexDigit, UInt16.le_iff_toNat_le, UInt16.reduceToNat, UInt16.toNat_add]
    split
    · omega
    · split
      · omega
      · split
        · omega
        · split <;> omega
  · rfl

end

/-- The text in lower case, as far as it is ASCII. -/
def lower (s : JsString) : JsString := s.map asciiLower

section
variable {s : JsString} {u v : UInt16} {n : Nat} {o : Octets} {last : JsString → Option (List Nat)}

theorem isAlnum_lower : isAlnum (asciiLower u) = isAlnum u := by
  unfold isAlnum
  rw [isDigit_lower]
  unfold asciiLower
  split
  · rename_i upper
    simp only [isUpper, Bool.and_eq_true, decide_eq_true_eq, UInt16.le_iff_toNat_le, UInt16.reduceToNat] at upper
    rw [Bool.eq_iff_iff]
    simp only [isAlpha, isUpper, isLower, isDigit, Bool.or_eq_true, Bool.and_eq_true, decide_eq_true_eq,
      UInt16.le_iff_toNat_le, UInt16.reduceToNat, UInt16.toNat_add]
    omega
  · rfl

theorem lower_eq_self (plain : ∀ u ∈ s, isUpper u = false) : lower s = s := map_asciiLower_of_not_upper plain

theorem lower_lower (s : JsString) : lower (lower s) = lower s := asciiLower_lowered s

theorem hexValue_lower (digits : ∀ u ∈ s, isHexDigit u = true) : hexValue (lower s) = hexValue s := by
  unfold hexValue lower
  rw [List.foldl_map]
  apply List.foldl_ext
  intro n u mem
  rw [hexDigit_lower (digits u mem)]

theorem group_lower (s : JsString) : group? (lower s) = group? s := by
  have digits : (lower s).all isHexDigit = s.all isHexDigit := by
    simp only [lower, List.all_map, Function.comp_def, isHexDigit_lower]
  have count : (lower s).length = s.length := List.length_map ..
  unfold group?
  rw [digits, count]
  by_cases fine : s.all isHexDigit ∧ 1 ≤ s.length ∧ s.length ≤ 4
  · rw [if_pos fine, if_pos fine, hexValue_lower (List.all_eq_true.mp fine.1)]
  · rw [if_neg fine, if_neg fine]

theorem not_upper (h : isDigit u = true ∨ u = 46) : isUpper u = false := by
  simp only [isDigit, isUpper, Bool.and_eq_true, Bool.and_eq_false_iff, decide_eq_true_eq, decide_eq_false_iff_not,
    UInt16.le_iff_toNat_le, UInt16.reduceToNat, ← UInt16.toNat_inj] at h ⊢
  omega

theorem octets_lowered (read : octets? s = some o) : lower s = s :=
  lower_eq_self fun _ mem => not_upper (octets_units read mem)

theorem octets_lower (s : JsString) : octets? (lower s) = octets? s := by
  cases found : octets? s with
  | some o => rw [octets_lowered found, found]
  | none =>
    cases lowered : octets? (lower s) with
    | none => rfl
    | some o =>
      have same : lower s = s := by
        apply lower_eq_self
        intro u mem
        have unit := octets_units lowered (List.mem_map_of_mem mem)
        rw [isDigit_lower, asciiLower_eq_iff rfl] at unit
        exact not_upper unit
      rw [same, found] at lowered
      cases lowered

theorem plain_lower (s : JsString) : plain (lower s) = plain s := by
  rw [plain, group_lower]
  rfl

theorem dotted_lower (s : JsString) : dotted (lower s) = dotted s := by
  rw [dotted, octets_lower, plain_lower]
  rfl

theorem cut_lower (letter : isAlpha v = false) (s : JsString) :
    cut (lower s) v = (cut s v).map fun p => (lower p.1, lower p.2) := by
  induction s with
  | nil => rfl
  | cons u s ih =>
    simp only [lower, List.map_cons, cut, asciiLower_eq_iff letter] at ih ⊢
    split
    · rfl
    · rw [ih, Option.map_map, Option.map_map]
      rfl

theorem groups_lower (same : ∀ s, last (lower s) = last s) (n : Nat) (s : JsString) :
    groups? last n (lower s) = groups? last n s := by
  induction n generalizing s with
  | zero => rfl
  | succ n ih =>
    unfold groups?
    rw [cut_lower rfl]
    cases cut s 58 with
    | none => exact same s
    | some p => simp only [Option.map_some, group_lower, ih]

theorem side_lower (same : ∀ s, last (lower s) = last s) (s : JsString) : side? last (lower s) = side? last s := by
  have empty : lower s = [] ↔ s = [] := List.map_eq_nil_iff
  unfold side?
  simp only [empty, groups_lower same]

theorem cutZeros_lower (s : JsString) : cutZeros (lower s) = (cutZeros s).map fun p => (lower p.1, lower p.2) := by
  have colon (u : UInt16) : 58 = asciiLower u ↔ 58 = u := by
    rw [eq_comm, asciiLower_eq_iff rfl, eq_comm]
  have colons (s : JsString) : startsWith (lower s) [58, 58] = startsWith s [58, 58] := by
    match s with
    | [] => rfl
    | [u] => simp [startsWith, lower, List.isPrefixOf]
    | u :: v :: s =>
      rw [Bool.eq_iff_iff]
      simp only [startsWith, lower, List.map_cons, List.isPrefixOf_cons_cons, List.isPrefixOf_nil_left, Bool.and_true,
        Bool.and_eq_true, beq_iff_eq, colon]
  induction s with
  | nil => rfl
  | cons u s ih =>
    have here := colons (u :: s)
    simp only [lower, List.map_cons] at ih here ⊢
    rw [cutZeros, cutZeros, here]
    split
    · simp
    · rw [ih, Option.map_map, Option.map_map]
      rfl

theorem hextets_lower (s : JsString) : hextets? (lower s) = hextets? s := by
  unfold hextets?
  rw [cutZeros_lower]
  cases cutZeros s with
  | none => simp only [Option.map_none, groups_lower dotted_lower]
  | some p => simp only [Option.map_some, side_lower plain_lower, side_lower dotted_lower]

theorem zoned_lower (s : JsString) : zoned? (lower s) = zoned? s := by
  unfold zoned?
  rw [cut_lower rfl]
  cases cut s 37 with
  | none => exact hextets_lower s
  | some p =>
    have zone : (lower p.2).all isZoneUnit = p.2.all isZoneUnit := by
      simp only [lower, List.all_map, Function.comp_def, isZoneUnit, isAlnum_lower]
      congr 1
      funext u
      rw [Bool.eq_iff_iff]
      simp only [isZoneUnit, Bool.or_eq_true, beq_iff_eq, asciiLower_eq_iff (v := 45) rfl, asciiLower_eq_iff (v := 46) rfl,
        asciiLower_eq_iff (v := 58) rfl]
    have empty : lower p.2 = [] ↔ p.2 = [] := List.map_eq_nil_iff
    simp only [Option.map_some, zone, ne_eq, empty, hextets_lower]

/-- Upper and lower case make no difference. -/
theorem address_lower (s : JsString) : address? (lower s) = address? s := by
  unfold address?
  rw [octets_lower, zoned_lower]

end

section
variable {a b c d e f g h n : Nat} {hs tail : List Nat}

theorem eight_groups (groups : Groups 8 hs) : ∃ a b c d e f g h, hs = [a, b, c, d, e, f, g, h] ∧
    (a < 65536 ∧ b < 65536 ∧ c < 65536 ∧ d < 65536) ∧ e < 65536 ∧ f < 65536 ∧ g < 65536 ∧ h < 65536 := by
  obtain ⟨count, small⟩ := groups
  match hs, count with
  | [a, b, c, d, e, f, g, h], _ =>
    simp only [List.mem_cons, List.not_mem_nil, or_false, forall_eq_or_imp, forall_eq] at small
    obtain ⟨ha, hb, hc, hd, he, hf, hg, hh⟩ := small
    exact ⟨a, b, c, d, e, f, g, h, rfl, ⟨ha, hb, hc, hd⟩, he, hf, hg, hh⟩

attribute [local simp] value in
theorem value_eight : value [a, b, c, d, e, f, g, h] =
    ((((((a * 65536 + b) * 65536 + c) * 65536 + d) * 65536 + e) * 65536 + f) * 65536 + g) * 65536 + h := by
  simp [value]

/-- The first group is the first sixteen bits. -/
theorem value_head (groups : Groups 8 (a :: tail)) : value (a :: tail) >>> 112 = a := by
  obtain ⟨a, b, c, d, e, f, g, h, same, _, small⟩ := eight_groups groups
  cases same
  rw [value_eight, Nat.shiftRight_eq_div_pow]
  simp only [Nat.reducePow]
  omega

theorem value_second (groups : Groups 8 (a :: b :: tail)) : value (a :: b :: tail) >>> 96 = a * 65536 + b := by
  obtain ⟨a, b, c, d, e, f, g, h, same, _, small⟩ := eight_groups groups
  cases same
  rw [value_eight, Nat.shiftRight_eq_div_pow]
  simp only [Nat.reducePow]
  omega

theorem value_mapped (small : g < 65536 ∧ h < 65536) : isMapped (value [0, 0, 0, 0, 0, 65535, g, h]) = true ∧
    value [0, 0, 0, 0, 0, 65535, g, h] % 4294967296 = g * 65536 + h := by
  rw [value_eight, isMapped, Nat.shiftRight_eq_div_pow]
  simp only [Nat.reducePow, beq_iff_eq]
  omega

attribute [local simp] Block.contains in
/-- Private or reserved, by the first groups. -/
theorem isListed6_iff (groups : Groups 8 (a :: tail)) : isListed6 (value (a :: tail)) = true ↔
    value (a :: tail) = 0 ∨ value (a :: tail) = 1 ∨ (a / 512 = 0x7e ∨ a / 64 = 0x3fa ∨ a / 256 = 0xff) ∨
      value (a :: tail) >>> 96 = 0x20010db8 ∨
        isMapped (value (a :: tail)) = true ∧ isListed4 (value (a :: tail) % 4294967296) = true := by
  have head := value_head groups
  generalize value (a :: tail) = n at head ⊢
  have block (bits : Nat) (k : Nat) (split : 112 + k = 128 - bits) (base : Nat) :
      Block.contains 128 ⟨base <<< 112, bits⟩ n = true ↔ a / Nat.pow 2 k = base / Nat.pow 2 k := by
    unfold Block.contains
    dsimp only
    rw [← split, Nat.shiftRight_add, Nat.shiftRight_add, head, Nat.shiftLeft_shiftRight, beq_iff_eq,
      Nat.shiftRight_eq_div_pow, Nat.shiftRight_eq_div_pow]
    rfl
  unfold isListed6 reservedIpv6
  simp only [List.any_cons, List.any_nil, Bool.or_false, Bool.or_eq_true, Bool.and_eq_true, block 7 9 rfl, block 10 6 rfl,
    block 8 8 rfl]
  simp [Block.contains, or_assoc]

section
variable {p q r : Nat} {o : Octets}

/-- The bits of the first octet. -/
theorem contains_first (small : o.b ≤ 255 ∧ o.c ≤ 255 ∧ o.d ≤ 255) (bits k : Nat) (split : 24 + k = 32 - bits) :
    Block.contains 32 ⟨Octets.value ⟨p, 0, 0, 0⟩, bits⟩ o.value = true ↔ o.a / Nat.pow 2 k = p / Nat.pow 2 k := by
  have own : o.value >>> 24 = o.a := by
    rw [Octets.value, Nat.shiftRight_eq_div_pow]
    simp only [Nat.reducePow]
    omega
  have other : Octets.value ⟨p, 0, 0, 0⟩ >>> 24 = p := by
    rw [Octets.value, Nat.shiftRight_eq_div_pow]
    simp only [Nat.reducePow]
    omega
  unfold Block.contains
  rw [beq_iff_eq, ← split, Nat.shiftRight_add, Nat.shiftRight_add, own, other, Nat.shiftRight_eq_div_pow,
    Nat.shiftRight_eq_div_pow]
  rfl

/-- The first octet and bits of the second. -/
theorem contains_second (small : o.b ≤ 255 ∧ o.c ≤ 255 ∧ o.d ≤ 255) (bits k : Nat) (split : 16 + k = 32 - bits) :
    Block.contains 32 ⟨Octets.value ⟨p, q, 0, 0⟩, bits⟩ o.value = true ↔
      (o.a * 256 + o.b) / Nat.pow 2 k = (p * 256 + q) / Nat.pow 2 k := by
  have own : o.value >>> 16 = o.a * 256 + o.b := by
    rw [Octets.value, Nat.shiftRight_eq_div_pow]
    simp only [Nat.reducePow]
    omega
  have other : Octets.value ⟨p, q, 0, 0⟩ >>> 16 = p * 256 + q := by
    rw [Octets.value, Nat.shiftRight_eq_div_pow]
    simp only [Nat.reducePow]
    omega
  unfold Block.contains
  rw [beq_iff_eq, ← split, Nat.shiftRight_add, Nat.shiftRight_add, own, other, Nat.shiftRight_eq_div_pow,
    Nat.shiftRight_eq_div_pow]
  rfl

theorem contains_third (small : o.b ≤ 255 ∧ o.c ≤ 255 ∧ o.d ≤ 255) :
    Block.contains 32 ⟨Octets.value ⟨p, q, r, 0⟩, 24⟩ o.value = true ↔
      (o.a * 256 + o.b) * 256 + o.c = (p * 256 + q) * 256 + r := by
  unfold Block.contains
  rw [beq_iff_eq, Octets.value, Octets.value, Nat.shiftRight_eq_div_pow, Nat.shiftRight_eq_div_pow]
  simp only [Nat.reduceSub, Nat.reducePow]
  omega

theorem isListed4_iff (small : o.a ≤ 255 ∧ o.b ≤ 255 ∧ o.c ≤ 255 ∧ o.d ≤ 255) : isListed4 o.value = true ↔
    o.a = 0 ∨ o.a = 10 ∨ o.a = 127 ∨ (o.a = 100 ∧ 64 ≤ o.b ∧ o.b ≤ 127) ∨ (o.a = 169 ∧ o.b = 254) ∨
      (o.a = 172 ∧ 16 ≤ o.b ∧ o.b ≤ 31) ∨ (o.a = 192 ∧ o.b = 0 ∧ o.c = 0) ∨ (o.a = 192 ∧ o.b = 0 ∧ o.c = 2) ∨
      (o.a = 192 ∧ o.b = 168) ∨ (o.a = 198 ∧ 18 ≤ o.b ∧ o.b ≤ 19) ∨ (o.a = 198 ∧ o.b = 51) ∨
      (o.a = 203 ∧ o.b = 0 ∧ o.c = 113) ∨ 224 ≤ o.a := by
  obtain ⟨first, rest⟩ := small
  have shared (a b : Nat) (hb : b ≤ 255) : (a * 256 + b) / 64 = 401 ↔ a = 100 ∧ 64 ≤ b ∧ b ≤ 127 := by omega
  have private12 (a b : Nat) (hb : b ≤ 255) : (a * 256 + b) / 16 = 2753 ↔ a = 172 ∧ 16 ≤ b ∧ b ≤ 31 := by omega
  have benchmark (a b : Nat) (hb : b ≤ 255) : (a * 256 + b) / 2 = 25353 ↔ a = 198 ∧ 18 ≤ b ∧ b ≤ 19 := by omega
  have linkLocal (a b : Nat) (hb : b ≤ 255) : a * 256 + b = 43518 ↔ a = 169 ∧ b = 254 := by omega
  have private16 (a b : Nat) (hb : b ≤ 255) : a * 256 + b = 49320 ↔ a = 192 ∧ b = 168 := by omega
  have test2 (a b : Nat) (hb : b ≤ 255) : a * 256 + b = 50739 ↔ a = 198 ∧ b = 51 := by omega
  have protocols (a b c : Nat) (hb : b ≤ 255) (hc : c ≤ 255) :
      (a * 256 + b) * 256 + c = 12582912 ↔ a = 192 ∧ b = 0 ∧ c = 0 := by omega
  have test1 (a b c : Nat) (hb : b ≤ 255) (hc : c ≤ 255) :
      (a * 256 + b) * 256 + c = 12582914 ↔ a = 192 ∧ b = 0 ∧ c = 2 := by omega
  have test3 (a b c : Nat) (hb : b ≤ 255) (hc : c ≤ 255) :
      (a * 256 + b) * 256 + c = 13303921 ↔ a = 203 ∧ b = 0 ∧ c = 113 := by omega
  have multicast : o.a / 32 = 7 ↔ 224 ≤ o.a := by omega
  unfold isListed4 reservedIpv4
  simp only [List.any_cons, List.any_nil, Bool.or_false, Bool.or_eq_true, contains_first rest 8 0 rfl,
    contains_first rest 3 5 rfl, contains_second rest 10 6 rfl, contains_second rest 16 0 rfl,
    contains_second rest 12 4 rfl, contains_second rest 15 1 rfl, contains_third rest, Nat.pow_eq, Nat.reducePow,
    Nat.div_one, Nat.reduceMul, Nat.reduceAdd, Nat.reduceDiv, shared _ _ rest.1, linkLocal _ _ rest.1,
    private12 _ _ rest.1, protocols _ _ _ rest.1 rest.2.1, test1 _ _ _ rest.1 rest.2.1, private16 _ _ rest.1,
    benchmark _ _ rest.1, test2 _ _ rest.1, test3 _ _ _ rest.1 rest.2.1, multicast]

end

end

end GuloGulo.Net
