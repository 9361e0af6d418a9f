import GuloGulo.Net.Spelling

/-!
# The check of an address by its text

`isReservedIpv4` and `isReservedIpv6`, as `web/content/attachment-policy.ts` and
`core/dav/discovery/index.ts` both have them. The check of an IPv6 address goes
by how its text begins, so some texts of a number are read as another.
-/

namespace GuloGulo.Net
open Js

/-- `/^\d{1,3}$/` and at most 255. -/
def ipv4Part (s : JsString) : Option Nat :=
  if s.all isDigit ∧ 1 ≤ s.length ∧ s.length ≤ 3 ∧ decimalValue s ≤ 255 then some (decimalValue s) else none

def parseIpv4 (value : JsString) : Option Octets :=
  match (split value 46).map ipv4Part with
  | [some a, some b, some c, some d] => some ⟨a, b, c, d⟩
  | _ => none

def reservedOctets (o : Octets) : Bool :=
  decide (o.a = 0 ∨ o.a = 10 ∨ o.a = 127 ∨ (o.a = 100 ∧ 64 ≤ o.b ∧ o.b ≤ 127) ∨ (o.a = 169 ∧ o.b = 254) ∨
    (o.a = 172 ∧ 16 ≤ o.b ∧ o.b ≤ 31) ∨ (o.a = 192 ∧ o.b = 0 ∧ o.c = 0) ∨ (o.a = 192 ∧ o.b = 0 ∧ o.c = 2) ∨
    (o.a = 192 ∧ o.b = 168) ∨ (o.a = 198 ∧ (o.b = 18 ∨ o.b = 19 ∨ o.b = 51)) ∨
    (o.a = 203 ∧ o.b = 0 ∧ o.c = 113) ∨ 224 ≤ o.a)

def isReservedIpv4 (value : JsString) : Bool := (parseIpv4 value).any reservedOctets

/-- How a text with a private first group begins. -/
def startsReserved (normalized : JsString) : Bool :=
  startsWith normalized (js "fc") || startsWith normalized (js "fd") || startsWith normalized (js "fe8") ||
    startsWith normalized (js "fe9") || startsWith normalized (js "fea") || startsWith normalized (js "feb") ||
    startsWith normalized (js "ff")

/-- `isReservedIpv6` of a text in lower case and without brackets. -/
def isReservedNormalized (normalized : JsString) : Bool :=
  if normalized = js "::" || normalized = js "::1" || startsReserved normalized ||
      startsWith normalized (js "2001:db8:") then true
  else if startsWith normalized (js "::ffff:") then isReservedIpv4 (normalized.drop 7) else false

/-- A private or reserved number that its text does not show. -/
def Misread (text : JsString) (n : Nat) : Prop :=
  n = 0 ∧ text ≠ js "::" ∨ n = 1 ∧ text ≠ js "::1" ∨ n >>> 96 = 0x20010db8 ∧ startsWith text (js "2001:db8:") = false ∨
    isMapped n = true ∧ isListed4 (n % 4294967296) = true ∧
      ¬ (startsWith text (js "::ffff:") = true ∧ (parseIpv4 (text.drop 7)).isSome = true)

instance (text : JsString) (n : Nat) : Decidable (Misread text n) := inferInstanceAs (Decidable (_ ∨ _))

/-- A first group that with fewer digits looks like a private one. -/
def ShortLead (h : Nat) : Prop := h / 2 = 0x7e ∨ h = 0xff ∨ h / 32 = 0x7e ∨ h / 16 = 0xff ∨ h / 4 = 0x3fa

/-- The numbers that the check takes one way or the other, as they are spelled. -/
def Ambiguous (n : Nat) : Prop :=
  n = 0 ∨ n = 1 ∨ n >>> 96 = 0x20010db8 ∨ isMapped n = true ∧ isListed4 (n % 4294967296) = true ∨ ShortLead (n >>> 112)

/-- IPv4 is read one way only. -/
def Address.Ambiguous : Address → Prop
  | v4 _ => False
  | v6 n => Net.Ambiguous n

/-! ## IPv4 -/

section
variable {s t g rest p : JsString} {h n : Nat} {hs : List Nat} {o : Octets}

theorem ipv4Part_of_octet (read : octet? s = some n) : ipv4Part s = some n := by
  unfold octet? at read
  split at read
  · rename_i fine
    rw [ipv4Part, if_pos ⟨fine.1, fine.2.1, fine.2.2.1, fine.2.2.2.2⟩, read]
  · cases read

attribute [local simp] parseIpv4 in
theorem parseIpv4_of_octets (read : octets? s = some o) : parseIpv4 s = some o := by
  obtain ⟨a, b, c, d, parts, ha, hb, hc, hd⟩ := octets_eq_some read
  rw [parseIpv4, parts]
  simp only [List.map_cons, List.map_nil, ipv4Part_of_octet ha, ipv4Part_of_octet hb, ipv4Part_of_octet hc,
    ipv4Part_of_octet hd]

theorem octets_small (read : octets? s = some o) : o.a ≤ 255 ∧ o.b ≤ 255 ∧ o.c ≤ 255 ∧ o.d ≤ 255 := by
  obtain ⟨a, b, c, d, _, ha, hb, hc, hd⟩ := octets_eq_some read
  exact ⟨octet_le ha, octet_le hb, octet_le hc, octet_le hd⟩

/-- The check of an IPv4 address is exact. -/
theorem isReservedIpv4_exact (read : octets? s = some o) : isReservedIpv4 s = isListed4 o.value := by
  rw [Bool.eq_iff_iff, isListed4_iff (octets_small read), isReservedIpv4, parseIpv4_of_octets read]
  simp only [Option.any_some, reservedOctets, decide_eq_true_eq]
  have two : o.a = 198 ∧ (o.b = 18 ∨ o.b = 19 ∨ o.b = 51) ↔ (o.a = 198 ∧ 18 ≤ o.b ∧ o.b ≤ 19) ∨ (o.a = 198 ∧ o.b = 51) := by
    omega
  rw [two, or_assoc]

theorem parseIpv4_dot (read : parseIpv4 s = some o) : 46 ∈ s := by
  unfold parseIpv4 at read
  split at read
  · rename_i a b c d parts
    have four := congrArg List.length parts
    rw [List.length_map] at four
    obtain ⟨w, x, y, z, same⟩ := List.length_eq_four.mp four
    have joined : [46].intercalate (split s 46) = s := List.intercalate_splitOn 46
    rw [← joined, same]
    simp
  · cases read

theorem parseIpv4_units (read : parseIpv4 s = some o) {u : UInt16} (mem : u ∈ s) : isDigit u = true ∨ u = 46 := by
  by_cases dot : u = 46
  · exact .inr dot
  · obtain ⟨part, isPart, mem⟩ := mem_split_of_mem mem dot
    have found : ∃ n, ipv4Part part = some n := by
      unfold parseIpv4 at read
      split at read
      · rename_i a b c d parts
        have isSome : ∀ x ∈ (split s 46).map ipv4Part, x.isSome = true := by
          rw [parts]
          simp
        exact Option.isSome_iff_exists.mp (isSome _ (List.mem_map_of_mem isPart))
      · cases read
    obtain ⟨n, found⟩ := found
    unfold ipv4Part at found
    split at found
    · rename_i fine
      exact .inl (List.all_eq_true.mp fine.1 u mem)
    · cases found

end

/-! ## How a text begins -/

section
variable {s t g rest p q : JsString} {h n : Nat} {hs : List Nat} {o : Octets}

theorem starts_group (clean : 58 ∉ g) (plain : 58 ∉ p) : startsWith (g ++ 58 :: rest) p = startsWith g p := by
  induction p generalizing g with
  | nil => simp [startsWith]
  | cons v p ih =>
    simp only [List.mem_cons, not_or] at plain
    cases g with
    | nil =>
      have other : (v == 58) = false := beq_false_of_ne fun same => plain.1 same.symm
      simp [startsWith, List.isPrefixOf_cons_cons, other]
    | cons u g =>
      simp only [List.mem_cons, not_or] at clean
      have next := ih clean.2 plain.2
      simp only [startsWith] at next
      simp [startsWith, List.isPrefixOf_cons_cons, next]

/-- A text that begins with a whole group begins with that group. -/
theorem starts_whole (clean : 58 ∉ g) (plain : 58 ∉ p) (here : startsWith (g ++ 58 :: rest) (p ++ 58 :: q) = true) :
    g = p ∧ startsWith rest q = true := by
  obtain ⟨more, same⟩ := List.isPrefixOf_iff_prefix.mp here
  rw [List.append_assoc, List.cons_append] at same
  obtain ⟨rfl, rfl⟩ := append_separator_injective plain clean same
  exact ⟨rfl, List.isPrefixOf_iff_prefix.mpr (List.prefix_append q more)⟩

theorem startsReserved_group (clean : 58 ∉ g) : startsReserved (g ++ 58 :: rest) = startsReserved g := by
  unfold startsReserved
  rw [starts_group clean (by decide), starts_group clean (by decide), starts_group clean (by decide),
    starts_group clean (by decide), starts_group clean (by decide), starts_group clean (by decide),
    starts_group clean (by decide)]

theorem startsReserved_colon : startsReserved (58 :: rest) = false := startsReserved_group List.not_mem_nil

/-- Every text of a private first group shows it, and some texts of others do. -/
theorem startsReserved_spelled (read : group? g = some h) (lowered : ∀ u ∈ g, isUpper u = false) :
    (h / 512 = 0x7e ∨ h / 64 = 0x3fa ∨ h / 256 = 0xff → startsReserved g = true) ∧
      (startsReserved g = true → (h / 512 = 0x7e ∨ h / 64 = 0x3fa ∨ h / 256 = 0xff) ∨ ShortLead h) := by
  obtain ⟨digits, spelled⟩ := group_digits read
  have unit (u : UInt16) (mem : u ∈ g) (n : Nat) (small : n < 16) : hexUnit n = u ↔ hexDigit u = n := by
    rw [hexDigit_eq (digits u mem) (lowered u mem) small, eq_comm]
  have bound (u : UInt16) (mem : u ∈ g) : hexDigit u < 16 := hexDigit_lt (digits u mem)
  have texts : js "fc" = [hexUnit 15, hexUnit 12] ∧ js "fd" = [hexUnit 15, hexUnit 13] ∧
      js "fe8" = [hexUnit 15, hexUnit 14, hexUnit 8] ∧ js "fe9" = [hexUnit 15, hexUnit 14, hexUnit 9] ∧
      js "fea" = [hexUnit 15, hexUnit 14, hexUnit 10] ∧ js "feb" = [hexUnit 15, hexUnit 14, hexUnit 11] ∧
      js "ff" = [hexUnit 15, hexUnit 15] := by decide
  obtain ⟨fc, fd, fe8, fe9, fea, feb, ff⟩ := texts
  unfold startsReserved ShortLead
  simp only [fc, fd, fe8, fe9, fea, feb, ff, startsWith, Bool.or_eq_true]
  rcases spelled with ⟨a, rfl, rfl⟩ | ⟨a, b, rfl, rfl⟩ | ⟨a, b, c, rfl, rfl⟩ | ⟨a, b, c, d, rfl, rfl⟩
  · have := bound a (by simp)
    simp [List.isPrefixOf]
    omega
  · have := bound a (by simp)
    have := bound b (by simp)
    simp only [List.isPrefixOf_cons_cons, List.isPrefixOf_nil_left, List.isPrefixOf_cons_nil, Bool.and_true, Bool.and_false,
      Bool.false_eq_true, Bool.and_eq_true, beq_iff_eq, unit a (by simp), unit b (by simp), Nat.reduceLT, or_false]
    constructor
    · intro isPrivate
      exfalso
      omega
    · rintro ((⟨first, second⟩ | ⟨first, second⟩) | ⟨first, second⟩) <;> rw [first, second] <;> simp
  · have := bound a (by simp)
    have := bound b (by simp)
    have := bound c (by simp)
    simp only [List.isPrefixOf_cons_cons, List.isPrefixOf_nil_left, Bool.and_true, Bool.and_eq_true, beq_iff_eq,
      unit a (by simp), unit b (by simp), unit c (by simp), Nat.reduceLT]
    constructor
    · intro isPrivate
      exfalso
      omega
    · rintro ((((((⟨first, second⟩ | ⟨first, second⟩) | ⟨first, second, third⟩) | ⟨first, second, third⟩) |
        ⟨first, second, third⟩) | ⟨first, second, third⟩) | ⟨first, second⟩)
      · exact .inr (.inr (.inr (.inl (by omega))))
      · exact .inr (.inr (.inr (.inl (by omega))))
      · exact .inr (.inr (.inr (.inr (.inr (by omega)))))
      · exact .inr (.inr (.inr (.inr (.inr (by omega)))))
      · exact .inr (.inr (.inr (.inr (.inr (by omega)))))
      · exact .inr (.inr (.inr (.inr (.inr (by omega)))))
      · exact .inr (.inr (.inr (.inr (.inl (by omega)))))
  · have := bound a (by simp)
    have := bound b (by simp)
    have := bound c (by simp)
    have := bound d (by simp)
    simp only [List.isPrefixOf_cons_cons, List.isPrefixOf_nil_left, Bool.and_true, Bool.and_eq_true, beq_iff_eq,
      unit a (by simp), unit b (by simp), unit c (by simp), Nat.reduceLT]
    constructor
    · rintro (isPrivate | isPrivate | isPrivate)
      · have first : hexDigit a = 15 := by omega
        have second : hexDigit b = 12 ∨ hexDigit b = 13 := by omega
        simp [first, second]
      · have first : hexDigit a = 15 := by omega
        have second : hexDigit b = 14 := by omega
        have third : ((hexDigit c = 8 ∨ hexDigit c = 9) ∨ hexDigit c = 10) ∨ hexDigit c = 11 := by omega
        simp [first, second, third]
      · have first : hexDigit a = 15 := by omega
        have second : hexDigit b = 15 := by omega
        simp [first, second]
    · rintro ((((((⟨first, second⟩ | ⟨first, second⟩) | ⟨first, second, third⟩) | ⟨first, second, third⟩) |
        ⟨first, second, third⟩) | ⟨first, second, third⟩) | ⟨first, second⟩)
      · exact .inl (.inl (by omega))
      · exact .inl (.inl (by omega))
      · exact .inl (.inr (.inl (by omega)))
      · exact .inl (.inr (.inl (by omega)))
      · exact .inl (.inr (.inl (by omega)))
      · exact .inl (.inr (.inl (by omega)))
      · exact .inl (.inr (.inr (by omega)))

end

/-! ## The verdict on a text -/

section
variable {t d : JsString} {hs : List Nat} {n : Nat} {o : Octets}

/-- An IPv4 address written behind `::ffff:`. -/
theorem mapped_text (read : zoned? (js "::ffff:" ++ d) = some hs) (quad : parseIpv4 d = some o) :
    hs = [0, 0, 0, 0, 0, 65535, o.a * 256 + o.b, o.c * 256 + o.d] ∧ octets? d = some o := by
  have units {u : UInt16} (mem : u ∈ d) := parseIpv4_units quad mem
  have noColon : 58 ∉ d := by
    intro mem
    have unit := units mem
    simp [isDigit] at unit
  have noZone : 37 ∉ js "::ffff:" ++ d := by
    have noPercent : 37 ∉ d := by
      intro mem
      have unit := units mem
      simp [isDigit] at unit
    have none : 37 ∉ js "::ffff:" := by decide
    simp [none, noPercent]
  have zeros : cutZeros (js "::ffff:" ++ d) = some ([], js "ffff:" ++ d) := rfl
  have ffff : js "ffff:" ++ d = js "ffff" ++ 58 :: d := rfl
  have group : group? (js "ffff") = some 65535 := by decide
  rw [zoned?, cut_eq_none.mpr noZone] at read
  simp only [hextets?, zeros, ffff, side?, reduceIte] at read
  have some' : js "ffff" ++ 58 :: d ≠ [] := by simp
  rw [if_neg some', groups_cons (by decide), group, groups_last noColon, dotted] at read
  cases found : octets? d with
  | some o' =>
    rw [found] at read
    cases quad.symm.trans (parseIpv4_of_octets found)
    cases read
    exact ⟨rfl, rfl⟩
  | none =>
    rw [found] at read
    cases single : group? d with
    | none =>
      rw [plain, single] at read
      cases read
    | some h => exact absurd (parseIpv4_dot quad) (group_units single).2.2.1

theorem lower_units (lowered : lower t = t) : ∀ u ∈ t, isUpper u = false := by
  intro u mem
  by_contra upper
  obtain ⟨i, small, rfl⟩ := List.mem_iff_getElem.mp mem
  have same : asciiLower t[i] = t[i] := by
    have here := congrArg (fun s => s[i]?) lowered
    simpa [lower, small] using here
  have isUpper : isUpper t[i] = true := by simpa using upper
  rw [asciiLower, if_pos isUpper] at same
  have values := congrArg UInt16.toNat same
  rw [UInt16.toNat_add] at values
  simp only [UInt16.reduceToNat] at values
  omega

theorem startsWith_drop {s p : JsString} (here : startsWith s p = true) : s = p ++ s.drop p.length := by
  obtain ⟨more, rfl⟩ := List.isPrefixOf_iff_prefix.mp here
  simp

/-- A listed address behind `::ffff:` that is written with dots is seen. -/
theorem mapped_value (read : zoned? t = some hs) (here : startsWith t (js "::ffff:") = true)
    (quad : parseIpv4 (t.drop 7) = some o) : isMapped (value hs) = true ∧
      isListed4 (value hs % 4294967296) = isReservedIpv4 (t.drop 7) := by
  have split : t = js "::ffff:" ++ t.drop 7 := startsWith_drop here
  rw [split] at read
  obtain ⟨rfl, octets⟩ := mapped_text read quad
  obtain ⟨ha, hb, hc, hd⟩ := octets_small octets
  have small : o.a * 256 + o.b < 65536 ∧ o.c * 256 + o.d < 65536 := by omega
  obtain ⟨mapped, low⟩ := value_mapped small
  have same : (o.a * 256 + o.b) * 65536 + (o.c * 256 + o.d) = o.value := by
    rw [Octets.value]
    omega
  refine ⟨mapped, ?_⟩
  rw [low, same, isReservedIpv4_exact octets]

/-- A first group, and whether its text is that of a private one. -/
theorem first_group (read : zoned? t = some hs) (lowered : lower t = t) : ∃ h hs', hs = h :: hs' ∧
    (h / 512 = 0x7e ∨ h / 64 = 0x3fa ∨ h / 256 = 0xff → startsReserved t = true) ∧
      (startsReserved t = true → (h / 512 = 0x7e ∨ h / 64 = 0x3fa ∨ h / 256 = 0xff) ∨ ShortLead h) := by
  rcases leads_of_zoned read with ⟨rest, hs', rfl, rfl⟩ | ⟨g, h, rest, hs', rfl, clean, group, rfl, _⟩
  · refine ⟨0, hs', rfl, by omega, fun shown => ?_⟩
    rw [startsReserved_colon] at shown
    cases shown
  · have units := lower_units lowered
    have spelled := startsReserved_spelled group fun u mem => units u (List.mem_append_left _ mem)
    rw [startsReserved_group clean]
    exact ⟨h, hs', rfl, spelled⟩

theorem documentation_text (read : zoned? t = some hs) (here : startsWith t (js "2001:db8:") = true) :
    value hs >>> 96 = 0x20010db8 := by
  have groups := zoned_groups read
  rcases leads_of_zoned read with ⟨rest, hs', rfl, rfl⟩ | ⟨g, h, rest, hs', rfl, clean, group, rfl, more⟩
  · cases here
  · have parts : js "2001:db8:" = js "2001" ++ 58 :: (js "db8" ++ 58 :: []) := by decide
    rw [parts] at here
    obtain ⟨rfl, here⟩ := starts_whole clean (by decide) here
    rcases more with ⟨rest', hs'', rfl, rfl⟩ | ⟨g', h', rest', hs'', rfl, clean', group', rfl, _⟩
    · cases here
    · obtain ⟨rfl, _⟩ := starts_whole clean' (by decide) here
      have first : group? (js "2001") = some 0x2001 := by decide
      have second : group? (js "db8") = some 0xdb8 := by decide
      cases first.symm.trans group
      cases second.symm.trans group'
      rw [value_second groups]

/-- Of the texts that are taken for public, the private ones are the misread. -/
theorem misread_iff (read : zoned? t = some hs) (lowered : lower t = t) (accepted : isReservedNormalized t = false) :
    isListed6 (value hs) = true ↔ Misread t (value hs) := by
  have groups := zoned_groups read
  unfold isReservedNormalized at accepted
  split at accepted
  · cases accepted
  · rename_i shown
    simp only [Bool.or_eq_true, decide_eq_true_eq, not_or, Bool.not_eq_true] at shown
    obtain ⟨⟨⟨zero, one⟩, first⟩, documentation⟩ := shown
    have unseen : isListed4 (value hs % 4294967296) = true →
        ¬ (startsWith t (js "::ffff:") = true ∧ (parseIpv4 (t.drop 7)).isSome = true) := by
      rintro listed ⟨here, quad⟩
      rw [if_pos here] at accepted
      obtain ⟨o, quad⟩ := Option.isSome_iff_exists.mp quad
      rw [(mapped_value read here quad).2, accepted] at listed
      cases listed
    obtain ⟨h, hs', rfl, seen, _⟩ := first_group read lowered
    have spelled : ¬ (h / 512 = 0x7e ∨ h / 64 = 0x3fa ∨ h / 256 = 0xff) := by
      intro isPrivate
      rw [seen isPrivate] at first
      cases first
    rw [isListed6_iff groups]
    constructor
    · rintro (isZero | isOne | isPrivate | isDocumentation | ⟨mapped, listed⟩)
      · exact .inl ⟨isZero, zero⟩
      · exact .inr (.inl ⟨isOne, one⟩)
      · exact absurd isPrivate spelled
      · exact .inr (.inr (.inl ⟨isDocumentation, documentation⟩))
      · exact .inr (.inr (.inr ⟨mapped, listed, unseen listed⟩))
    · rintro (⟨isZero, _⟩ | ⟨isOne, _⟩ | ⟨isDocumentation, _⟩ | ⟨mapped, listed, _⟩)
      · exact .inl isZero
      · exact .inr (.inl isOne)
      · exact .inr (.inr (.inr (.inl isDocumentation)))
      · exact .inr (.inr (.inr (.inr ⟨mapped, listed⟩)))

/-- Why a text is taken for private. -/
theorem reserved_reasons (read : zoned? t = some hs) (lowered : lower t = t) (reserved : isReservedNormalized t = true) :
    (t = js "::" ∧ value hs = 0) ∨ (t = js "::1" ∧ value hs = 1) ∨
      ((value hs >>> 112) / 512 = 0x7e ∨ (value hs >>> 112) / 64 = 0x3fa ∨ (value hs >>> 112) / 256 = 0xff) ∨
      ShortLead (value hs >>> 112) ∨ (startsWith t (js "2001:db8:") = true ∧ value hs >>> 96 = 0x20010db8) ∨
      ((startsWith t (js "::ffff:") = true ∧ (parseIpv4 (t.drop 7)).isSome = true) ∧ isMapped (value hs) = true ∧
        isListed4 (value hs % 4294967296) = true) := by
  have groups := zoned_groups read
  unfold isReservedNormalized at reserved
  split at reserved
  · rename_i shown
    simp only [Bool.or_eq_true, decide_eq_true_eq] at shown
    rcases shown with ((zero | one) | first) | documentation
    · subst zero
      cases read
      exact .inl ⟨rfl, rfl⟩
    · subst one
      cases read
      exact .inr (.inl ⟨rfl, rfl⟩)
    · obtain ⟨h, hs', rfl, _, spelled⟩ := first_group read lowered
      rw [value_head groups]
      rcases spelled first with isPrivate | short
      · exact .inr (.inr (.inl isPrivate))
      · exact .inr (.inr (.inr (.inl short)))
    · exact .inr (.inr (.inr (.inr (.inl ⟨documentation, documentation_text read documentation⟩))))
  · split at reserved
    · rename_i here
      unfold isReservedIpv4 at reserved
      cases quad : parseIpv4 (t.drop 7) with
      | none =>
        rw [quad] at reserved
        cases reserved
      | some o =>
        obtain ⟨mapped, listed⟩ := mapped_value read here quad
        have isListed : isListed4 (value hs % 4294967296) = true := by
          rw [listed, isReservedIpv4]
          exact reserved
        exact .inr (.inr (.inr (.inr (.inr ⟨⟨here, by simp⟩, mapped, isListed⟩))))
    · cases reserved

theorem mapped_head {n : Nat} (mapped : isMapped n = true) : n >>> 112 = 0 ∧ n >>> 96 = 0 ∧ n ≠ 0 ∧ n ≠ 1 := by
  rw [isMapped, beq_iff_eq, Nat.shiftRight_eq_div_pow] at mapped
  simp only [Nat.shiftRight_eq_div_pow, Nat.reducePow] at mapped ⊢
  omega

/-- What is misread is taken for public. -/
theorem not_reserved_of_misread (read : zoned? t = some hs) (lowered : lower t = t) (misread : Misread t (value hs)) :
    isReservedNormalized t = false := by
  cases reserved : isReservedNormalized t with
  | false => rfl
  | true =>
    exfalso
    have reasons := reserved_reasons read lowered reserved
    have documentation : value hs >>> 112 = value hs >>> 96 / 65536 := by
      simp only [Nat.shiftRight_eq_div_pow, Nat.reducePow]
      omega
    unfold ShortLead at reasons
    rcases misread with ⟨isZero, other⟩ | ⟨isOne, other⟩ | ⟨isDocumentation, other⟩ | ⟨mapped, listed, other⟩
    · rw [isZero] at reasons
      simp [other, isMapped] at reasons
    · rw [isOne] at reasons
      simp [other, isMapped] at reasons
    · rw [documentation, isDocumentation, other] at reasons
      rcases reasons with ⟨_, same⟩ | ⟨_, same⟩ | reasons | reasons | ⟨same, _⟩ | ⟨_, mapped, _⟩
      · rw [same] at isDocumentation
        cases isDocumentation
      · rw [same] at isDocumentation
        cases isDocumentation
      · omega
      · omega
      · cases same
      · rw [(mapped_head mapped).2.1] at isDocumentation
        cases isDocumentation
    · obtain ⟨head, second, notZero, notOne⟩ := mapped_head mapped
      rw [head, second] at reasons
      rcases reasons with ⟨_, same⟩ | ⟨_, same⟩ | reasons | reasons | ⟨_, same⟩ | ⟨same, _⟩
      · exact notZero same
      · exact notOne same
      · omega
      · omega
      · cases same
      · exact other same

/-- A number that is not ambiguous is taken for what it is. -/
theorem isReserved_of_not_ambiguous (read : zoned? t = some hs) (lowered : lower t = t) (clear : ¬ Ambiguous (value hs)) :
    isReservedNormalized t = isListed6 (value hs) := by
  have groups := zoned_groups read
  unfold Ambiguous at clear
  cases reserved : isReservedNormalized t with
  | false =>
    cases listed : isListed6 (value hs) with
    | false => rfl
    | true =>
      exfalso
      apply clear
      rcases (misread_iff read lowered reserved).mp listed with ⟨h, _⟩ | ⟨h, _⟩ | ⟨h, _⟩ | ⟨h, h', _⟩
      · exact .inl h
      · exact .inr (.inl h)
      · exact .inr (.inr (.inl h))
      · exact .inr (.inr (.inr (.inl ⟨h, h'⟩)))
  | true =>
    obtain ⟨a, hs', rfl, _⟩ := first_group read lowered
    symm
    rw [isListed6_iff groups]
    rcases reserved_reasons read lowered reserved with ⟨_, h⟩ | ⟨_, h⟩ | h | h | ⟨_, h⟩ | ⟨_, h⟩
    · exact .inl h
    · exact .inr (.inl h)
    · rw [value_head groups] at h
      exact .inr (.inr (.inl h))
    · exact absurd (.inr (.inr (.inr (.inr h)))) clear
    · exact .inr (.inr (.inr (.inl h)))
    · exact .inr (.inr (.inr (.inr h)))

end

/-! ## Two texts of one number -/

theorem exists_groups {n : Nat} (small : n >>> 112 < 65536) : ∃ hs, Groups 8 hs ∧ value hs = n := by
  simp only [Nat.shiftRight_eq_div_pow, Nat.reducePow] at small
  refine ⟨[n >>> 112, n >>> 96 % 65536, n >>> 80 % 65536, n >>> 64 % 65536, n >>> 48 % 65536, n >>> 32 % 65536,
    n >>> 16 % 65536, n % 65536], ⟨rfl, ?_⟩, ?_⟩
  · simp only [Nat.shiftRight_eq_div_pow, Nat.reducePow, List.mem_cons, List.not_mem_nil, or_false, forall_eq_or_imp,
      forall_eq]
    omega
  · rw [value_eight]
    simp only [Nat.shiftRight_eq_div_pow, Nat.reducePow]
    omega

theorem ambiguous_small {n : Nat} (ambiguous : Ambiguous n) : n >>> 112 < 65536 := by
  unfold Ambiguous ShortLead at ambiguous
  rcases ambiguous with rfl | rfl | h | ⟨h, _⟩ | h
  · decide
  · decide
  · simp only [Nat.shiftRight_eq_div_pow, Nat.reducePow] at h ⊢
    omega
  · rw [(mapped_head h).1]
    decide
  · omega

theorem zero_text (s : JsString) : isReservedNormalized (48 :: s) = false := by
  have texts : js "fc" = [102, 99] ∧ js "fd" = [102, 100] ∧ js "fe8" = [102, 101, 56] ∧ js "fe9" = [102, 101, 57] ∧
      js "fea" = [102, 101, 97] ∧ js "feb" = [102, 101, 98] ∧ js "ff" = [102, 102] ∧ js "::" = [58, 58] ∧
      js "::1" = [58, 58, 49] ∧ js "2001:db8:" = 50 :: js "001:db8:" ∧ js "::ffff:" = 58 :: js ":ffff:" := by decide
  obtain ⟨fc, fd, fe8, fe9, fea, feb, ff, zero, one, documentation, mapped⟩ := texts
  simp [isReservedNormalized, startsReserved, startsWith, List.isPrefixOf_cons_cons, fc, fd, fe8, fe9, fea, feb, ff, zero,
    one, documentation, mapped]

/-- Two texts of the number, one taken for private and the other for public. -/
def TwoVerdicts (n : Nat) : Prop := ∃ s s', (address? s = some (.v6 n) ∧ lower s = s ∧ isReservedNormalized s = true) ∧
  address? s' = some (.v6 n) ∧ lower s' = s' ∧ isReservedNormalized s' = false

section
variable {n : Nat} {hs : List Nat} {gs : List JsString}

theorem Row.of_groupTexts (some : hs ≠ []) (small : ∀ h ∈ hs, h < 65536) : Row (hs.map groupText) hs := by
  induction hs with
  | nil => exact absurd rfl some
  | cons h hs ih =>
    rw [List.forall_mem_cons] at small
    cases hs with
    | nil => exact .last (group_groupText small.1)
    | cons h' hs => exact .cons (group_groupText small.1) (ih (by simp) small.2)

theorem lower_hexUnit {n : Nat} (small : n < 16) : asciiLower (hexUnit n) = hexUnit n := by
  have all : ∀ n < 16, asciiLower (hexUnit n) = hexUnit n := by decide
  exact all n small

theorem lower_groupText (h : Nat) : lower (groupText h) = groupText h := by
  have four (n : Nat) : asciiLower (hexUnit (n % 16)) = hexUnit (n % 16) := lower_hexUnit (by omega)
  simp [lower, groupText, four]

theorem lower_shortText (h : Nat) : lower (shortText h) = shortText h := by
  have four (n : Nat) : asciiLower (hexUnit (n % 16)) = hexUnit (n % 16) := lower_hexUnit (by omega)
  unfold shortText
  split
  · simp [lower, four]
  · split
    · simp [lower, four]
    · exact lower_groupText h

theorem lower_join (all : ∀ g ∈ gs, lower g = g) : lower (join gs [58]) = join gs [58] := by
  unfold join
  induction gs with
  | nil => rfl
  | cons g gs ih =>
    rw [List.forall_mem_cons] at all
    cases gs with
    | nil => simpa using all.1
    | cons g' gs =>
      have more := ih all.2
      unfold lower at all more ⊢
      simp only [List.intercalate_cons_cons, List.map_append, List.map_cons, List.map_nil, all.1, more]
      rfl

theorem short_verdicts (groups : Groups 8 hs) (short : ShortLead (value hs >>> 112)) : TwoVerdicts (value hs) := by
  obtain ⟨count, small⟩ := groups
  cases hs with
  | nil => cases count
  | cons a tail =>
    rw [value_head ⟨count, small⟩] at short
    obtain ⟨first, others⟩ := List.forall_mem_cons.mp small
    have some' : tail ≠ [] := by
      rintro rfl
      cases count
    have row := Row.of_groupTexts some' others
    have long : Row (groupText a :: tail.map groupText) (a :: tail) := .cons (group_groupText first) row
    have brief : Row (shortText a :: tail.map groupText) (a :: tail) := .cons (group_shortText first) row
    have less : a < 4096 := by
      unfold ShortLead at short
      omega
    refine ⟨_, _, ⟨brief.address count, lower_join ?_, ?_⟩, long.address count, lower_join ?_, ?_⟩
    · simp [lower_shortText, lower_groupText]
    · have shown : startsReserved (shortText a) = true := by
        have two : ∀ k < 4, startsReserved (shortText (252 + k)) = true ∨ k = 2 := by decide
        have three : ∀ k < 64, startsReserved (shortText (4032 + k)) = true ∨ 32 ≤ k ∧ k < 40 ∨ 44 ≤ k ∧ k < 48 := by
          decide
        unfold ShortLead at short
        by_cases brief : a < 256
        · have found := two (a - 252) (by omega)
          rw [Nat.add_sub_cancel' (by omega)] at found
          exact found.resolve_right (by omega)
        · have found := three (a - 4032) (by omega)
          rw [Nat.add_sub_cancel' (by omega)] at found
          exact found.resolve_right (by omega)
      rw [row.join_cons, isReservedNormalized, startsReserved_group (group_units (group_shortText first)).2.1, shown]
      simp
    · simp [lower_groupText]
    · have zero : groupText a = 48 :: [hexUnit (a / 256 % 16), hexUnit (a / 16 % 16), hexUnit (a % 16)] := by
        have none : a / 4096 % 16 = 0 := by omega
        rw [groupText, none]
        rfl
      rw [row.join_cons, zero, List.cons_append]
      exact zero_text _

theorem documentation_verdicts (groups : Groups 8 hs) (here : value hs >>> 96 = 0x20010db8) : TwoVerdicts (value hs) := by
  obtain ⟨a, b, c, d, e, f, g, h, rfl, ⟨ha, hb, hc, hd⟩, he, hf, hg, hh⟩ := eight_groups groups
  have split := value_second groups
  obtain ⟨rfl, rfl⟩ : a = 0x2001 ∧ b = 0xdb8 := by omega
  have row : Row ([c, d, e, f, g, h].map groupText) [c, d, e, f, g, h] := by
    apply Row.of_groupTexts
    · simp
    · simp [hc, hd, he, hf, hg, hh]
  have brief : Row (js "2001" :: js "db8" :: [c, d, e, f, g, h].map groupText) [0x2001, 0xdb8, c, d, e, f, g, h] :=
    .cons (by decide) (.cons (by decide) row)
  have long : Row (js "2001" :: js "0db8" :: [c, d, e, f, g, h].map groupText) [0x2001, 0xdb8, c, d, e, f, g, h] :=
    .cons (by decide) (.cons (by decide) row)
  have lowered (s : JsString) (same : lower s = s) : lower (join (js "2001" :: s :: [c, d, e, f, g, h].map groupText) [58]) =
      join (js "2001" :: s :: [c, d, e, f, g, h].map groupText) [58] := by
    apply lower_join
    have year : lower (js "2001") = js "2001" := by decide
    simp [same, year, lower_groupText]
  refine ⟨_, _, ⟨brief.address rfl, lowered _ (by decide), ?_⟩, long.address rfl, lowered _ (by decide), ?_⟩
  · have second : Row (js "db8" :: [c, d, e, f, g, h].map groupText) [0xdb8, c, d, e, f, g, h] := .cons (by decide) row
    have shown : startsWith (join (js "2001" :: js "db8" :: [c, d, e, f, g, h].map groupText) [58]) (js "2001:db8:") =
        true := by
      rw [second.join_cons, row.join_cons]
      apply List.isPrefixOf_iff_prefix.mpr
      exact ⟨join ([c, d, e, f, g, h].map groupText) [58], rfl⟩
    rw [isReservedNormalized, shown]
    simp
  · have zoned : zoned? (join (js "2001" :: js "0db8" :: [c, d, e, f, g, h].map groupText) [58]) =
        some [0x2001, 0xdb8, c, d, e, f, g, h] := by
      rw [zoned?, cut_eq_none.mpr long.units.1]
      exact long.hextets rfl
    apply not_reserved_of_misread zoned (lowered _ (by decide))
    refine .inr (.inr (.inl ⟨here, ?_⟩))
    have second : Row (js "0db8" :: [c, d, e, f, g, h].map groupText) [0xdb8, c, d, e, f, g, h] := .cons (by decide) row
    rw [second.join_cons, row.join_cons]
    rfl

/-- An address that begins with zeros. -/
theorem zoned_behind {right : JsString} {r : List Nat} (some' : right ≠ []) (noZone : 37 ∉ right)
    (read : groups? dotted 7 right = some r) (few : r.length ≤ 7) :
    zoned? (58 :: 58 :: right) = some (List.replicate (8 - r.length) 0 ++ r) := by
  have noZone : 37 ∉ 58 :: 58 :: right := by simp [noZone]
  have zeros : cutZeros (58 :: 58 :: right) = some ([], right) := rfl
  rw [zoned?, cut_eq_none.mpr noZone]
  simp [hextets?, zeros, side?, some', read, few]

theorem address_of_zoned {s : JsString} (colon : 58 ∈ s) (read : zoned? s = some hs) : address? s = some (.v6 (value hs)) := by
  have noOctets : octets? s = none := by
    cases found : octets? s with
    | none => rfl
    | some o =>
      have unit := octets_units found colon
      simp [isDigit] at unit
  rw [address?, noOctets, read]
  rfl

theorem mapped_verdicts (groups : Groups 8 hs) (mapped : isMapped (value hs) = true)
    (listed : isListed4 (value hs % 4294967296) = true) : TwoVerdicts (value hs) := by
  obtain ⟨a, b, c, d, e, f, g, h, rfl, ⟨ha, hb, hc, hd⟩, he, hf, hg, hh⟩ := eight_groups groups
  have zeros : a = 0 ∧ b = 0 ∧ c = 0 ∧ d = 0 ∧ e = 0 ∧ f = 65535 := by
    rw [isMapped, value_eight, Nat.shiftRight_eq_div_pow] at mapped
    simp only [Nat.reducePow, beq_iff_eq] at mapped
    omega
  obtain ⟨rfl, rfl, rfl, rfl, rfl, rfl⟩ := zeros
  have small : g / 256 ≤ 255 ∧ g % 256 ≤ 255 ∧ h / 256 ≤ 255 ∧ h % 256 ≤ 255 := by omega
  have quad := octets_octetsText (o := ⟨g / 256, g % 256, h / 256, h % 256⟩) small
  generalize octetsText ⟨g / 256, g % 256, h / 256, h % 256⟩ = d at quad
  have absent (u : UInt16) (other : isDigit u = false ∧ u ≠ 46) : u ∉ d := by
    intro mem
    have unit := octets_units quad mem
    rw [other.1] at unit
    simp [other.2] at unit
  have ffff : group? (js "ffff") = some 65535 := by decide
  have dots : zoned? (58 :: 58 :: (js "ffff" ++ 58 :: d)) = some [0, 0, 0, 0, 0, 65535, g, h] := by
    have read : groups? dotted 7 (js "ffff" ++ 58 :: d) = some [65535, g, h] := by
      rw [groups_cons (by decide), ffff, groups_last (absent 58 (by decide)), dotted, quad]
      have pairs : g / 256 * 256 + g % 256 = g ∧ h / 256 * 256 + h % 256 = h := by omega
      simp [pairs]
    have noZone : 37 ∉ js "ffff" ++ 58 :: d := by
      have none : 37 ∉ js "ffff" := by decide
      simp [none, absent 37 (by decide)]
    exact zoned_behind (by simp) noZone read (by simp)
  have row : Row [js "ffff", groupText g, groupText h] [65535, g, h] :=
    .cons ffff (.cons (group_groupText hg) (.last (group_groupText hh)))
  have plain : zoned? (58 :: 58 :: join [js "ffff", groupText g, groupText h] [58]) =
      some [0, 0, 0, 0, 0, 65535, g, h] := by
    have some' : join [js "ffff", groupText g, groupText h] [58] ≠ [] := by
      rw [Row.join_cons (.cons (group_groupText hg) (.last (group_groupText hh)))]
      simp
    exact zoned_behind some' row.units.1 (row.groups (by simp)) (by simp)
  have behind : join [js "ffff", groupText g, groupText h] [58] = js "ffff" ++ 58 :: (groupText g ++ 58 :: groupText h) := by
    simp [join, List.intercalate_cons_cons]
  rw [behind] at plain
  have lowerDots : lower (58 :: 58 :: (js "ffff" ++ 58 :: d)) = 58 :: 58 :: (js "ffff" ++ 58 :: d) := by
    have quads := octets_lowered quad
    have word : lower (js "ffff") = js "ffff" := by decide
    have colon : asciiLower 58 = 58 := by decide
    simp only [lower, List.map_cons, List.map_append, colon] at quads word ⊢
    rw [quads, word]
  have lowerPlain : lower (58 :: 58 :: (js "ffff" ++ 58 :: (groupText g ++ 58 :: groupText h))) =
      58 :: 58 :: (js "ffff" ++ 58 :: (groupText g ++ 58 :: groupText h)) := by
    have first := lower_groupText g
    have second := lower_groupText h
    have word : lower (js "ffff") = js "ffff" := by decide
    have colon : asciiLower 58 = 58 := by decide
    simp only [lower, List.map_cons, List.map_append, colon] at first second word ⊢
    rw [first, second, word]
  refine ⟨_, _, ⟨address_of_zoned (by simp) dots, lowerDots, ?_⟩, address_of_zoned (by simp) plain, lowerPlain, ?_⟩
  · have here : startsWith (58 :: 58 :: (js "ffff" ++ 58 :: d)) (js "::ffff:") = true := by
      apply List.isPrefixOf_iff_prefix.mpr
      exact ⟨d, rfl⟩
    have quad := parseIpv4_of_octets quad
    have exact := mapped_value dots here quad
    rw [isReservedNormalized, here, if_pos rfl]
    rw [exact.2] at listed
    rw [listed]
    simp
  · apply not_reserved_of_misread plain lowerPlain
    refine .inr (.inr (.inr ⟨mapped, listed, ?_⟩))
    rintro ⟨_, quad⟩
    obtain ⟨o, quad⟩ := Option.isSome_iff_exists.mp quad
    have colon : 58 ∈ List.drop 7 (58 :: 58 :: (js "ffff" ++ 58 :: (groupText g ++ 58 :: groupText h))) := by
      have rest : List.drop 7 (58 :: 58 :: (js "ffff" ++ 58 :: (groupText g ++ 58 :: groupText h))) =
          groupText g ++ 58 :: groupText h := rfl
      rw [rest]
      simp
    have unit := parseIpv4_units quad colon
    simp [isDigit] at unit

theorem two_verdicts (ambiguous : Ambiguous n) : TwoVerdicts n := by
  obtain ⟨hs, groups, rfl⟩ := exists_groups (ambiguous_small ambiguous)
  rcases ambiguous with h | h | h | ⟨h, h'⟩ | h
  · rw [h]
    exact ⟨js "::", js "0::", by decide, by decide⟩
  · rw [h]
    exact ⟨js "::1", js "0::1", by decide, by decide⟩
  · exact documentation_verdicts groups h
  · exact mapped_verdicts groups h h'
  · exact short_verdicts groups h

end

end GuloGulo.Net
