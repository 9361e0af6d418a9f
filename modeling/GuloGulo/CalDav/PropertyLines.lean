import GuloGulo.CalDav.Canonical

/-!
# Property lines

A property is written as its name, its parameters and, after a colon, its
value; a parameter value that holds a colon, a semicolon or a comma stands in
double quotes. `parseProperty` looks for the separators before it looks at the
quotes:

* `parseProperty_clear`: it reads a line back whose parameter values hold
  neither a colon nor a semicolon;
* `parseProperty_units`: a parameter value it returns never holds one, so no
  other line is read back.
-/

namespace GuloGulo.CalDav
open Js Data

/-- `[A-Za-z][A-Za-z0-9-]*`: the pattern of the names, in either case. -/
def isPropertyName : JsString → Bool
  | u :: us => isAlpha u && us.all fun u => isAlnum u || u == 45
  | [] => false

/-- A colon, a semicolon or a comma. -/
def isSeparator (u : UInt16) : Bool := u == 58 || u == 59 || u == 44

def renderValue (value : JsString) : JsString :=
  if value.any isSeparator then 34 :: (value ++ [34]) else value

def renderParameter (parameter : JsString × JsString) : JsString :=
  parameter.1 ++ 61 :: renderValue parameter.2

def renderProperty (name : JsString) (parameters : List (JsString × JsString)) (value : JsString) : JsString :=
  name ++ parameters.flatMap (fun parameter => 59 :: renderParameter parameter) ++ 58 :: value

/-- A name and parameters that can be written: names of their own, in either
case, and values without double quotes. -/
structure Renderable (name : JsString) (parameters : List (JsString × JsString)) : Prop where
  name : isPropertyName name = true
  names : ∀ p ∈ parameters, isPropertyName p.1 = true
  distinct : (parameters.map fun p => p.1.map asciiUpper).Nodup
  unquoted : ∀ p ∈ parameters, 34 ∉ p.2

/-- What the line was written from, with its names in upper case. -/
def ReadsAs (read : Except CalDavError ICalendarProperty) (name : JsString)
    (parameters : List (JsString × JsString)) (value : JsString) : Prop :=
  ∃ property, read = .ok property ∧ property.name = name.map asciiUpper ∧
    property.parameters.rows = parameters.map (fun p => (p.1.map asciiUpper, p.2)) ∧ property.value = value

section
variable {host : Host} {name : JsString} {u : UInt16}

theorem mem_propertyName (h : isPropertyName name = true) (hu : u ∈ name) : isAlnum u = true ∨ u = 45 := by
  cases name with
  | nil => cases h
  | cons v name =>
    simp only [isPropertyName, Bool.and_eq_true, List.all_eq_true, Bool.or_eq_true, beq_iff_eq] at h
    rcases List.mem_cons.mp hu with rfl | hu
    · left
      rw [isAlnum, h.1, Bool.true_or]
    · exact h.2 u hu

/-- No separator of a line is part of a name. -/
theorem not_mem_propertyName (h : isPropertyName name = true) : 58 ∉ name ∧ 59 ∉ name ∧ 61 ∉ name := by
  have outside {v : UInt16} (hv : ¬ (isAlnum v = true ∨ v = 45)) : v ∉ name := fun hm => hv (mem_propertyName h hm)
  exact ⟨outside (by decide), outside (by decide), outside (by decide)⟩

theorem propertyName_ascii (h : isPropertyName name = true) : ∀ u ∈ name, u < 128 := by
  intro u hu
  rcases mem_propertyName h hu with hu | rfl
  · exact isAlnum_ascii u hu
  · decide

theorem toUpperCase_propertyName (h : isPropertyName name = true) :
    host.toUpperCase name = name.map asciiUpper := toUpperCase_of_ascii (propertyName_ascii h)

theorem isUpper_asciiUpper (h : isAlpha u = true) : isUpper (asciiUpper u) = true := by
  unfold asciiUpper
  by_cases lower : isLower u = true
  · rw [if_pos lower]
    simp only [isLower, isUpper, Bool.and_eq_true, decide_eq_true_eq, UInt16.le_iff_toNat_le, UInt16.reduceToNat,
      UInt16.toNat_sub] at lower ⊢
    omega
  · rw [if_neg lower]
    simpa [isAlpha, lower] using h

theorem propertyNamePattern_upper (h : isPropertyName name = true) :
    propertyNamePattern (name.map asciiUpper) = true := by
  cases name with
  | nil => cases h
  | cons u name =>
    simp only [isPropertyName, Bool.and_eq_true, List.all_eq_true, Bool.or_eq_true, beq_iff_eq] at h
    simp only [List.map_cons, propertyNamePattern, Bool.and_eq_true, List.all_eq_true, List.mem_map, Bool.or_eq_true,
      beq_iff_eq]
    refine ⟨isUpper_asciiUpper h.1, ?_⟩
    rintro _ ⟨v, hv, rfl⟩
    rcases h.2 v hv with hv | rfl
    · rw [isAlnum, Bool.or_eq_true] at hv
      rcases hv with alpha | digit
      · exact .inl (.inl (isUpper_asciiUpper alpha))
      · have : asciiUpper v = v := by
          unfold asciiUpper
          rw [if_neg]
          simp only [isDigit, isLower, Bool.and_eq_true, decide_eq_true_eq, UInt16.le_iff_toNat_le,
            UInt16.reduceToNat] at digit ⊢
          omega
        rw [this]
        exact .inl (.inr digit)
    · exact .inr (by decide)

end

section
variable {host : Host} {parameters : List (JsString × JsString)} {m : OrderedMap JsString JsString}

theorem mem_renderValue {value : JsString} {u : UInt16} (h : u ∈ renderValue value) : u = 34 ∨ u ∈ value := by
  unfold renderValue at h
  split at h
  · rcases List.mem_cons.mp h with h | h
    · exact .inl h
    · rcases List.mem_append.mp h with h | h
      · exact .inr h
      · exact .inl (List.mem_singleton.mp h)
  · exact .inr h

theorem mem_renderValue_of_mem {value : JsString} {u : UInt16} (h : u ∈ value) : u ∈ renderValue value := by
  unfold renderValue
  split
  · exact List.mem_cons_of_mem _ (List.mem_append_left _ h)
  · exact h

/-- The quotes of a written value come off, and a value has none of its own. -/
theorem parseParameter_render {p : JsString × JsString} (name : isPropertyName p.1 = true) (unquoted : 34 ∉ p.2) :
    parseParameter host m (renderParameter p) =
      if p.2 = [] then .error (invalidICalendar "iCalendar parameter is invalid")
      else .ok (m.set (p.1.map asciiUpper) p.2) := by
  obtain ⟨key, value⟩ := p
  have nonempty : key.isEmpty = false := by
    cases key with
    | nil => cases name
    | cons => rfl
  unfold parseParameter renderParameter
  rw [cut_append (not_mem_propertyName name).2.2]
  simp only [nonempty, throwIf_false, ok_bind, toUpperCase_propertyName name, propertyNamePattern_upper name,
    Bool.not_true, Bool.false_or]
  by_cases empty : value = []
  · subst empty
    simp [renderValue]
  · rw [if_neg empty]
    by_cases quoted : value.any isSeparator = true
    · have closing : endsWith (34 :: (value ++ [34])) (js "\"") = true := by
        have : js "\"" = [34] := rfl
        rw [endsWith, this, List.isSuffixOf_iff_suffix]
        exact ⟨34 :: value, rfl⟩
      have opening : startsWith (34 :: (value ++ [34])) (js "\"") = true := rfl
      simp [renderValue, quoted, opening, closing, pure, Except.pure]
    · have opening : startsWith value (js "\"") = false := by
        cases value with
        | nil => rfl
        | cons u value =>
          have : u ≠ 34 := by rintro rfl; exact unquoted List.mem_cons_self
          have quote : js "\"" = [34] := rfl
          rw [startsWith, quote, List.isPrefixOf, beq_false_of_ne this.symm, Bool.false_and]
      have closing : endsWith value (js "\"") = false := by
        have quote : js "\"" = [34] := rfl
        rw [Bool.eq_false_iff, endsWith, quote, ne_eq, List.isSuffixOf_iff_suffix]
        rintro ⟨before, same⟩
        exact unquoted (same ▸ by simp)
      have some : value.isEmpty = false := by simpa using empty
      simp [renderValue, quoted, some, opening, closing, pure, Except.pure]

/-- Parameters that can be written and hold no separator the parser would take for its own. -/
def IsClear (p : JsString × JsString) : Prop := p.2 ≠ [] ∧ 58 ∉ p.2 ∧ 59 ∉ p.2

theorem not_mem_renderParameter {p : JsString × JsString} (name : isPropertyName p.1 = true) {u : UInt16}
    (hu : u = 58 ∨ u = 59) : u ∉ renderParameter p ↔ u ∉ p.2 := by
  have inName : u ∉ p.1 := by
    rcases hu with rfl | rfl
    · exact (not_mem_propertyName name).1
    · exact (not_mem_propertyName name).2.1
  have others : u ≠ 61 ∧ u ≠ 34 := by rcases hu with rfl | rfl <;> decide
  constructor
  · intro h inside
    exact h (List.mem_append_right _ (List.mem_cons_of_mem _ (mem_renderValue_of_mem inside)))
  · intro h inside
    rcases List.mem_append.mp inside with inside | inside
    · exact inName inside
    · rcases List.mem_cons.mp inside with same | inside
      · exact others.1 same
      · exact (mem_renderValue inside).elim others.2 h

/-- The parts of the head are the name and the written parameters. -/
theorem split_head {name : JsString} (hn : 59 ∉ name) (h : ∀ p ∈ parameters, 59 ∉ renderParameter p) :
    split (name ++ parameters.flatMap fun p => 59 :: renderParameter p) 59 =
      name :: parameters.map renderParameter := by
  unfold split
  induction parameters generalizing name with
  | nil => simpa using List.splitOn_eq_singleton hn
  | cons p parameters ih =>
    rw [List.forall_mem_cons] at h
    rw [List.flatMap_cons, List.cons_append, List.splitOn_append_cons_self_of_not_mem hn, ih h.1 h.2, List.map_cons]

/-- Each parameter is read back, and goes to the end of the record. -/
theorem foldlM_parseParameter (names : ∀ p ∈ parameters, isPropertyName p.1 = true)
    (unquoted : ∀ p ∈ parameters, 34 ∉ p.2) (some : ∀ p ∈ parameters, p.2 ≠ [])
    (distinct : (m.keys ++ parameters.map fun p => p.1.map asciiUpper).Nodup) :
    ∃ m', (parameters.map renderParameter).foldlM (parseParameter host) m = .ok m' ∧
      m'.rows = m.rows ++ parameters.map fun p => (p.1.map asciiUpper, p.2) := by
  induction parameters generalizing m with
  | nil => exact ⟨m, rfl, by simp⟩
  | cons p parameters ih =>
    rw [List.forall_mem_cons] at names unquoted some
    rw [List.map_cons, List.foldlM_cons, parseParameter_render names.1 unquoted.1, if_neg some.1, ok_bind]
    have fresh : p.1.map asciiUpper ∉ m.keys := by
      rw [List.map_cons] at distinct
      intro present
      exact (List.nodup_append.mp distinct).2.2 _ present _ List.mem_cons_self rfl
    obtain ⟨m', folded, rows⟩ := ih names.2 unquoted.2 some.2 (by
      rw [OrderedMap.keys_set_fresh fresh p.2]
      simpa using distinct)
    refine ⟨m', folded, ?_⟩
    rw [rows, OrderedMap.rows_set_fresh (OrderedMap.get_eq_none_of_keys fresh)]
    simp

/-- A line whose parameter values hold no separator of the parser's own is read back. -/
theorem parseProperty_clear {name value : JsString} (h : Renderable name parameters)
    (clear : ∀ p ∈ parameters, IsClear p) :
    ReadsAs (parseProperty host (renderProperty name parameters value)) name parameters value := by
  have named := not_mem_propertyName h.name
  have noColon : 58 ∉ name ++ parameters.flatMap fun p => 59 :: renderParameter p := by
    intro inside
    rcases List.mem_append.mp inside with inside | inside
    · exact named.1 inside
    · obtain ⟨p, hp, inside⟩ := List.mem_flatMap.mp inside
      rcases List.mem_cons.mp inside with inside | inside
      · exact absurd inside (by decide)
      · exact (not_mem_renderParameter (h.names p hp) (.inl rfl)).mpr (clear p hp).2.1 inside
  have noSemicolon : ∀ p ∈ parameters, 59 ∉ renderParameter p :=
    fun p hp => (not_mem_renderParameter (h.names p hp) (.inr rfl)).mpr (clear p hp).2.2
  have nonempty : (name ++ parameters.flatMap fun p => 59 :: renderParameter p).isEmpty = false := by
    cases name with
    | nil => cases h.name
    | cons => rfl
  obtain ⟨m, folded, rows⟩ : ∃ m, (parameters.map renderParameter).foldlM (parseParameter host) Table.empty = .ok m ∧
      m.rows = (Table.empty : OrderedMap JsString JsString).rows ++ parameters.map fun p => (p.1.map asciiUpper, p.2) :=
    foldlM_parseParameter h.names h.unquoted (fun p hp => (clear p hp).1)
      (by simpa [OrderedMap.keys, Table.empty] using h.distinct)
  refine ⟨⟨name.map asciiUpper, value, m⟩, ?_, rfl, by simpa [Table.empty] using rows, rfl⟩
  unfold parseProperty renderProperty
  rw [cut_append noColon]
  simp only [nonempty, throwIf_false, ok_bind, split_head named.2.1 noSemicolon, List.headD_cons,
    toUpperCase_propertyName h.name, propertyNamePattern_upper h.name, Bool.not_true, List.tail_cons, folded]
  rfl

/-- A parameter value is a piece of its part. -/
theorem parseParameter_units {m' : OrderedMap JsString JsString} {part : JsString}
    (h : parseParameter host m part = .ok m') {r : JsString × JsString} (hr : r ∈ m'.rows) :
    r ∈ m.rows ∨ ∀ u ∈ r.2, u ∈ part := by
  unfold parseParameter at h
  split at h
  · rename_i before parameterValue found
    obtain ⟨_, _, h⟩ := bind_eq_ok.mp h
    obtain ⟨_, _, h⟩ := bind_eq_ok.mp h
    obtain ⟨_, _, h⟩ := bind_eq_ok.mp h
    cases h
    have inside : ∀ u ∈ parameterValue, u ∈ part := by
      intro u hu
      rw [cut_eq_some found]
      exact List.mem_append_right _ (List.mem_cons_of_mem _ hu)
    rcases OrderedMap.mem_rows_set hr with stored | rfl
    · exact .inl stored
    · right
      intro u hu
      dsimp only at hu
      split at hu
      · exact inside u (List.mem_of_mem_drop (List.dropLast_subset _ hu))
      · exact inside u hu
  · cases h

theorem foldlM_parseParameter_units {m' : OrderedMap JsString JsString} {parts : List JsString}
    (h : parts.foldlM (parseParameter host) m = .ok m') {r : JsString × JsString} (hr : r ∈ m'.rows) :
    r ∈ m.rows ∨ ∃ part ∈ parts, ∀ u ∈ r.2, u ∈ part := by
  induction parts generalizing m with
  | nil =>
    cases h
    exact .inl hr
  | cons part parts ih =>
    rw [List.foldlM_cons, bind_eq_ok] at h
    obtain ⟨next, first, rest⟩ := h
    rcases ih rest with earlier | ⟨part', mem, units⟩
    · rcases parseParameter_units first earlier with earlier | units
      · exact .inl earlier
      · exact .inr ⟨part, List.mem_cons_self, units⟩
    · exact .inr ⟨part', List.mem_cons_of_mem _ mem, units⟩

/-- What a line is cut into: the head is the text before the first colon, and
its parts hold no semicolon. -/
theorem parseProperty_units {line : JsString} {property : ICalendarProperty}
    (h : parseProperty host line = .ok property) :
    ∃ head, line = head ++ 58 :: property.value ∧ 58 ∉ head ∧
      (split head 59).tail.foldlM (parseParameter host) Table.empty = .ok property.parameters ∧
      ∀ r ∈ property.parameters.rows, 59 ∉ r.2 := by
  unfold parseProperty at h
  split at h
  · rename_i head value found
    obtain ⟨_, _, h⟩ := bind_eq_ok.mp h
    obtain ⟨_, _, h⟩ := bind_eq_ok.mp h
    obtain ⟨parameters, folded, h⟩ := bind_eq_ok.mp h
    cases h
    refine ⟨head, cut_eq_some found, not_mem_of_cut found, folded, ?_⟩
    intro r hr inside
    rcases foldlM_parseParameter_units folded hr with none | ⟨part, mem, units⟩
    · cases none
    · exact not_mem_of_mem_split (List.mem_of_mem_tail mem) (units 59 inside)
  · cases h

theorem foldlM_mem {parts : List JsString} {m' : OrderedMap JsString JsString}
    (h : parts.foldlM (parseParameter host) m = .ok m') {part : JsString} (hp : part ∈ parts) :
    ∃ before after, parseParameter host before part = .ok after := by
  induction parts generalizing m with
  | nil => cases hp
  | cons first parts ih =>
    rw [List.foldlM_cons, bind_eq_ok] at h
    obtain ⟨next, read, rest⟩ := h
    rcases List.mem_cons.mp hp with rfl | hp
    · exact ⟨m, next, read⟩
    · exact ih rest hp

/-- A line is read back exactly when its parameter values are not empty and
hold neither a colon nor a semicolon, quoted or not. -/
theorem parseProperty_readsAs_iff (host : Host) {name : JsString} {parameters : List (JsString × JsString)}
    (h : Renderable name parameters) (value : JsString) :
    ReadsAs (parseProperty host (renderProperty name parameters value)) name parameters value ↔
      ∀ p ∈ parameters, IsClear p := by
  refine ⟨?_, parseProperty_clear h⟩
  rintro ⟨property, read, _, rows, same⟩
  obtain ⟨head, line, colon, folded, semicolon⟩ := parseProperty_units read
  rw [same, renderProperty] at line
  obtain rfl := (List.append_cancel_right line).symm
  have noColon : ∀ p ∈ parameters, 58 ∉ p.2 := by
    intro p hp
    rw [← not_mem_renderParameter (h.names p hp) (.inl rfl)]
    intro inside
    apply colon
    apply List.mem_append_right
    exact List.mem_flatMap.mpr ⟨p, hp, List.mem_cons_of_mem _ inside⟩
  have noSemicolon : ∀ p ∈ parameters, 59 ∉ p.2 := by
    intro p hp
    apply semicolon (p.1.map asciiUpper, p.2)
    rw [rows]
    exact List.mem_map_of_mem hp
  have parts := split_head (not_mem_propertyName h.name).2.1
    fun p hp => (not_mem_renderParameter (h.names p hp) (.inr rfl)).mpr (noSemicolon p hp)
  rw [parts, List.tail_cons] at folded
  intro p hp
  refine ⟨?_, noColon p hp, noSemicolon p hp⟩
  intro empty
  obtain ⟨before, after, accepted⟩ := foldlM_mem folded (List.mem_map_of_mem hp)
  rw [parseParameter_render (h.names p hp) (h.unquoted p hp), if_pos empty] at accepted
  cases accepted

end

/-- `ATTENDEE;CN="Doe, John";ROLE=CHAIR:mailto:a@b`. -/
def plainAttendee : List (JsString × JsString) := [(js "CN", js "Doe, John"), (js "role", js "CHAIR")]

theorem plainAttendee_renderable : Renderable (js "attendee") plainAttendee where
  name := by decide
  names := by decide
  distinct := by decide
  unquoted := by decide

theorem plainAttendee_readsAs :
    ReadsAs (parseProperty asciiHost (renderProperty (js "attendee") plainAttendee (js "mailto:a@b")))
      (js "attendee") plainAttendee (js "mailto:a@b") ↔ ∀ p ∈ plainAttendee, IsClear p :=
  parseProperty_readsAs_iff asciiHost plainAttendee_renderable (js "mailto:a@b")

/-- `ATTENDEE;CN="Doe; John: PhD":mailto:a@b` is refused: the first colon and
the semicolon are the quoted ones. -/
theorem quotedAttendee_not_readsAs :
    ¬ ∀ (host : Host) (name : JsString) (parameters : List (JsString × JsString)) (value : JsString),
      Renderable name parameters →
      ReadsAs (parseProperty host (renderProperty name parameters value)) name parameters value := by
  intro h
  have written : Renderable (js "ATTENDEE") [(js "CN", js "Doe; John: PhD")] :=
    ⟨by decide, by decide, by decide, by decide⟩
  obtain ⟨property, read, _⟩ := h asciiHost _ _ (js "mailto:a@b") written
  have refused : (parseProperty asciiHost
      (renderProperty (js "ATTENDEE") [(js "CN", js "Doe; John: PhD")] (js "mailto:a@b"))).toOption.isSome = false := by
    decide
  rw [read] at refused
  cases refused

end GuloGulo.CalDav
