import GuloGulo.CalDav.ICalendar

/-!
# Validating canonical text

The validator reads the lines of its own output back unchanged, so all that a
second validation can refuse is what the first one measured before unfolding:
the length of a line and the size of the text.
-/

namespace GuloGulo.CalDav
open Js Data

/-- Lines that pass the checks on their number and their characters. -/
structure PlainLines (lines : List JsString) : Prop where
  nonempty : lines ≠ []
  count : lines.length ≤ maxICalendarLines
  noLf : ∀ l ∈ lines, 10 ∉ l
  noControl : ∀ l ∈ lines, l.any isRefusedControl = false

theorem canonicalLineEndings_eq_ok {text : JsString} {lines : List JsString} {canonical : JsString}
    (h : canonicalLineEndings (.string text) = .ok (lines, canonical)) :
    PlainLines lines ∧ lines = logicalLines (replaceAll text crlf lf) ∧
      canonical = lines.flatMap (· ++ crlf) := by
  simp only [canonicalLineEndings, bind_eq_ok, throwIf_eq_ok, failIf_eq_ok, pure, Except.pure,
    Except.ok.injEq, Prod.mk.injEq] at h
  obtain ⟨_, _, _, _, _, _, _, hcount, _, _, _, hcontrol, _, hne, unfolded, hunfold, rfl, rfl⟩ := h
  obtain ⟨hlen, hne', hunits⟩ := unfoldLines_spec hunfold
  have hne := hne' (by simpa using hne)
  refine ⟨⟨hne, ?_, ?_, ?_⟩, (logicalLines_of_unfoldLines hunfold).symm, join_terminated hne crlf⟩
  · simp only [decide_eq_false_iff_not] at hcount
    omega
  · intro l hl hm
    obtain ⟨m, hm, hu⟩ := hunits l hl 10 hm
    exact not_mem_of_mem_split (mem_split_of_mem_splitLines hm) hu
  · intro l hl
    rw [List.any_eq_false]
    intro u hu
    obtain ⟨m, hm, hum⟩ := hunits l hl u hu
    exact List.any_eq_false.mp (by simpa using List.any_eq_false.mp hcontrol m hm) u hum

theorem head_split {u sep : UInt16} (h : u ≠ sep) (s : JsString) :
    ∃ t, (split (u :: s) sep).headD [] = u :: t := by
  unfold split
  rw [List.splitOn_cons_eq_if_modifyHead]
  have hne : (u == sep) = false := by simpa using h
  cases hs : List.splitOn sep s with
  | nil => exact absurd hs (List.splitOn_ne_nil sep s)
  | cons first others => simp [hne]

theorem parseProperty_flat {host : Host} {line : JsString} {p : ICalendarProperty}
    (h : parseProperty host line = .ok p) : startsWithBlank line = false := by
  rw [Bool.eq_false_iff]
  intro hblank
  obtain ⟨u, rest, rfl, hu⟩ : ∃ u rest, line = u :: rest ∧ (u = 32 ∨ u = 9) := by
    cases line with
    | nil => cases hblank
    | cons u rest => exact ⟨u, rest, rfl, by simpa [startsWithBlank] using hblank⟩
  have hcolon : u ≠ 58 := by rcases hu with rfl | rfl <;> decide
  have hsemicolon : u ≠ 59 := by rcases hu with rfl | rfl <;> decide
  have hascii : u < 128 := by rcases hu with rfl | rfl <;> decide
  have hname : isUpper (asciiUpper u) = false := by rcases hu with rfl | rfl <;> decide
  simp only [parseProperty, cut, hcolon, ↓reduceIte] at h
  cases hcut : cut rest 58 with
  | none => simp [hcut] at h
  | some parts =>
    obtain ⟨t, ht⟩ := head_split hsemicolon parts.1
    have hrefused : propertyNamePattern (host.toUpperCase (u :: t)) = false := by
      simp [host.toUpperCase_ascii u t hascii, propertyNamePattern, hname]
    simp only [hcut, Option.map_some, List.isEmpty_cons, throwIf_false, ok_bind, ht, hrefused,
      Bool.not_false, throwIf_true, error_bind, reduceCtorEq] at h

theorem matchBoundary_flat {keyword line name : JsString} (h : matchBoundary keyword line = some name)
    {u : UInt16} {rest : JsString} (hk : keyword = u :: rest) (hu : u ≠ 32 ∧ u ≠ 9) :
    startsWithBlank line = false := by
  subst hk
  unfold matchBoundary at h
  split at h
  · rename_i hs
    cases line with
    | nil => rfl
    | cons v line =>
      have : u = v := by
        simp only [startsWith, List.isPrefixOf, Bool.and_eq_true, beq_iff_eq] at hs
        exact hs.1
      subst this
      simp [startsWithBlank, hu]
  · cases h

theorem parseLine_flat {host : Host} {p q : ComponentParser} {line : JsString}
    (h : parseLine host p line = .ok q) : startsWithBlank line = false := by
  cases hb : matchBoundary (js "BEGIN:") line with
  | some name => exact matchBoundary_flat hb (u := 66) rfl (by decide)
  | none =>
    cases he : matchBoundary (js "END:") line with
    | some name => exact matchBoundary_flat he (u := 69) rfl (by decide)
    | none =>
      simp only [parseLine, hb, he, propertyLine] at h
      split at h
      · cases h
      · obtain ⟨property, hproperty, _⟩ := bind_eq_ok.mp h
        exact parseProperty_flat hproperty

theorem parseLines_flat {host : Host} {lines : List JsString} {root : ICalendarComponent}
    (h : parseLines host lines = .ok root) : ∀ l ∈ lines, startsWithBlank l = false := by
  obtain ⟨p, hp, _⟩ := bind_eq_ok.mp h
  clear h
  generalize (⟨[], 0, none⟩ : ComponentParser) = start at hp
  induction lines generalizing start with
  | nil => simp
  | cons line lines ih =>
    rw [List.foldlM_cons, bind_eq_ok] at hp
    obtain ⟨mid, hline, hrest⟩ := hp
    rw [List.forall_mem_cons]
    exact ⟨parseLine_flat hline, ih mid hrest⟩

/-- The limits, on the logical lines. -/
structure FitsLimits (lines : List JsString) : Prop where
  line : ∀ l ∈ lines, l.length ≤ maxICalendarLineLength
  bytes : (lines.map fun l => byteLength l + 2).sum ≤ maxICalendarBytes

/-- Of plain lines under CRLF, only the two limits and the folding are still open. -/
theorem canonicalLineEndings_lines {lines : List JsString} (h : PlainLines lines) :
    canonicalLineEndings (.string (lines.flatMap (· ++ crlf))) = do
      failIf (decide (maxICalendarBytes < (lines.map fun l => byteLength l + 2).sum))
        "iCalendar exceeds the maximum object size" .icalendarTooLarge 413
      failIf (lines.any fun line => maxICalendarLineLength < line.length)
        "iCalendar line exceeds the maximum length" .icalendarTooLarge 413
      let unfolded ←
        unfoldLines (invalidICalendar "iCalendar continuation appears before a property") lines
      return (unfolded, join unfolded crlf ++ crlf) := by
  have hempty : lines.isEmpty = false := by simpa using h.nonempty
  have hne : (lines.flatMap (· ++ crlf)).isEmpty = false := by
    obtain ⟨l, rest, rfl⟩ := List.exists_cons_of_ne_nil h.nonempty
    simp [crlf]
  have hcrlf : includes (lines.flatMap (· ++ crlf)) crlf = true := by
    obtain ⟨l, rest, rfl⟩ := List.exists_cons_of_ne_nil h.nonempty
    rw [List.flatMap_cons, List.append_assoc]
    exact includes_append l (includes_self crlf _)
  have hsplit : splitLines (replaceAll (lines.flatMap (· ++ crlf)) crlf lf) = lines := by
    rw [replaceAll_crlf_lines h.noLf, splitLines_terminated h.noLf]
  have hcount : ¬ maxICalendarLines < lines.length := Nat.not_lt.mpr h.count
  have hcontrol : (lines.any fun line => line.any isRefusedControl) = false := by
    rw [List.any_eq_false]
    exact fun l hl => by simp [h.noControl l hl]
  simp only [canonicalLineEndings, hsplit, byteLength_lines, hcrlf, hcontrol, decide_eq_false hcount,
    hempty, hne, failIf, Bool.not_true, Bool.and_false, throwIf_false, ok_bind]

theorem canonicalLineEndings_canonical {lines : List JsString} (h : PlainLines lines)
    (flat : ∀ l ∈ lines, startsWithBlank l = false) :
    canonicalLineEndings (.string (lines.flatMap (· ++ crlf))) = do
      failIf (decide (maxICalendarBytes < (lines.map fun l => byteLength l + 2).sum))
        "iCalendar exceeds the maximum object size" .icalendarTooLarge 413
      failIf (lines.any fun line => maxICalendarLineLength < line.length)
        "iCalendar line exceeds the maximum length" .icalendarTooLarge 413
      return (lines, lines.flatMap (· ++ crlf)) := by
  simp only [canonicalLineEndings_lines h, unfoldLines_flat flat, ok_bind, join_terminated h.nonempty]

theorem validateICalendar_eq_ok {host : Host} {text : JsString} {r : ValidatedICalendar}
    (h : validateICalendar host (.string text) = .ok r) :
    ∃ lines root, PlainLines lines ∧ lines = logicalLines (replaceAll text crlf lf) ∧
      parseLines host lines = .ok root ∧
      calendarMetadata host root = .ok r.toICalendarMetadata ∧
      r.canonicalText = lines.flatMap (· ++ crlf) := by
  simp only [validateICalendar, bind_eq_ok, pure, Except.pure, Except.ok.injEq] at h
  obtain ⟨⟨lines, canonical⟩, hlines, root, hroot, metadata, hmetadata, rfl⟩ := h
  obtain ⟨hwf, hlogical, hcanonical⟩ := canonicalLineEndings_eq_ok hlines
  exact ⟨lines, root, hwf, hlogical, hroot, hmetadata, hcanonical⟩

/-- Canonical text is accepted again, as the same record, exactly when its
logical lines keep to the limits that the first validation applied to the
physical ones. -/
theorem validateICalendar_again {host : Host} {text : JsString} {r : ValidatedICalendar}
    (h : validateICalendar host (.string text) = .ok r) :
    validateICalendar host (.string r.canonicalText) = .ok r ↔
      FitsLimits (logicalLines (replaceAll text crlf lf)) := by
  obtain ⟨lines, root, hwf, rfl, hroot, hmetadata, hcanonical⟩ := validateICalendar_eq_ok h
  have hagain := canonicalLineEndings_canonical hwf (parseLines_flat hroot)
  simp only [validateICalendar, hcanonical, hagain]
  constructor
  · intro hok
    simp only [bind_eq_ok, failIf_eq_ok, decide_eq_false_iff_not, List.any_eq_false] at hok
    obtain ⟨_, ⟨_, hbytes, _, hline, _⟩, _⟩ := hok
    exact ⟨fun l hl => by simpa using hline l hl, by omega⟩
  · intro fits
    have hbytes : ¬ maxICalendarBytes < _ := Nat.not_lt.mpr fits.bytes
    have hline : ((logicalLines (replaceAll text crlf lf)).any fun line =>
        maxICalendarLineLength < line.length) = false := by
      rw [List.any_eq_false]
      exact fun l hl => by simpa using fits.line l hl
    simp only [decide_eq_false hbytes, hline, failIf, throwIf_false, ok_bind, pure, Except.pure,
      hroot, hmetadata, ← hcanonical]

theorem canonicalText_wellFormed_iff {host : Host} {text : JsString} {r : ValidatedICalendar}
    (h : validateICalendar host (.string text) = .ok r) :
    isWellFormed r.canonicalText ↔ ∀ l ∈ logicalLines (replaceAll text crlf lf), isWellFormed l := by
  obtain ⟨lines, root, _, rfl, _, _, hcanonical⟩ := validateICalendar_eq_ok h
  rw [hcanonical, isWellFormed_lines]

end GuloGulo.CalDav
