import GuloGulo.CardDav.VCard
import GuloGulo.Js.Lines

/-!
# Validating canonical vCards

The validator reads the lines of its own output back unchanged. What the second
validation can refuse is what the first one measured before unfolding: the
length of a line and the size of the text.
-/

namespace GuloGulo.CardDav
open Js

/-- The lines of a vCard once it is unfolded. -/
def vCardLines (text : JsString) : List JsString :=
  logicalLines (replaceAll (replaceAll text crlf lf) cr lf)

/-- The limits, on the unfolded lines. -/
structure FitsVCardLimits (lines : List JsString) : Prop where
  line : ∀ l ∈ lines, l.length ≤ maxVCardLineLength
  bytes : (lines.map fun l => byteLength l + 2).sum ≤ maxVCardBytes

/-- Unfolded lines that are properties. -/
structure PropertyLines (lines : List JsString) : Prop where
  nonempty : lines ≠ []
  noLineEnd : ∀ l ∈ lines, 10 ∉ l ∧ 13 ∉ l ∧ 0 ∉ l
  flat : ∀ l ∈ lines, startsWithBlank l = false

theorem foldlM_unfoldVCardLine {lines unfolded unfolded' : List JsString} :
    lines.foldlM unfoldVCardLine unfolded = .ok unfolded' ↔
      (∀ l ∈ lines, l.length ≤ maxVCardLineLength) ∧
        lines.foldlM (unfoldLine (cardDavError (js "vCard folding cannot start the object") .vcardInvalid 400))
          unfolded = .ok unfolded' := by
  induction lines generalizing unfolded with
  | nil => simp
  | cons l lines ih =>
    have first {mid : List JsString} : unfoldVCardLine unfolded l = .ok mid ↔ l.length ≤ maxVCardLineLength ∧
        unfoldLine (cardDavError (js "vCard folding cannot start the object") .vcardInvalid 400) unfolded l = .ok mid := by
      simp [unfoldVCardLine, bind_eq_ok, failIf_eq_ok]
    simp only [List.foldlM_cons, bind_eq_ok, first, ih, List.forall_mem_cons]
    constructor
    · rintro ⟨mid, ⟨short, step⟩, shorts, rest⟩
      exact ⟨⟨short, shorts⟩, mid, step, rest⟩
    · rintro ⟨⟨short, shorts⟩, mid, step, rest⟩
      exact ⟨mid, ⟨short, step⟩, shorts, rest⟩

theorem unfoldVCardLines_eq_ok {text : JsString} {lines : List JsString} (h : unfoldVCardLines text = .ok lines) :
    lines ≠ [] ∧ lines = vCardLines text ∧
      ∀ l ∈ lines, ∀ u ∈ l, u ∈ replaceAll (replaceAll text crlf lf) cr lf ∧ u ≠ 10 := by
  simp only [unfoldVCardLines, bind_eq_ok, failIf_eq_ok, pure, Except.pure, Except.ok.injEq, List.isEmpty_eq_false_iff] at h
  obtain ⟨rev, folded, _, nonempty, rfl⟩ := h
  have unfolded : unfoldLines (cardDavError (js "vCard folding cannot start the object") .vcardInvalid 400)
      (splitLines (replaceAll (replaceAll text crlf lf) cr lf)) = .ok rev.reverse := by
    simp [unfoldLines, (foldlM_unfoldVCardLine.mp folded).2, pure, Except.pure]
  refine ⟨by simpa using nonempty, (logicalLines_of_unfoldLines unfolded).symm, ?_⟩
  intro l hl u hu
  obtain ⟨m, hm, hu⟩ := (unfoldLines_spec unfolded).2.2 l hl u hu
  have part := mem_split_of_mem_splitLines hm
  refine ⟨mem_of_mem_split part hu, ?_⟩
  rintro rfl
  exact not_mem_of_mem_split part hu

theorem splitLines_terminated_crlf {lines : List JsString} (h : ∀ l ∈ lines, 10 ∉ l ∧ 13 ∉ l) :
    splitLines (replaceAll (replaceAll (lines.flatMap (· ++ crlf)) crlf lf) cr lf) = lines := by
  have noLf : ∀ l ∈ lines, 10 ∉ l := fun l hl => (h l hl).1
  have noCr : 13 ∉ lines.flatMap (· ++ lf) := by
    intro inside
    obtain ⟨l, hl, inside⟩ := List.mem_flatMap.mp inside
    rcases List.mem_append.mp inside with inside | inside
    · exact (h l hl).2 inside
    · exact absurd inside (by decide)
  rw [replaceAll_crlf_lines noLf, cr, replaceAll_of_not_mem noCr, splitLines_terminated noLf]

theorem splitLines_canonical {lines : List JsString} (h : PropertyLines lines) :
    splitLines (replaceAll (replaceAll (lines.flatMap (· ++ crlf)) crlf lf) cr lf) = lines :=
  splitLines_terminated_crlf fun l hl => ⟨(h.noLineEnd l hl).1, (h.noLineEnd l hl).2.1⟩

/-- Canonical text has the lines it was made of. -/
theorem vCardLines_canonical {lines : List JsString} (h : PropertyLines lines) :
    vCardLines (lines.flatMap (· ++ crlf)) = lines := by
  have flat : unfoldLines () (splitLines (replaceAll (replaceAll (lines.flatMap (· ++ crlf)) crlf lf) cr lf)) =
      .ok lines := by
    rw [splitLines_canonical h]
    exact unfoldLines_flat h.flat
  exact logicalLines_of_unfoldLines flat

/-- Property lines under CRLF unfold to themselves, if none is too long. -/
theorem unfoldVCardLines_canonical {lines : List JsString} (h : PropertyLines lines) :
    unfoldVCardLines (lines.flatMap (· ++ crlf)) = .ok lines ↔ ∀ l ∈ lines, l.length ≤ maxVCardLineLength := by
  simp only [unfoldVCardLines, splitLines_canonical h, bind_eq_ok, failIf_eq_ok, pure, Except.pure, Except.ok.injEq]
  constructor
  · rintro ⟨rev, folded, _⟩
    exact (foldlM_unfoldVCardLine.mp folded).1
  · intro short
    refine ⟨lines.reverse, foldlM_unfoldVCardLine.mpr ⟨short, ?_⟩, (), ?_, List.reverse_reverse lines⟩
    · rw [foldlM_unfoldLine_flat h.flat, List.append_nil]
    · simpa using h.nonempty

theorem parseVCardProperty_flat {line : JsString} {property : VCardProperty}
    (h : parseVCardProperty line = .ok property) : startsWithBlank line = false := by
  rw [Bool.eq_false_iff]
  intro blank
  obtain ⟨u, rest, rfl, hu⟩ : ∃ u rest, line = u :: rest ∧ (u = 32 ∨ u = 9) := by
    cases line with
    | nil => cases blank
    | cons u rest => exact ⟨u, rest, rfl, by simpa [startsWithBlank] using blank⟩
  have outside : isWordUnit u = false := by rcases hu with rfl | rfl <;> decide
  have word : (u :: rest).takeWhile isWordUnit = [] := by rw [List.takeWhile_cons, outside]; rfl
  have none : matchVCardProperty (u :: rest) = none := by
    unfold matchVCardProperty
    simp only [word, isWord, Bool.false_and, Bool.false_eq_true, ↓reduceIte]
    split <;> rfl
  rw [parseVCardProperty, none] at h
  cases h

theorem mapM_mem {lines : List JsString} {properties : List VCardProperty}
    (h : lines.mapM parseVCardProperty = .ok properties) {l : JsString} (hl : l ∈ lines) :
    ∃ property, parseVCardProperty l = .ok property := by
  induction lines generalizing properties with
  | nil => cases hl
  | cons first lines ih =>
    rw [List.mapM_cons, bind_eq_ok] at h
    obtain ⟨property, parsed, h⟩ := h
    obtain ⟨others, rest, _⟩ := bind_eq_ok.mp h
    rcases List.mem_cons.mp hl with rfl | hl
    · exact ⟨property, parsed⟩
    · exact ih rest hl

/-- What the validator makes of the unfolded lines. -/
def validateLines (host : Host) (lines : List JsString) : Except CardDavError ParsedVCard := do
  failIf (host.toUpperCase (lines.headD []) != js "BEGIN:VCARD" ||
      host.toUpperCase (lines.getLastD []) != js "END:VCARD")
    "vCard must contain one BEGIN:VCARD and one END:VCARD" .vcardInvalid 400
  let properties ← lines.mapM parseVCardProperty
  failIf (!isBoundary properties.head? "BEGIN" || !isBoundary properties.getLast? "END")
    "vCard boundaries are invalid" .vcardInvalid 400
  failIf ((named properties "BEGIN").length != 1 || (named properties "END").length != 1)
    "a CardDAV object must contain exactly one vCard" .vcardMultipleObjects 400
  let version ← vCardVersion properties
  let uidValue ← vCardUid properties
  let fullName ← vCardFullName properties
  let uid := unescapeVCardText uidValue
  failIf (decide (256 < uid.length) || uid.contains 10 || uid.contains 13) "vCard UID is invalid"
    .vcardUidInvalid 400
  return {
    canonical := join lines crlf ++ crlf
    version, uid, fullName
    mediaType := js "text/vcard; version=" ++ version
    propertyNames := (Data.unique ((properties.drop 1).dropLast.map (·.name))).insertionSort (· ≤ ·)
    emailCount := (named properties "EMAIL").length
    telCount := (named properties "TEL").length }

theorem validateVCardText_eq {host : Host} (text : JsString) : validateVCardText host (.string text) = (do
    failIf (decide (maxVCardBytes < byteLength text)) "vCard exceeds the maximum size" .vcardTooLarge 413
    failIf (text.contains 0) "vCard contains a NUL character" .vcardInvalid 400
    let lines ← unfoldVCardLines text
    validateLines host lines) := rfl

theorem validateLines_eq_ok {host : Host} {lines : List JsString} {parsed : ParsedVCard}
    (h : validateLines host lines = .ok parsed) :
    parsed.canonical = join lines crlf ++ crlf ∧ ∀ l ∈ lines, startsWithBlank l = false := by
  simp only [validateLines, bind_eq_ok, pure, Except.pure, Except.ok.injEq] at h
  obtain ⟨_, _, properties, parses, _, _, _, _, _, _, _, _, _, _, _, _, rfl⟩ := h
  refine ⟨rfl, ?_⟩
  intro l hl
  obtain ⟨property, parsed⟩ := mapM_mem parses hl
  exact parseVCardProperty_flat parsed

theorem validateVCardText_eq_ok {host : Host} {text : JsString} {parsed : ParsedVCard}
    (h : validateVCardText host (.string text) = .ok parsed) :
    PropertyLines (vCardLines text) ∧ validateLines host (vCardLines text) = .ok parsed ∧
      parsed.canonical = (vCardLines text).flatMap (· ++ crlf) := by
  rw [validateVCardText_eq] at h
  simp only [bind_eq_ok, failIf_eq_ok] at h
  obtain ⟨_, _, _, noNul, lines, unfolded, valid⟩ := h
  obtain ⟨nonempty, rfl, units⟩ := unfoldVCardLines_eq_ok unfolded
  obtain ⟨canonical, flat⟩ := validateLines_eq_ok valid
  refine ⟨⟨nonempty, ?_, flat⟩, valid, canonical.trans (join_terminated nonempty crlf)⟩
  intro l hl
  refine ⟨fun inside => (units l hl 10 inside).2 rfl, ?_, ?_⟩
  · intro inside
    exact not_mem_replaceAll (by decide) (units l hl 13 inside).1
  · intro inside
    have none : 0 ∉ text := by simpa using noNul
    have line : (0 : UInt16) ∉ lf := by decide
    rcases mem_of_mem_replaceFrom (units l hl 0 inside).1 with inside | inside
    · exact line inside
    · exact (mem_of_mem_replaceFrom inside).elim line none

/-- The canonical vCard is accepted again exactly when its lines keep to the
limits that the first validation applied to the text, and then as the same
record. -/
theorem validateVCardText_canonical {host : Host} {text : JsString} {parsed : ParsedVCard}
    (h : validateVCardText host (.string text) = .ok parsed) :
    (FitsVCardLimits (vCardLines text) → validateVCardText host (.string parsed.canonical) = .ok parsed) ∧
      (∀ again, validateVCardText host (.string parsed.canonical) = .ok again → FitsVCardLimits (vCardLines text)) := by
  obtain ⟨lines, valid, canonical⟩ := validateVCardText_eq_ok h
  have noNul : ((vCardLines text).flatMap (· ++ crlf)).contains 0 = false := by
    rw [Bool.eq_false_iff, ne_eq, List.contains_iff_mem]
    intro inside
    obtain ⟨l, hl, inside⟩ := List.mem_flatMap.mp inside
    rcases List.mem_append.mp inside with inside | inside
    · exact (lines.noLineEnd l hl).2.2 inside
    · exact absurd inside (by decide)
  rw [validateVCardText_eq, canonical, byteLength_lines]
  constructor
  · rintro ⟨short, bytes⟩
    rw [decide_eq_false (Nat.not_lt.mpr bytes), noNul, (unfoldVCardLines_canonical lines).mpr short]
    exact valid
  · intro again ok
    simp only [bind_eq_ok, failIf_eq_ok, decide_eq_false_iff_not] at ok
    obtain ⟨_, bytes, _, _, unfolded, ok, _⟩ := ok
    refine ⟨?_, by omega⟩
    simp only [unfoldVCardLines, bind_eq_ok] at ok
    obtain ⟨rev, folded, _⟩ := ok
    have short := (foldlM_unfoldVCardLine.mp folded).1
    rwa [splitLines_canonical lines] at short

theorem vCardLines_validated {host : Host} {text : JsString} {parsed : ParsedVCard}
    (h : validateVCardText host (.string text) = .ok parsed) : vCardLines parsed.canonical = vCardLines text := by
  obtain ⟨lines, _, canonical⟩ := validateVCardText_eq_ok h
  rw [canonical, vCardLines_canonical lines]

end GuloGulo.CardDav
