import GuloGulo.Js.Sha256
import GuloGulo.Mail.Composition
import GuloGulo.Mail.Parser

/-!
# Parsing a composed message

The parser finds the headers and the body `composeMessage` wrote. What it makes
of them is what was written, unless the subject is written as it stands and the
parser trims it or sees an encoded word in it, or a text starts with a byte
order mark, which the decoder drops.
-/

namespace GuloGulo.Mail.Message

open Js Data

theorem crlfOnly_join {lines : List JsString} (clean : ∀ l ∈ lines, OneLine l) : CrlfOnly (join lines crlf) := by
  unfold join
  induction lines with
  | nil => exact .nil
  | cons l lines ih =>
    rw [List.forall_mem_cons] at clean
    have first := crlfOnly_clean clean.1.1 clean.1.2
    cases lines with
    | nil =>
      rw [List.intercalate_singleton]
      exact first
    | cons m lines =>
      rw [List.intercalate_cons_cons]
      exact crlfOnly_append (crlfOnly_append first crlfOnly_crlf) (ih clean.2)

theorem replaceWith_fold_line {l : JsString} (h : 13 ∉ l) (s : JsString) :
    replaceWith fold (l ++ s) = l ++ replaceWith fold s := by
  induction l with
  | nil => rfl
  | cons u l ih =>
    rw [List.mem_cons, not_or] at h
    have none' : fold (u :: (l ++ s)) = none := by
      unfold fold
      split
      · rename_i eq
        exact absurd (List.cons.inj eq).1.symm h.1
      · rfl
    rw [List.cons_append, replaceWith_cons_none none', ih h.2]
    rfl

theorem replaceWith_fold_crlf {u : UInt16} (blank : isBlank u = false) (s : JsString) :
    replaceWith fold (crlf ++ u :: s) = crlf ++ replaceWith fold (u :: s) := by
  have one : fold (13 :: 10 :: u :: s) = none := by
    rw [fold, blank]
    rfl
  have two : fold (10 :: u :: s) = none := by
    unfold fold
    split
    · rename_i eq
      cases (List.cons.inj eq).1
    · rfl
  rw [crlf, List.cons_append, List.cons_append, List.nil_append, replaceWith_cons_none one, replaceWith_cons_none two]
  rfl

/-- No line is the continuation of another. -/
theorem replaceWith_fold {lines : List JsString}
    (clean : ∀ l ∈ lines, OneLine l ∧ ∃ u rest, l = u :: rest ∧ isBlank u = false) :
    replaceWith fold (join lines crlf) = join lines crlf := by
  unfold join
  induction lines with
  | nil => rfl
  | cons l lines ih =>
    rw [List.forall_mem_cons] at clean
    have line : (13 : UInt16) ∉ l := clean.1.1.1
    cases lines with
    | nil =>
      rw [List.intercalate_singleton]
      have whole := replaceWith_fold_line line []
      rw [List.append_nil] at whole
      rw [whole]
      exact List.append_nil l
    | cons m lines =>
      have rest := ih clean.2
      obtain ⟨_, u, m, rfl, blank⟩ := clean.2 _ List.mem_cons_self
      have head : ∃ t, List.intercalate crlf ((u :: m) :: lines) = u :: t := by
        cases lines with
        | nil => exact ⟨m, List.intercalate_singleton⟩
        | cons n lines => exact ⟨_, by rw [List.intercalate_cons_cons, List.cons_append, List.cons_append]⟩
      obtain ⟨t, ht⟩ := head
      rw [List.intercalate_cons_cons, List.append_assoc, ht, replaceWith_fold_line line, replaceWith_fold_crlf blank, ← ht, rest]

theorem trim_blank (s : JsString) : trim (32 :: s) = trim s := by
  have start : trimStart (32 :: s) = trimStart s := by
    rw [trimStart, List.dropWhile_cons, if_pos (by decide)]
    rfl
  rw [trim, start]
  rfl

/-- The name of a header that is written as it is read. -/
structure HeaderName (name : JsString) : Prop where
  some' : name ≠ []
  colon : 58 ∉ name
  ascii : ∀ u ∈ name, u < 128
  visible : ∀ u ∈ name, isWhiteSpace u = false

theorem headerNames_valid : ∀ name ∈ headerNames, HeaderName name := by
  have all : ∀ name ∈ headerNames, name ≠ [] ∧ 58 ∉ name ∧ name.all (fun u => decide (u < 128)) ∧
      name.all (fun u => decide (isWhiteSpace u = false)) := by
    decide
  intro name h
  obtain ⟨some', colon, ascii, visible⟩ := all name h
  exact ⟨some', colon, forall_of_all ascii, forall_of_all visible⟩

theorem zipWith_head {names : List JsString} (valid : ∀ name ∈ names, HeaderName name) (values : List JsString) :
    ∀ l ∈ List.zipWith (fun name value => name ++ js ": " ++ value) names values,
      ∃ u rest, l = u :: rest ∧ isBlank u = false := by
  induction names generalizing values with
  | nil => nofun
  | cons name names ih =>
    cases values with
    | nil => nofun
    | cons value values =>
      rw [List.forall_mem_cons] at valid
      rw [List.zipWith_cons_cons, List.forall_mem_cons]
      obtain ⟨u, rest, rfl⟩ := List.exists_cons_of_ne_nil valid.1.some'
      refine ⟨⟨u, _, rfl, ?_⟩, ih valid.2 values⟩
      have visible := valid.1.visible u List.mem_cons_self
      by_contra blank
      rw [Bool.not_eq_false, isBlank, Bool.or_eq_true, beq_iff_eq, beq_iff_eq] at blank
      rcases blank with rfl | rfl
      · cases visible
      · cases visible

theorem addHeader_line (host : Host) {name : JsString} (valid : HeaderName name) (value : JsString)
    (headers : OrderedMap JsString JsString) (k : JsString) :
    (addHeader host headers (name ++ js ": " ++ value)).get k =
      (headers.get k).or (if name.map asciiLower = k then some (trim value) else none) := by
  have parts : cut (name ++ js ": " ++ value) 58 = some (name, 32 :: value) := by
    rw [List.append_assoc]
    exact cut_append valid.colon _
  have lower : host.toLowerCase (trim name) = name.map asciiLower := by
    rw [trim_clean valid.visible, host.toLowerCase_ascii _ valid.ascii]
  obtain ⟨u, rest, rfl⟩ := List.exists_cons_of_ne_nil valid.some'
  rw [addHeader, parts]
  simp only [lower, trim_blank]
  split
  · rename_i known
    by_cases same : (u :: rest).map asciiLower = k
    · rw [← same]
      obtain ⟨v, hv⟩ := Option.isSome_iff_exists.mp known
      rw [hv]
      rfl
    · rw [if_neg same, Option.or_none]
  · rename_i fresh
    rw [OrderedMap.get_set]
    by_cases same : (u :: rest).map asciiLower = k
    · rw [if_pos same, if_pos same, ← same, Option.not_isSome_iff_eq_none.mp fresh, Option.none_or]
    · rw [if_neg same, if_neg same, Option.or_none]

/-- The first header of a name counts. -/
theorem foldl_addHeader (host : Host) {names values : List JsString} (valid : ∀ name ∈ names, HeaderName name)
    (headers : OrderedMap JsString JsString) (k : JsString) :
    ((List.zipWith (fun name value => name ++ js ": " ++ value) names values).foldl (addHeader host) headers).get k =
      (headers.get k).or (((names.zip values).find? fun p => p.1.map asciiLower = k).map fun p => trim p.2) := by
  induction names generalizing values headers with
  | nil => exact (Option.or_none).symm
  | cons name names ih =>
    rw [List.forall_mem_cons] at valid
    cases values with
    | nil => exact (Option.or_none).symm
    | cons value values =>
      rw [List.zipWith_cons_cons, List.foldl_cons, ih valid.2, addHeader_line host valid.1, List.zip_cons_cons,
        List.find?_cons, Option.or_assoc]
      by_cases same : name.map asciiLower = k
      · simp [same]
      · simp [same]

theorem splitHeadersAndBody_composeMessage {body : JsValue} {input : OutgoingMessageInput}
    (accepted : Accepted body input) {sender : JsString} (clean : OneLine sender) (now : Option Int) (uuid : Uuid)
    (host : Host) :
    (splitHeadersAndBody host (composeMessage sender input now uuid)).body = encodeText input.text ∧
    ∀ k, (splitHeadersAndBody host (composeMessage sender input now uuid)).headers.get k =
      ((headerNames.zip (headerValues sender input now uuid)).find? fun p => p.1.map asciiLower = k).map
        fun p => trim p.2 := by
  have values := headerValues_oneLine accepted clean now uuid
  have named : ∀ l ∈ headerLines sender input now uuid, l ≠ [] ∧ OneLine l := by
    rw [headerLines_eq]
    exact zipWith_oneLine (by decide) values
  have lines : ∀ l ∈ headerLines sender input now uuid, OneLine l ∧ ∃ u rest, l = u :: rest ∧ isBlank u = false := by
    intro l hl
    have first := zipWith_head headerNames_valid (headerValues sender input now uuid)
    rw [← headerLines_eq] at first
    exact ⟨(named l hl).2, first l hl⟩
  have some' : headerLines sender input now uuid ≠ [] := List.cons_ne_nil _ _
  have crlfs : CrlfOnly (composeMessage sender input now uuid) := by
    rw [composeMessage, join_append some']
    have ended : CrlfOnly (crlf ++ crlf) := crlfOnly_append crlfOnly_crlf crlfOnly_crlf
    exact crlfOnly_append (crlfOnly_join fun l hl => (lines l hl).1)
      (crlfOnly_append ended ((encodeText_wrapped input.text).crlfOnly (base64_units _)).1)
  have parts : cutString [13, 10, 13, 10] (composeMessage sender input now uuid) =
      some (join (headerLines sender input now uuid) crlf, encodeText input.text) := by
    rw [composeMessage, join_append some']
    exact cutString_lines some' named _
  have split : splitString crlf (join (headerLines sender input now uuid) crlf) = headerLines sender input now uuid :=
    splitString_join some' fun l hl => (lines l hl).1.1
  rw [splitHeadersAndBody, normalizeNewlines_of_crlfOnly crlfs, parts]
  refine ⟨rfl, fun k => ?_⟩
  dsimp only
  rw [readHeaders, replaceWith_fold lines, split, headerLines_eq, foldl_addHeader host headerNames_valid,
    OrderedMap.get_empty, Option.none_or]

theorem isBase64_visible {u : UInt16} (h : isBase64 u) : isWhiteSpace u = false := by
  simp only [isBase64, isAlnum, isAlpha, isUpper, isLower, isDigit, base64Pad, isWhiteSpace,
    Bool.or_eq_true, Bool.and_eq_true, decide_eq_true_eq, beq_iff_eq, Bool.or_eq_false_iff, Bool.and_eq_false_iff,
    decide_eq_false_iff_not, beq_eq_false_iff_ne, ne_eq, UInt16.le_iff_toNat_le, ← UInt16.toNat_inj] at h ⊢
  simp only [UInt16.reduceToNat] at h ⊢
  omega

/-- Without its line breaks a wrapped text is what it was. -/
theorem Wrapped.filter {s w : JsString} (h : Wrapped s w) (units : ∀ u ∈ s, isBase64 u) :
    (w.filter fun u => !isWhiteSpace u) = s := by
  induction h with
  | nil => rfl
  | @line l s w short rest ih =>
    rw [List.forall_mem_append] at units
    have kept : (l.filter fun u => !isWhiteSpace u) = l := by
      rw [List.filter_eq_self]
      intro u hu
      rw [isBase64_visible (units.1 u hu)]
      rfl
    have dropped : (crlf.filter fun u => !isWhiteSpace u) = [] := rfl
    rw [List.filter_append, List.filter_append, kept, dropped, ih units.2, List.append_nil]

theorem decodeCharset_utf8 (host : Host) (charsets : Charsets) (bytes : List UInt8) {label : JsString}
    (h : label = js "utf-8" ∨ label = js "UTF-8") : decodeCharset host charsets bytes label = utf8Decode bytes := by
  have lower : host.toLowerCase (trim label) = js "utf-8" := by
    rcases h with rfl | rfl
    · have same : trim (js "utf-8") = js "utf-8" := rfl
      rw [same, host.toLowerCase_ascii _ (forall_of_all (by decide))]
      rfl
    · have same : trim (js "UTF-8") = js "UTF-8" := rfl
      rw [same, host.toLowerCase_ascii _ (forall_of_all (by decide))]
      rfl
  have known : charsets.decode (if (js "utf-8").isEmpty then js "utf-8" else js "utf-8") = some utf8Decode := by
    rw [ite_self]
    exact charsets.decode_utf8
  rw [decodeCharset, lower, known]

/-- What the walk reads of a message with the headers of a composed one. -/
theorem walkPart_plain (host : Host) (charsets : Charsets) {part : RawPart}
    (type : part.headers.get (js "content-type") = some (js "text/plain; charset=utf-8"))
    (disposition : part.headers.get (js "content-disposition") = none) (levels : Nat) :
    walkPart host charsets levels part ⟨none, none, [], 0⟩ =
      ⟨some (decodeBody host charsets part).text, none, [], 1⟩ := by
  have media : mediaType host (some (js "text/plain; charset=utf-8")) = js "text/plain" := by
    have first : trim ((js "text/plain; charset=utf-8").takeWhile fun u => u != 59) = js "text/plain" := rfl
    have lower : host.toLowerCase (js "text/plain") = js "text/plain" := by
      rw [host.toLowerCase_ascii _ (forall_of_all (by decide))]
      rfl
    rw [mediaType, Option.getD_some, firstPart, first, lower]
    rfl
  have single : boundary host part = none := by
    rw [boundary, type, media]
    rfl
  have inline : firstPart host ((none : Option JsString).getD []) = [] := by
    have first : trim (([] : JsString).takeWhile fun u => u != 59) = [] := rfl
    rw [Option.getD_none, firstPart, first, host.toLowerCase_ascii [] nofun]
    rfl
  have unnamed : (headerParameter none "filename").or
      (headerParameter (some (js "text/plain; charset=utf-8")) "name") = none := by decide
  have read : readPart host charsets part ⟨none, none, [], 1⟩ = ⟨some (decodeBody host charsets part).text, none, [], 1⟩ := by
    rw [readPart, type, disposition, media, inline, unnamed]
    rfl
  cases levels with
  | zero =>
    rw [walkPart, single]
    exact read
  | succ levels =>
    rw [walkPart, single]
    exact read

theorem decodeBody_text (host : Host) (charsets : Charsets) {part : RawPart}
    (type : part.headers.get (js "content-type") = some (js "text/plain; charset=utf-8"))
    (encoding : part.headers.get (js "content-transfer-encoding") = some (js "base64")) {text : JsString}
    (content : part.body = encodeText text) :
    (decodeBody host charsets part).text = utf8Decode (utf8 (normalizeNewlines text)) := by
  have lower : host.toLowerCase (trim (js "base64")) = js "base64" := by
    have same : trim (js "base64") = js "base64" := rfl
    rw [same, host.toLowerCase_ascii _ (forall_of_all (by decide))]
    rfl
  have charset : (headerParameter (some (js "text/plain; charset=utf-8")) "charset").getD (js "utf-8") = js "utf-8" := by
    decide
  rw [decodeBody, type, encoding, Option.getD_some, lower, charset, content]
  dsimp only
  rw [if_pos rfl, (encodeText_wrapped text).filter (base64_units _), fromBase64_base64,
    decodeCharset_utf8 host charsets _ (.inl rfl)]

theorem wordSpan_append {a : JsString} {u : UInt16} (ha : ∀ v ∈ a, (v != 63 && !isWhiteSpace v) = true)
    (hu : (u != 63 && !isWhiteSpace u) = false) (b : JsString) : wordSpan (a ++ u :: b) = (a, u :: b) := by
  rw [wordSpan, List.span_eq_takeWhile_dropWhile, List.takeWhile_append_of_pos ha, List.dropWhile_append_of_pos ha,
    List.takeWhile_cons, List.dropWhile_cons, hu]
  simp

theorem wordSpan_eq {s a b : JsString} (h : wordSpan s = (a, b)) : s = a ++ b := by
  rw [wordSpan, List.span_eq_takeWhile_dropWhile] at h
  cases h
  exact (List.takeWhile_append_dropWhile).symm

theorem wordParts_eq_some {s charset text : JsString} {encoding : UInt16} (h : wordParts s = some (charset, encoding, text)) :
    ∃ rest, s = 61 :: 63 :: (charset ++ 63 :: encoding :: 63 :: (text ++ 63 :: 61 :: rest)) := by
  unfold wordParts at h
  split at h
  · split at h
    · cases h
    · rename_i first
      split at h
      · split at h
        · rename_i second
          cases h
          rw [wordSpan_eq first, wordSpan_eq second]
          exact ⟨_, rfl⟩
        · cases h
      · cases h
    · cases h
  · cases h

/-- An encoded word stands nowhere in the text. -/
def NoEncodedWord (s : JsString) : Prop := ∀ t, t <:+ s → wordParts t = none

instance (s : JsString) : Decidable (NoEncodedWord s) :=
  decidable_of_iff (∀ t ∈ s.tails, (wordParts t).isNone) <| by
    simp [NoEncodedWord, List.mem_tails]

theorem clear_encodedWord {host : Host} {charsets : Charsets} {s : JsString} :
    Clear (encodedWord host charsets) s ↔ NoEncodedWord s := by
  simp only [Clear, NoEncodedWord, encodedWord, Option.map_eq_none_iff]

theorem hexBytes_length {s : JsString} (h : ∀ u ∈ s, u < 128) : (hexBytes s).length ≤ s.length := by
  induction s using hexBytes.induct with
  | case1 a b rest hi lo _ _ ih =>
    simp only [List.forall_mem_cons] at h
    have := ih h.2.2.2
    simp only [hexBytes, *, List.length_cons]
    omega
  | case2 a b rest _ ih =>
    have := ih fun u hu => h u (List.mem_cons_of_mem 61 hu)
    rw [hexBytes]
    · split
      · rename_i none' _ _ _ _ first second
        exact absurd second (none' _ _ first)
      · rw [List.length_append, List.length_cons]
        have one : (utf8 [61]).length = 1 := by decide
        omega
  | case3 u rest _ ih =>
    rw [List.forall_mem_cons] at h
    have := ih h.2
    have one : (utf8 [u]).length = 1 := by
      have := byteLength_ascii (s := [u]) (by simpa using h.1)
      exact this
    rw [hexBytes]
    · rw [List.length_append, List.length_cons]
      omega
    · assumption
  | case4 => exact Nat.le_refl _

theorem replaceAll_unit (s : JsString) (u v : UInt16) : replaceAll s [u] [v] = s.map fun w => if w = u then v else w := by
  unfold replaceAll
  induction s with
  | nil => rfl
  | cons w s ih =>
    rw [replaceFrom, startsWith, List.isPrefixOf_cons_cons, List.map_cons, ← ih]
    by_cases same : w = u
    · subst same
      simp
    · simp [same, Ne.symm same]

theorem decodeWord_length (host : Host) (charsets : Charsets) (charset : JsString) (encoding : UInt16) {text : JsString}
    (h : ∀ u ∈ text, u < 128) : (decodeWord host charsets charset encoding text).length ≤ text.length := by
  have decoded (bytes : List UInt8) (label : JsString) : (decodeCharset host charsets bytes label).length ≤ bytes.length := by
    unfold decodeCharset
    dsimp only
    split
    · rename_i decoder known
      exact charsets.decode_length _ decoder bytes known
    · exact utf8Text_length bytes
  have spaced : (decodeQuotedPrintable text true).length ≤ text.length := by
    rw [decodeQuotedPrintable, if_pos rfl, replaceAll_unit]
    refine (hexBytes_length ?_).trans (Nat.le_of_eq (List.length_map _))
    intro u hu
    obtain ⟨w, hw, rfl⟩ := List.mem_map.mp hu
    split
    · decide
    · exact h w hw
  rw [decodeWord]
  split
  · exact (decoded _ _).trans (fromBase64_length text)
  · exact (decoded _ _).trans spaced

theorem shrinks_encodedWord (host : Host) (charsets : Charsets) {s : JsString} (h : ∀ u ∈ s, u < 128) :
    Shrinks (encodedWord host charsets) s := by
  intro t ht n r found
  obtain ⟨⟨charset, encoding, text⟩, parts, eq⟩ := Option.map_eq_some_iff.mp found
  cases eq
  obtain ⟨rest, rfl⟩ := wordParts_eq_some parts
  have ascii : ∀ u ∈ text, u < 128 := fun u hu => h u (ht.mem (by simp [hu]))
  have short := decodeWord_length host charsets charset encoding ascii
  refine ⟨by omega, ?_⟩
  simp only [List.length_cons, List.length_append]
  omega

attribute [local simp] gap in
theorem shrinks_gap (s : JsString) : Shrinks gap s := by
  intro t _ n r found
  unfold gap at found
  split at found
  · rename_i rest
    dsimp only at found
    split at found
    · rename_i matched
      cases found
      rw [Bool.and_eq_true, decide_eq_true_eq, startsWith, List.isPrefixOf_iff_prefix] at matched
      have inside := matched.2.length_le
      have two : (js "=?").length = 2 := rfl
      have four : (js "?==?").length = 4 := rfl
      rw [List.length_drop, two] at inside
      rw [List.length_cons, List.length_cons, four]
      have := matched.1
      omega
    · cases found
  · cases found

theorem replaceWith_gap_ascii {s : JsString} (h : ∀ u ∈ s, u < 128) : ∀ u ∈ replaceWith gap s, u < 128 := by
  apply forall_mem_replaceWith h
  intro t n r found
  unfold gap at found
  split at found
  · dsimp only at found
    split at found
    · cases found
      exact forall_of_all (by decide)
    · cases found
  · cases found

theorem decodeEncodedWords_length (host : Host) (charsets : Charsets) {s : JsString} (h : ∀ u ∈ s, u < 128) :
    (decodeEncodedWords host charsets s).length ≤ (replaceWith gap s).length :=
  replaceWith_length (shrinks_encodedWord host charsets (replaceWith_gap_ascii h))

theorem decodeEncodedWords_eq_self (host : Host) (charsets : Charsets) {s : JsString} (h : ∀ u ∈ s, u < 128) :
    decodeEncodedWords host charsets s = s ↔ Clear gap s ∧ NoEncodedWord s := by
  constructor
  · intro same
    have gapless : Clear gap s := by
      by_contra found
      have shorter := replaceWith_shorter (shrinks_gap s) found
      have bound := decodeEncodedWords_length host charsets h
      rw [same] at bound
      omega
    rw [decodeEncodedWords, replaceWith_clear gapless] at same
    exact ⟨gapless, clear_encodedWord.mp ((replaceWith_eq_self (shrinks_encodedWord host charsets h)).mp same)⟩
  · rintro ⟨gapless, wordless⟩
    rw [decodeEncodedWords, replaceWith_clear gapless, replaceWith_clear (clear_encodedWord.mpr wordless)]

/-- A subject that is written as it stands. -/
theorem subject_plain (host : Host) (charsets : Charsets) {subject : JsString} (h : subject.all isPrintable) :
    decodeEncodedWords host charsets (trim (encodeSubject subject)) = subject ↔
      trim subject = subject ∧ Clear gap subject ∧ NoEncodedWord subject := by
  have ascii : ∀ u ∈ subject, u < 128 := by
    intro u hu
    have printable := List.all_eq_true.mp h u hu
    rw [isPrintable, Bool.and_eq_true, decide_eq_true_eq, decide_eq_true_eq] at printable
    exact UInt16.lt_of_le_of_lt printable.2 (by decide)
  have trimmed : ∀ u ∈ trim subject, u < 128 := fun u hu => ascii u ((trim_sublist subject).mem hu)
  rw [encodeSubject, if_pos h]
  constructor
  · intro same
    have untouched : trim subject = subject := by
      apply (trim_sublist subject).eq_of_length
      have decoded := decodeEncodedWords_length host charsets trimmed
      have joined := replaceWith_length (shrinks_gap (trim subject))
      have short := (trim_sublist subject).length_le
      rw [same] at decoded
      omega
    rw [untouched] at same
    exact ⟨untouched, (decodeEncodedWords_eq_self host charsets ascii).mp same⟩
  · rintro ⟨untouched, clear⟩
    rw [untouched]
    exact (decodeEncodedWords_eq_self host charsets ascii).mpr clear

theorem wordParts_encoded {b : JsString} (h : ∀ u ∈ b, isBase64 u) :
    wordParts (js "=?UTF-8?B?" ++ b ++ js "?=") = some (js "UTF-8", 66, b) := by
  have first (rest : JsString) : wordSpan (js "UTF-8" ++ 63 :: rest) = (js "UTF-8", 63 :: rest) :=
    wordSpan_append (forall_of_all (by decide)) (by decide) rest
  have second : wordSpan (b ++ 63 :: [61]) = (b, [63, 61]) := by
    apply wordSpan_append _ (by decide)
    intro u hu
    have unit := h u hu
    rw [isBase64_visible unit]
    have other : u ≠ 63 := by
      rintro rfl
      cases unit
    simp [other]
  have shape : js "=?UTF-8?B?" ++ b ++ js "?=" = 61 :: 63 :: (js "UTF-8" ++ 63 :: 66 :: 63 :: (b ++ 63 :: [61])) := by
    rw [List.append_assoc]
    rfl
  have name : js "UTF-8" = [85, 84, 70, 45, 56] := rfl
  rw [shape, wordParts, first, name]
  simp [second]

/-- A subject that is written as an encoded word. -/
theorem subject_encoded (host : Host) (charsets : Charsets) {subject : JsString} (h : ¬ subject.all isPrintable) :
    decodeEncodedWords host charsets (trim (encodeSubject subject)) = utf8Decode (utf8 subject) := by
  have units := base64_units (utf8 subject)
  generalize content : base64 (utf8 subject) = b at units
  have visible : ∀ u ∈ js "=?UTF-8?B?" ++ b ++ js "?=", isWhiteSpace u = false := by
    rw [List.forall_mem_append, List.forall_mem_append]
    exact ⟨⟨forall_of_all (by decide), fun u hu => isBase64_visible (units u hu)⟩, forall_of_all (by decide)⟩
  have gapless : Clear gap (js "=?UTF-8?B?" ++ b ++ js "?=") := by
    intro t ht
    unfold gap
    split
    · rename_i rest
      have none' : rest.takeWhile isWhiteSpace = [] := by
        cases rest with
        | nil => rfl
        | cons u rest =>
          have := visible u (ht.mem (by simp))
          rw [List.takeWhile_cons, this]
          rfl
      rw [none']
      rfl
    · rfl
  have word : encodedWord host charsets (js "=?UTF-8?B?" ++ b ++ js "?=") =
      some (b.length + 11 + 1, utf8Decode (utf8 subject)) := by
    have decoded : decodeWord host charsets (js "UTF-8") 66 b = utf8Decode (utf8 subject) := by
      have whole : (js "UTF-8").takeWhile (fun u => u != 42) = js "UTF-8" := rfl
      have upper : (asciiUpper 66 == 66) = true := by decide
      rw [decodeWord, upper, if_pos rfl, whole, decodeCharset_utf8 host charsets _ (.inr rfl), ← content, fromBase64_base64]
    have size : (js "UTF-8").length + b.length + 7 = b.length + 11 + 1 := by
      have five : (js "UTF-8").length = 5 := rfl
      omega
    rw [encodedWord, wordParts_encoded units, Option.map_some]
    dsimp only
    rw [decoded, size]
  have size : (js "=?UTF-8?B?" ++ b ++ js "?=").length = b.length + 12 := by
    have ten : (js "=?UTF-8?B?").length = 10 := rfl
    have two : (js "?=").length = 2 := rfl
    rw [List.length_append, List.length_append]
    omega
  rw [encodeSubject, if_neg h, content, trim_clean visible, decodeEncodedWords, replaceWith_clear gapless]
  obtain ⟨u, rest, shape⟩ : ∃ u rest, js "=?UTF-8?B?" ++ b ++ js "?=" = u :: rest := ⟨_, _, rfl⟩
  rw [shape] at word size ⊢
  have done : rest.drop (b.length + 11) = [] := by
    rw [List.length_cons] at size
    exact List.drop_eq_nil_of_le (by omega)
  rw [replaceWith_cons_some word, done]
  exact List.append_nil _

/-- The message shows what was written. -/
structure ShowsInput (input : OutgoingMessageInput) (message : ParsedMessage) : Prop where
  subject : message.subject = input.subject
  text : message.text = some (normalizeNewlines input.text)
  html : message.html = none
  attachments : message.attachments = []

/-- What the parser leaves as it is. -/
structure Preserved (input : OutgoingMessageInput) : Prop where
  plain : input.subject.all isPrintable →
    trim input.subject = input.subject ∧ Clear gap input.subject ∧ NoEncodedWord input.subject
  encoded : ¬ input.subject.all isPrintable → input.subject.head? ≠ some byteOrderMark
  text : input.text.head? ≠ some byteOrderMark

instance (input : OutgoingMessageInput) : Decidable (Preserved input) :=
  decidable_of_iff ((input.subject.all isPrintable →
      trim input.subject = input.subject ∧ Clear gap input.subject ∧ NoEncodedWord input.subject) ∧
    (¬ input.subject.all isPrintable → input.subject.head? ≠ some byteOrderMark) ∧
    input.text.head? ≠ some byteOrderMark)
  ⟨fun ⟨plain, encoded, text⟩ => ⟨plain, encoded, text⟩, fun h => ⟨h.plain, h.encoded, h.text⟩⟩

theorem parseMessage_composeMessage (host : Host) (charsets : Charsets) {body : JsValue} {input : OutgoingMessageInput}
    (accepted : Accepted body input) {sender : JsString} (clean : OneLine sender) (now : Option Int) (uuid : Uuid) :
    let message := parseMessage host charsets (composeMessage sender input now uuid)
    message.subject = decodeEncodedWords host charsets (trim (encodeSubject input.subject)) ∧
      message.text = some (utf8Decode (utf8 (normalizeNewlines input.text))) ∧ message.html = none ∧
      message.attachments = [] := by
  obtain ⟨content, headers⟩ := splitHeadersAndBody_composeMessage accepted clean now uuid host
  have type : (splitHeadersAndBody host (composeMessage sender input now uuid)).headers.get (js "content-type") =
      some (js "text/plain; charset=utf-8") := by
    rw [headers]
    rfl
  have encoding : (splitHeadersAndBody host (composeMessage sender input now uuid)).headers.get
      (js "content-transfer-encoding") = some (js "base64") := by
    rw [headers]
    rfl
  have disposition : (splitHeadersAndBody host (composeMessage sender input now uuid)).headers.get
      (js "content-disposition") = none := by
    rw [headers]
    rfl
  have subject : (splitHeadersAndBody host (composeMessage sender input now uuid)).headers.get (js "subject") =
      some (trim (encodeSubject input.subject)) := by
    rw [headers]
    rfl
  rw [parseMessage, walkPart_plain host charsets type disposition]
  dsimp only
  rw [subject, Option.getD_some, decodeBody_text host charsets type encoding content]
  exact ⟨rfl, rfl, rfl, rfl⟩

/-- The parser gives back what was composed if and only if it has nothing to
trim or to decode in a subject that is written as it stands, and neither a
subject that is encoded nor the text starts with a byte order mark. -/
theorem parseMessage_roundTrip_iff (host : Host) (charsets : Charsets) {body : JsValue} {input : OutgoingMessageInput}
    (accepted : validateOutgoing body = .ok input) (subject : isWellFormed input.subject) (text : isWellFormed input.text)
    {sender : JsString} (clean : OneLine sender) (now : Option Int) (uuid : Uuid) :
    ShowsInput input (parseMessage host charsets (composeMessage sender input now uuid)) ↔ Preserved input := by
  have parsed := parseMessage_composeMessage host charsets (accepted_of_validateOutgoing accepted) clean now uuid
  dsimp only at parsed
  obtain ⟨parsedSubject, parsedText, html, attachments⟩ := parsed
  have newlines : isWellFormed (normalizeNewlines input.text) :=
    beq_iff_eq.mpr (normalizeNewlines_toWellFormed _ (toWellFormed_of_isWellFormed text))
  have textIff : utf8Decode (utf8 (normalizeNewlines input.text)) = normalizeNewlines input.text ↔
      input.text.head? ≠ some byteOrderMark := by
    rw [utf8Decode_utf8 newlines, ne_eq, head_normalizeNewlines (by decide) (by decide)]
  constructor
  · intro shown
    have same := shown.subject
    rw [parsedSubject] at same
    have body := shown.text
    rw [parsedText, Option.some_inj] at body
    refine ⟨fun plain => (subject_plain host charsets plain).mp same, fun encoded => ?_, textIff.mp body⟩
    rw [subject_encoded host charsets encoded] at same
    exact (utf8Decode_utf8 subject).mp same
  · intro h
    have same : decodeEncodedWords host charsets (trim (encodeSubject input.subject)) = input.subject := by
      by_cases plain : input.subject.all isPrintable
      · exact (subject_plain host charsets plain).mpr (h.plain plain)
      · rw [subject_encoded host charsets plain]
        exact (utf8Decode_utf8 subject).mpr (h.encoded plain)
    refine ⟨parsedSubject.trans same, ?_, html, attachments⟩
    rw [parsedText, textIff.mpr h.text]

/-- A runtime without any other charset. -/
def utf8Charsets : Charsets where
  decode label := if label = js "utf-8" then some utf8Decode else none
  decode_utf8 := rfl
  decode_length label decoder bytes h := by
    split at h
    · cases h
      exact utf8Decode_length bytes
    · cases h

def sampleUuid : Uuid := ⟨js "0-0", forall_of_all (by decide)⟩

theorem parseMessage_roundTrip_sample :
    ShowsInput (sampleInput "Gr\u00fc\u00dfe" "one\ntwo") (parseMessage asciiHost utf8Charsets
      (composeMessage (js "c@x.example") (sampleInput "Gr\u00fc\u00dfe" "one\ntwo") none sampleUuid)) := by
  have accepted : validateOutgoing (sampleBody "Gr\u00fc\u00dfe" "one\ntwo") =
      .ok (sampleInput "Gr\u00fc\u00dfe" "one\ntwo") := by decide
  exact (parseMessage_roundTrip_iff asciiHost utf8Charsets accepted (by decide) (by decide)
    (by decide : OneLine (js "c@x.example")) none sampleUuid).mpr (by decide)

/-- A subject that has the form of an encoded word is shown decoded. -/
theorem parseMessage_encodedWord :
    validateOutgoing (sampleBody "=?UTF-8?Q?a?=" "") = .ok (sampleInput "=?UTF-8?Q?a?=" "") ∧
      isWellFormed (sampleInput "=?UTF-8?Q?a?=" "").subject ∧ isWellFormed (sampleInput "=?UTF-8?Q?a?=" "").text ∧
      (parseMessage asciiHost utf8Charsets
        (composeMessage (js "c@x.example") (sampleInput "=?UTF-8?Q?a?=" "") none sampleUuid)).subject = js "a" ∧
      ¬ ShowsInput (sampleInput "=?UTF-8?Q?a?=" "") (parseMessage asciiHost utf8Charsets
        (composeMessage (js "c@x.example") (sampleInput "=?UTF-8?Q?a?=" "") none sampleUuid)) := by
  have accepted : validateOutgoing (sampleBody "=?UTF-8?Q?a?=" "") = .ok (sampleInput "=?UTF-8?Q?a?=" "") := by
    decide
  have subject : (parseMessage asciiHost utf8Charsets
      (composeMessage (js "c@x.example") (sampleInput "=?UTF-8?Q?a?=" "") none sampleUuid)).subject = js "a" := by
    rw [(parseMessage_composeMessage asciiHost utf8Charsets (accepted_of_validateOutgoing accepted)
      (by decide : OneLine (js "c@x.example")) none sampleUuid).1]
    decide
  refine ⟨accepted, by decide, by decide, subject, fun shown => ?_⟩
  have same := shown.subject
  rw [subject] at same
  revert same
  decide

end GuloGulo.Mail.Message
