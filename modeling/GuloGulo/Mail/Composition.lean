import GuloGulo.Mail.Composer

/-!
# Reading a composed message

A reader cuts the message at its first empty line and the headers at each CRLF.
No value that goes into a header has a line break, so it finds the lines
`composeMessage` wrote, and the body is base64 with its own line breaks.
-/

namespace GuloGulo.Mail.Message

open Js

theorem isAddressUnit_of_label {u : UInt16} (h : isLabelUnit u) : isAddressUnit u := by
  rw [isLabelUnit, Bool.or_eq_true, beq_iff_eq] at h
  rw [isAddressUnit, Bool.or_eq_true]
  rcases h with h | rfl
  · exact .inl h
  · exact .inr (by decide)

/-- Neither a separator of a list nor a line break. -/
theorem isAddressUnit_ne {u : UInt16} (h : isAddressUnit u) : u ≠ 44 ∧ u ≠ 13 ∧ u ≠ 10 := by
  refine ⟨?_, ?_, ?_⟩ <;>
  · rintro rfl
    revert h
    decide

theorem addressPattern_units {s : JsString} (h : addressPattern s) : ∀ u ∈ s, u = 64 ∨ isAddressUnit u := by
  unfold addressPattern at h
  split at h
  · cases h
  · rename_i localPart domain parts
    rw [cut_eq_some parts]
    simp only [Bool.and_eq_true, List.all_eq_true, decide_eq_true_eq] at h
    obtain ⟨⟨⟨_, localUnits⟩, _⟩, labels⟩ := h
    intro u hu
    rcases List.mem_append.mp hu with hu | hu
    · exact .inr (localUnits u hu)
    · rcases List.mem_cons.mp hu with rfl | hu
      · exact .inl rfl
      · by_cases dot : u = 46
        · subst dot
          exact .inr (by decide)
        · obtain ⟨label, hlabel, inside⟩ := mem_split_of_mem hu dot
          exact .inr (isAddressUnit_of_label ((labels label hlabel).2 u inside))

theorem addRecipient_valid {recipients recipients' : List JsString} {entry : JsValue}
    (h : addRecipient recipients entry = .ok recipients') (valid : ∀ r ∈ recipients, addressPattern r) :
    ∀ r ∈ recipients', addressPattern r := by
  unfold addRecipient at h
  split at h
  · simp only at h
    split at h
    · cases h
      exact valid
    · split at h
      · cases h
      · rename_i fits
        rw [not_or, Bool.not_eq_true', Bool.not_eq_false] at fits
        cases h
        intro r hr
        split at hr
        · exact valid r hr
        · rcases List.mem_append.mp hr with hr | hr
          · exact valid r hr
          · rw [List.mem_singleton.mp hr]
            exact fits.2
  · cases h

theorem foldlM_addRecipient_valid {entries : List JsValue} {recipients recipients' : List JsString}
    (h : entries.foldlM addRecipient recipients = .ok recipients') (valid : ∀ r ∈ recipients, addressPattern r) :
    ∀ r ∈ recipients', addressPattern r := by
  induction entries generalizing recipients with
  | nil =>
    cases h
    exact valid
  | cons entry entries ih =>
    rw [List.foldlM_cons] at h
    obtain ⟨next, first, rest⟩ := bind_eq_ok.mp h
    exact ih rest (addRecipient_valid first valid)

theorem parseRecipients_valid {value : JsValue} {recipients : List JsString}
    (h : parseRecipients value = .ok recipients) :
    recipients ≠ [] ∧ recipients.length ≤ MAX_RECIPIENTS ∧ ∀ r ∈ recipients, addressPattern r := by
  rw [parseRecipients] at h
  obtain ⟨entries, _, h⟩ := bind_eq_ok.mp h
  obtain ⟨found, folded, h⟩ := bind_eq_ok.mp h
  obtain ⟨_, nonempty, h⟩ := bind_eq_ok.mp h
  obtain ⟨_, few, h⟩ := bind_eq_ok.mp h
  cases h
  rw [throwIf_eq_ok] at nonempty few
  refine ⟨?_, ?_, foldlM_addRecipient_valid folded nofun⟩
  · rintro rfl
    cases nonempty
  · exact Nat.le_of_not_lt (of_decide_eq_false few)

/-- What `validateOutgoing` promises of the input it returns. -/
structure Accepted (body : JsValue) (input : OutgoingMessageInput) : Prop where
  recipients : parseRecipients (body.get "to") = .ok input.recipients
  subject_length : input.subject.length ≤ MAX_SUBJECT_LENGTH
  subject_units : ∀ u ∈ input.subject, isControlChar u = false
  text_nul : 0 ∉ input.text
  text_bytes : byteLength input.text ≤ MAX_TEXT_BYTES

theorem accepted_of_validateOutgoing {body : JsValue} {input : OutgoingMessageInput}
    (h : validateOutgoing body = .ok input) : Accepted body input := by
  rw [validateOutgoing] at h
  obtain ⟨_, _, h⟩ := bind_eq_ok.mp h
  obtain ⟨recipients, hrecipients, h⟩ := bind_eq_ok.mp h
  obtain ⟨subject, hsubject, h⟩ := bind_eq_ok.mp h
  obtain ⟨text, htext, h⟩ := bind_eq_ok.mp h
  obtain ⟨_, small, h⟩ := bind_eq_ok.mp h
  cases h
  have fits : subject.length ≤ MAX_SUBJECT_LENGTH ∧ ∀ u ∈ subject, isControlChar u = false := by
    unfold subjectField at hsubject
    split at hsubject
    · split at hsubject
      · cases hsubject
      · rename_i ok
        cases hsubject
        simpa using ok
    · cases hsubject
  have clean : 0 ∉ text := by
    unfold textField at htext
    split at htext
    · split at htext
      · cases htext
      · rename_i ok
        cases htext
        simpa using ok
    · cases htext
  rw [throwIf_eq_ok] at small
  exact ⟨hrecipients, fits.1, fits.2, clean, Nat.le_of_not_lt (of_decide_eq_false small)⟩

/-- A text on one line. -/
def OneLine (s : JsString) : Prop := 13 ∉ s ∧ 10 ∉ s

instance (s : JsString) : Decidable (OneLine s) := inferInstanceAs (Decidable (_ ∧ _))

theorem oneLine_append {s t : JsString} (hs : OneLine s) (ht : OneLine t) : OneLine (s ++ t) := by
  simp only [OneLine, List.mem_append, not_or]
  exact ⟨⟨hs.1, ht.1⟩, hs.2, ht.2⟩

theorem oneLine_of_units {p : UInt16 → Bool} {s : JsString} (h : ∀ u ∈ s, p u) (cr : p 13 = false) (lf : p 10 = false) :
    OneLine s := by
  constructor
  · intro found
    have := h 13 found
    rw [cr] at this
    cases this
  · intro found
    have := h 10 found
    rw [lf] at this
    cases this

theorem oneLine_of_control {s : JsString} (h : ∀ u ∈ s, isControlChar u = false) : OneLine s := by
  apply oneLine_of_units (p := fun u => !isControlChar u)
  · intro u hu
    rw [h u hu]
    rfl
  · rfl
  · rfl

theorem join_append {lines : List JsString} (some' : lines ≠ []) (body : JsString) :
    join (lines ++ [[], body]) crlf = join lines crlf ++ (crlf ++ crlf ++ body) := by
  unfold join
  induction lines with
  | nil => exact absurd rfl some'
  | cons l lines ih =>
    cases lines with
    | nil => simp
    | cons m lines =>
      have rest := ih (List.cons_ne_nil m lines)
      rw [List.cons_append] at rest
      rw [List.cons_append, List.cons_append, List.intercalate_cons_cons, rest, List.intercalate_cons_cons]
      simp

/-- What ends the line before an empty line, and the empty line. -/
def emptyLine : JsString := [13, 10, 13, 10]

theorem cutString_skip {t : JsString} {u : UInt16} {s : JsString} (h : startsWith (u :: s) t = false) :
    cutString t (u :: s) = (cutString t s).map fun p => (u :: p.1, p.2) := by
  rw [cutString, h, if_neg Bool.false_ne_true]

/-- The end of a line before a line that is not empty. -/
theorem cutString_crlf {u : UInt16} (h : u ≠ 13) (s : JsString) :
    cutString emptyLine (crlf ++ u :: s) = (cutString emptyLine (u :: s)).map fun p => (crlf ++ p.1, p.2) := by
  have one : startsWith (13 :: 10 :: u :: s) emptyLine = false := by
    simp only [startsWith, emptyLine, List.isPrefixOf_cons_cons, beq_false_of_ne h.symm, Bool.false_and, Bool.and_false]
  have two : startsWith (10 :: u :: s) emptyLine = false := startsWith_cons_ne (by decide) _ _
  rw [crlf, List.cons_append, List.cons_append, List.nil_append, cutString_skip one, cutString_skip two, Option.map_map]
  rfl

theorem cutString_here (body : JsString) : cutString emptyLine (crlf ++ crlf ++ body) = some ([], body) := rfl

theorem cutString_line {l : JsString} (h : 13 ∉ l) (s : JsString) :
    cutString emptyLine (l ++ s) = (cutString emptyLine s).map fun p => (l ++ p.1, p.2) := cutString_append h s

/-- The first empty line is the one after the lines. -/
theorem cutString_lines {lines : List JsString} (some' : lines ≠ []) (clean : ∀ l ∈ lines, l ≠ [] ∧ OneLine l)
    (body : JsString) :
    cutString emptyLine (join lines crlf ++ (crlf ++ crlf ++ body)) = some (join lines crlf, body) := by
  unfold join
  induction lines with
  | nil => exact absurd rfl some'
  | cons l lines ih =>
    rw [List.forall_mem_cons] at clean
    have line : (13 : UInt16) ∉ l := clean.1.2.1
    cases lines with
    | nil =>
      rw [List.intercalate_singleton, cutString_line line, cutString_here]
      simp
    | cons m lines =>
      have rest := ih (List.cons_ne_nil m lines) clean.2
      obtain ⟨u, m, rfl⟩ := List.exists_cons_of_ne_nil (clean.2 m List.mem_cons_self).1
      have first : u ≠ 13 := fun eq => (clean.2 _ List.mem_cons_self).2.1 (by simp [eq])
      have head : ∃ t, List.intercalate crlf ((u :: m) :: lines) = u :: t := by
        cases lines with
        | nil => exact ⟨m, List.intercalate_singleton⟩
        | cons n lines => exact ⟨_, by rw [List.intercalate_cons_cons, List.cons_append, List.cons_append]⟩
      obtain ⟨t, ht⟩ := head
      rw [List.intercalate_cons_cons, ht, List.append_assoc, List.append_assoc, cutString_line line, List.cons_append,
        cutString_crlf first, ← List.cons_append, ← ht, rest]
      simp

/-- A header line, cut at its first colon and blank. -/
def readHeader (line : JsString) : Option (JsString × JsString) := cutString (js ": ") line

/-- The headers, and what stands after the first empty line. -/
def readMessage (message : JsString) : Option (List (JsString × JsString) × JsString) :=
  (cutString emptyLine message).bind fun parts =>
    ((splitString crlf parts.1).mapM readHeader).map fun headers => (headers, parts.2)

def headerNames : List JsString :=
  [js "From", js "To", js "Subject", js "Date", js "Message-ID", js "MIME-Version", js "Content-Type",
    js "Content-Transfer-Encoding"]

def headerValues (sender : JsString) (input : OutgoingMessageInput) (now : Option Int) (uuid : Uuid) : List JsString :=
  [js "<" ++ sender ++ js ">", angleList input.recipients, encodeSubject input.subject,
    replaceFirst (utcString now) (js "GMT") (js "+0000"), js "<" ++ uuid.text ++ js "@" ++ domainPart sender ++ js ">",
    js "1.0", js "text/plain; charset=utf-8", js "base64"]

theorem headerLines_eq (sender : JsString) (input : OutgoingMessageInput) (now : Option Int) (uuid : Uuid) :
    headerLines sender input now uuid =
      List.zipWith (fun name value => name ++ js ": " ++ value) headerNames (headerValues sender input now uuid) := rfl

theorem readHeader_line {name : JsString} (h : 58 ∉ name) (value : JsString) :
    readHeader (name ++ js ": " ++ value) = some (name, value) := by
  have passed : cutString (js ": ") (name ++ (js ": " ++ value)) =
      (cutString (js ": ") (js ": " ++ value)).map fun p => (name ++ p.1, p.2) := cutString_append h _
  have found : cutString (js ": ") (js ": " ++ value) = some ([], value) := rfl
  rw [readHeader, List.append_assoc, passed, found]
  simp

theorem mapM_readHeader {names values : List JsString} (h : ∀ name ∈ names, 58 ∉ name) :
    (List.zipWith (fun name value => name ++ js ": " ++ value) names values).mapM readHeader =
      some (names.zip values) := by
  induction names generalizing values with
  | nil => rfl
  | cons name names ih =>
    rw [List.forall_mem_cons] at h
    cases values with
    | nil => rfl
    | cons value values =>
      rw [List.zipWith_cons_cons, List.mapM_cons, readHeader_line h.1, ih h.2]
      rfl

theorem encodeSubject_oneLine {subject : JsString} (h : ∀ u ∈ subject, isControlChar u = false) :
    OneLine (encodeSubject subject) := by
  unfold encodeSubject
  split
  · exact oneLine_of_control h
  · have encoded : OneLine (base64 (utf8 subject)) := oneLine_of_units (base64_units _) (by decide) (by decide)
    exact oneLine_append (oneLine_append (by decide) encoded) (by decide)

theorem address_oneLine {r : JsString} (h : addressPattern r) : OneLine r := by
  apply oneLine_of_units (p := fun u => u == 64 || isAddressUnit u)
  · intro u hu
    rcases addressPattern_units h u hu with rfl | unit
    · rfl
    · rw [unit, Bool.or_true]
  · decide
  · decide

theorem angleList_oneLine {recipients : List JsString} (h : ∀ r ∈ recipients, addressPattern r) :
    OneLine (angleList recipients) := by
  unfold angleList join
  induction recipients with
  | nil => decide
  | cons r recipients ih =>
    rw [List.forall_mem_cons] at h
    have first : OneLine (60 :: r ++ [62]) :=
      oneLine_append (oneLine_append (s := [60]) (by decide) (address_oneLine h.1)) (by decide)
    cases recipients with
    | nil =>
      rw [List.map_cons, List.map_nil, List.intercalate_singleton]
      exact first
    | cons r' recipients =>
      rw [List.map_cons, List.map_cons, List.intercalate_cons_cons]
      exact oneLine_append (oneLine_append first (by decide)) (ih h.2)

theorem splitString_angleList {recipients : List JsString} (some' : recipients ≠ [])
    (h : ∀ r ∈ recipients, addressPattern r) :
    splitString (js ", ") (angleList recipients) = recipients.map fun r => 60 :: r ++ [62] := by
  apply splitString_join
  · exact fun none => some' (List.map_eq_nil_iff.mp none)
  · intro l hl
    obtain ⟨r, hr, rfl⟩ := List.mem_map.mp hl
    intro found
    have inside : 44 ∈ r := by
      rcases List.mem_append.mp found with found | found
      · rcases List.mem_cons.mp found with eq | found
        · cases eq
        · exact found
      · cases List.mem_singleton.mp found
    rcases addressPattern_units (h r hr) 44 inside with at' | unit
    · cases at'
    · exact (isAddressUnit_ne unit).1 rfl

theorem domainPart_oneLine {sender : JsString} (h : OneLine sender) : OneLine (domainPart sender) := by
  have sub : ∀ {s : JsString} {p : JsString × JsString}, cutLast s 64 = some p → ∀ u ∈ p.2, u ∈ s := by
    intro s
    induction s with
    | nil => nofun
    | cons v s ih =>
      intro p found u hu
      rw [cutLast] at found
      split at found
      · rename_i q rest
        cases found
        exact List.mem_cons_of_mem v (ih rest u hu)
      · split at found
        · cases found
          exact List.mem_cons_of_mem v hu
        · cases found
  unfold domainPart
  cases found : cutLast sender 64 with
  | none => exact h
  | some p => exact ⟨fun hu => h.1 (sub found _ hu), fun hu => h.2 (sub found _ hu)⟩

theorem date_oneLine (now : Option Int) : OneLine (replaceFirst (utcString now) (js "GMT") (js "+0000")) := by
  apply oneLine_of_units (p := isPrintable)
  · intro u hu
    rcases mem_replaceFirst hu with hu | hu
    · have zone : ∀ u ∈ js "+0000", isPrintable u := forall_of_all (by decide)
      exact zone u hu
    · exact utcString_printable now u hu
  · decide
  · decide

theorem headerValues_oneLine {body : JsValue} {input : OutgoingMessageInput} (accepted : Accepted body input)
    {sender : JsString} (clean : OneLine sender) (now : Option Int) (uuid : Uuid) :
    ∀ value ∈ headerValues sender input now uuid, OneLine value := by
  obtain ⟨_, _, valid⟩ := parseRecipients_valid accepted.recipients
  have uuidLine : OneLine uuid.text := oneLine_of_units uuid.form (by decide) (by decide)
  have sender' : OneLine (js "<" ++ sender ++ js ">") := oneLine_append (oneLine_append (by decide) clean) (by decide)
  have id : OneLine (js "<" ++ uuid.text ++ js "@" ++ domainPart sender ++ js ">") :=
    oneLine_append (oneLine_append (oneLine_append (oneLine_append (by decide) uuidLine) (by decide))
      (domainPart_oneLine clean)) (by decide)
  simp only [headerValues, List.forall_mem_cons, List.not_mem_nil, false_implies, implies_true, and_true]
  exact ⟨sender', angleList_oneLine valid, encodeSubject_oneLine accepted.subject_units, date_oneLine now, id,
    by decide, by decide, by decide⟩

theorem zipWith_oneLine {names values : List JsString} (named : ∀ name ∈ names, name ≠ [] ∧ OneLine name)
    (clean : ∀ value ∈ values, OneLine value) :
    ∀ l ∈ List.zipWith (fun name value => name ++ js ": " ++ value) names values, l ≠ [] ∧ OneLine l := by
  induction names generalizing values with
  | nil => nofun
  | cons name names ih =>
    cases values with
    | nil => nofun
    | cons value values =>
      rw [List.forall_mem_cons] at named clean
      rw [List.zipWith_cons_cons, List.forall_mem_cons]
      have line := oneLine_append (oneLine_append named.1.2 (by decide : OneLine (js ": "))) clean.1
      exact ⟨⟨by simp [named.1.1], line⟩, ih named.2 clean.2⟩

/-- The message reads back as its headers and its body. -/
theorem readMessage_composeMessage {body : JsValue} {input : OutgoingMessageInput} (accepted : Accepted body input)
    {sender : JsString} (clean : OneLine sender) (now : Option Int) (uuid : Uuid) :
    readMessage (composeMessage sender input now uuid) =
      some (headerNames.zip (headerValues sender input now uuid), encodeText input.text) := by
  have values := headerValues_oneLine accepted clean now uuid
  have lines : ∀ l ∈ headerLines sender input now uuid, l ≠ [] ∧ OneLine l := by
    rw [headerLines_eq]
    exact zipWith_oneLine (by decide) values
  have some' : headerLines sender input now uuid ≠ [] := List.cons_ne_nil _ _
  have split : splitString crlf (join (headerLines sender input now uuid) crlf) = headerLines sender input now uuid :=
    splitString_join some' fun l hl => (lines l hl).2.1
  rw [readMessage, composeMessage, join_append some', cutString_lines some' lines, Option.bind_some, split,
    headerLines_eq, mapM_readHeader (by decide)]
  rfl

/-- A text cut into lines of at most 76 units, each ended. -/
inductive Wrapped : JsString → JsString → Prop where
  | nil : Wrapped [] []
  | line {l s w : JsString} (short : l.length ≤ 76) (rest : Wrapped s w) : Wrapped (l ++ s) (l ++ crlf ++ w)

theorem isBase64_dot {u : UInt16} (h : isBase64 u) : isLineTerminator u = false ∧ isHighSurrogate u = false := by
  simp only [isBase64, isAlnum, isAlpha, isUpper, isLower, isDigit, base64Pad, isLineTerminator, isHighSurrogate,
    Bool.or_eq_true, Bool.and_eq_true, decide_eq_true_eq, beq_iff_eq, Bool.or_eq_false_iff, Bool.and_eq_false_iff,
    decide_eq_false_iff_not, beq_eq_false_iff_ne, ne_eq, UInt16.le_iff_toNat_le, ← UInt16.toNat_inj] at h ⊢
  simp only [UInt16.reduceToNat] at h ⊢
  omega

theorem dotRun_eq {s : JsString} (max : Nat) (h : ∀ u ∈ s, isBase64 u) : dotRun max s = min max s.length := by
  induction s generalizing max with
  | nil => cases max <;> rfl
  | cons u s ih =>
    rw [List.forall_mem_cons] at h
    obtain ⟨line, pair⟩ := isBase64_dot h.1
    cases max with
    | zero => simp [dotRun]
    | succ max =>
      have rest := ih max h.2
      cases s with
      | nil => simp [dotRun, line]
      | cons v s =>
        rw [dotRun, line, pair, Bool.false_and, if_neg Bool.false_ne_true, if_neg Bool.false_ne_true, rest]
        simp only [List.length_cons]
        omega

theorem wrapped_base64 {s : JsString} (h : ∀ u ∈ s, isBase64 u) : Wrapped s (replaceWith bodyLine s) := by
  induction len : s.length using Nat.strongRecOn generalizing s with
  | _ n ih =>
    cases s with
    | nil => exact .nil
    | cons u s =>
      have run := dotRun_eq 76 h
      have matched : bodyLine (u :: s) = some (min 75 s.length + 1, (u :: s).take 76 ++ crlf) := by
        have positive : dotRun 76 (u :: s) = min 75 s.length + 1 := by
          rw [run, List.length_cons]
          omega
        have taken : (u :: s).take (min 75 s.length + 1) = (u :: s).take 76 := by
          rw [List.take_eq_take_iff, List.length_cons]
          omega
        rw [bodyLine, positive, if_neg (Nat.succ_ne_zero _), taken]
      have dropped : s.drop (min 75 s.length) = (u :: s).drop 76 := by
        rw [List.drop_succ_cons, List.drop_eq_drop_iff]
        omega
      have rest : Wrapped ((u :: s).drop 76) (replaceWith bodyLine ((u :: s).drop 76)) := by
        apply ih _ _ (fun v hv => h v (List.mem_of_mem_drop hv)) rfl
        rw [← len, List.length_drop, List.length_cons]
        omega
      have first : ((u :: s).take 76).length ≤ 76 := List.length_take_le 76 _
      have whole := Wrapped.line first rest
      rw [List.take_append_drop] at whole
      rw [replaceWith_cons_some matched, dropped]
      exact whole

theorem Wrapped.crlfOnly {s w : JsString} (h : Wrapped s w) (units : ∀ u ∈ s, isBase64 u) :
    CrlfOnly w ∧ ∀ u ∈ w, isBase64 u ∨ u = 13 ∨ u = 10 := by
  induction h with
  | nil => exact ⟨.nil, nofun⟩
  | @line l s w short rest ih =>
    rw [List.forall_mem_append] at units
    obtain ⟨crlfs, below⟩ := ih units.2
    have clean : OneLine l := oneLine_of_units units.1 (by decide) (by decide)
    refine ⟨crlfOnly_append (crlfOnly_append (crlfOnly_clean clean.1 clean.2) crlfOnly_crlf) crlfs, ?_⟩
    intro u hu
    rw [List.mem_append, List.mem_append] at hu
    rcases hu with (hu | hu) | hu
    · exact .inl (units.1 u hu)
    · right
      simpa [crlf] using hu
    · exact below u hu

theorem encodeText_wrapped (text : JsString) : Wrapped (base64 (utf8 (normalizeNewlines text))) (encodeText text) :=
  wrapped_base64 (base64_units _)

/-- The headers that neither the subject nor the random id is in. -/
def isFixed (header : JsString × JsString) : Bool := header.1 != js "Subject" && header.1 != js "Message-ID"

/-- However the body of the request is made, the message has the eight headers
of `composeMessage` and no others, its recipients are those that were
validated, and the other headers do not depend on the subject and the text. -/
theorem composeMessage_headers {body : JsValue} {input : OutgoingMessageInput}
    (accepted : validateOutgoing body = .ok input) {sender : JsString} (clean : ∀ u ∈ sender, isControlChar u = false)
    (now : Option Int) (uuid : Uuid) :
    ∃ headers content, readMessage (composeMessage sender input now uuid) = some (headers, content) ∧
      headers.map Prod.fst = headerNames ∧ (∀ h ∈ headers, OneLine h.2) ∧
      parseRecipients (body.get "to") = .ok input.recipients ∧
      (∃ value, (js "To", value) ∈ headers ∧
        splitString (js ", ") value = input.recipients.map fun recipient => 60 :: recipient ++ [62]) ∧
      CrlfOnly content ∧ (∀ u ∈ content, isBase64 u ∨ u = 13 ∨ u = 10) ∧
      ∀ body' input' uuid', validateOutgoing body' = .ok input' → body'.get "to" = body.get "to" →
        ∃ headers' content', readMessage (composeMessage sender input' now uuid') = some (headers', content') ∧
          headers'.filter isFixed = headers.filter isFixed := by
  have fields := accepted_of_validateOutgoing accepted
  have line := oneLine_of_control clean
  obtain ⟨some', _, valid⟩ := parseRecipients_valid fields.recipients
  have values := headerValues_oneLine fields line now uuid
  obtain ⟨crlfs, units⟩ := (encodeText_wrapped input.text).crlfOnly (base64_units _)
  refine ⟨_, _, readMessage_composeMessage fields line now uuid, rfl, ?_, fields.recipients,
    ⟨angleList input.recipients, ?_, splitString_angleList some' valid⟩, crlfs, units, ?_⟩
  · intro h hh
    exact values _ (List.of_mem_zip hh).2
  · exact List.mem_cons_of_mem _ List.mem_cons_self
  · intro body' input' uuid' accepted' same
    have fields' := accepted_of_validateOutgoing accepted'
    have recipients : input'.recipients = input.recipients := by
      have parsed := fields'.recipients
      rw [same, fields.recipients] at parsed
      exact (Except.ok.inj parsed).symm
    refine ⟨_, _, readMessage_composeMessage fields' line now uuid', ?_⟩
    rw [headerValues, headerValues, recipients]
    rfl

def sampleBody (subject text : String) : JsValue :=
  .object [(js "to", .string (js "A <a@x.example>; b@x.example")), (js "subject", .string (js subject)),
    (js "text", .string (js text))]

def sampleInput (subject text : String) : OutgoingMessageInput :=
  ⟨[js "a@x.example", js "b@x.example"], js subject, js text⟩

/-- A subject that is not ASCII, and one that looks like a header. -/
theorem composeMessage_headers_two :
    ∃ headers content headers' content',
      readMessage (composeMessage (js "c@x.example") (sampleInput "Gr\u00fc\u00dfe" "one\ntwo") none
        ⟨js "0-0", forall_of_all (by decide)⟩) = some (headers, content) ∧
      headers.map Prod.fst = headerNames ∧ (∀ h ∈ headers, OneLine h.2) ∧
      readMessage (composeMessage (js "c@x.example") (sampleInput "Bcc: d@x.example" "\r\n\r\n.") none
        ⟨js "1-1", forall_of_all (by decide)⟩) = some (headers', content') ∧
      headers'.filter isFixed = headers.filter isFixed := by
  have accepted : validateOutgoing (sampleBody "Gr\u00fc\u00dfe" "one\ntwo") =
      .ok (sampleInput "Gr\u00fc\u00dfe" "one\ntwo") := by decide
  have accepted' : validateOutgoing (sampleBody "Bcc: d@x.example" "\r\n\r\n.") =
      .ok (sampleInput "Bcc: d@x.example" "\r\n\r\n.") := by decide
  obtain ⟨headers, content, read, names, lines, _, _, _, _, others⟩ :=
    composeMessage_headers accepted (forall_of_all (by decide) : ∀ u ∈ js "c@x.example", isControlChar u = false) none ⟨js "0-0", forall_of_all (by decide)⟩
  obtain ⟨headers', content', read', same⟩ := others _ _ ⟨js "1-1", forall_of_all (by decide)⟩ accepted' rfl
  exact ⟨headers, content, headers', content', read, names, lines, read', same⟩

end GuloGulo.Mail.Message
