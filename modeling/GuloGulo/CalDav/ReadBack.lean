import GuloGulo.CalDav.PostgresSync
import GuloGulo.CalDav.Canonical

/-!
# Reading stored objects back

The store keeps the canonical text and validates it again on every read. The
limits on lines and size were applied to the text as it was sent, so a text
that was accepted may not be readable, and a listing fails with the first
object that is not.
-/

namespace GuloGulo.CalDav.Postgres
open Js Data Sql
open Sql.Program (check)

section
variable {host : Host} {collate : JsString → JsString → Bool} {db : Db} {c : Collection}
  {actor options : JsValue} {key : TokenScope}

/-- The object is the one that was validated: the same record, the same text. -/
def Same (metadata : ValidatedICalendar) (view : CalendarObjectView) : Prop :=
  view.metadata = metadata ∧ view.ical = metadata.canonicalText

/-- The logical lines keep to the limits and have no lone surrogates. -/
structure Storable (lines : List JsString) : Prop where
  fits : FitsLimits lines
  wellFormed : ∀ l ∈ lines, isWellFormed l

theorem readObjectRow_same_iff {text : JsString} {r : ValidatedICalendar}
    (accepted : validateICalendar host (.string text) = .ok r) (row : CollectionRow) {o : ObjectRow}
    (stored : o.icalData = toWellFormed r.canonicalText) :
    (∃ view, readObjectRow host row o = .ok view ∧ Same r view) ↔
      Storable (logicalLines (replaceAll text crlf lf)) := by
  constructor
  · rintro ⟨view, hview, hmetadata, hical⟩
    obtain ⟨metadata, hvalid, hview⟩ := bind_eq_ok.mp hview
    cases hview
    obtain rfl : metadata = r := hmetadata
    have htext : o.icalData = metadata.canonicalText := hical
    rw [htext] at hvalid
    refine ⟨(validateICalendar_again accepted).mp hvalid, ?_⟩
    apply (canonicalText_wellFormed_iff accepted).mp
    rw [isWellFormed, ← stored, htext]
    exact beq_self_eq_true _
  · rintro ⟨fits, wellFormed⟩
    have hwf := (canonicalText_wellFormed_iff accepted).mpr wellFormed
    have htext : o.icalData = r.canonicalText := stored.trans (toWellFormed_of_isWellFormed hwf)
    have hvalid : validateICalendar host (.string o.icalData) = .ok r := by
      rw [htext]
      exact (validateICalendar_again accepted).mpr fits
    exact ⟨publicObjectRow row o r, by rw [readObjectRow, hvalid]; rfl, rfl, htext⟩

/-! ## The two reads -/

theorem run_getCalendarObject {o : ObjectRow} (object : options ≠ .null) (hc : db.find key = some c)
    (reader : CanRead host collate db actor (options.get "calendarId") key)
    (id : options.get "objectId" = .string o.objectId) (slug : calendarIdPattern o.objectId)
    (ho : c.objects.lookup o.objectId = some o) :
    (getCalendarObject host actor options).transact (Stmt.exec collate) db =
      ((readObjectRow host c.row o).mapError .contract, db) := by
  obtain ⟨a, row, ha, rfl, hrow⟩ := reader
  obtain ⟨_, _, ⟨c', hc', rfl⟩, _⟩ := resolveCollectionRow_run hrow
  obtain rfl : c' = c := Option.some.inj (hc'.symm.trans hc)
  have hopen : destructure options = (pure () : CalDavProgram Unit) := by
    unfold destructure
    split
    · exact absurd rfl object
    · rfl
  have hslug : canonicalCalendarSlug (options.get "objectId") "objectId" = .ok o.objectId := by
    rw [id]
    exact requiredPattern_eq_ok.mpr ⟨rfl, slug⟩
  have hselect := run_selectObject collate hc' o.objectId false
  rw [ho] at hselect
  have hrun : (getCalendarObject host actor options).run (Stmt.exec collate) db =
      (check (readObjectRow host c'.row o) : CalDavProgram CalendarObjectView).run (Stmt.exec collate) db := by
    unfold getCalendarObject
    rw [hopen]
    refine (Program.run_check_bind).trans ?_
    rw [ha]
    refine (Program.run_bind_ok hrow).trans ?_
    refine (Program.run_check_bind).trans ?_
    rw [hslug]
    exact Program.run_bind_ok hselect
  unfold Program.transact
  rw [hrun]
  cases readObjectRow host c'.row o <;> rfl

/-- A listing without a token: all objects, or the error of the first that
cannot be read. -/
theorem run_listAll (object : options ≠ .null) (hc : db.find key = some c)
    (reader : CanRead host collate db actor (options.get "calendarId") key)
    (token : (options.get "syncToken").isNullish) :
    ((listCalendarObjects host actor options).transact (Stmt.exec collate) db).1.map (·.objects) =
      ((orderBy (fun a b => collate a.objectId b.objectId) c.objects.rows).mapM
        (readObjectRow host c.row)).mapError .contract := by
  obtain ⟨a, row, ha, rfl, hrow⟩ := reader
  obtain ⟨_, _, ⟨c', hc', rfl⟩, _⟩ := resolveCollectionRow_run hrow
  obtain rfl : c' = c := Option.some.inj (hc'.symm.trans hc)
  have hdecode : decodeToken (options.get "syncToken") c'.row.key = .ok 0 := by
    cases h : options.get "syncToken" with
    | undefined | null => rfl
    | bool | number | nonFinite | string | date | array | object | other => rw [h] at token; cases token
  have hselect : (send (.selectObjects c'.row.key)).run (Stmt.exec collate) db =
      .ok (orderBy (fun a b => collate a.objectId b.objectId) c'.objects.rows, db) := by
    rw [run_send, Stmt.exec, hc']
    rfl
  have hdelta : (readDelta host c'.row (options.get "syncToken") 0).run (Stmt.exec collate) db =
      (do
        let objects ← ((orderBy (fun a b => collate a.objectId b.objectId) c'.objects.rows).mapM
          (readObjectRow host c'.row)).mapError .contract
        return ((objects, []), db)) := by
    unfold readDelta
    rw [if_pos token]
    refine (Program.run_bind_ok hselect).trans ?_
    exact Program.run_check_bind
  unfold Program.transact
  rw [run_listCalendarObjects object ha hrow, hdecode]
  simp only [mapError_ok, ok_bind, Nat.not_lt_zero, decide_false, failIf, throwIf_false, hdelta]
  cases List.mapM (readObjectRow host c'.row) (orderBy _ c'.objects.rows) <;> rfl

theorem canRead_object (reader : CanRead host collate db actor (options.get "calendarId") key) :
    options ≠ .null := by
  rintro rfl
  obtain ⟨a, row, _, _, hrow⟩ := reader
  cases hrow

end

/-- Revalidation gives the same record exactly when the logical lines keep to
the limits. The database also replaces lone surrogates; what it stores is read
back, alone and in a listing, as the object that was validated exactly when
there are none and the lines keep to the limits. -/
theorem validateICalendar_canonical {host : Host} {text : JsString} {r : ValidatedICalendar}
    (accepted : validateICalendar host (.string text) = .ok r) :
    (validateICalendar host (.string r.canonicalText) = .ok r ↔
      FitsLimits (logicalLines (replaceAll text crlf lf))) ∧
    ∀ collate tenants db db' now call writer written view,
      Run host collate (fun _ _ _ => True) (.empty tenants) db →
      call = .createCalendarObject writer written ∨ call = .updateCalendarObject writer written →
      written.get "ical" = .string text →
      (program host now call).transact (Stmt.exec collate) db = (.ok (.object view), db') →
      ∃ key, view.calendarId = calendarKey key ∧ (contents db' key view.objectId).isSome ∧
        ∀ actor options, CanRead host collate db' actor (options.get "calendarId") key →
          (options.get "objectId" = .string view.objectId →
            ((∃ v, ((getCalendarObject host actor options).transact (Stmt.exec collate) db').1 = .ok v ∧
              Same r v) ↔ Storable (logicalLines (replaceAll text crlf lf)))) ∧
          ((options.get "syncToken").isNullish →
            (∀ c, db'.find key = some c → ∀ o ∈ c.objects.rows, o.objectId ≠ view.objectId →
              ∃ r, validateICalendar host (.string o.icalData) = .ok r) →
            ((∃ l, ((listCalendarObjects host actor options).transact (Stmt.exec collate) db').1 = .ok l ∧
              ∃ v ∈ l.objects, v.objectId = view.objectId ∧ Same r v) ↔
                Storable (logicalLines (replaceAll text crlf lf)))) := by
  refine ⟨validateICalendar_again accepted, ?_⟩
  intro collate tenants db db' now call writer written view before hcall hical hrun
  have logged := run_logged before (empty_sound host tenants).logged
  obtain ⟨c, c', o, metadata, acc⟩ :
      ∃ c c' row metadata, Accepted host now written db db' view c c' row metadata := by
    rw [Program.transact_eq_ok] at hrun
    rcases hcall with rfl | rfl
    · obtain ⟨v, d, hv, hrun⟩ := Program.run_bind_eq_ok.mp hrun
      cases hrun
      exact createCalendarObject_accepted logged hv
    · obtain ⟨v, d, hv, hrun⟩ := Program.run_bind_eq_ok.mp hrun
      cases hrun
      exact updateCalendarObject_accepted logged hv
  obtain rfl : metadata = r := by
    have hvalid := acc.validated
    rw [hical, accepted] at hvalid
    exact (Except.ok.inj hvalid).symm
  have hview : view.objectId = o.objectId := by rw [acc.view]; rfl
  have hc' : db'.find c.key = some c' := acc.placed.here
  have ho : c'.objects.lookup o.objectId = some o := by rw [acc.written.objects, if_pos rfl]
  have same := fun row => readObjectRow_same_iff accepted row acc.text
  refine ⟨c.key, by rw [acc.view]; rfl, ?_, ?_⟩
  · rw [contents_of_find hc', hview, Collection.contents, ho]
    rfl
  intro actor options reader
  rw [hview]
  constructor
  · intro hid
    rw [run_getCalendarObject (canRead_object reader) hc' reader hid acc.slug ho, ← same c'.row]
    constructor
    · rintro ⟨v, hv, hsame⟩
      exact ⟨v, mapError_eq_ok.mp hv, hsame⟩
    · rintro ⟨v, hv, hsame⟩
      exact ⟨v, mapError_eq_ok.mpr hv, hsame⟩
  · intro token others
    have listed := run_listAll (canRead_object reader) hc' reader token
    rw [← same c'.row]
    have perm := List.perm_insertionSort (fun a b => collate a.objectId b.objectId = true) c'.objects.rows
    constructor
    · rintro ⟨l, hl, v, hv, hid, hsame⟩
      rw [hl] at listed
      obtain ⟨o', ho', hread⟩ := (mapM_eq_ok (mapError_eq_ok.mp listed.symm)).2 v hv
      have hentry := readObjectRow_entry hread
      have hkey : o'.objectId = o.objectId := (congrArg Prod.fst hentry).symm.trans hid
      have hmem := Table.lookup_of_mem (perm.mem_iff.mp ho')
      rw [hkey, ho] at hmem
      cases hmem
      exact ⟨v, hread, hsame⟩
    · rintro ⟨v, hv, hsame⟩
      have all : ∀ row ∈ orderBy (fun a b => collate a.objectId b.objectId) c'.objects.rows,
          ∃ view, readObjectRow host c'.row row = .ok view := by
        intro row hrow
        by_cases hid : row.objectId = o.objectId
        · have hmem := Table.lookup_of_mem (perm.mem_iff.mp hrow)
          rw [hid, ho] at hmem
          cases hmem
          exact ⟨v, hv⟩
        · obtain ⟨metadata', hvalid⟩ := others c' hc' row (perm.mem_iff.mp hrow) hid
          exact ⟨publicObjectRow c'.row row metadata', by rw [readObjectRow, hvalid]; rfl⟩
      obtain ⟨views, hviews⟩ := mapM_ok_of_forall all
      rw [hviews] at listed
      obtain ⟨l, hl, hobjects⟩ := map_eq_ok.mp listed
      obtain ⟨w, hw, hread⟩ := (mapM_eq_ok hviews).1 o (perm.mem_iff.mpr (Table.mem_of_lookup ho))
      cases hv.symm.trans hread
      refine ⟨l, hl, v, hobjects ▸ hw, ?_, hsame⟩
      exact congrArg Prod.fst (readObjectRow_entry hv)

/-- An event that is stored and read back. -/
theorem validateICalendar_canonical_event :
    let text := sampleEvent (js "SUMMARY:a")
    ∃ r, validateICalendar asciiHost (.string text) = .ok r ∧
      validateICalendar asciiHost (.string r.canonicalText) = .ok r ∧
      ∃ v, ((getCalendarObject asciiHost (sampleActor "ada")
          (sampleOptions [("calendarId", js "work"), ("objectId", js "a")])).transact
        (Stmt.exec fun _ _ => true) (sampleDb [createWork, createInWork "a" text])).1 = .ok v ∧ Same r v := by
  intro text
  let options := sampleOptions [("calendarId", js "work"), ("objectId", js "a"), ("ical", text)]
  have run : ((createCalendarObject asciiHost 0 (sampleActor "ada") options).run (Stmt.exec fun _ _ => true)
      (sampleDb [createWork])).map (fun r => (r.1.objectId, r.2.collections.rows.map (·.key),
        ((resolveCollectionRow ⟨js "acme", js "ada"⟩ (.string (js "work")) false .read).run
          (Stmt.exec fun _ _ => true) r.2).map (·.1.key))) = .ok (js "a", [workScope], .ok workScope) := by
    decide +kernel
  have hopen : openContext asciiHost (sampleActor "ada") = .ok ⟨js "acme", js "ada"⟩ := by decide
  have hical : options.get "ical" = .string text := by
    have first : (js "calendarId" == js "ical") = false := by decide
    have second : (js "objectId" == js "ical") = false := by decide
    simp [options, sampleOptions, JsValue.get, first, second]
  have valid : (validateICalendar asciiHost (.string text)).toBool := by decide +kernel
  obtain ⟨r, accepted⟩ := eq_ok_of_toBool valid
  have limits : (∀ l ∈ logicalLines (replaceAll text crlf lf),
        l.length ≤ maxICalendarLineLength ∧ isWellFormed l = true) ∧
      ((logicalLines (replaceAll text crlf lf)).map fun l => byteLength l + 2).sum ≤ maxICalendarBytes := by
    decide
  have storable : Storable (logicalLines (replaceAll text crlf lf)) :=
    ⟨⟨fun l hl => (limits.1 l hl).1, limits.2⟩, fun l hl => (limits.1 l hl).2⟩
  obtain ⟨⟨view, db'⟩, hrun, hfacts⟩ := map_eq_ok.mp run
  simp only [Prod.mk.injEq] at hfacts
  obtain ⟨hid, hkeys, hreader⟩ := hfacts
  have hcall : (program asciiHost 0 (createInWork "a" text)).run (Stmt.exec fun _ _ => true)
      (sampleDb [createWork]) = .ok (.object view, db') :=
    (Program.run_bind_ok hrun).trans rfl
  have hdb : sampleDb [createWork, createInWork "a" text] = db' := by
    have : sampleDb [createWork, createInWork "a" text] =
        after asciiHost (fun _ _ => true) 0 (createInWork "a" text) (sampleDb [createWork]) := rfl
    rw [this, after, Program.transact, hcall]
  obtain ⟨again, reads⟩ := validateICalendar_canonical accepted
  obtain ⟨key, _, found, reads⟩ := reads (fun _ _ => true) [js "acme"] (sampleDb [createWork]) db' 0
    (createInWork "a" text) (sampleActor "ada") options view (.call .start 0 createWork trivial) (.inl rfl) hical
    (Program.transact_eq_ok.mpr hcall)
  obtain rfl : key = workScope := by
    cases hc : db'.find key with
    | none => simp [contents, hc] at found
    | some c =>
      have hkey := List.mem_map_of_mem (f := Collection.key) (Table.mem_of_lookup hc)
      rw [hkeys, List.mem_singleton] at hkey
      exact (key_of_find hc).symm.trans hkey
  refine ⟨r, accepted, again.mpr storable.fits, ?_⟩
  rw [hdb]
  refine ((reads (sampleActor "ada") _ ?_).1 ?_).mpr storable
  · obtain ⟨⟨row, d⟩, hrow, hkey⟩ := map_eq_ok.mp hreader
    obtain ⟨same, _⟩ := resolveCollectionRow_run hrow
    rw [same] at hrow
    exact ⟨_, row, hopen, hkey, hrow⟩
  · rw [hid]
    rfl

/-! ### Samples -/

/-- The lines of an event whose summary is folded once, with `n` letters on
either line. -/
def foldedLines (n : Nat) : List JsString :=
  ["BEGIN:VCALENDAR", "VERSION:2.0", "PRODID:-//acme//EN", "BEGIN:VEVENT", "UID:1",
    "DTSTART:20260709T120000Z"].map js ++
  [js "SUMMARY:" ++ List.replicate n 97, 32 :: List.replicate n 97, js "END:VEVENT", js "END:VCALENDAR"]

def unfoldedLines (n : Nat) : List JsString :=
  ["BEGIN:VCALENDAR", "VERSION:2.0", "PRODID:-//acme//EN", "BEGIN:VEVENT", "UID:1",
    "DTSTART:20260709T120000Z"].map js ++
  [js "SUMMARY:" ++ List.replicate n 97 ++ List.replicate n 97, js "END:VEVENT", js "END:VCALENDAR"]

theorem foldedLines_unit (n : Nat) :
    ∀ l ∈ foldedLines n, ∀ u ∈ l, (u < 128 ∧ u ≠ 10) ∧ isRefusedControl u = false := by
  have units : (foldedLines n).all (fun l =>
      l.all fun u => (decide (u < 128) && u != 10) && !isRefusedControl u) = true := by
    simp only [foldedLines, List.map_cons, List.map_nil, List.cons_append, List.nil_append, List.all_cons,
      List.all_nil, List.all_append, List.all_replicate]
    split <;> decide
  simpa using units

theorem foldedLines_length (n : Nat) :
    (foldedLines n).map List.length = [15, 11, 18, 12, 5, 24, 8 + n, n + 1, 10, 13] := by
  simp only [foldedLines, List.map_cons, List.map_nil, List.cons_append, List.nil_append, List.length_append,
    List.length_replicate, List.length_cons]
  rfl

theorem canonicalLineEndings_folded {n : Nat} (h : n ≤ 8184) :
    canonicalLineEndings (.string ((foldedLines n).flatMap (· ++ crlf))) =
      .ok (unfoldedLines n, join (unfoldedLines n) crlf ++ crlf) := by
  have plain : PlainLines (foldedLines n) := by
    refine ⟨by simp [foldedLines], by simp [foldedLines, maxICalendarLines], ?_, ?_⟩
    · intro l hl hm
      exact (foldedLines_unit n l hl 10 hm).1.2 rfl
    · intro l hl
      rw [List.any_eq_false]
      intro u hu
      simp [(foldedLines_unit n l hl u hu).2]
  have short : ((foldedLines n).any fun line => decide (maxICalendarLineLength < line.length)) = false := by
    rw [List.any_eq_false]
    intro l hl
    have hlen := List.mem_map_of_mem (f := List.length) hl
    simp only [foldedLines_length, List.mem_cons, List.not_mem_nil, or_false] at hlen
    have within : l.length ≤ maxICalendarLineLength := by
      rw [maxICalendarLineLength]
      omega
    simpa using within
  have small : ¬ maxICalendarBytes < ((foldedLines n).map fun l => byteLength l + 2).sum := by
    have bytes : ((foldedLines n).map fun l => byteLength l + 2) =
        ((foldedLines n).map List.length).map (· + 2) := by
      rw [List.map_map]
      apply List.map_congr_left
      intro l hl
      rw [byteLength_ascii fun u hu => (foldedLines_unit n l hl u hu).1.1]
      rfl
    rw [bytes, foldedLines_length]
    simp only [List.map_cons, List.map_nil, List.sum_cons, List.sum_nil, maxICalendarBytes]
    omega
  have unfolded (err : CalDavError) : unfoldLines err (foldedLines n) = .ok (unfoldedLines n) := rfl
  rw [canonicalLineEndings_lines plain]
  simp only [short, decide_eq_false small, failIf, throwIf_false, ok_bind, unfolded]
  rfl

/-- Two lines within the limit, one logical line beyond it. -/
theorem validateICalendar_refuses_unfolded :
    ∃ r, validateICalendar asciiHost (.string ((foldedLines 5000).flatMap (· ++ crlf))) = .ok r ∧
      validateICalendar asciiHost (.string r.canonicalText) ≠ .ok r := by
  have parsed : (parseLines asciiHost (unfoldedLines 5000) >>= calendarMetadata asciiHost).toBool := by
    decide
  obtain ⟨metadata, hmetadata⟩ := eq_ok_of_toBool parsed
  obtain ⟨root, hroot, hmetadata⟩ := bind_eq_ok.mp hmetadata
  have lines := canonicalLineEndings_folded (n := 5000) (by decide)
  have accepted : validateICalendar asciiHost (.string ((foldedLines 5000).flatMap (· ++ crlf))) =
      .ok { metadata with canonicalText := join (unfoldedLines 5000) crlf ++ crlf } := by
    simp only [validateICalendar, lines, ok_bind, hroot, hmetadata, pure, Except.pure]
  refine ⟨_, accepted, ?_⟩
  rw [Ne, validateICalendar_again accepted, ← (canonicalLineEndings_eq_ok lines).2.1]
  intro fits
  have long : js "SUMMARY:" ++ List.replicate 5000 97 ++ List.replicate 5000 97 ∈ unfoldedLines 5000 :=
    List.mem_append_right _ List.mem_cons_self
  have := fits.line _ long
  simp only [List.length_append, List.length_replicate, maxICalendarLineLength] at this
  omega

end GuloGulo.CalDav.Postgres
