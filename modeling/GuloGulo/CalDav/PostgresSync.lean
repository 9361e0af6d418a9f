import GuloGulo.CalDav.PostgresSteps

/-!
# Sync of the PostgreSQL store

A collection's revision and change rows live and die with its row, so a token
is a position in the log of one incarnation only. A client `Follows` a
collection when everything it has not seen is in the log past its revision;
that is what a sync needs and what every write keeps. A re-created collection
starts over, and keeps it only if it comes by the token's revision with the
objects the client already has.
-/

namespace GuloGulo.CalDav.Postgres
open Js Data Sql
open Data.ChangeLog (Snapshot Ordered applyResponse applyResponse_eq_patch patch_eq)
open Sql.Program (check)

/-- What a client keeps of the objects of a collection. -/
def Collection.contents (c : Collection) : Snapshot JsString (JsString × JsString) := fun id =>
  (c.objects.lookup id).map fun o => (o.icalData, o.etag)

/-- The objects of a calendar; none, if there is no such collection. -/
def contents (db : Db) (key : TokenScope) : Snapshot JsString (JsString × JsString) := fun id =>
  (db.find key).bind fun c => c.contents id

/-- A client with objects `m` and the token of revision `r`. -/
structure Follows (m : Snapshot JsString (JsString × JsString)) (r : Nat) (c : Collection) : Prop where
  reached : r ≤ c.row.revision
  unseen : ∀ id, m id = c.contents id ∨ ∃ ch ∈ c.changes.rows, r < ch.revision ∧ ch.objectId = id

theorem Follows.now (c : Collection) : Follows c.contents c.row.revision c :=
  ⟨Nat.le_refl _, fun _ => .inl rfl⟩

/-- Every stored text is accepted when it is read. -/
def Collection.Readable (host : Host) (c : Collection) : Prop :=
  ∀ o ∈ c.objects.rows, ∃ r, validateICalendar host (.string o.icalData) = .ok r

theorem contents_of_find {db : Db} {key : TokenScope} {c : Collection} (h : db.find key = some c) :
    contents db key = c.contents := by
  funext id
  rw [contents, h, Option.bind_some]

theorem written_contents {now : Int} {c c' : Collection} {id : JsString} {object : Option ObjectRow}
    (h : Written now c c' id object) (i : JsString) :
    c'.contents i = if i = id then object.map (fun o => (o.icalData, o.etag)) else c.contents i := by
  rw [Collection.contents, h.objects]
  split <;> rfl

theorem written_follows {m : Snapshot JsString (JsString × JsString)} {r : Nat} {now : Int}
    {c c' : Collection} {id : JsString} {object : Option ObjectRow} (h : Written now c c' id object)
    (follows : Follows m r c) : Follows m r c' := by
  obtain ⟨uid, etag, hchanges⟩ := h.changes
  have reached := follows.reached
  refine ⟨by rw [h.revision]; omega, ?_⟩
  intro i
  by_cases hi : i = id
  · refine .inr ⟨_, by rw [hchanges]; exact List.mem_append_right _ (List.mem_singleton_self _), ?_, hi.symm⟩
    show r < c.row.revision + 1
    omega
  · rcases follows.unseen i with same | ⟨ch, hch, hr, hid⟩
    · left
      rw [written_contents h, if_neg hi]
      exact same
    · right
      exact ⟨ch, by rw [hchanges]; exact List.mem_append_left _ hch, hr, hid⟩

/-! ## What a sync answers -/

section
variable {host : Host} {collate : JsString → JsString → Bool} {db : Db} {c : Collection}

theorem readObjectRow_entry {o : ObjectRow} {view : CalendarObjectView} {row : CollectionRow}
    (h : readObjectRow host row o = .ok view) : view.entry = (o.objectId, o.icalData, o.etag) := by
  obtain ⟨metadata, _, h⟩ := bind_eq_ok.mp h
  cases h
  rfl

theorem readObjectRow_readable (readable : c.Readable host) {o : ObjectRow} (ho : o ∈ c.objects.rows) :
    ∃ view, readObjectRow host c.row o = .ok view := by
  obtain ⟨r, hr⟩ := readable o ho
  exact ⟨publicObjectRow c.row o r, by rw [readObjectRow, hr]; rfl⟩

variable (collate) in
theorem run_selectObject (hc : db.find c.row.key = some c) (id : JsString) (forUpdate : Bool) :
    (send (.selectObject c.row.key id forUpdate)).run (Stmt.exec collate) db =
      .ok ((c.objects.lookup id).toList, db) := by
  rw [run_send, Stmt.exec, hc]
  rfl

variable (collate) in
/-- What the loop over the changed objects collects. -/
theorem readChanged_run (hc : db.find c.row.key = some c) (readable : c.Readable host)
    (changes : List (JsString × ChangeRow)) :
    ∃ objects gone, (readChanged host c.row changes).run (Stmt.exec collate) db = .ok ((objects, gone), db) ∧
      (∀ id v, (id, v) ∈ objects.map CalendarObjectView.entry ↔
        ∃ ch, (id, ch) ∈ changes ∧ ch.deleted = false ∧ c.contents id = some v) ∧
      ∀ id, id ∈ gone ↔ ∃ ch, (id, ch) ∈ changes ∧ (ch.deleted ∨ c.contents id = none) := by
  induction changes with
  | nil => exact ⟨[], [], rfl, by simp, by simp⟩
  | cons change rest ih =>
    obtain ⟨i, change⟩ := change
    obtain ⟨objects, gone, hrun, hlive, hgone⟩ := ih
    have tombstone (h : change.deleted ∨ c.contents i = none) :
        (∀ id v, (id, v) ∈ objects.map CalendarObjectView.entry ↔
          ∃ ch, (id, ch) ∈ (i, change) :: rest ∧ ch.deleted = false ∧ c.contents id = some v) ∧
        ∀ id, id ∈ i :: gone ↔
          ∃ ch, (id, ch) ∈ (i, change) :: rest ∧ (ch.deleted ∨ c.contents id = none) := by
      constructor
      · intro id v
        rw [hlive]
        constructor
        · rintro ⟨ch, hch, h⟩
          exact ⟨ch, List.mem_cons_of_mem _ hch, h⟩
        · rintro ⟨ch, hch, hlives, hv⟩
          rcases List.mem_cons.mp hch with heq | hch
          · cases heq
            simp [hlives, hv] at h
          · exact ⟨ch, hch, hlives, hv⟩
      · intro id
        rw [List.mem_cons, hgone]
        constructor
        · rintro (rfl | ⟨ch, hch, hdead⟩)
          · exact ⟨change, List.mem_cons_self, h⟩
          · exact ⟨ch, List.mem_cons_of_mem _ hch, hdead⟩
        · rintro ⟨ch, hch, hdead⟩
          rcases List.mem_cons.mp hch with heq | hch
          · cases heq
            exact .inl rfl
          · exact .inr ⟨ch, hch, hdead⟩
    unfold readChanged
    split
    · rename_i hdeleted
      obtain ⟨hlive', hgone'⟩ := tombstone (.inl hdeleted)
      exact ⟨objects, i :: gone, by rw [Program.run_bind_ok hrun]; rfl, hlive', hgone'⟩
    · rename_i hdeleted
      have hselect := run_selectObject collate hc i false
      cases hl : c.objects.lookup i with
      | none =>
        rw [hl] at hselect
        obtain ⟨hlive', hgone'⟩ := tombstone (.inr (by rw [Collection.contents, hl]; rfl))
        refine ⟨objects, i :: gone, (Program.run_bind_ok hselect).trans ?_, hlive', hgone'⟩
        exact (Program.run_bind_ok hrun).trans rfl
      | some o =>
        rw [hl] at hselect
        have ho : c.contents i = some (o.icalData, o.etag) := by rw [Collection.contents, hl]; rfl
        obtain ⟨view, hview⟩ := readObjectRow_readable readable (Table.mem_of_lookup hl)
        have hentry : view.entry = (i, o.icalData, o.etag) := by
          rw [readObjectRow_entry hview, Table.key_of_lookup hl]
        refine ⟨view :: objects, gone, (Program.run_bind_ok hselect).trans ?_, ?_, ?_⟩
        · refine (Program.run_check_bind).trans ?_
          rw [hview]
          exact (Program.run_bind_ok hrun).trans rfl
        · intro id v
          rw [List.map_cons, List.mem_cons, hentry, hlive]
          constructor
          · rintro (heq | ⟨ch, hch, h⟩)
            · cases heq
              exact ⟨change, List.mem_cons_self, by simpa using hdeleted, ho⟩
            · exact ⟨ch, List.mem_cons_of_mem _ hch, h⟩
          · rintro ⟨ch, hch, hlives, hv⟩
            rcases List.mem_cons.mp hch with heq | hch
            · cases heq
              rw [ho] at hv
              cases hv
              exact .inl rfl
            · exact .inr ⟨ch, hch, hlives, hv⟩
        · intro id
          rw [hgone]
          constructor
          · rintro ⟨ch, hch, hdead⟩
            exact ⟨ch, List.mem_cons_of_mem _ hch, hdead⟩
          · rintro ⟨ch, hch, hdead⟩
            rcases List.mem_cons.mp hch with heq | hch
            · cases heq
              simp [hdeleted, ho] at hdead
            · exact ⟨ch, hch, hdead⟩

theorem get_foldl_latest (changes : List ChangeRow) (latest : OrderedMap JsString ChangeRow) (id : JsString) :
    ((changes.foldl (fun latest change => latest.set change.objectId change) latest).get id).map
        (fun ch => ch.entry.value) =
      (ChangeLog.last (changes.map (·.entry)) id).or ((latest.get id).map fun ch => ch.entry.value) := by
  induction changes generalizing latest with
  | nil => simp [ChangeLog.last]
  | cons ch changes ih =>
    rw [List.foldl_cons, ih]
    simp only [List.map_cons, ChangeLog.last, OrderedMap.get_set]
    by_cases hid : ch.objectId = id <;> simp [ChangeRow.entry, hid]

/-- The changes past a revision, in their order. -/
def Collection.since (c : Collection) (r : Nat) : List ChangeRow :=
  c.changes.rows.filter fun change => decide (r < change.revision)

variable (collate) in
theorem run_selectChanges (logged : c.Logged) (hc : db.find c.row.key = some c) (r : Nat) :
    (send (.selectChanges c.row.key r)).run (Stmt.exec collate) db = .ok (c.since r, db) := by
  have sorted : (c.since r).Pairwise fun a b => decide (a.revision ≤ b.revision) = true := by
    refine (logged.ordered.sublist List.filter_sublist).imp ?_
    intro a b hab
    exact decide_eq_true (Nat.le_of_lt hab)
  rw [run_send, Stmt.exec, hc]
  exact congrArg (fun rows => Except.ok (rows, db)) sorted.insertionSort_eq

theorem since_log (c : Collection) (r : Nat) : (c.since r).map (·.entry) = ChangeLog.since c.log r := by
  rw [Collection.since, ChangeLog.since, Collection.log, List.filter_map]
  rfl

theorem latest_get (c : Collection) (r : Nat) (id : JsString) :
    ((latestByObject (c.since r)).get id).map (fun ch => ch.entry.value) =
      ChangeLog.last (ChangeLog.since c.log r) id := by
  rw [latestByObject, get_foldl_latest, since_log]
  simp

theorem contents_none_iff (logged : c.Logged) (id : JsString) :
    c.contents id = none ↔ ChangeLog.replay c.log id = none := by
  rw [logged.replay, Collection.contents]
  simp

/-- A tombstone past a revision is still there: nothing was written since. -/
theorem latest_deleted (logged : c.Logged) {r : Nat} {id : JsString} {ch : ChangeRow}
    (h : (latestByObject (c.since r)).get id = some ch) (deleted : ch.deleted) : c.contents id = none := by
  have hlast : ChangeLog.last (ChangeLog.since c.log r) id = some none := by
    rw [← latest_get, h]
    simp [ChangeRow.entry, deleted]
  rw [contents_none_iff logged, ChangeLog.replay, ChangeLog.last_of_since logged.log_ordered hlast]
  rfl

theorem latest_missed {r : Nat} {id : JsString} (h : (latestByObject (c.since r)).get id = none) :
    ∀ ch ∈ c.changes.rows, r < ch.revision → ch.objectId ≠ id := by
  have hlast : ChangeLog.last (ChangeLog.since c.log r) id = none := by
    rw [← latest_get, h]
    rfl
  intro ch hch hr
  have he : ch.entry ∈ ChangeLog.since c.log r := by
    rw [← since_log]
    exact List.mem_map_of_mem (List.mem_filter.mpr ⟨hch, decide_eq_true hr⟩)
  exact ChangeLog.last_eq_none.mp hlast _ he

variable (collate) in
theorem readDelta_run (logged : c.Logged) (readable : c.Readable host) (hc : db.find c.row.key = some c)
    {m : Snapshot JsString (JsString × JsString)} {r : Nat} (follows : Follows m r c) (token : JsString) :
    ∃ objects gone,
      (readDelta host c.row (.string token) r).run (Stmt.exec collate) db = .ok ((objects, gone), db) ∧
      applyResponse (objects.map CalendarObjectView.entry) gone m = c.contents := by
  obtain ⟨objects, gone, hrun, hlive, hgone⟩ :=
    readChanged_run collate hc readable (latestByObject (c.since r)).rows
  simp only [OrderedMap.mem_rows] at hlive hgone
  refine ⟨objects, gone, (Program.run_bind_ok (run_selectChanges collate logged hc r)).trans hrun, ?_⟩
  let delta : ChangeLog.Delta JsString (JsString × JsString) := fun id =>
    ((latestByObject (c.since r)).get id).map fun _ => c.contents id
  have live (id : JsString) (v : JsString × JsString) :
      (id, v) ∈ objects.map CalendarObjectView.entry ↔ delta id = some (some v) := by
    rw [hlive, Option.map_eq_some_iff]
    constructor
    · rintro ⟨ch, hch, _, hv⟩
      exact ⟨ch, hch, hv⟩
    · rintro ⟨ch, hch, hv⟩
      refine ⟨ch, hch, ?_, hv⟩
      cases hd : ch.deleted with
      | false => rfl
      | true => simp [latest_deleted logged hch hd] at hv
  have dead (id : JsString) : id ∈ gone ↔ delta id = some none := by
    rw [hgone, Option.map_eq_some_iff]
    constructor
    · rintro ⟨ch, hch, hdeleted | hnone⟩
      · exact ⟨ch, hch, latest_deleted logged hch hdeleted⟩
      · exact ⟨ch, hch, hnone⟩
    · rintro ⟨ch, hch, hnone⟩
      exact ⟨ch, hch, .inr hnone⟩
  rw [applyResponse_eq_patch live dead]
  apply patch_eq
  · intro id v hv
    obtain ⟨ch, _, rfl⟩ := Option.map_eq_some_iff.mp hv
    rfl
  · intro id hnone
    rcases follows.unseen id with same | ⟨ch, hch, hr, hid⟩
    · exact same
    · exact absurd hid (latest_missed (Option.map_eq_none_iff.mp hnone) ch hch hr)

end

/-- The actor may read the calendar of this key under this id. -/
def CanRead (host : Host) (collate : JsString → JsString → Bool) (db : Db) (actor calendarId : JsValue)
    (key : TokenScope) : Prop :=
  ∃ a row, openContext host actor = .ok a ∧ row.key = key ∧
    (resolveCollectionRow a calendarId false .read).run (Stmt.exec collate) db = .ok (row, db)

/-- The token is rejected, or the answer brings `m` to the objects of now. -/
def RejectsOrCatchesUp (result : Except (Thrown CalDavError) ObjectList)
    (m current : Snapshot JsString (JsString × JsString)) : Prop :=
  (∃ e, result = .error (.contract e) ∧ e.code = .invalidSyncToken) ∨
    ∃ l, result = .ok l ∧ applyResponse (l.objects.map (·.entry)) l.deletedObjectIds m = current

section
variable {host : Host} {collate : JsString → JsString → Bool} {db : Db} {c : Collection}
  {actor options : JsValue} {key : TokenScope}

/-- A sync of a calendar that may be read: the token, then the delta. -/
theorem run_listCalendarObjects {a : CalDavActor} {row : CollectionRow} (object : options ≠ .null)
    (ha : openContext host actor = .ok a)
    (hrow : (resolveCollectionRow a (options.get "calendarId") false .read).run (Stmt.exec collate) db =
      .ok (row, db)) :
    (listCalendarObjects host actor options).run (Stmt.exec collate) db = (do
      let since ← (decodeToken (options.get "syncToken") row.key).mapError Thrown.contract
      (failIf (decide (row.revision < since)) "syncToken is from the future"
        CalDavCode.invalidSyncToken 400).mapError Thrown.contract
      let ((objects, gone), d) ←
        (readDelta host row (options.get "syncToken") since).run (Stmt.exec collate) db
      return (⟨calendarKey row.key, objects, gone, makeToken row.key row.revision⟩, d)) := by
  have hopen : destructure options = (pure () : CalDavProgram Unit) := by
    unfold destructure
    split
    · exact absurd rfl object
    · rfl
  unfold listCalendarObjects
  rw [hopen]
  refine (Program.run_check_bind).trans ?_
  rw [ha]
  refine (Program.run_bind_ok hrow).trans ?_
  refine (Program.run_check_bind).trans ?_
  congr 1
  funext since
  refine (Program.run_check_bind).trans ?_
  congr 1
  funext _
  rw [Program.run_bind]
  congr 1

theorem listCalendarObjects_answer (logged : c.Logged) (readable : c.Readable host)
    (hc : db.find key = some c) (reader : CanRead host collate db actor (options.get "calendarId") key)
    {m : Snapshot JsString (JsString × JsString)} {r : Nat}
    (token : options.get "syncToken" = .string (makeToken key r))
    (follows : c.row.revision < r ∨ Follows m r c) :
    RejectsOrCatchesUp ((listCalendarObjects host actor options).transact (Stmt.exec collate) db).1 m
      (contents db key) := by
  obtain ⟨a, row, ha, rfl, hrow⟩ := reader
  obtain ⟨_, _, ⟨c', hc', hrow'⟩, _⟩ := resolveCollectionRow_run hrow
  obtain rfl : c' = c := Option.some.inj (hc'.symm.trans hc)
  subst hrow'
  have object : options ≠ .null := by
    rintro rfl
    cases token
  have decoded := decodeToken_self (show c'.row.key.Valid from logged.valid) r
  rw [Program.transact, run_listCalendarObjects object ha hrow, token, decoded]
  by_cases big : maxSafeInteger < r
  · left
    simp [failIf, big, calDavError]
  by_cases future : c'.row.revision < r
  · left
    simp [failIf, big, future, calDavError, pure, Except.pure]
  obtain ⟨objects, gone, hdelta, happly⟩ := readDelta_run collate logged readable hc
    (follows.resolve_left future) (makeToken c'.row.key r)
  right
  simp only [failIf, big, future, decide_false, throwIf_false, mapError_ok, pure, Except.pure, ok_bind,
    hdelta]
  exact ⟨_, rfl, happly.trans (contents_of_find hc).symm⟩

end

/-! ## What a step does to one collection -/

inductive Carried (texts : JsString → Prop) (db : Db) (key : TokenScope) (d : Collection) : Prop where
  | kept (same : db.find key = some d)
  | created (absent : db.find key = none) (valid : d.key.Valid) (revision : d.row.revision = 0)
      (objects : d.objects = Table.empty) (changes : d.changes = Table.empty)
  | acl (c : Collection) (present : db.find key = some c) (acl : Option CalendarAcl) (now : Int)
      (eq : d = { c with row := { c.row with acl, updatedAt := now } })
  | written (c : Collection) (present : db.find key = some c) (id : JsString) (object : Option ObjectRow)
      (now : Int) (text : ∀ o ∈ object, texts o.icalData) (written : Written now c d id object)

theorem step_carried {texts : JsString → Prop} {db db' : Db} (h : Step texts db db') {key : TokenScope}
    {d : Collection} (hd : db'.find key = some d) : Carried texts db key d := by
  have elsewhere {k : TokenScope} {o : Option Collection} (placed : Placed db db' k o) (hk : key ≠ k) :
      db.find key = some d := (placed.elsewhere key hk).symm.trans hd
  have here {k : TokenScope} {o : Option Collection} (placed : Placed db db' k o) (hk : key = k) :
      o = some d := by
    subst hk
    exact placed.here.symm.trans hd
  cases h with
  | read same =>
    subst same
    exact .kept hd
  | create c valid fresh revision objects changes placed =>
    by_cases hk : key = c.key
    · cases here placed hk
      exact .created (hk ▸ fresh) valid revision objects changes
    · exact .kept (elsewhere placed hk)
  | acl k c present acl now placed =>
    by_cases hk : key = k
    · cases here placed hk
      exact .acl c (hk ▸ present) acl now rfl
    · exact .kept (elsewhere placed hk)
  | write k c c' present id object now text written placed =>
    by_cases hk : key = k
    · cases here placed hk
      exact .written c (hk ▸ present) id object now text written
    · exact .kept (elsewhere placed hk)
  | delete k c present empty placed =>
    by_cases hk : key = k
    · cases here placed hk
    · exact .kept (elsewhere placed hk)

theorem step_logged {texts : JsString → Prop} {db db' : Db} (h : Step texts db db') (logged : db.Logged) :
    db'.Logged := by
  intro key d hd
  cases step_carried h hd with
  | kept same => exact logged key d same
  | created absent valid revision objects changes =>
    refine ⟨valid, ?_, ?_, ?_, ?_⟩
    · simp [changes]
    · simp [changes]
    · simp [changes]
    · intro id
      simp [Collection.log, changes, objects, ChangeLog.replay, ChangeLog.last]
  | acl c present acl now eq =>
    subst eq
    obtain ⟨valid, ordered, positive, bounded, replay⟩ := logged key c present
    exact ⟨valid, ordered, positive, bounded, replay⟩
  | written c present id object now text written =>
    exact written_logged written (logged key c present)

structure Db.Sound (host : Host) (db : Db) : Prop where
  logged : db.Logged
  readable : ∀ key c, db.find key = some c → c.Readable host

theorem step_sound {host : Host} {texts : JsString → Prop} {db db' : Db} (h : Step texts db db')
    (readBack : ∀ text, texts text → ∃ r, validateICalendar host (.string text) = .ok r)
    (sound : db.Sound host) : db'.Sound host := by
  constructor
  · exact step_logged h sound.logged
  · intro key d hd
    cases step_carried h hd with
    | kept same => exact sound.readable key d same
    | created absent valid revision objects changes =>
      intro o ho
      simp [objects] at ho
    | acl c present acl now eq =>
      subst eq
      exact sound.readable key c present
    | written c present id object now text written =>
      intro o ho
      have hl := Table.lookup_of_mem ho
      rw [written.objects] at hl
      split at hl
      · exact readBack _ (text o hl)
      · exact sound.readable key c present o (Table.mem_of_lookup hl)

/-- Either the calendar has not come to the token's revision again, or a sync
with the token is complete. -/
def Kept (key : TokenScope) (r : Nat) (m : Snapshot JsString (JsString × JsString)) (db : Db) : Prop :=
  ∀ c, db.find key = some c → c.row.revision < r ∨ Follows m r c

/-- A write that brings the calendar to the token's revision, for the second
time then, leaves the objects that the token was issued for. -/
def ReturnsTo (key : TokenScope) (r : Nat) (m : Snapshot JsString (JsString × JsString)) (db db' : Db) : Prop :=
  ∀ c d, db.find key = some c → db'.find key = some d → c.row.revision < r → d.row.revision = r →
    d.contents = m

theorem step_kept {texts : JsString → Prop} {db db' : Db} (h : Step texts db db') {key : TokenScope}
    {r : Nat} {m : Snapshot JsString (JsString × JsString)} (zero : r = 0 → m = fun _ => none)
    (returns : ReturnsTo key r m db db') (kept : Kept key r m db) : Kept key r m db' := by
  intro d hd
  cases step_carried h hd with
  | kept same => exact kept d same
  | created absent valid revision objects changes =>
    cases r with
    | succ r => exact .inl (by omega)
    | zero =>
      refine .inr ⟨by omega, fun id => .inl ?_⟩
      rw [zero rfl]
      simp [Collection.contents, objects]
  | acl c present acl now eq =>
    subst eq
    exact (kept c present).imp_right fun follows => ⟨follows.reached, follows.unseen⟩
  | written c present id object now text written =>
    rcases kept c present with before | follows
    · have hrev := written.revision
      by_cases reached : d.row.revision = r
      · right
        subst reached
        rw [← returns c d present hd before rfl]
        exact .now d
      · left
        omega
    · exact .inr (written_follows written follows)

theorem contents_of_zero {c : Collection} (logged : c.Logged) (h : c.row.revision = 0) :
    c.contents = fun _ => none := by
  have none : c.changes.rows = [] := by
    rw [List.eq_nil_iff_forall_not_mem]
    intro ch hch
    have := logged.positive ch hch
    have := logged.bounded ch hch
    omega
  funext id
  rw [contents_none_iff logged, ChangeLog.replay, Collection.log, none]
  rfl

/-! ## Runs -/

section
variable (host : Host) (collate : JsString → JsString → Bool)

/-- The database after a call; a call that fails leaves it as it was. -/
def after (now : Int) (call : CalDavCall) (db : Db) : Db :=
  ((program host now call).transact (Stmt.exec collate) db).2

/-- Calls one after the other. -/
inductive Run (safe : Db → CalDavCall → Db → Prop) (db : Db) : Db → Prop where
  | start : Run safe db db
  | call {t : Db} (before : Run safe db t) (now : Int) (c : CalDavCall)
      (allowed : safe t c (after host collate now c t)) : Run safe db (after host collate now c t)

/-- What a call stores is accepted again when it is read. -/
def ReadBack (db : Db) (call : CalDavCall) (db' : Db) : Prop :=
  db' ≠ db → ∀ text, stores host call text → ∃ r, validateICalendar host (.string text) = .ok r

end

def Db.empty (tenants : List JsString) : Db := ⟨tenants, Table.empty⟩

section
variable {host : Host} {collate : JsString → JsString → Bool}

variable (host collate) in
theorem after_step (now : Int) (call : CalDavCall) {db : Db} (logged : db.Logged) :
    Step (stores host call) db (after host collate now call db) := by
  unfold after Program.transact
  cases h : (program host now call).run (Stmt.exec collate) db with
  | error e => exact .read rfl
  | ok r => exact (program_step logged h).1

theorem readBack_sound {db db' : Db} {call : CalDavCall} (h : Step (stores host call) db db')
    (readBack : ReadBack host db call db') (sound : db.Sound host) : db'.Sound host := by
  by_cases same : db' = db
  · rw [same]
    exact sound
  · exact step_sound h (readBack same) sound

theorem runs_sound {safe : Db → CalDavCall → Db → Prop} (readBack : ∀ t c t', safe t c t' → ReadBack host t c t')
    {db db' : Db} (h : Run host collate safe db db') (sound : db.Sound host) : db'.Sound host := by
  induction h with
  | start => exact sound
  | call before now c allowed ih =>
    exact readBack_sound (after_step host collate now c ih.logged) (readBack _ _ _ allowed) ih

theorem run_logged {safe : Db → CalDavCall → Db → Prop} {db db' : Db} (h : Run host collate safe db db')
    (logged : db.Logged) : db'.Logged := by
  induction h with
  | start => exact logged
  | call before now c allowed ih => exact step_logged (after_step host collate now c ih) ih

variable (host) in
theorem empty_sound (tenants : List JsString) : (Db.empty tenants).Sound host :=
  ⟨fun _ _ h => (by cases h), fun _ _ h => (by cases h)⟩

/-- A sync with a token the store has returned rejects the token or brings the
client to the current objects, if nothing was stored that cannot be read back
and the calendar did not come by the token's revision again with other objects
than the client had. -/
theorem listCalendarObjects_catches_up {tenants : List JsString} {s s' : Db} {now : Int}
    {call : CalDavCall} {answer : CalDavAnswer} {calendarId token : JsString}
    (before : Run host collate (ReadBack host) (.empty tenants) s)
    (readBack : ReadBack host s call s')
    (returned : (program host now call).transact (Stmt.exec collate) s = (.ok answer, s'))
    (issued : (calendarId, token) ∈ answer.tokens) :
    ∃ key c, s'.find key = some c ∧ calendarId = calendarKey key ∧
      token = makeToken key c.row.revision ∧
      ∀ t, Run host collate (fun db call db' => ReadBack host db call db' ∧
          ReturnsTo key c.row.revision (contents s' key) db db') s' t →
        ∀ actor options, options.get "syncToken" = .string token →
          CanRead host collate t actor (options.get "calendarId") key →
          RejectsOrCatchesUp ((listCalendarObjects host actor options).transact (Stmt.exec collate) t).1
            (contents s' key) (contents t key) := by
  have sound := runs_sound (fun _ _ _ h => h) before (empty_sound host tenants)
  obtain ⟨step, tokens⟩ := program_step sound.logged (Program.transact_eq_ok.mp returned)
  have sound' := readBack_sound step readBack sound
  obtain ⟨key, c, hc, rfl, rfl⟩ := tokens calendarId token issued
  refine ⟨key, c, hc, rfl, rfl, ?_⟩
  intro t later actor options presented reader
  have zero : c.row.revision = 0 → contents s' key = fun _ => none := by
    intro hzero
    rw [contents_of_find hc, contents_of_zero (sound'.logged key c hc) hzero]
  have invariant : t.Sound host ∧ Kept key c.row.revision (contents s' key) t := by
    clear presented reader
    induction later with
    | start =>
      refine ⟨sound', ?_⟩
      intro d hd
      obtain rfl := Option.some.inj (hc.symm.trans hd)
      rw [contents_of_find hc]
      exact .inr (.now c)
    | call before now c allowed ih =>
      have step := after_step host collate now c ih.1.logged
      exact ⟨readBack_sound step allowed.1 ih.1, step_kept step zero allowed.2 ih.2⟩
  obtain ⟨soundt, kept⟩ := invariant
  obtain ⟨d, hd⟩ : ∃ d, t.find key = some d := by
    obtain ⟨a, row, _, rfl, hrow⟩ := reader
    obtain ⟨_, _, ⟨d, hd, _⟩, _⟩ := resolveCollectionRow_run hrow
    exact ⟨d, hd⟩
  exact listCalendarObjects_answer (soundt.logged key d hd) (soundt.readable key d hd) hd reader presented
    (kept d hd)

end

/-! ### Samples -/

def deleteWork : CalDavCall :=
  .deleteCalendarCollection (sampleActor "ada") (sampleOptions [("calendarId", js "work")])

/-- Calls at one point of time, in a database that knows tenant `acme`. -/
def sampleDb (calls : List CalDavCall) : Db :=
  calls.foldl (fun db call => after asciiHost (fun _ _ => true) 0 call db) (.empty [js "acme"])

def listWork (options : JsValue) (db : Db) : Except (Thrown CalDavError) ObjectList :=
  ((listCalendarObjects asciiHost (sampleActor "ada") options).transact (Stmt.exec fun _ _ => true) db).1

/-- The token of the first incarnation is taken for one of the second. -/
theorem listCalendarObjects_misses_reborn :
    let first := [createWork, createInWork "a" (sampleEvent (js "SUMMARY:a"))]
    let reborn := first ++ [deleteFromWork "a", deleteWork, createWork,
      createInWork "b" (sampleEvent (js "SUMMARY:b"))]
    ∃ l l', listWork (sampleOptions [("calendarId", js "work")]) (sampleDb first) = .ok l ∧
      listWork (sampleOptions [("calendarId", js "work"), ("syncToken", l.syncToken)]) (sampleDb reborn) =
        .ok l' ∧
      applyResponse (l'.objects.map (·.entry)) l'.deletedObjectIds (contents (sampleDb first) workScope) ≠
        contents (sampleDb reborn) workScope := by
  intro first reborn
  have run : (listWork (sampleOptions [("calendarId", js "work")]) (sampleDb first)).map (·.syncToken) =
        .ok (makeToken workScope 1) ∧
      (listWork (workSince 1) (sampleDb reborn)).map (fun l => (l.objects.map (·.entry), l.deletedObjectIds)) =
        .ok ([], []) ∧
      (contents (sampleDb first) workScope (js "a")).isSome = true ∧
      (contents (sampleDb reborn) workScope (js "a")).isSome = false := by decide +kernel
  obtain ⟨issued, listed, had, lost⟩ := run
  obtain ⟨l, hl, htoken⟩ := map_eq_ok.mp issued
  obtain ⟨l', hl', hdelta⟩ := map_eq_ok.mp listed
  refine ⟨l, l', hl, ?_, ?_⟩
  · rw [htoken]
    exact hl'
  · have nothing (m : Snapshot JsString (JsString × JsString)) : applyResponse [] [] m = m := rfl
    rw [(Prod.mk.inj hdelta).1, (Prod.mk.inj hdelta).2, nothing]
    intro same
    rw [same, lost] at had
    cases had

/-- The objects of a calendar as a list. -/
def Collection.entries (c : Collection) : List (JsString × JsString × JsString) :=
  c.objects.rows.map fun o => (o.objectId, o.icalData, o.etag)

theorem contents_congr {c d : Collection} (h : c.entries = d.entries) : c.contents = d.contents := by
  have found (c : Collection) (id : JsString) :
      c.contents id = (c.entries.find? fun entry => entry.1 = id).map (·.2) := by
    rw [Collection.entries, List.find?_map, Option.map_map]
    rfl
  funext id
  rw [found, found, h]

def eventA : JsString := sampleEvent (js "SUMMARY:a")
def eventB : JsString := sampleEvent (js "SUMMARY:b")

def firstCalls : List CalDavCall := [createWork, createInWork "a" eventA]

/-- The calendar is deleted and created again, with the first object as it was. -/
def rebornCalls : List CalDavCall :=
  [deleteFromWork "a", deleteWork, createWork, createInWork "a" eventA, createInWork "b" eventB]

def workRevision (calls : List CalDavCall) : Option Nat := ((sampleDb calls).find workScope).map (·.row.revision)
def workEntries (calls : List CalDavCall) : Option (List (JsString × JsString × JsString)) :=
  ((sampleDb calls).find workScope).map (·.entries)

theorem run_prefixes {safe : Db → CalDavCall → Db → Prop} (calls more : List CalDavCall)
    (h : ∀ k (hk : k < more.length),
      safe (sampleDb (calls ++ more.take k)) more[k] (sampleDb (calls ++ more.take (k + 1)))) :
    Run asciiHost (fun _ _ => true) safe (sampleDb calls) (sampleDb (calls ++ more)) := by
  have upTo (k : Nat) (hk : k ≤ more.length) :
      Run asciiHost (fun _ _ => true) safe (sampleDb calls) (sampleDb (calls ++ more.take k)) := by
    induction k with
    | zero =>
      rw [List.take_zero, List.append_nil]
      exact .start
    | succ k ih =>
      have last : sampleDb (calls ++ more.take (k + 1)) =
          after asciiHost (fun _ _ => true) 0 more[k] (sampleDb (calls ++ more.take k)) := by
        rw [List.take_succ_eq_append_getElem hk, ← List.append_assoc, sampleDb, List.foldl_append]
        rfl
      have allowed := h k hk
      rw [last] at allowed ⊢
      exact .call (ih (Nat.le_of_lt hk)) 0 _ allowed
  have whole := upTo more.length (Nat.le_refl _)
  rw [List.take_length] at whole
  exact whole

theorem readBack_create {actor options : JsValue} {text : JsString} (given : options.get "ical" = .string text) (db db' : Db)
    (h : (validateICalendar asciiHost (.string text)).map (fun r =>
      (validateICalendar asciiHost (.string (toWellFormed r.canonicalText))).toBool) = .ok true) :
    ReadBack asciiHost db (.createCalendarObject actor options) db' := by
  obtain ⟨r, hr, again⟩ := map_eq_ok.mp h
  rintro _ _ ⟨r', hr', rfl⟩
  rw [given] at hr'
  cases hr.symm.trans hr'
  exact eq_ok_of_toBool again

theorem readBack_reborn {call : CalDavCall} (h : call ∈ firstCalls ++ rebornCalls) (db db' : Db) :
    ReadBack asciiHost db call db' := by
  have readA : ReadBack asciiHost db (createInWork "a" eventA) db' := readBack_create rfl db db' (by decide +kernel)
  have readB : ReadBack asciiHost db (createInWork "b" eventB) db' := readBack_create rfl db db' (by decide +kernel)
  simp only [firstCalls, rebornCalls, List.mem_append, List.mem_cons, List.not_mem_nil, or_false] at h
  rcases h with (rfl | rfl) | rfl | rfl | rfl | rfl | rfl
  · exact fun _ _ stored => False.elim stored
  · exact readA
  · exact fun _ _ stored => False.elim stored
  · exact fun _ _ stored => False.elim stored
  · exact fun _ _ stored => False.elim stored
  · exact readA
  · exact readB

/-- The re-created calendar comes to the first revision with the object it had. -/
theorem returnsTo_reborn (k : Nat) (hk : k < rebornCalls.length) :
    ReturnsTo workScope 1 (contents (sampleDb firstCalls) workScope) (sampleDb (firstCalls ++ rebornCalls.take k))
      (sampleDb (firstCalls ++ rebornCalls.take (k + 1))) := by
  intro c d hc hd below reached
  have empty : workRevision (firstCalls ++ rebornCalls.take k) = some 0 := by
    rw [workRevision, hc, Option.map_some, Nat.lt_one_iff.mp below]
  have only : ∀ k < 5, workRevision (firstCalls ++ rebornCalls.take k) = some 0 → k = 3 := by decide +kernel
  obtain rfl := only k hk empty
  have same : workEntries (firstCalls ++ rebornCalls.take 4) = workEntries firstCalls := by decide +kernel
  rw [workEntries, workEntries, hd] at same
  obtain ⟨first, hfirst, entries⟩ := Option.map_eq_some_iff.mp same.symm
  rw [contents_of_find hfirst]
  exact contents_congr entries.symm

theorem revision_of_find {db : Db} {revisions : List (TokenScope × Nat)}
    (h : db.collections.rows.map (fun c => (c.key, c.row.revision)) = revisions) {key : TokenScope} {c : Collection}
    (hc : db.find key = some c) : (key, c.row.revision) ∈ revisions := by
  rw [← h, ← key_of_find hc]
  exact List.mem_map_of_mem (Table.mem_of_lookup hc)

/-- A client that saw the first object and syncs with the calendar that was created again. -/
theorem listCalendarObjects_catches_up_reborn :
    RejectsOrCatchesUp (listWork (workSince 1) (sampleDb (firstCalls ++ rebornCalls)))
      (contents (sampleDb firstCalls) workScope) (contents (sampleDb (firstCalls ++ rebornCalls)) workScope) := by
  have listed : ((listCalendarObjects asciiHost (sampleActor "ada") (sampleOptions [("calendarId", js "work")])).run
      (Stmt.exec fun _ _ => true) (sampleDb firstCalls)).map (fun r => ((r.1.calendarId, r.1.syncToken),
        r.2.collections.rows.map fun c => (c.key, c.row.revision))) =
      .ok ((js "ada/work", makeToken workScope 1), [(workScope, 1)]) := by decide +kernel
  obtain ⟨⟨list, s'⟩, hlist, facts⟩ := map_eq_ok.mp listed
  obtain ⟨hissued, found⟩ := Prod.mk.inj facts
  obtain ⟨same, _⟩ := listCalendarObjects_step hlist
  have rows : s'.collections.rows.map (fun c => (c.key, c.row.revision)) = [(workScope, 1)] := found
  rw [same] at hlist rows
  have first : Run asciiHost (fun _ _ => true) (ReadBack asciiHost) (.empty [js "acme"]) (sampleDb firstCalls) :=
    run_prefixes [] firstCalls fun k hk => readBack_reborn (List.mem_append_left _ (List.getElem_mem hk)) _ _
  obtain ⟨key, c, hc, _, _, later⟩ := listCalendarObjects_catches_up first (fun changed => absurd rfl changed)
    (Program.transact_eq_ok.mpr (show (program asciiHost 0 (.listCalendarObjects _ _)).run _ _ = .ok (.objects list, _) from
      Program.run_bind_eq_ok.mpr ⟨list, _, hlist, rfl⟩))
    (show (js "ada/work", makeToken workScope 1) ∈ [(list.calendarId, list.syncToken)] by
      rw [List.mem_singleton]
      exact hissued.symm)
  obtain ⟨rfl, revision⟩ := Prod.mk.inj (List.mem_singleton.mp (revision_of_find rows hc))
  rw [revision] at later
  apply later
  · exact run_prefixes firstCalls rebornCalls fun k hk =>
      ⟨readBack_reborn (List.mem_append_right _ (List.getElem_mem hk)) _ _, returnsTo_reborn k hk⟩
  · rfl
  · have resolved : ((openContext asciiHost (sampleActor "ada")).map fun a =>
        ((resolveCollectionRow a (.string (js "work")) false .read).run (Stmt.exec fun _ _ => true)
          (sampleDb (firstCalls ++ rebornCalls))).map (·.1.key)) = .ok (.ok workScope) := by decide +kernel
    obtain ⟨a, ha, hrow⟩ := map_eq_ok.mp resolved
    obtain ⟨⟨row, d⟩, hrow, hkey⟩ := map_eq_ok.mp hrow
    obtain ⟨same, _⟩ := resolveCollectionRow_run hrow
    rw [same] at hrow
    exact ⟨a, row, ha, hkey, hrow⟩

end GuloGulo.CalDav.Postgres
