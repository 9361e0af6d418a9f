import GuloGulo.CalDav.Postgres
import GuloGulo.Data.ChangeLog

/-!
# What the PostgreSQL store's operations can do

A transaction that commits leaves all collections but one alone, and does one
of four things to that one. Which revision it gives out is read off here too.
-/

namespace GuloGulo.CalDav.Postgres
open Js Data Sql
open Data.ChangeLog (Entry Ordered replay)
open Sql.Program (check)

/-! ## Finding collections -/

theorem find_update (db : Db) (key : TokenScope) (f : Collection → Collection)
    (hf : ∀ c, (f c).key = c.key) (k : TokenScope) :
    (db.update key f hf).find k = if k = key then (db.find k).map f else db.find k :=
  Table.lookup_modify db.collections key f hf k

theorem key_of_find {db : Db} {key : TokenScope} {c : Collection} (h : db.find key = some c) : c.key = key :=
  Table.key_of_lookup h

/-- `db'` is `db` with the collection of one key put in place. -/
structure Placed (db db' : Db) (key : TokenScope) (c : Option Collection) : Prop where
  tenants : db'.tenants = db.tenants
  here : db'.find key = c
  elsewhere : ∀ k, k ≠ key → db'.find k = db.find k

theorem Placed.trans {db db' db'' : Db} {key : TokenScope} {c c' : Option Collection}
    (h : Placed db db' key c) (h' : Placed db' db'' key c') : Placed db db'' key c' :=
  ⟨h'.tenants.trans h.tenants, h'.here, fun k hk => (h'.elsewhere k hk).trans (h.elsewhere k hk)⟩

theorem placed_update {db : Db} {key : TokenScope} {c : Collection} (h : db.find key = some c)
    (f : Collection → Collection) (hf : ∀ c, (f c).key = c.key) :
    Placed db (db.update key f hf) key (some (f c)) := by
  refine ⟨rfl, ?_, ?_⟩
  · simp [find_update, h]
  · intro k hk
    simp [find_update, hk]

/-! ## The log of a collection -/

/-- A change as an entry of the log of which ids exist. -/
def ChangeRow.entry (ch : ChangeRow) : Entry JsString Unit :=
  ⟨ch.revision, ch.objectId, if ch.deleted then none else some ()⟩

def Collection.log (c : Collection) : List (Entry JsString Unit) := c.changes.rows.map (·.entry)

structure Collection.Logged (c : Collection) : Prop where
  valid : c.key.Valid
  ordered : c.changes.rows.Pairwise fun a b => a.revision < b.revision
  positive : ∀ ch ∈ c.changes.rows, 0 < ch.revision
  bounded : ∀ ch ∈ c.changes.rows, ch.revision ≤ c.row.revision
  replay : ∀ id, replay c.log id = (c.objects.lookup id).map fun _ => ()

theorem Collection.Logged.log_ordered {c : Collection} (h : c.Logged) : Ordered c.log := by
  unfold Ordered Collection.log
  rw [List.pairwise_map]
  exact h.ordered

/-- A write to an object: the next revision, with the record of it. -/
structure Written (now : Int) (c c' : Collection) (id : JsString) (object : Option ObjectRow) : Prop where
  row : c'.row = { c.row with revision := c.row.revision + 1, updatedAt := now }
  changes : ∃ uid etag, c'.changes.rows =
    c.changes.rows ++ [⟨c.row.revision + 1, id, uid, etag, object.isNone⟩]
  objects : ∀ i, c'.objects.lookup i = if i = id then object else c.objects.lookup i

theorem Written.key {now : Int} {c c' : Collection} {id : JsString} {object : Option ObjectRow}
    (h : Written now c c' id object) : c'.key = c.key := by
  rw [Collection.key, h.row, Collection.key]

theorem Written.revision {now : Int} {c c' : Collection} {id : JsString} {object : Option ObjectRow}
    (h : Written now c c' id object) : c'.row.revision = c.row.revision + 1 := by
  rw [h.row]

theorem written_logged {now : Int} {c c' : Collection} {id : JsString} {object : Option ObjectRow}
    (h : Written now c c' id object) (hc : c.Logged) : c'.Logged := by
  obtain ⟨uid, etag, hchanges⟩ := h.changes
  refine ⟨h.key ▸ hc.valid, ?_, ?_, ?_, ?_⟩
  · rw [hchanges, List.pairwise_append]
    refine ⟨hc.ordered, List.pairwise_singleton _ _, ?_⟩
    intro a ha b hb
    rw [List.mem_singleton] at hb
    subst hb
    exact Nat.lt_succ_of_le (hc.bounded a ha)
  · intro ch hch
    rw [hchanges, List.mem_append, List.mem_singleton] at hch
    rcases hch with hch | rfl
    · exact hc.positive ch hch
    · exact Nat.succ_pos _
  · intro ch hch
    rw [hchanges, List.mem_append, List.mem_singleton] at hch
    rw [h.revision]
    rcases hch with hch | rfl
    · exact Nat.le_succ_of_le (hc.bounded ch hch)
    · exact Nat.le_refl _
  · intro i
    have hlog : c'.log = c.log ++ [ChangeRow.entry ⟨c.row.revision + 1, id, uid, etag, object.isNone⟩] := by
      simp [Collection.log, hchanges]
    rw [hlog, ChangeLog.replay_snoc, h.objects]
    by_cases hi : i = id
    · subst hi
      cases object <;> simp [ChangeRow.entry]
    · rw [Function.update_of_ne (by exact hi), hc.replay]
      simp [hi]

/-! ## Shared statements -/

section
variable {collate : JsString → JsString → Bool} {db db' : Db}

theorem run_send_bind {α : Type} {q : Stmt} {f : q.Rows → CalDavProgram α} :
    (send q >>= f).run (Stmt.exec collate) db =
      Stmt.exec collate q db >>= fun (r, d') => (f r).run (Stmt.exec collate) d' := Program.run_send_bind

theorem run_send (q : Stmt) :
    (send q).run (Stmt.exec collate) db = Stmt.exec collate q db := Program.run_send

theorem head_selectCollection (key : TokenScope) (c : Option Collection) (h : db.find key = c) :
    ((db.find key).toList.map (·.row)).head? = c.map (·.row) := by
  rw [h]; cases c <;> rfl

/-- A row found is that of a collection of the actor's tenant. -/
theorem findCollectionRow_run {actor : CalDavActor} {id : CalendarId} {forUpdate : Bool}
    {row : CollectionRow}
    (h : (findCollectionRow actor id forUpdate).run (Stmt.exec collate) db = .ok (some row, db')) :
    db' = db ∧ row.key.tenantId = actor.tenantId ∧ ∃ c, db.find row.key = some c ∧ c.row = row := by
  have byKey {key : TokenScope} (hrow : ((db.find key).toList.map (·.row)).head? = some row) :
      key = row.key ∧ ∃ c, db.find row.key = some c ∧ c.row = row := by
    rw [head_selectCollection key _ rfl, Option.map_eq_some_iff] at hrow
    obtain ⟨c, hc, rfl⟩ := hrow
    have hkey : c.row.key = key := key_of_find hc
    exact ⟨hkey.symm, c, hkey ▸ hc, rfl⟩
  unfold findCollectionRow at h
  split at h
  · simp only [run_send_bind, Stmt.exec, ok_bind, Program.run_pure, Except.ok.injEq, Prod.mk.injEq] at h
    obtain ⟨hrow, rfl⟩ := h
    obtain ⟨hkey, hc⟩ := byKey hrow
    exact ⟨rfl, by rw [← hkey], hc⟩
  · simp only [run_send_bind, Stmt.exec, ok_bind, Program.run_check_bind, bind_eq_ok] at h
    obtain ⟨_, _, h⟩ := h
    split at h
    · rename_i found hfound
      have hmem := List.mem_of_head? hfound
      simp only [List.mem_filter, List.mem_map, CollectionRow.accessible, Bool.and_eq_true, beq_iff_eq] at hmem
      obtain ⟨⟨c, hc, rfl⟩, _, htenant, _⟩ := hmem
      split at h
      · simp only [run_send_bind, Stmt.exec, ok_bind, Program.run_pure, Except.ok.injEq, Prod.mk.injEq] at h
        obtain ⟨hrow, rfl⟩ := h
        obtain ⟨hkey, hfind⟩ := byKey hrow
        exact ⟨rfl, by rw [← hkey], hfind⟩
      · cases h
        exact ⟨rfl, htenant, c, Table.lookup_of_mem hc, rfl⟩
    · cases h

theorem resolveCollectionRow_run {actor : CalDavActor} {id : JsValue} {forUpdate : Bool}
    {permission : Permission} {row : CollectionRow}
    (h : (resolveCollectionRow actor id forUpdate permission).run (Stmt.exec collate) db = .ok (row, db')) :
    db' = db ∧ row.key.tenantId = actor.tenantId ∧ (∃ c, db.find row.key = some c ∧ c.row = row) ∧
      (permissionsForRow row actor.userId).contains permission := by
  simp only [resolveCollectionRow, Program.run_check_bind, bind_eq_ok] at h
  obtain ⟨id', _, h⟩ := h
  rw [Program.run_bind_eq_ok] at h
  obtain ⟨found, d, hfound, h⟩ := h
  cases found with
  | none => cases h
  | some row' =>
    simp only [Program.run_check_bind, bind_eq_ok, Program.run_pure, Except.ok.injEq, Prod.mk.injEq] at h
    obtain ⟨_, hperm, rfl, rfl⟩ := h
    obtain ⟨rfl, htenant, hc⟩ := findCollectionRow_run hfound
    refine ⟨rfl, htenant, hc, ?_⟩
    cases hp : (permissionsForRow row' actor.userId).contains permission with
    | true => rfl
    | false => rw [hp] at hperm; cases hperm

def Collection.bump (now : Int) (c : Collection) : Collection :=
  { c with row := { c.row with revision := c.row.revision + 1, updatedAt := now } }

variable (collate) in
/-- The bump and its change row go in together: the log has no such revision yet. -/
theorem bumpRevision_run {key : TokenScope} {c : Collection} (hc : db.find key = some c)
    (bounded : ∀ ch ∈ c.changes.rows, ch.revision ≤ c.row.revision) (now : Int) (id : JsString)
    (uid etag : Option JsString) (deleted : Bool) :
    ∃ db' changes, (bumpRevision now key id uid etag deleted).run (Stmt.exec collate) db =
        .ok (c.row.revision + 1, db') ∧
      Placed db db' key (some { c.bump now with changes }) ∧
      changes.rows = c.changes.rows ++ [⟨c.row.revision + 1, id, uid, etag, deleted⟩] := by
  have fresh : c.changes.lookup (c.row.revision + 1) = none := by
    rw [Table.lookup_eq_none]
    intro ch hch hrev
    have := bounded ch hch
    omega
  obtain ⟨changes, hinsert, hrows⟩ :=
    Table.insert?_of_fresh (t := c.changes) (r := ⟨c.row.revision + 1, id, uid, etag, deleted⟩) fresh
  have placed₁ : Placed db (db.update key (Collection.bump now) fun _ => rfl) key (some (c.bump now)) :=
    placed_update hc _ _
  have bumped : Stmt.exec collate (.bumpRevision now key) db = .ok
      (((db.update key (Collection.bump now) fun _ => rfl).find key).toList.map (·.row.revision),
        db.update key (Collection.bump now) fun _ => rfl) := rfl
  generalize db.update key (Collection.bump now) (fun _ => rfl) = db₁ at placed₁ bumped
  have placed₂ := placed_update placed₁.here (fun c => { c with changes }) fun _ => rfl
  refine ⟨_, changes, ?_, placed₁.trans placed₂, hrows⟩
  have inserted : (send (.insertChange key ⟨c.row.revision + 1, id, uid, etag, deleted⟩)).run
      (Stmt.exec collate) db₁ = .ok ((), db₁.update key (fun c => { c with changes }) fun _ => rfl) := by
    rw [run_send]
    simp only [Stmt.exec, placed₁.here, Option.bind_some, Collection.bump, hinsert]
  simp only [bumpRevision, run_send_bind, bumped, ok_bind, placed₁.here, Option.toList_some,
    List.map_cons, List.map_nil, requiredRow, List.head?_cons, Program.run_check_bind, mapError_ok]
  exact Program.run_bind_ok inserted

variable (collate) in
/-- A write of an object, then the bump. -/
theorem written_of_bump (now : Int) (uid etag : Option JsString) {key : TokenScope} {c : Collection}
    {id : JsString} {object : Option ObjectRow} {objects : Table ObjectRow.objectId} {db₁ : Db} (logged : c.Logged) (placed : Placed db db₁ key (some { c with objects }))
    (hobjects : ∀ i, objects.lookup i = if i = id then object else c.objects.lookup i) :
    ∃ db' c', (bumpRevision now key id uid etag object.isNone).run (Stmt.exec collate) db₁ =
        .ok (c.row.revision + 1, db') ∧
      Placed db db' key (some c') ∧ Written now c c' id object := by
  obtain ⟨db', changes, hrun, placed', hrows⟩ := bumpRevision_run collate placed.here
    logged.bounded now id uid etag object.isNone
  exact ⟨db', _, hrun, placed.trans placed', rfl, ⟨uid, etag, hrows⟩, hobjects⟩

theorem pgText_eq_ok {s t : JsString} (h : pgText s = .ok t) : t = toWellFormed s := by
  unfold pgText at h
  split at h
  · cases h
  · cases h; rfl

theorem insertObject_ok {now : Int} {key : TokenScope} {id uid etag icalData : JsString}
    {rows : List ObjectRow}
    (h : Stmt.exec collate (.insertObject now key id uid etag icalData) db = .ok (rows, db')) :
    ∃ c objects uid' icalData', db.find key = some c ∧ pgText uid = .ok uid' ∧
      pgText icalData = .ok icalData' ∧ rows = [⟨id, uid', etag, icalData', now, now⟩] ∧
      Placed db db' key (some { c with objects }) ∧
      ∀ i, objects.lookup i =
        if i = id then some ⟨id, uid', etag, icalData', now, now⟩ else c.objects.lookup i := by
  simp only [Stmt.exec] at h
  obtain ⟨uid', huid, h⟩ := bind_eq_ok.mp h
  obtain ⟨icalData', hical, h⟩ := bind_eq_ok.mp h
  cases hfind : db.find key with
  | none => rw [hfind] at h; cases h
  | some c =>
    rw [hfind, Option.bind_some] at h
    cases hinsert : c.objects.insert? ⟨id, uid', etag, icalData', now, now⟩ with
    | none => rw [hinsert] at h; cases h
    | some objects =>
      rw [hinsert] at h
      cases h
      refine ⟨c, objects, uid', icalData', rfl, huid, hical, rfl, placed_update hfind _ _, ?_⟩
      intro i
      rw [Table.lookup_insert? hinsert]
      simp only [eq_comm]

end

/-! ## What a call can do -/

/-- The texts a call can store. -/
def stores (host : Host) : CalDavCall → JsString → Prop
  | .createCalendarObject _ options, text | .updateCalendarObject _ options, text =>
    ∃ r, validateICalendar host (options.get "ical") = .ok r ∧ text = toWellFormed r.canonicalText
  | _, _ => False

inductive Step (texts : JsString → Prop) (db db' : Db) : Prop where
  | read (same : db' = db)
  | create (c : Collection) (valid : c.key.Valid) (fresh : db.find c.key = none)
      (revision : c.row.revision = 0) (objects : c.objects = Table.empty)
      (changes : c.changes = Table.empty) (placed : Placed db db' c.key (some c))
  | acl (key : TokenScope) (c : Collection) (present : db.find key = some c) (acl : Option CalendarAcl)
      (now : Int) (placed : Placed db db' key (some { c with row := { c.row with acl, updatedAt := now } }))
  | write (key : TokenScope) (c c' : Collection) (present : db.find key = some c) (id : JsString)
      (object : Option ObjectRow) (now : Int) (text : ∀ o ∈ object, texts o.icalData)
      (written : Written now c c' id object) (placed : Placed db db' key (some c'))
  | delete (key : TokenScope) (c : Collection) (present : db.find key = some c)
      (empty : c.objects.rows = []) (placed : Placed db db' key none)

/-- A sync token with the calendar it was returned for: the revision is the
present one. -/
def Issued (db : Db) (calendarId token : JsString) : Prop :=
  ∃ key c, db.find key = some c ∧ calendarId = calendarKey key ∧ token = makeToken key c.row.revision

def Db.Logged (db : Db) : Prop := ∀ key c, db.find key = some c → c.Logged

section
variable {host : Host} {collate : JsString → JsString → Bool} {db db' : Db} {now : Int}
  {actor options : JsValue} {texts P : JsString → Prop}

theorem destructure_bind_run {α : Type} {next : Unit → CalDavProgram α} {view : α}
    (h : (destructure options >>= next).run (Stmt.exec collate) db = .ok (view, db')) :
    (next ()).run (Stmt.exec collate) db = .ok (view, db') := by
  unfold destructure at h
  split at h
  · cases h
  · exact h

theorem normalizeCalDavActor_eq_ok {a : CalendarActor} (h : normalizeCalDavActor actor = .ok a) :
    tenantIdPattern a.actor.tenantId ∧ userIdPattern a.actor.userId := by
  obtain ⟨b, hb, h⟩ := bind_eq_ok.mp h
  cases h
  obtain ⟨htenant, hpattern, huser⟩ := normalizeActor_eq_ok hb
  exact ⟨htenant ▸ hpattern, huser⟩

theorem insertCollection_ok {columns : NewCollection} {rows : List CollectionRow}
    (h : Stmt.exec collate (.insertCollection now columns) db = .ok (rows, db')) :
    ∃ row : CollectionRow, rows = [row] ∧ row.key = columns.key ∧ row.revision = 0 ∧
      db.find columns.key = none ∧ Placed db db' columns.key (some ⟨row, Table.empty, Table.empty⟩) := by
  simp only [Stmt.exec] at h
  obtain ⟨displayName, _, h⟩ := bind_eq_ok.mp h
  obtain ⟨description, _, h⟩ := bind_eq_ok.mp h
  obtain ⟨_, _, h⟩ := bind_eq_ok.mp h
  split at h
  · rename_i collections hinsert
    cases h
    have lookup := Table.lookup_insert? hinsert
    have fresh := (Table.insert?_eq_some hinsert).1
    refine ⟨_, rfl, rfl, rfl, fresh, rfl, ?_, ?_⟩
    · exact (lookup _).trans (if_pos rfl)
    · intro k hk
      exact (lookup k).trans (if_neg fun e => hk e.symm)
  · cases h

theorem requiredRow_eq_ok {ρ : Type} {rows : List ρ} {row : ρ} (h : requiredRow rows = .ok row) :
    rows.head? = some row := by
  unfold requiredRow at h
  split at h
  · cases h; assumption
  · cases h

theorem createCalendarCollection_step {view : CalendarCollectionView}
    (h : (createCalendarCollection host now actor options).run (Stmt.exec collate) db = .ok (view, db')) :
    Step texts db db' ∧ Issued db' view.calendarId view.syncToken := by
  replace h := destructure_bind_run h
  obtain ⟨a, ha, h⟩ := Program.run_check_bind_eq_ok.mp h
  obtain ⟨owner, howner, h⟩ := Program.run_check_bind_eq_ok.mp h
  obtain ⟨_, _, h⟩ := Program.run_check_bind_eq_ok.mp h
  obtain ⟨slug, hslug, h⟩ := Program.run_check_bind_eq_ok.mp h
  obtain ⟨fields, _, h⟩ := Program.run_check_bind_eq_ok.mp h
  obtain ⟨_, _, h⟩ := Program.run_check_bind_eq_ok.mp h
  obtain ⟨existing, d, hexisting, h⟩ := Program.run_bind_eq_ok.mp h
  obtain rfl : d = db := by cases hexisting; rfl
  obtain ⟨_, _, h⟩ := Program.run_check_bind_eq_ok.mp h
  obtain ⟨rows, d', hinsert, h⟩ := Program.run_bind_eq_ok.mp h
  rw [run_send] at hinsert
  obtain ⟨row, rfl, hkey, hrev, fresh, placed⟩ := insertCollection_ok hinsert
  obtain ⟨row', hrow', h⟩ := Program.run_check_bind_eq_ok.mp h
  cases requiredRow_eq_ok hrow'
  cases h
  have valid : row.key.Valid := by
    rw [hkey]
    exact ⟨(normalizeCalDavActor_eq_ok ha).1, (requiredPattern_eq_ok.mp howner).2,
      (requiredPattern_eq_ok.mp hslug).2⟩
  rw [← hkey] at fresh placed
  exact ⟨.create ⟨row, Table.empty, Table.empty⟩ valid fresh hrev rfl rfl placed,
    row.key, _, placed.here, rfl, rfl⟩

/-- How an operation on a calendar starts. -/
theorem open_resolve_run {α : Type} {id : JsValue} {forUpdate : Bool} {permission : Permission}
    {next : CalDavActor → CollectionRow → CalDavProgram α} {view : α}
    (h : (do
      let a ← check (openContext host actor)
      let row ← resolveCollectionRow a id forUpdate permission
      next a row : CalDavProgram α).run (Stmt.exec collate) db = .ok (view, db')) :
    ∃ a c, openContext host actor = .ok a ∧ db.find c.key = some c ∧
      (next a c.row).run (Stmt.exec collate) db = .ok (view, db') := by
  obtain ⟨a, ha, h⟩ := Program.run_check_bind_eq_ok.mp h
  obtain ⟨row, d, hrow, h⟩ := Program.run_bind_eq_ok.mp h
  obtain ⟨rfl, _, ⟨c, hc, rfl⟩, _⟩ := resolveCollectionRow_run hrow
  exact ⟨a, c, ha, hc, h⟩

variable (texts) in
theorem listCalendarCollections_step {views : List CalendarCollectionView}
    (h : (listCalendarCollections host actor).run (Stmt.exec collate) db = .ok (views, db')) :
    Step texts db db' ∧ ∀ view ∈ views, Issued db' view.calendarId view.syncToken := by
  obtain ⟨a, _, h⟩ := Program.run_check_bind_eq_ok.mp h
  cases h
  refine ⟨.read rfl, ?_⟩
  intro view hview
  obtain ⟨row, hrow, rfl⟩ := List.mem_map.mp hview
  have hrow := (List.perm_insertionSort _ _).mem_iff.mp hrow
  obtain ⟨c, hc, rfl⟩ := List.mem_map.mp (List.mem_filter.mp hrow).1
  exact ⟨c.key, c, Table.lookup_of_mem hc, rfl, rfl⟩

theorem getCalendarCollection_step {id : JsValue} {view : CalendarCollectionView}
    (h : (getCalendarCollection host actor id).run (Stmt.exec collate) db = .ok (view, db')) :
    Step texts db db' ∧ Issued db' view.calendarId view.syncToken := by
  obtain ⟨a, c, _, hc, h⟩ := open_resolve_run h
  cases h
  exact ⟨.read rfl, c.key, c, hc, rfl, rfl⟩

theorem updateAcl_ok {acl : Option CalendarAcl} {key : TokenScope} {c : Collection}
    {rows : List CollectionRow} (hc : db.find key = some c)
    (h : Stmt.exec collate (.updateAcl now acl key) db = .ok (rows, db')) :
    rows = [{ c.row with acl, updatedAt := now }] ∧
      Placed db db' key (some { c with row := { c.row with acl, updatedAt := now } }) := by
  simp only [Stmt.exec] at h
  obtain ⟨_, _, h⟩ := bind_eq_ok.mp h
  have placed := placed_update hc (fun c => { c with row := { c.row with acl, updatedAt := now } }) fun _ => rfl
  cases h
  refine ⟨?_, placed⟩
  rw [placed.here]
  rfl

theorem setCalendarAcl_step {view : CalendarCollectionView}
    (h : (setCalendarAcl host now actor options).run (Stmt.exec collate) db = .ok (view, db')) :
    Step texts db db' ∧ Issued db' view.calendarId view.syncToken := by
  replace h := destructure_bind_run h
  obtain ⟨a, c, _, hc, h⟩ := open_resolve_run h
  obtain ⟨_, _, h⟩ := Program.run_check_bind_eq_ok.mp h
  obtain ⟨delegate, _, h⟩ := Program.run_check_bind_eq_ok.mp h
  obtain ⟨_, _, h⟩ := Program.run_check_bind_eq_ok.mp h
  obtain ⟨unique, _, h⟩ := Program.run_check_bind_eq_ok.mp h
  obtain ⟨rows, d, hupdate, h⟩ := Program.run_bind_eq_ok.mp h
  rw [run_send] at hupdate
  obtain ⟨rfl, placed⟩ := updateAcl_ok hc hupdate
  obtain ⟨row, hrow, h⟩ := Program.run_check_bind_eq_ok.mp h
  cases requiredRow_eq_ok hrow
  cases h
  exact ⟨.acl c.key c hc _ now placed, c.key, _, placed.here, rfl, rfl⟩

theorem revokeCalendarAcl_step {view : CalendarCollectionView}
    (h : (revokeCalendarAcl host now actor options).run (Stmt.exec collate) db = .ok (view, db')) :
    Step texts db db' ∧ Issued db' view.calendarId view.syncToken := by
  replace h := destructure_bind_run h
  obtain ⟨a, c, _, hc, h⟩ := open_resolve_run h
  obtain ⟨_, _, h⟩ := Program.run_check_bind_eq_ok.mp h
  obtain ⟨rows, d, hupdate, h⟩ := Program.run_bind_eq_ok.mp h
  rw [run_send] at hupdate
  obtain ⟨rfl, placed⟩ := updateAcl_ok hc hupdate
  obtain ⟨row, hrow, h⟩ := Program.run_check_bind_eq_ok.mp h
  cases requiredRow_eq_ok hrow
  cases h
  exact ⟨.acl c.key c hc _ now placed, c.key, _, placed.here, rfl, rfl⟩

theorem getCalendarEtag_step {id : JsValue} {result : EtagResult}
    (h : (getCalendarEtag host actor id).run (Stmt.exec collate) db = .ok (result, db')) : db' = db := by
  obtain ⟨a, c, _, hc, h⟩ := open_resolve_run h
  cases h
  rfl

/-- A create or an update that returned: the object row as it is stored. -/
structure Accepted (host : Host) (now : Int) (options : JsValue) (db db' : Db) (view : CalendarObjectView)
    (c c' : Collection) (row : ObjectRow) (metadata : ValidatedICalendar) : Prop where
  present : db.find c.key = some c
  placed : Placed db db' c.key (some c')
  written : Written now c c' row.objectId (some row)
  slug : calendarIdPattern row.objectId
  validated : validateICalendar host (options.get "ical") = .ok metadata
  text : row.icalData = toWellFormed metadata.canonicalText
  view : view = publicObjectRow c.row row metadata

/-- What may be created is not there. -/
theorem absent_of_creatable {c : Collection} {id : JsString} {ifNoneMatch : JsValue} (hc : db.find c.key = some c)
    (h : assertCreatable (decide (0 < (((db.find c.row.key).bind fun c => c.objects.lookup id).toList).length))
      ifNoneMatch = .ok ()) : c.objects.lookup id = none := by
  have hc' : db.find c.row.key = some c := hc
  obtain ⟨_, _, h⟩ := bind_eq_ok.mp h
  obtain ⟨_, habsent, _⟩ := bind_eq_ok.mp h
  rw [failIf_eq_ok, hc', Option.bind_some, decide_eq_false_iff_not] at habsent
  cases hl : c.objects.lookup id with
  | none => rfl
  | some o =>
    rw [hl] at habsent
    exact absurd Nat.zero_lt_one habsent

theorem createInCollection_accepted {a : CalDavActor} {c : Collection} {view : CalendarObjectView}
    (logged : c.Logged) (hc : db.find c.key = some c)
    (h : (createInCollection host now options a c.row).run (Stmt.exec collate) db = .ok (view, db')) :
    ∃ c' row metadata, Accepted host now options db db' view c c' row metadata ∧
      options.get "objectId" = .string row.objectId ∧ c.objects.lookup row.objectId = none := by
  obtain ⟨id, hid, h⟩ := Program.run_check_bind_eq_ok.mp h
  obtain ⟨existing, d, hexisting, h⟩ := Program.run_bind_eq_ok.mp h
  rw [run_send] at hexisting
  cases hexisting
  obtain ⟨_, hcreatable, h⟩ := Program.run_check_bind_eq_ok.mp h
  have habsent := absent_of_creatable hc hcreatable
  obtain ⟨metadata, hmetadata, h⟩ := Program.run_check_bind_eq_ok.mp h
  obtain ⟨rows, db₁, hinsert, h⟩ := Program.run_bind_eq_ok.mp h
  rw [run_send] at hinsert
  obtain ⟨c', objects, uid, icalData, hc', huid, hical, rfl, placed, hobjects⟩ := insertObject_ok hinsert
  have hc' := hc'.symm.trans hc
  cases hc'
  obtain ⟨db₂, c₂, hbump, placed', written⟩ := written_of_bump collate now (some metadata.uid)
    (some _) logged placed hobjects
  replace h := (Program.run_bind_ok hbump).symm.trans h
  obtain ⟨row, hrow, h⟩ := Program.run_check_bind_eq_ok.mp h
  cases requiredRow_eq_ok hrow
  cases h
  have hname := requiredPattern_eq_ok.mp hid
  exact ⟨c₂, _, metadata, ⟨hc, placed', written, hname.2, hmetadata, pgText_eq_ok hical, rfl⟩, hname.1, habsent⟩

theorem createCalendarObject_accepted {view : CalendarObjectView} (logged : db.Logged)
    (h : (createCalendarObject host now actor options).run (Stmt.exec collate) db = .ok (view, db')) :
    ∃ c c' row metadata, Accepted host now options db db' view c c' row metadata := by
  replace h := destructure_bind_run h
  obtain ⟨a, c, _, hc, h⟩ := open_resolve_run h
  obtain ⟨c', row, metadata, accepted, _⟩ := createInCollection_accepted (logged _ _ hc) hc h
  exact ⟨c, c', row, metadata, accepted⟩

theorem lockObject_bind_run {α : Type} {key : TokenScope} {c : Collection} {id : JsString} {ifMatch : JsValue}
    {operation : String} {next : ObjectRow → CalDavProgram α} {view : α} (hc : db.find key = some c)
    (h : (lockObject key id ifMatch operation >>= next).run (Stmt.exec collate) db = .ok (view, db')) :
    ∃ existing, c.objects.lookup id = some existing ∧ assertIfMatch ifMatch existing.etag operation = .ok () ∧
      (next existing).run (Stmt.exec collate) db = .ok (view, db') := by
  obtain ⟨existing, d, hlock, h⟩ := Program.run_bind_eq_ok.mp h
  obtain ⟨found, d', hfound, hlock⟩ := Program.run_bind_eq_ok.mp hlock
  rw [run_send] at hfound
  cases hfound
  rw [hc, Option.bind_some] at hlock
  cases hl : c.objects.lookup id with
  | none => rw [hl] at hlock; cases hlock
  | some o =>
    rw [hl] at hlock
    obtain ⟨_, hmatch, hlock⟩ := Program.run_check_bind_eq_ok.mp hlock
    cases hlock
    exact ⟨_, rfl, hmatch, h⟩

theorem updateObject_ok {key : TokenScope} {c : Collection} {id etag icalData : JsString} {o : ObjectRow}
    {rows : List ObjectRow} (hc : db.find key = some c) (ho : c.objects.lookup id = some o)
    (h : Stmt.exec collate (.updateObject now etag icalData key id) db = .ok (rows, db')) :
    ∃ icalData' objects, pgText icalData = .ok icalData' ∧
      rows = [{ o with etag, icalData := icalData', updatedAt := now }] ∧
      Placed db db' key (some { c with objects }) ∧
      ∀ i, objects.lookup i =
        if i = id then some { o with etag, icalData := icalData', updatedAt := now } else c.objects.lookup i := by
  simp only [Stmt.exec] at h
  obtain ⟨icalData', hical, h⟩ := bind_eq_ok.mp h
  have placed := placed_update hc (fun c => { c with
    objects := c.objects.modify id (fun o => { o with etag, icalData := icalData', updatedAt := now })
      fun _ => rfl }) fun _ => rfl
  have hobjects (i : JsString) := Table.lookup_modify c.objects id
    (fun o => { o with etag, icalData := icalData', updatedAt := now }) (fun _ => rfl) i
  cases h
  refine ⟨icalData', _, hical, ?_, placed, ?_⟩
  · rw [placed.here, Option.bind_some, hobjects, if_pos rfl, ho]
    rfl
  · intro i
    rw [hobjects]
    by_cases hi : i = id
    · subst hi
      simp [ho]
    · simp [hi]

theorem updateInCollection_accepted {a : CalDavActor} {c : Collection} {view : CalendarObjectView}
    (logged : c.Logged) (hc : db.find c.key = some c)
    (h : (updateInCollection host now options a c.row).run (Stmt.exec collate) db = .ok (view, db')) :
    ∃ c' row metadata existing, Accepted host now options db db' view c c' row metadata ∧
      options.get "objectId" = .string row.objectId ∧ c.objects.lookup row.objectId = some existing ∧
      assertIfMatch (options.get "ifMatch") existing.etag "update" = .ok () := by
  obtain ⟨id, hid, h⟩ := Program.run_check_bind_eq_ok.mp h
  obtain ⟨existing, ho, hmatch, h⟩ := lockObject_bind_run hc h
  obtain ⟨metadata, hmetadata, h⟩ := Program.run_check_bind_eq_ok.mp h
  obtain ⟨_, _, h⟩ := Program.run_check_bind_eq_ok.mp h
  obtain ⟨rows, db₁, hupdate, h⟩ := Program.run_bind_eq_ok.mp h
  rw [run_send] at hupdate
  obtain ⟨icalData, objects, hical, rfl, placed, hobjects⟩ := updateObject_ok hc ho hupdate
  obtain ⟨db₂, c₂, hbump, placed', written⟩ := written_of_bump collate now (some metadata.uid)
    (some _) logged placed hobjects
  replace h := (Program.run_bind_ok hbump).symm.trans h
  obtain ⟨row, hrow, h⟩ := Program.run_check_bind_eq_ok.mp h
  cases requiredRow_eq_ok hrow
  cases h
  obtain rfl := Table.key_of_lookup ho
  have hname := requiredPattern_eq_ok.mp hid
  exact ⟨c₂, { existing with etag := _, icalData, updatedAt := now }, metadata, existing,
    ⟨hc, placed', written, hname.2, hmetadata, pgText_eq_ok hical, rfl⟩, hname.1, ho, hmatch⟩

theorem updateCalendarObject_accepted {view : CalendarObjectView} (logged : db.Logged)
    (h : (updateCalendarObject host now actor options).run (Stmt.exec collate) db = .ok (view, db')) :
    ∃ c c' row metadata, Accepted host now options db db' view c c' row metadata := by
  replace h := destructure_bind_run h
  obtain ⟨a, c, _, hc, h⟩ := open_resolve_run h
  obtain ⟨c', row, metadata, _, accepted, _⟩ := updateInCollection_accepted (logged _ _ hc) hc h
  exact ⟨c, c', row, metadata, accepted⟩

theorem accepted_step {view : CalendarObjectView} {c c' : Collection} {row : ObjectRow}
    {metadata : ValidatedICalendar} (h : Accepted host now options db db' view c c' row metadata)
    (texts : ∀ text, (∃ r, validateICalendar host (options.get "ical") = .ok r ∧
      text = toWellFormed r.canonicalText) → P text) : Step P db db' := by
  refine .write c.key c c' h.present row.objectId (some row) now ?_ h.written h.placed
  intro o ho
  cases ho
  exact texts _ ⟨metadata, h.validated, h.text⟩

theorem deleteInCollection_written {c : Collection} {result : DeletionResult} (logged : c.Logged)
    (hc : db.find c.key = some c)
    (h : (deleteInCollection now options c.row).run (Stmt.exec collate) db = .ok (result, db')) :
    ∃ c' id existing, Placed db db' c.key (some c') ∧ Written now c c' id none ∧
      result.calendarId = calendarKey c.key ∧ result.syncToken = some (makeToken c.key c'.row.revision) ∧
      options.get "objectId" = .string id ∧ c.objects.lookup id = some existing ∧
      assertIfMatch (options.get "ifMatch") existing.etag "delete" = .ok () := by
  obtain ⟨id, hid, h⟩ := Program.run_check_bind_eq_ok.mp h
  obtain ⟨existing, ho, hmatch, h⟩ := lockObject_bind_run hc h
  obtain ⟨_, db₁, hdelete, h⟩ := Program.run_bind_eq_ok.mp h
  have placed := placed_update hc (fun c => { c with objects := c.objects.erase id }) fun _ => rfl
  cases hdelete
  obtain ⟨db₂, c₂, hbump, placed', written⟩ := written_of_bump collate now (some existing.uid) none
    logged placed (Table.lookup_erase c.objects id)
  replace h := (Program.run_bind_ok hbump).symm.trans h
  cases h
  exact ⟨c₂, id, existing, placed', written, rfl, by rw [written.revision]; rfl, (requiredPattern_eq_ok.mp hid).1, ho, hmatch⟩

variable (texts) in
theorem deleteCalendarObject_step {result : DeletionResult} (logged : db.Logged)
    (h : (deleteCalendarObject host now actor options).run (Stmt.exec collate) db = .ok (result, db')) :
    Step texts db db' ∧ ∀ token ∈ result.syncToken, Issued db' result.calendarId token := by
  replace h := destructure_bind_run h
  obtain ⟨a, c, _, hc, h⟩ := open_resolve_run h
  obtain ⟨c', id, _, placed, written, hid, htoken, _⟩ := deleteInCollection_written (logged _ _ hc) hc h
  refine ⟨.write _ c c' hc id none now (fun _ ho => by cases ho) written placed, ?_⟩
  rw [htoken, hid]
  intro token htoken
  cases htoken
  exact ⟨c.key, c', placed.here, rfl, rfl⟩

/-! ### Reads -/

theorem readOnly_selectObject {α : Type} (key : TokenScope) (id : JsString) (forUpdate : Bool)
    {next : List ObjectRow → CalDavProgram α} (h : ∀ rows, (next rows).ReadOnly (Stmt.exec collate)) :
    (send (.selectObject key id forUpdate) >>= next).ReadOnly (Stmt.exec collate) :=
  Program.readOnly_send_bind (fun _ _ _ h => by cases h; rfl) h

theorem getCalendarObject_step {view : CalendarObjectView}
    (h : (getCalendarObject host actor options).run (Stmt.exec collate) db = .ok (view, db')) : db' = db := by
  replace h := destructure_bind_run h
  obtain ⟨a, c, _, hc, h⟩ := open_resolve_run h
  obtain ⟨id, _, h⟩ := Program.run_check_bind_eq_ok.mp h
  refine Program.run_readOnly (readOnly_selectObject _ _ _ fun rows => ?_) h
  split
  · exact Program.readOnly_lift _
  · exact Program.readOnly_lift _

theorem readChanged_readOnly (row : CollectionRow) (changes : List (JsString × ChangeRow)) :
    (readChanged host row changes).ReadOnly (Stmt.exec collate) := by
  induction changes with
  | nil => trivial
  | cons change rest ih =>
    obtain ⟨id, change⟩ := change
    unfold readChanged
    split
    · exact Program.readOnly_bind ih fun _ => trivial
    · refine readOnly_selectObject _ _ _ fun rows => ?_
      split
      · exact Program.readOnly_bind (Program.readOnly_lift _) fun _ => Program.readOnly_bind ih fun _ => trivial
      · exact Program.readOnly_bind ih fun _ => trivial

theorem readDelta_readOnly (row : CollectionRow) (syncToken : JsValue) (since : Nat) :
    (readDelta host row syncToken since).ReadOnly (Stmt.exec collate) := by
  unfold readDelta
  split
  · refine Program.readOnly_send_bind (fun _ _ _ h => by cases h; rfl) fun rows => ?_
    exact Program.readOnly_bind (Program.readOnly_lift _) fun _ => trivial
  · refine Program.readOnly_send_bind (fun _ _ _ h => by cases h; rfl) fun changes => ?_
    exact readChanged_readOnly row _

theorem listCalendarObjects_step {list : ObjectList}
    (h : (listCalendarObjects host actor options).run (Stmt.exec collate) db = .ok (list, db')) :
    db' = db ∧ Issued db' list.calendarId list.syncToken := by
  replace h := destructure_bind_run h
  obtain ⟨a, c, _, hc, h⟩ := open_resolve_run h
  obtain ⟨since, _, h⟩ := Program.run_check_bind_eq_ok.mp h
  obtain ⟨_, _, h⟩ := Program.run_check_bind_eq_ok.mp h
  obtain ⟨delta, d, hdelta, hlist⟩ := Program.run_bind_eq_ok.mp h
  obtain rfl := Program.run_readOnly (readDelta_readOnly _ _ _) hdelta
  cases hlist
  exact ⟨rfl, c.key, c, hc, rfl, rfl⟩

variable (texts) in
theorem deleteCalendarCollection_step {result : DeletionResult}
    (h : (deleteCalendarCollection host actor options).run (Stmt.exec collate) db = .ok (result, db')) :
    Step texts db db' ∧ result.syncToken = none := by
  replace h := destructure_bind_run h
  obtain ⟨a, c, _, hc, h⟩ := open_resolve_run h
  obtain ⟨_, _, h⟩ := Program.run_check_bind_eq_ok.mp h
  obtain ⟨count, d, hcount, h⟩ := Program.run_bind_eq_ok.mp h
  cases hcount
  obtain ⟨_, hempty, h⟩ := Program.run_check_bind_eq_ok.mp h
  obtain ⟨_, _, h⟩ := Program.run_check_bind_eq_ok.mp h
  have empty : c.objects.rows = [] := by
    have hc' : db.find c.row.key = some c := hc
    rw [failIf_eq_ok, hc'] at hempty
    exact List.length_eq_zero_iff.mp (Nat.eq_zero_of_not_pos (of_decide_eq_false hempty))
  cases h
  refine ⟨.delete c.key c hc empty ⟨rfl, ?_, ?_⟩, rfl⟩
  · exact (Table.lookup_erase db.collections c.key c.key).trans (if_pos rfl)
  · intro k hk
    exact (Table.lookup_erase db.collections c.key k).trans (if_neg hk)

theorem issues_collection {view : CalendarCollectionView}
    (h : Step texts db db' ∧ Issued db' view.calendarId view.syncToken) :
    Step texts db db' ∧ ∀ calendarId token,
      (calendarId, token) ∈ (CalDavAnswer.collection view).tokens → Issued db' calendarId token := by
  refine ⟨h.1, ?_⟩
  intro calendarId token htoken
  cases List.mem_singleton.mp htoken
  exact h.2

/-- What a call that returns has done, and the tokens it gives out. -/
theorem program_step {call : CalDavCall} {answer : CalDavAnswer} (logged : db.Logged)
    (h : (program host now call).run (Stmt.exec collate) db = .ok (answer, db')) :
    Step (stores host call) db db' ∧
      ∀ calendarId token, (calendarId, token) ∈ answer.tokens → Issued db' calendarId token := by
  cases call with
  | makeSyncToken options => cases h
  | createCalendarCollection actor options =>
    obtain ⟨view, d, hview, h⟩ := Program.run_bind_eq_ok.mp h
    cases h
    exact issues_collection (createCalendarCollection_step hview)
  | getCalendarCollection actor id =>
    obtain ⟨view, d, hview, h⟩ := Program.run_bind_eq_ok.mp h
    cases h
    exact issues_collection (getCalendarCollection_step hview)
  | setCalendarAcl actor options =>
    obtain ⟨view, d, hview, h⟩ := Program.run_bind_eq_ok.mp h
    cases h
    exact issues_collection (setCalendarAcl_step hview)
  | revokeCalendarAcl actor options =>
    obtain ⟨view, d, hview, h⟩ := Program.run_bind_eq_ok.mp h
    cases h
    exact issues_collection (revokeCalendarAcl_step hview)
  | listCalendarCollections actor =>
    obtain ⟨views, d, hviews, h⟩ := Program.run_bind_eq_ok.mp h
    cases h
    obtain ⟨step, issued⟩ := listCalendarCollections_step (stores host _) hviews
    refine ⟨step, ?_⟩
    intro calendarId token htoken
    obtain ⟨view, hview, heq⟩ := List.mem_map.mp htoken
    cases heq
    exact issued view hview
  | getCalendarEtag actor id =>
    obtain ⟨result, d, hresult, h⟩ := Program.run_bind_eq_ok.mp h
    cases h
    exact ⟨.read (getCalendarEtag_step hresult), fun _ _ h => by cases h⟩
  | createCalendarObject actor options =>
    obtain ⟨view, d, hview, h⟩ := Program.run_bind_eq_ok.mp h
    cases h
    obtain ⟨c, c', row, metadata, accepted⟩ := createCalendarObject_accepted logged hview
    exact ⟨accepted_step accepted fun _ h => h, fun _ _ h => by cases h⟩
  | getCalendarObject actor options =>
    obtain ⟨view, d, hview, h⟩ := Program.run_bind_eq_ok.mp h
    cases h
    exact ⟨.read (getCalendarObject_step hview), fun _ _ h => by cases h⟩
  | updateCalendarObject actor options =>
    obtain ⟨view, d, hview, h⟩ := Program.run_bind_eq_ok.mp h
    cases h
    obtain ⟨c, c', row, metadata, accepted⟩ := updateCalendarObject_accepted logged hview
    exact ⟨accepted_step accepted fun _ h => h, fun _ _ h => by cases h⟩
  | deleteCalendarObject actor options =>
    obtain ⟨result, d, hresult, h⟩ := Program.run_bind_eq_ok.mp h
    cases h
    obtain ⟨step, issued⟩ := deleteCalendarObject_step (stores host _) logged hresult
    refine ⟨step, ?_⟩
    intro calendarId token htoken
    obtain ⟨t, ht, heq⟩ := List.mem_map.mp htoken
    cases heq
    exact issued _ (by simpa using ht)
  | listCalendarObjects actor options =>
    obtain ⟨list, d, hlist, h⟩ := Program.run_bind_eq_ok.mp h
    cases h
    obtain ⟨same, issued⟩ := listCalendarObjects_step hlist
    refine ⟨.read same, ?_⟩
    intro calendarId token htoken
    cases List.mem_singleton.mp htoken
    exact issued
  | deleteCalendarCollection actor options =>
    obtain ⟨result, d, hresult, h⟩ := Program.run_bind_eq_ok.mp h
    cases h
    obtain ⟨step, none⟩ := deleteCalendarCollection_step (stores host _) hresult
    refine ⟨step, ?_⟩
    intro calendarId token htoken
    simp [CalDavAnswer.tokens, none] at htoken

end

end GuloGulo.CalDav.Postgres
