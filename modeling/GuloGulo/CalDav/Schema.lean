import GuloGulo.CalDav.View
import GuloGulo.Sql.Program
import Mathlib.Data.List.Sort

/-!
# The CalDAV tables

The calendar tables of `0003_dav_storage.sql` and the statements the store
sends. Objects and changes reference their collection with `ON DELETE CASCADE`,
so a collection is kept together with the rows that reference it: no row
without its collection can be written down.
-/

namespace GuloGulo.CalDav.Postgres
open Js Data Sql

/-- The key columns are those of a token's scope. -/
structure CollectionRow where
  key : TokenScope
  displayName : JsString
  description : JsString
  timezone : JsString
  color : Option JsString
  href : JsString
  acl : Option CalendarAcl
  revision : Nat
  createdAt : Int
  updatedAt : Int

structure ObjectRow where
  objectId : JsString
  uid : JsString
  etag : JsString
  icalData : JsString
  createdAt : Int
  updatedAt : Int

structure ChangeRow where
  revision : Nat
  objectId : JsString
  uid : Option JsString
  etag : Option JsString
  deleted : Bool

structure Collection where
  row : CollectionRow
  objects : Table ObjectRow.objectId
  changes : Table ChangeRow.revision

def Collection.key (c : Collection) : TokenScope := c.row.key

/-- `tenants` holds the ids a collection may reference. -/
structure Db where
  tenants : List JsString
  collections : Table Collection.key

def Db.find (db : Db) (key : TokenScope) : Option Collection := db.collections.lookup key

/-- Columns that an `INSERT` names; the others take their defaults. -/
structure NewCollection where
  key : TokenScope
  displayName : JsString
  description : JsString
  timezone : JsString
  color : Option JsString
  href : JsString

/-- The statements. `now` is the time of the transaction. -/
inductive Stmt where
  | selectCollection (key : TokenScope) (forUpdate : Bool)
  | selectAccessible (tenantId collectionId userId : JsString)
  | selectReadable (tenantId userId : JsString)
  | insertCollection (now : Int) (columns : NewCollection)
  | updateAcl (now : Int) (acl : Option CalendarAcl) (key : TokenScope)
  | bumpRevision (now : Int) (key : TokenScope)
  | deleteCollection (key : TokenScope)
  | selectObjects (key : TokenScope)
  | countObjects (key : TokenScope)
  | selectObject (key : TokenScope) (objectId : JsString) (forUpdate : Bool)
  | insertObject (now : Int) (key : TokenScope) (objectId uid etag icalData : JsString)
  | updateObject (now : Int) (etag icalData : JsString) (key : TokenScope) (objectId : JsString)
  | deleteObject (key : TokenScope) (objectId : JsString)
  | insertChange (key : TokenScope) (change : ChangeRow)
  | selectChanges (key : TokenScope) (since : Nat)

/-- What a statement returns: its rows, a `RETURNING` list, or a count. -/
def Stmt.Rows : Stmt → Type
  | selectCollection .. | selectAccessible .. | selectReadable .. | insertCollection ..
  | updateAcl .. => List CollectionRow
  | selectObjects .. | selectObject .. | insertObject .. | updateObject .. => List ObjectRow
  | selectChanges .. => List ChangeRow
  | bumpRevision .. => List Nat
  | countObjects .. => Nat
  | deleteCollection .. | deleteObject .. | insertChange .. => Unit

/-- Text as the database receives it: in UTF-8, which has no lone surrogates,
and without NUL, which PostgreSQL refuses. -/
def pgText (s : JsString) : Except (Thrown CalDavError) JsString :=
  if s.contains 0 then .error .foreign else .ok (toWellFormed s)

def orderBy {ρ : Type} (le : ρ → ρ → Bool) (rows : List ρ) : List ρ := rows.insertionSort fun a b => le a b

def CollectionRow.accessible (tenantId userId : JsString) (row : CollectionRow) : Bool :=
  row.key.tenantId == tenantId &&
    (row.key.ownerUserId == userId || row.acl.any fun acl => acl.delegateUserId == userId)

/-- What a statement changes in a collection, if it is there. -/
def Db.update (db : Db) (key : TokenScope) (f : Collection → Collection) (hf : ∀ c, (f c).key = c.key) :
    Db :=
  { db with collections := db.collections.modify key f hf }

section
variable (collate : JsString → JsString → Bool)

/-- The statements on collections. `collate` is the order of the database's
text columns. -/
def Stmt.exec : Program.Semantics (Thrown CalDavError) Stmt.Rows Db
  | selectCollection key _, db => .ok ((db.find key).toList.map (·.row), db)
  | selectAccessible tenantId collectionId userId, db =>
    .ok ((db.collections.rows.map (·.row)).filter fun row =>
      row.key.collectionId == collectionId && row.accessible tenantId userId, db)
  | selectReadable tenantId userId, db =>
    .ok (orderBy (fun a b =>
        if a.key.ownerUserId = b.key.ownerUserId then collate a.key.collectionId b.key.collectionId
        else collate a.key.ownerUserId b.key.ownerUserId)
      ((db.collections.rows.map (·.row)).filter (·.accessible tenantId userId)), db)
  | insertCollection now columns, db => do
    let displayName ← pgText columns.displayName
    let description ← pgText columns.description
    throwIf (!db.tenants.contains columns.key.tenantId) .foreign
    let row : CollectionRow := {
      key := columns.key
      displayName, description
      timezone := columns.timezone
      color := columns.color
      href := columns.href
      acl := none
      revision := 0
      createdAt := now
      updatedAt := now }
    match db.collections.insert? ⟨row, Table.empty, Table.empty⟩ with
    | some collections => return ([row], { db with collections })
    | none => .error .foreign
  | updateAcl now acl key, db => do
    throwIf (acl.any fun acl => acl.delegateUserId == key.ownerUserId) .foreign
    let db' := db.update key (fun c => { c with row := { c.row with acl, updatedAt := now } }) fun _ => rfl
    return ((db'.find key).toList.map (·.row), db')
  | bumpRevision now key, db =>
    let db' := db.update key
      (fun c => { c with row := { c.row with revision := c.row.revision + 1, updatedAt := now } }) fun _ => rfl
    .ok ((db'.find key).toList.map (·.row.revision), db')
  | deleteCollection key, db => .ok ((), { db with collections := db.collections.erase key })
  | selectObjects key, db =>
    .ok ((db.find key).elim [] fun c => orderBy (fun a b => collate a.objectId b.objectId) c.objects.rows, db)
  | countObjects key, db => .ok ((db.find key).elim (0 : Nat) fun c => c.objects.rows.length, db)
  | selectObject key objectId _, db =>
    .ok (((db.find key).bind fun c => c.objects.lookup objectId).toList, db)
  | insertObject now key objectId uid etag icalData, db => do
    let uid ← pgText uid
    let icalData ← pgText icalData
    let row : ObjectRow := ⟨objectId, uid, etag, icalData, now, now⟩
    match (db.find key).bind fun c => c.objects.insert? row with
    | some objects => return ([row], db.update key (fun c => { c with objects }) fun _ => rfl)
    | none => .error .foreign
  | updateObject now etag icalData key objectId, db => do
    let icalData ← pgText icalData
    let db' := db.update key (fun c => { c with
      objects := c.objects.modify objectId (fun o => { o with etag, icalData, updatedAt := now }) fun _ => rfl })
      fun _ => rfl
    return (((db'.find key).bind fun c => c.objects.lookup objectId).toList, db')
  | deleteObject key objectId, db =>
    .ok ((), db.update key (fun c => { c with objects := c.objects.erase objectId }) fun _ => rfl)
  | insertChange key change, db =>
    match (db.find key).bind fun c => c.changes.insert? change with
    | some changes => .ok ((), db.update key (fun c => { c with changes }) fun _ => rfl)
    | none => .error .foreign
  | selectChanges key since, db =>
    .ok ((db.find key).elim [] fun c =>
      orderBy (fun a b => decide (a.revision ≤ b.revision))
        (c.changes.rows.filter fun change => decide (since < change.revision)), db)

end

end GuloGulo.CalDav.Postgres
