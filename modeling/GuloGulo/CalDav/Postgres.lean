import GuloGulo.CalDav.Schema
import GuloGulo.Integrations.TenantContext
import GuloGulo.Js.Date

/-!
# The PostgreSQL CalDAV store

The operations of `postgres-caldav-store.ts`, each as the program it runs in
`withTenantTransaction`. What an operation checks before it opens the
transaction is checked before the first statement here.
-/

namespace GuloGulo.CalDav.Postgres
open Js Data Sql
open Sql.Program (check)
open Integrations (assertTenantContext)

abbrev CalDavProgram := Program (Thrown CalDavError) Stmt.Rows

/-- `client.query`. -/
def send (stmt : Stmt) : CalDavProgram stmt.Rows := Program.send stmt

section
variable (host : Host)

structure CalendarActor where
  actor : CalDavActor
  domain : Option JsString

def normalizeCalDavActor (actorInput : JsValue) : Except CalDavError CalendarActor := do
  let tenantId := (actorInput.get "tenantId").asString?.getD []
  let actor ← normalizeActor actorInput tenantId
  return ⟨actor, (actorInput.get "domain").asString?⟩

def buildTenantContext (a : CalendarActor) : Except CalDavError Unit :=
  match assertTenantContext host a.actor.tenantId a.domain a.actor.userId with
  | .ok _ => .ok ()
  | .error () =>
    fail (js "a valid domain is required for the PostgreSQL-backed CalDAV store") .invalidDomain 422

/-- How every operation but the creation of a collection starts. -/
def openContext (actorInput : JsValue) : Except CalDavError CalDavActor := do
  let a ← normalizeCalDavActor actorInput
  buildTenantContext host a
  return a.actor

/-- A `null` cannot be destructured. -/
def destructure (options : JsValue) : CalDavProgram Unit :=
  match options with
  | .null => .throw .foreign
  | _ => return ()

def requiredRow {ρ : Type} (rows : List ρ) : Except CalDavError ρ :=
  match rows.head? with
  | some row => .ok row
  | none => fail (js "database did not return a row") .databaseRowMissing 500

def permissionsForRow (row : CollectionRow) (userId : JsString) : List Permission :=
  permissionsFor row.key.ownerUserId row.acl userId

def calendarKey (key : TokenScope) : JsString := canonicalCalendarKey key.ownerUserId key.collectionId

def publicCollectionRow (row : CollectionRow) (actor : CalDavActor) : CalendarCollectionView where
  calendarId := calendarKey row.key
  collectionId := row.key.collectionId
  href := row.href
  tenantId := row.key.tenantId
  ownerUserId := row.key.ownerUserId
  displayName := row.displayName
  description := row.description
  timezone := row.timezone
  color := row.color
  permissions := permissionsForRow row actor.userId
  acl := visibleAcl row.key.ownerUserId row.acl actor.userId
  syncToken := makeToken row.key row.revision
  createdAt := isoString row.createdAt
  updatedAt := isoString row.updatedAt

/-- The key columns of an object row are those it was selected by. -/
def publicObjectRow (collection : CollectionRow) (row : ObjectRow) (metadata : ValidatedICalendar) :
    CalendarObjectView where
  href := collection.href ++ encodeURIComponent row.objectId
  calendarId := calendarKey collection.key
  objectId := row.objectId
  tenantId := collection.key.tenantId
  ownerUserId := collection.key.ownerUserId
  uid := row.uid
  etag := row.etag
  metadata
  createdAt := isoString row.createdAt
  updatedAt := isoString row.updatedAt
  ical := row.icalData

/-- An object row as it is read: its text is validated again. -/
def readObjectRow (collection : CollectionRow) (row : ObjectRow) : Except CalDavError CalendarObjectView := do
  let metadata ← validateICalendar host (.string row.icalData)
  return publicObjectRow collection row metadata

/-- The row of a calendar id: with its owner by key, else among the calendars
the actor can see. -/
def findCollectionRow (actor : CalDavActor) (id : CalendarId) (forUpdate : Bool) :
    CalDavProgram (Option CollectionRow) :=
  match id.ownerUserId with
  | some ownerUserId => do
    let rows ← send (.selectCollection ⟨actor.tenantId, ownerUserId, id.collectionId⟩ forUpdate)
    return rows.head?
  | none => do
    let rows ← send (.selectAccessible actor.tenantId id.collectionId actor.userId)
    check (failIf (decide (1 < rows.length)) "calendarId is ambiguous; use ownerUserId/calendarId"
      .ambiguousCalendarId 409)
    match rows.head? with
    | some row =>
      if forUpdate then do
        let locked ← send
          (.selectCollection ⟨actor.tenantId, row.key.ownerUserId, row.key.collectionId⟩ true)
        return locked.head?
      else return some row
    | none => return none

def resolveCollectionRow (actor : CalDavActor) (requestedCalendarId : JsValue) (forUpdate : Bool)
    (requirePermission : Permission) : CalDavProgram CollectionRow := do
  let id ← check (splitCalendarId requestedCalendarId)
  match ← findCollectionRow actor id forUpdate with
  | none => check (fail (js "calendar collection was not found") .calendarNotFound 404)
  | some row => do
    check (throwIf (!(permissionsForRow row actor.userId).contains requirePermission)
      (calDavError (js "actor is not allowed to " ++ requirePermission.text ++ js " this calendar")
        .aclDenied 403))
    return row

def bumpRevision (now : Int) (key : TokenScope) (objectId : JsString) (uid etag : Option JsString)
    (deleted : Bool) : CalDavProgram Nat := do
  let updated ← send (.bumpRevision now key)
  let revision ← check (requiredRow updated)
  send (.insertChange key ⟨revision, objectId, uid, etag, deleted⟩)
  return revision

/-- The default of `ownerUserId`, which is not validated. -/
def defaultOwner (actorInput ownerUserId : JsValue) : JsValue :=
  ownerUserId.orDefault ((actorInput.get "userId").orElse (actorInput.get "actorId"))

def createCalendarCollection (now : Int) (actorInput options : JsValue) :
    CalDavProgram CalendarCollectionView := do
  destructure options
  let collectionId := (options.get "collectionId").orDefault (.string (js "default"))
  let ownerUserId := defaultOwner actorInput (options.get "ownerUserId")
  let displayName := (options.get "displayName").orDefault collectionId
  let description := (options.get "description").orDefault (.string [])
  let timezone := (options.get "timezone").orDefault (.string (js "UTC"))
  let color := (options.get "color").orDefault .null
  let a ← check (normalizeCalDavActor actorInput)
  let owner ← check (canonicalUserId ownerUserId "ownerUserId")
  check (failIf (owner != a.actor.userId) "an actor can create only its own calendar collection"
    .aclDenied 403)
  let slug ← check (canonicalCalendarSlug collectionId "collectionId")
  let fields ← check (collectionFields host displayName description timezone color)
  check (buildTenantContext host a)
  let key : TokenScope := ⟨a.actor.tenantId, owner, slug⟩
  let existing ← send (.selectCollection key false)
  check (failIf (decide (0 < existing.length)) "calendar collection already exists" .calendarExists 409)
  let inserted ← send (.insertCollection now {
    key
    displayName := fields.displayName
    description := fields.description
    timezone := fields.timezone
    color := fields.color
    href := calendarHref a.actor.tenantId owner slug })
  let row ← check (requiredRow inserted)
  return publicCollectionRow row a.actor

def listCalendarCollections (actorInput : JsValue) : CalDavProgram (List CalendarCollectionView) := do
  let actor ← check (openContext host actorInput)
  let rows ← send (.selectReadable actor.tenantId actor.userId)
  return rows.map fun row => publicCollectionRow row actor

def getCalendarCollection (actorInput requestedCalendarId : JsValue) :
    CalDavProgram CalendarCollectionView := do
  let actor ← check (openContext host actorInput)
  let row ← resolveCollectionRow actor requestedCalendarId false .read
  return publicCollectionRow row actor

def setCalendarAcl (now : Int) (actorInput options : JsValue) : CalDavProgram CalendarCollectionView := do
  destructure options
  let permissions := (options.get "permissions").orDefault (.array [.string (js "read")])
  let actor ← check (openContext host actorInput)
  let row ← resolveCollectionRow actor (options.get "calendarId") true .read
  check (failIf (actor.userId != row.key.ownerUserId) "only the calendar owner may change its ACL"
    .aclOwnerRequired 403)
  let delegate ← check (canonicalUserId (options.get "delegateUserId") "delegateUserId")
  check (failIf (delegate == row.key.ownerUserId) "a calendar cannot delegate to itself" .invalidAcl 422)
  let unique ← check (normalizePermissions permissions)
  let updated ← send (.updateAcl now (some ⟨delegate, unique⟩) row.key)
  let row ← check (requiredRow updated)
  return publicCollectionRow row actor

def revokeCalendarAcl (now : Int) (actorInput options : JsValue) :
    CalDavProgram CalendarCollectionView := do
  destructure options
  let actor ← check (openContext host actorInput)
  let row ← resolveCollectionRow actor (options.get "calendarId") true .read
  check (failIf (actor.userId != row.key.ownerUserId) "only the calendar owner may change its ACL"
    .aclOwnerRequired 403)
  let updated ← send (.updateAcl now none row.key)
  let row ← check (requiredRow updated)
  return publicCollectionRow row actor

def rowEtag (row : CollectionRow) : JsString :=
  collectionEtag host row.displayName row.description (isoString row.updatedAt)

def getCalendarEtag (actorInput requestedCalendarId : JsValue) : CalDavProgram EtagResult := do
  let actor ← check (openContext host actorInput)
  let row ← resolveCollectionRow actor requestedCalendarId false .read
  return ⟨calendarKey row.key, rowEtag host row, actor.userId⟩

/-- `createCalendarObject` from where the calendar is resolved and locked. -/
def createInCollection (now : Int) (options : JsValue) (actor : CalDavActor) (row : CollectionRow) :
    CalDavProgram CalendarObjectView := do
  let id ← check (canonicalCalendarSlug (options.get "objectId") "objectId")
  let existing ← send (.selectObject row.key id false)
  check (assertCreatable (decide (0 < existing.length)) (options.get "ifNoneMatch"))
  let metadata ← check (validateICalendar host (options.get "ical"))
  let etag := calculateEtag host actor.tenantId (calendarKey row.key) id metadata.canonicalText
  let inserted ← send (.insertObject now row.key id metadata.uid etag metadata.canonicalText)
  let _ ← bumpRevision now row.key id (some metadata.uid) (some etag) false
  let object ← check (requiredRow inserted)
  return publicObjectRow row object metadata

def createCalendarObject (now : Int) (actorInput options : JsValue) :
    CalDavProgram CalendarObjectView := do
  destructure options
  let actor ← check (openContext host actorInput)
  let row ← resolveCollectionRow actor (options.get "calendarId") true .write
  createInCollection host now options actor row

def getCalendarObject (actorInput options : JsValue) : CalDavProgram CalendarObjectView := do
  destructure options
  let actor ← check (openContext host actorInput)
  let row ← resolveCollectionRow actor (options.get "calendarId") false .read
  let id ← check (canonicalCalendarSlug (options.get "objectId") "objectId")
  let found ← send (.selectObject row.key id false)
  match found.head? with
  | none => check (fail (js "calendar object was not found") .objectNotFound 404)
  | some object => check (readObjectRow host row object)

/-- The object a conditional write is about, locked. -/
def lockObject (key : TokenScope) (id : JsString) (ifMatch : JsValue) (operation : String) :
    CalDavProgram ObjectRow := do
  let found ← send (.selectObject key id true)
  match found.head? with
  | none => check (fail (js "calendar object was not found") .objectNotFound 404)
  | some existing => do
    check (assertIfMatch ifMatch existing.etag operation)
    return existing

/-- `updateCalendarObject` from where the calendar is resolved and locked. -/
def updateInCollection (now : Int) (options : JsValue) (actor : CalDavActor) (row : CollectionRow) :
    CalDavProgram CalendarObjectView := do
  let id ← check (canonicalCalendarSlug (options.get "objectId") "objectId")
  let existing ← lockObject row.key id (options.get "ifMatch") "update"
  let metadata ← check (validateICalendar host (options.get "ical"))
  check (failIf (metadata.uid != existing.uid) "UID cannot change during an update" .uidImmutable 409)
  let etag := calculateEtag host actor.tenantId (calendarKey row.key) id metadata.canonicalText
  let updated ← send (.updateObject now etag metadata.canonicalText row.key id)
  let _ ← bumpRevision now row.key id (some metadata.uid) (some etag) false
  let object ← check (requiredRow updated)
  return publicObjectRow row object metadata

def updateCalendarObject (now : Int) (actorInput options : JsValue) :
    CalDavProgram CalendarObjectView := do
  destructure options
  let actor ← check (openContext host actorInput)
  let row ← resolveCollectionRow actor (options.get "calendarId") true .write
  updateInCollection host now options actor row

/-- `deleteCalendarObject` from where the calendar is resolved and locked. -/
def deleteInCollection (now : Int) (options : JsValue) (row : CollectionRow) :
    CalDavProgram DeletionResult := do
  let id ← check (canonicalCalendarSlug (options.get "objectId") "objectId")
  let existing ← lockObject row.key id (options.get "ifMatch") "delete"
  send (.deleteObject row.key id)
  let revision ← bumpRevision now row.key id (some existing.uid) none true
  return ⟨calendarKey row.key, some id, some existing.etag, some (makeToken row.key revision)⟩

def deleteCalendarObject (now : Int) (actorInput options : JsValue) : CalDavProgram DeletionResult := do
  destructure options
  let actor ← check (openContext host actorInput)
  let row ← resolveCollectionRow actor (options.get "calendarId") true .write
  deleteInCollection now options row

/-- `latestByObject`. -/
def latestByObject (changes : List ChangeRow) : OrderedMap JsString ChangeRow :=
  changes.foldl (fun latest change => latest.set change.objectId change) Table.empty

/-- The loop over `latestByObject`: an object that was not deleted is read as
it is now. -/
def readChanged (row : CollectionRow) :
    List (JsString × ChangeRow) → CalDavProgram (List CalendarObjectView × List JsString)
  | [] => return ([], [])
  | (objectId, change) :: rest =>
    if change.deleted then do
      let (objects, deletedObjectIds) ← readChanged row rest
      return (objects, objectId :: deletedObjectIds)
    else do
      let current ← send (.selectObject row.key objectId false)
      match current.head? with
      | some object => do
        let view ← check (readObjectRow host row object)
        let (objects, deletedObjectIds) ← readChanged row rest
        return (view :: objects, deletedObjectIds)
      | none => do
        let (objects, deletedObjectIds) ← readChanged row rest
        return (objects, objectId :: deletedObjectIds)

/-- The objects and deleted ids past a revision, or all objects without a token. -/
def readDelta (row : CollectionRow) (syncToken : JsValue) (since : Nat) :
    CalDavProgram (List CalendarObjectView × List JsString) :=
  if syncToken.isNullish then do
    let rows ← send (.selectObjects row.key)
    let objects ← check (rows.mapM (readObjectRow host row))
    return (objects, [])
  else do
    let changes ← send (.selectChanges row.key since)
    readChanged host row (latestByObject changes).rows

def listCalendarObjects (actorInput options : JsValue) : CalDavProgram ObjectList := do
  destructure options
  let syncToken := options.get "syncToken"
  let actor ← check (openContext host actorInput)
  let row ← resolveCollectionRow actor (options.get "calendarId") false .read
  let since ← check (decodeToken syncToken row.key)
  check (failIf (decide (row.revision < since)) "syncToken is from the future" .invalidSyncToken 400)
  let (objects, deletedObjectIds) ← readDelta host row syncToken since
  return {
    calendarId := calendarKey row.key
    objects, deletedObjectIds
    syncToken := makeToken row.key row.revision }

def deleteCalendarCollection (actorInput options : JsValue) : CalDavProgram DeletionResult := do
  destructure options
  let actor ← check (openContext host actorInput)
  let row ← resolveCollectionRow actor (options.get "calendarId") true .read
  check (failIf (actor.userId != row.key.ownerUserId) "only the calendar owner may delete a collection"
    .aclOwnerRequired 403)
  let count : Nat ← send (.countObjects row.key)
  check (failIf (decide (0 < count)) "calendar collection is not empty" .calendarNotEmpty 409)
  check (assertCollectionMatch (options.get "ifMatch") (rowEtag host row))
  send (.deleteCollection row.key)
  return ⟨calendarKey row.key, none, none, none⟩

/-- This store has no `makeSyncToken`. -/
def program (now : Int) : CalDavCall → CalDavProgram CalDavAnswer
  | .createCalendarCollection actor options =>
    return .collection (← createCalendarCollection host now actor options)
  | .listCalendarCollections actor => return .collections (← listCalendarCollections host actor)
  | .getCalendarCollection actor calendarId =>
    return .collection (← getCalendarCollection host actor calendarId)
  | .setCalendarAcl actor options => return .collection (← setCalendarAcl host now actor options)
  | .revokeCalendarAcl actor options => return .collection (← revokeCalendarAcl host now actor options)
  | .getCalendarEtag actor calendarId => return .etag (← getCalendarEtag host actor calendarId)
  | .createCalendarObject actor options => return .object (← createCalendarObject host now actor options)
  | .getCalendarObject actor options => return .object (← getCalendarObject host actor options)
  | .updateCalendarObject actor options => return .object (← updateCalendarObject host now actor options)
  | .deleteCalendarObject actor options =>
    return .deletion (← deleteCalendarObject host now actor options)
  | .listCalendarObjects actor options => return .objects (← listCalendarObjects host actor options)
  | .deleteCalendarCollection actor options =>
    return .deletion (← deleteCalendarCollection host actor options)
  | .makeSyncToken _ => .throw .foreign

end

end GuloGulo.CalDav.Postgres
