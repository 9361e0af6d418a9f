import GuloGulo.CalDav.View
import GuloGulo.Js.Date

/-!
# The in-memory CalDAV store

`createCalDavStore` of `caldav-contract.ts`. The closure variables are the
state; the clock and the audit callback belong to the call, since either may
answer differently every time, or throw.
-/

namespace GuloGulo.CalDav
open Js Data
open Eff (check)

structure CalendarObject where
  tenantId : JsString
  ownerUserId : JsString
  objectId : JsString
  uid : JsString
  ical : JsString
  metadata : ValidatedICalendar
  etag : JsString
  createdAt : JsString
  updatedAt : JsString

structure CalendarCollection where
  tenantId : JsString
  ownerUserId : JsString
  collectionId : JsString
  displayName : JsString
  description : JsString
  timezone : JsString
  color : Option JsString
  href : JsString
  createdAt : JsString
  updatedAt : JsString
  syncToken : JsString
  acl : Option CalendarAcl
  objects : OrderedMap JsString CalendarObject

structure CalendarChange where
  revision : Nat
  calendarKey : JsString
  objectId : JsString
  object : Option CalendarObject
  deleted : Bool

structure CalDavStore where
  collections : OrderedMap JsString CalendarCollection
  changes : List CalendarChange
  revision : Nat

inductive AuditDetails where
  | collectionCreated (displayName timezone : JsString)
  | aclUpdated (delegateUserId : JsString) (permissions : List Permission)
  | aclRevoked
  | objectCreated (objectId uid etag : JsString) (sizeBytes : Nat)
  | objectUpdated (objectId uid etag : JsString) (sizeBytes : Nat)
  | objectDeleted (objectId uid previousEtag : JsString)

structure CalDavAuditEvent where
  tenantId : JsString
  actorId : JsString
  calendarId : JsString
  ownerUserId : JsString
  details : AuditDetails

structure CalDavConfig where
  host : Host
  canonicalTenant : JsString
  tenant : tenantIdPattern canonicalTenant

def createCalDavStore (host : Host) (tenantId : JsValue) : Except CalDavError (CalDavConfig × CalDavStore) :=
  match tenantId with
  | .string tenant =>
    if h : tenantIdPattern tenant then .ok (⟨host, tenant, h⟩, ⟨Table.empty, [], 0⟩)
    else fail (js "tenantId is invalid") .invalidTenant 422
  | _ => fail (js "tenantId is invalid") .invalidTenant 422

/-- What the callbacks do during one call: each reading of the clock, and
whether `audit` returns. -/
structure Callbacks where
  clock : Nat → Option JsValue
  audit : CalDavAuditEvent → Bool

abbrev CalDavOp := Eff (Thrown CalDavError) CalDavStore

namespace CalendarCollection

def key (c : CalendarCollection) : JsString := canonicalCalendarKey c.ownerUserId c.collectionId

def scope (c : CalendarCollection) (tenantId : JsString) : TokenScope :=
  ⟨tenantId, c.ownerUserId, c.collectionId⟩

end CalendarCollection

section
variable (cfg : CalDavConfig) (cb : Callbacks)

/-- The `n`-th reading of the clock in this call. -/
def now (n : Nat) : CalDavOp JsString :=
  match cb.clock n with
  | some value => check do
    let time ← assertDate cfg.host value "clock result"
    return isoString time
  | none => Eff.lift (.error .foreign)

def emitAudit (actor : CalDavActor) (collection : CalendarCollection) (details : AuditDetails) :
    CalDavOp Unit :=
  if cb.audit ⟨cfg.canonicalTenant, actor.userId, collection.key, collection.ownerUserId, details⟩
  then return ()
  else Eff.lift (.error .foreign)

end

def publicCollection (c : CalendarCollection) (actor : CalDavActor) : CalendarCollectionView where
  calendarId := c.key
  collectionId := c.collectionId
  href := c.href
  tenantId := c.tenantId
  ownerUserId := c.ownerUserId
  displayName := c.displayName
  description := c.description
  timezone := c.timezone
  color := c.color
  permissions :=
    if actor.userId = c.ownerUserId then [.read, .write] else c.acl.elim [] (·.permissions)
  acl := visibleAcl c.ownerUserId c.acl actor.userId
  syncToken := c.syncToken
  createdAt := c.createdAt
  updatedAt := c.updatedAt

def publicObject (c : CalendarCollection) (object : CalendarObject) : CalendarObjectView where
  href := c.href ++ encodeURIComponent object.objectId
  calendarId := c.key
  objectId := object.objectId
  tenantId := object.tenantId
  ownerUserId := object.ownerUserId
  uid := object.metadata.uid
  etag := object.etag
  metadata := object.metadata
  createdAt := object.createdAt
  updatedAt := object.updatedAt
  ical := object.ical

def permissionFor (c : CalendarCollection) (actor : CalDavActor) : List Permission :=
  permissionsFor c.ownerUserId c.acl actor.userId

def assertPermission (c : CalendarCollection) (actor : CalDavActor) (permission : Permission) :
    Except CalDavError Unit :=
  throwIf (!(permissionFor c actor).contains permission)
    (calDavError (js "actor is not allowed to " ++ permission.text ++ js " this calendar") .aclDenied 403)

/-- A `null` cannot be destructured. -/
def destructure (options : JsValue) : CalDavOp Unit :=
  match options with
  | .null => Eff.lift (.error .foreign)
  | _ => return ()

section
variable (cfg : CalDavConfig)

def findCollection (s : CalDavStore) (actor : CalDavActor) (id : CalendarId) :
    Except CalDavError (Option CalendarCollection) :=
  match id.ownerUserId with
  | some ownerUserId => return s.collections.get (canonicalCalendarKey ownerUserId id.collectionId)
  | none => do
    let found := s.collections.values.filter fun c =>
      c.collectionId == id.collectionId && (permissionFor c actor).contains .read
    failIf (decide (1 < found.length)) "calendarId is ambiguous; use ownerUserId/calendarId"
      .ambiguousCalendarId 409
    return found.head?

def resolveIn (s : CalDavStore) (actor requestedCalendarId : JsValue) :
    Except CalDavError (CalDavActor × CalendarCollection) := do
  let normalizedActor ← normalizeActor actor cfg.canonicalTenant
  let id ← splitCalendarId requestedCalendarId
  match ← findCollection s normalizedActor id with
  | none => fail (js "calendar collection was not found") .calendarNotFound 404
  | some collection => do
    failIf (collection.tenantId != cfg.canonicalTenant) "cross-tenant calendar access is denied"
      .crossTenantDenied 403
    assertPermission collection normalizedActor .read
    return (normalizedActor, collection)

def resolveCollection (actor requestedCalendarId : JsValue) :
    CalDavOp (CalDavActor × CalendarCollection) := do
  let s ← Eff.get
  check (resolveIn cfg s actor requestedCalendarId)

end

/-- An assignment to fields of a stored collection. -/
def assignCollection (key : JsString) (f : CalendarCollection → CalendarCollection) : CalDavOp Unit :=
  Eff.modify fun s => { s with collections := s.collections.adjust key f }

/-- `collection.objects.set`. -/
def setObject (collection : CalendarCollection) (id : JsString) (object : CalendarObject) : CalDavOp Unit :=
  assignCollection collection.key fun c => { c with objects := c.objects.set id object }

/-- `collection.objects.delete`. -/
def deleteObject (collection : CalendarCollection) (id : JsString) : CalDavOp Unit :=
  assignCollection collection.key fun c => { c with objects := c.objects.delete id }

/-- The fields of a collection object as they are now. -/
def reread (c : CalendarCollection) : CalDavOp CalendarCollection := do
  let s ← Eff.get
  return (s.collections.get c.key).getD c

section
variable (cfg : CalDavConfig) (cb : Callbacks)

/-- The change itself cannot fail; the clock is read after it. -/
def recordChange (collection : CalendarCollection) (objectId : JsString)
    (object : Option CalendarObject) (deleted : Bool) (reading : Nat) : CalDavOp Unit := do
  Eff.modify fun s => { s with
    revision := s.revision + 1
    changes := s.changes ++ [⟨s.revision + 1, collection.key, objectId, object, deleted⟩]
    collections := s.collections.adjust collection.key fun c =>
      { c with syncToken := makeToken (c.scope cfg.canonicalTenant) (s.revision + 1) } }
  let updatedAt ← now cfg cb reading
  assignCollection collection.key fun c => { c with updatedAt }

def newCollection (owner slug : JsString) (fields : CollectionFields) (timestamp : JsString)
    (revision : Nat) : CalendarCollection where
  tenantId := cfg.canonicalTenant
  ownerUserId := owner
  collectionId := slug
  displayName := fields.displayName
  description := fields.description
  timezone := fields.timezone
  color := fields.color
  href := calendarHref cfg.canonicalTenant owner slug
  createdAt := timestamp
  updatedAt := timestamp
  syncToken := makeToken ⟨cfg.canonicalTenant, owner, slug⟩ revision
  acl := none
  objects := Table.empty

/-- The default of `ownerUserId`, evaluated with the other defaults. -/
def defaultOwner (actor ownerUserId : JsValue) : CalDavOp JsValue :=
  if ownerUserId.isUndefined then do
    let normalizedActor ← check (normalizeActor actor cfg.canonicalTenant)
    return .string normalizedActor.userId
  else return ownerUserId

def createCalendarCollection (actor options : JsValue) : CalDavOp CalendarCollectionView := do
  destructure options
  let collectionId := (options.get "collectionId").orDefault (.string (js "default"))
  let ownerUserId ← defaultOwner cfg actor (options.get "ownerUserId")
  let displayName := (options.get "displayName").orDefault collectionId
  let description := (options.get "description").orDefault (.string [])
  let timezone := (options.get "timezone").orDefault (.string (js "UTC"))
  let color := (options.get "color").orDefault .null
  let normalizedActor ← check (normalizeActor actor cfg.canonicalTenant)
  let owner ← check (canonicalUserId ownerUserId "ownerUserId")
  check (failIf (owner != normalizedActor.userId) "an actor can create only its own calendar collection"
    .aclDenied 403)
  let slug ← check (canonicalCalendarSlug collectionId "collectionId")
  let key := canonicalCalendarKey owner slug
  let s ← Eff.get
  check (failIf (s.collections.get key).isSome "calendar collection already exists" .calendarExists 409)
  let fields ← check (collectionFields cfg.host displayName description timezone color)
  let timestamp ← now cfg cb 0
  let collection := newCollection cfg owner slug fields timestamp s.revision
  Eff.modify fun s => { s with collections := s.collections.set key collection }
  emitAudit cfg cb normalizedActor collection
    (.collectionCreated collection.displayName collection.timezone)
  return publicCollection collection normalizedActor

def listCalendarCollections (actor : JsValue) : CalDavOp (List CalendarCollectionView) := do
  let normalizedActor ← check (normalizeActor actor cfg.canonicalTenant)
  let s ← Eff.get
  return (s.collections.values.filter fun c => (permissionFor c normalizedActor).contains .read).map
    fun c => publicCollection c normalizedActor

def getCalendarCollection (actor requestedCalendarId : JsValue) : CalDavOp CalendarCollectionView := do
  let (normalizedActor, collection) ← resolveCollection cfg actor requestedCalendarId
  return publicCollection collection normalizedActor

def setCalendarAcl (actor options : JsValue) : CalDavOp CalendarCollectionView := do
  destructure options
  let permissions := (options.get "permissions").orDefault (.array [.string (js "read")])
  let (normalizedActor, collection) ← resolveCollection cfg actor (options.get "calendarId")
  check (failIf (normalizedActor.userId != collection.ownerUserId)
    "only the calendar owner may change its ACL" .aclOwnerRequired 403)
  let delegate ← check (canonicalUserId (options.get "delegateUserId") "delegateUserId")
  check (failIf (delegate == collection.ownerUserId) "a calendar cannot delegate to itself"
    .invalidAcl 422)
  let unique ← check (normalizePermissions permissions)
  assignCollection collection.key fun c => { c with acl := some ⟨delegate, unique⟩ }
  let updatedAt ← now cfg cb 0
  assignCollection collection.key fun c => { c with updatedAt }
  emitAudit cfg cb normalizedActor collection (.aclUpdated delegate unique)
  return publicCollection (← reread collection) normalizedActor

def revokeCalendarAcl (actor options : JsValue) : CalDavOp CalendarCollectionView := do
  destructure options
  let (normalizedActor, collection) ← resolveCollection cfg actor (options.get "calendarId")
  check (failIf (normalizedActor.userId != collection.ownerUserId)
    "only the calendar owner may change its ACL" .aclOwnerRequired 403)
  assignCollection collection.key fun c => { c with acl := none }
  let updatedAt ← now cfg cb 0
  assignCollection collection.key fun c => { c with updatedAt }
  emitAudit cfg cb normalizedActor collection .aclRevoked
  return publicCollection (← reread collection) normalizedActor

def getCalendarEtag (actor requestedCalendarId : JsValue) : CalDavOp EtagResult := do
  let (normalizedActor, collection) ← resolveCollection cfg actor requestedCalendarId
  return ⟨collection.key,
    collectionEtag cfg.host collection.displayName collection.description collection.updatedAt,
    normalizedActor.userId⟩

/-- `resolveCollection`, then the write permission and the object id: how every
write to an object starts. -/
def resolveForWrite (actor options : JsValue) :
    CalDavOp (CalDavActor × CalendarCollection × JsString) := do
  let (normalizedActor, collection) ← resolveCollection cfg actor (options.get "calendarId")
  check (assertPermission collection normalizedActor .write)
  let id ← check (canonicalCalendarSlug (options.get "objectId") "objectId")
  return (normalizedActor, collection, id)

def createCalendarObject (actor options : JsValue) : CalDavOp CalendarObjectView := do
  destructure options
  let (normalizedActor, collection, id) ← resolveForWrite cfg actor options
  let ifNoneMatch := options.get "ifNoneMatch"
  check (assertCreatable (collection.objects.get id).isSome ifNoneMatch)
  let metadata ← check (validateICalendar cfg.host (options.get "ical"))
  let timestamp ← now cfg cb 0
  let object : CalendarObject := {
    tenantId := cfg.canonicalTenant
    ownerUserId := collection.ownerUserId
    objectId := id
    uid := metadata.uid
    ical := metadata.canonicalText
    metadata
    etag := calculateEtag cfg.host cfg.canonicalTenant collection.key id metadata.canonicalText
    createdAt := timestamp
    updatedAt := timestamp }
  setObject collection id object
  recordChange cfg cb collection id (some object) false 1
  emitAudit cfg cb normalizedActor collection
    (.objectCreated id metadata.uid object.etag (byteLength object.ical))
  return publicObject collection object

def getCalendarObject (actor options : JsValue) : CalDavOp CalendarObjectView := do
  destructure options
  let (_, collection) ← resolveCollection cfg actor (options.get "calendarId")
  let id ← check (canonicalCalendarSlug (options.get "objectId") "objectId")
  match collection.objects.get id with
  | none => check (fail (js "calendar object was not found") .objectNotFound 404)
  | some object => return publicObject collection object

def updateCalendarObject (actor options : JsValue) : CalDavOp CalendarObjectView := do
  destructure options
  let (normalizedActor, collection, id) ← resolveForWrite cfg actor options
  match collection.objects.get id with
  | none => check (fail (js "calendar object was not found") .objectNotFound 404)
  | some existing => do
    check (assertIfMatch (options.get "ifMatch") existing.etag "update")
    let metadata ← check (validateICalendar cfg.host (options.get "ical"))
    check (failIf (metadata.uid != existing.metadata.uid) "UID cannot change during an update"
      .uidImmutable 409)
    let timestamp ← now cfg cb 0
    let updated : CalendarObject := { existing with
      ical := metadata.canonicalText
      metadata
      etag := calculateEtag cfg.host cfg.canonicalTenant collection.key id metadata.canonicalText
      updatedAt := timestamp }
    setObject collection id updated
    recordChange cfg cb collection id (some updated) false 1
    emitAudit cfg cb normalizedActor collection
      (.objectUpdated id metadata.uid updated.etag (byteLength updated.ical))
    return publicObject collection updated

def deleteCalendarObject (actor options : JsValue) : CalDavOp DeletionResult := do
  destructure options
  let (normalizedActor, collection, id) ← resolveForWrite cfg actor options
  match collection.objects.get id with
  | none => check (fail (js "calendar object was not found") .objectNotFound 404)
  | some existing => do
    check (assertIfMatch (options.get "ifMatch") existing.etag "delete")
    deleteObject collection id
    recordChange cfg cb collection id none true 0
    emitAudit cfg cb normalizedActor collection (.objectDeleted id existing.metadata.uid existing.etag)
    return ⟨collection.key, some id, some existing.etag, some (← reread collection).syncToken⟩

/-- The `changed` map of `listCalendarObjects`. -/
def changedObjects (s : CalDavStore) (collection : CalendarCollection) (syncToken : JsValue)
    (since : Nat) : OrderedMap JsString (Option CalendarObject × Bool) :=
  if syncToken.isNullish then
    collection.objects.values.foldl (fun changed object =>
      changed.set object.objectId (some object, false)) Table.empty
  else
    s.changes.foldl (fun changed change =>
      if decide (since < change.revision) && change.calendarKey == collection.key then
        changed.set change.objectId (change.object, change.deleted)
      else changed) Table.empty

def listCalendarObjects (actor options : JsValue) : CalDavOp ObjectList := do
  destructure options
  let syncToken := options.get "syncToken"
  let (_, collection) ← resolveCollection cfg actor (options.get "calendarId")
  let s ← Eff.get
  let since ← check (decodeToken syncToken (collection.scope cfg.canonicalTenant))
  check (failIf (decide (s.revision < since)) "syncToken is from the future" .invalidSyncToken 400)
  let changed := changedObjects s collection syncToken since
  return {
    calendarId := collection.key
    objects := changed.values.filterMap fun (object, deleted) =>
      if deleted then none else object.map (publicObject collection)
    deletedObjectIds := changed.rows.filterMap fun (objectId, _, deleted) =>
      if deleted then some objectId else none
    syncToken := makeToken (collection.scope cfg.canonicalTenant) s.revision }

def deleteCalendarCollection (actor options : JsValue) : CalDavOp DeletionResult := do
  destructure options
  let (normalizedActor, collection) ← resolveCollection cfg actor (options.get "calendarId")
  let ifMatch := options.get "ifMatch"
  check (failIf (normalizedActor.userId != collection.ownerUserId)
    "only the calendar owner may delete a collection" .aclOwnerRequired 403)
  check (failIf (decide (0 < collection.objects.size)) "calendar collection is not empty"
    .calendarNotEmpty 409)
  check (assertCollectionMatch ifMatch
    (collectionEtag cfg.host collection.displayName collection.description collection.updatedAt))
  Eff.modify fun s => { s with collections := s.collections.delete collection.key }
  return ⟨collection.key, none, none, none⟩

def makeSyncToken (options : JsValue) : CalDavOp JsString := do
  destructure options
  let s ← Eff.get
  let requestedRevision := (options.get "revision").orDefault (.number s.revision)
  check do
    let id ← splitCalendarId (options.get "calendarId")
    match id.ownerUserId with
    | none => fail (js "calendarId must include ownerUserId for a scoped sync token") .invalidCalendarId 422
    | some ownerUserId =>
      match requestedRevision.asInteger? with
      | some (.ofNat revision) => do
        failIf (decide (maxSafeInteger < revision ∨ s.revision < revision))
          "sync token revision is invalid" .invalidSyncToken 400
        return makeToken ⟨cfg.canonicalTenant, ownerUserId, id.collectionId⟩ revision
      | _ => fail (js "sync token revision is invalid") .invalidSyncToken 400

def CalDavCall.run : CalDavCall → CalDavOp CalDavAnswer
  | createCalendarCollection actor options =>
    return .collection (← CalDav.createCalendarCollection cfg cb actor options)
  | listCalendarCollections actor => return .collections (← CalDav.listCalendarCollections cfg actor)
  | getCalendarCollection actor calendarId =>
    return .collection (← CalDav.getCalendarCollection cfg actor calendarId)
  | setCalendarAcl actor options => return .collection (← CalDav.setCalendarAcl cfg cb actor options)
  | revokeCalendarAcl actor options =>
    return .collection (← CalDav.revokeCalendarAcl cfg cb actor options)
  | getCalendarEtag actor calendarId => return .etag (← CalDav.getCalendarEtag cfg actor calendarId)
  | createCalendarObject actor options =>
    return .object (← CalDav.createCalendarObject cfg cb actor options)
  | getCalendarObject actor options => return .object (← CalDav.getCalendarObject cfg actor options)
  | updateCalendarObject actor options =>
    return .object (← CalDav.updateCalendarObject cfg cb actor options)
  | deleteCalendarObject actor options =>
    return .deletion (← CalDav.deleteCalendarObject cfg cb actor options)
  | listCalendarObjects actor options => return .objects (← CalDav.listCalendarObjects cfg actor options)
  | deleteCalendarCollection actor options =>
    return .deletion (← CalDav.deleteCalendarCollection cfg actor options)
  | makeSyncToken options =>
    return .token ((options.get "calendarId").asString?.getD []) (← CalDav.makeSyncToken cfg options)

end

/-- A clock that stands still and an audit log that takes every event. -/
def sampleCallbacks : Callbacks := ⟨fun _ => some (.date (some 1783598400000)), fun _ => true⟩

def sampleConfig : CalDavConfig := ⟨asciiHost, js "acme", by decide⟩

end GuloGulo.CalDav
