import GuloGulo.CalDav.ICalendar

/-!
# What the CalDAV stores share

The records both stores answer with, and the checks on arguments that both
make, with the same texts and codes.
-/

namespace GuloGulo.CalDav
open Js Data

inductive Permission where
  | read | write
  deriving DecidableEq, Repr

def Permission.text : Permission → JsString
  | read => js "read"
  | write => js "write"

/-- `ACL_PERMISSIONS`. -/
def Permission.parse (value : JsValue) : Option Permission :=
  [Permission.read, .write].find? fun p => value.isString p.text

/-- `new Set(permissions)`, with `read` in front of a lone `write`. -/
def uniquePermissions (permissions : List Permission) : List Permission :=
  let unique := permissions.foldl (fun set p => if set.contains p then set else set ++ [p]) []
  if unique.contains .write && !unique.contains .read then .read :: unique else unique

def normalizePermissions (permissions : JsValue) : Except CalDavError (List Permission) :=
  let error := calDavError (js "permissions must contain read and/or write") .invalidAcl 422
  match permissions with
  | .array [] => .error error
  | .array items =>
    match items.mapM Permission.parse with
    | some permissions => .ok (uniquePermissions permissions)
    | none => .error error
  | _ => .error error

structure CalendarAcl where
  delegateUserId : JsString
  permissions : List Permission
  deriving DecidableEq

/-- What an actor may do with a calendar of the given owner and ACL. -/
def permissionsFor (ownerUserId : JsString) (acl : Option CalendarAcl) (userId : JsString) :
    List Permission :=
  if userId = ownerUserId then [.read, .write]
  else match acl with
    | some acl => if acl.delegateUserId = userId then acl.permissions else []
    | none => []

/-- The ACL as the owner and the delegate see it: each sees the other. -/
def visibleAcl (ownerUserId : JsString) (acl : Option CalendarAcl) (userId : JsString) :
    List CalendarAcl :=
  match acl with
  | none => []
  | some acl =>
    if userId = ownerUserId then [acl]
    else if acl.delegateUserId = userId then [⟨ownerUserId, acl.permissions⟩]
    else []

structure CalendarCollectionView where
  calendarId : JsString
  collectionId : JsString
  href : JsString
  tenantId : JsString
  ownerUserId : JsString
  displayName : JsString
  description : JsString
  timezone : JsString
  color : Option JsString
  permissions : List Permission
  acl : List CalendarAcl
  syncToken : JsString
  createdAt : JsString
  updatedAt : JsString

structure CalendarObjectView where
  href : JsString
  calendarId : JsString
  objectId : JsString
  tenantId : JsString
  ownerUserId : JsString
  uid : JsString
  etag : JsString
  metadata : ValidatedICalendar
  createdAt : JsString
  updatedAt : JsString
  ical : JsString

structure ObjectList where
  calendarId : JsString
  objects : List CalendarObjectView
  deletedObjectIds : List JsString
  syncToken : JsString

/-- The answer to a delete; the last three fields are there for an object. -/
structure DeletionResult where
  calendarId : JsString
  objectId : Option JsString
  previousEtag : Option JsString
  syncToken : Option JsString

structure EtagResult where
  calendarId : JsString
  etag : JsString
  actor : JsString

def calendarHref (tenantId ownerUserId collectionId : JsString) : JsString :=
  js "/dav/calendars/" ++ encodeURIComponent tenantId ++ js "/" ++ encodeURIComponent ownerUserId ++
    js "/" ++ encodeURIComponent collectionId ++ js "/"

inductive CalDavCall where
  | createCalendarCollection (actor options : JsValue)
  | listCalendarCollections (actor : JsValue)
  | getCalendarCollection (actor calendarId : JsValue)
  | setCalendarAcl (actor options : JsValue)
  | revokeCalendarAcl (actor options : JsValue)
  | getCalendarEtag (actor calendarId : JsValue)
  | createCalendarObject (actor options : JsValue)
  | getCalendarObject (actor options : JsValue)
  | updateCalendarObject (actor options : JsValue)
  | deleteCalendarObject (actor options : JsValue)
  | listCalendarObjects (actor options : JsValue)
  | deleteCalendarCollection (actor options : JsValue)
  | makeSyncToken (options : JsValue)

inductive CalDavAnswer where
  | collection (view : CalendarCollectionView)
  | collections (views : List CalendarCollectionView)
  | etag (result : EtagResult)
  | object (view : CalendarObjectView)
  | objects (list : ObjectList)
  | deletion (result : DeletionResult)
  | token (calendarId syncToken : JsString)

/-- The sync tokens in an answer, each with the calendar it was returned for. -/
def CalDavAnswer.tokens : CalDavAnswer → List (JsString × JsString)
  | collection view => [(view.calendarId, view.syncToken)]
  | collections views => views.map fun view => (view.calendarId, view.syncToken)
  | objects list => [(list.calendarId, list.syncToken)]
  | deletion result => result.syncToken.toList.map fun token => (result.calendarId, token)
  | token calendarId syncToken => [(calendarId, syncToken)]
  | etag _ | object _ => []

/-- Options as a request carries them. -/
def sampleOptions (fields : List (String × JsString)) : JsValue :=
  .object (fields.map fun f => (js f.1, .string f.2))

def createWork : CalDavCall :=
  .createCalendarCollection (sampleActor "ada") (sampleOptions [("collectionId", js "work")])

def createInWork (objectId : String) (ical : JsString) : CalDavCall :=
  .createCalendarObject (sampleActor "ada")
    (sampleOptions [("calendarId", js "work"), ("objectId", js objectId), ("ical", ical)])

def deleteFromWork (objectId : String) : CalDavCall :=
  .deleteCalendarObject (sampleActor "ada")
    (sampleOptions [("calendarId", js "work"), ("objectId", js objectId), ("ifMatch", js "*")])

def workScope : TokenScope := ⟨js "acme", js "ada", js "work"⟩

def workSince (revision : Nat) : JsValue :=
  sampleOptions [("calendarId", js "work"), ("syncToken", makeToken workScope revision)]

/-- What a client keeps of an object: its text and its entity tag. -/
def CalendarObjectView.entry (view : CalendarObjectView) : JsString × JsString × JsString :=
  (view.objectId, view.ical, view.etag)

structure CollectionFields where
  displayName : JsString
  description : JsString
  timezone : JsString
  color : Option JsString

/-- The properties of a new collection. -/
def collectionFields (host : Host) (displayName description timezone color : JsValue) :
    Except CalDavError CollectionFields := do
  let invalid (message : String) : CalDavError := calDavError (js message) .invalidCollection 422
  match displayName with
  | .string name => do
    throwIf ((trim name).isEmpty || decide (255 < name.length)) (invalid "displayName is invalid")
    match description with
    | .string description => do
      throwIf (decide (2000 < description.length)) (invalid "description is invalid")
      let timezone ← requiredPattern timezone tzidPattern "timezone" .invalidTimezone
      match color with
      | .null => return ⟨trim name, description, timezone, none⟩
      | .string color => do
        throwIf (!colorPattern color) (invalid "color is invalid")
        return ⟨trim name, description, timezone, some (host.toUpperCase color)⟩
      | _ => .error (invalid "color is invalid")
    | _ => .error (invalid "description is invalid")
  | _ => .error (invalid "displayName is invalid")

/-- The checks before a create: the object must not be there, and a
precondition must be `*`. -/
def assertCreatable (present : Bool) (ifNoneMatch : JsValue) : Except CalDavError Unit := do
  let any := ifNoneMatch.isString (js "*")
  failIf (present && any) "calendar object already exists" .preconditionFailed 412
  failIf present "calendar object already exists" .objectExists 409
  failIf (!(ifNoneMatch.isUndefined || any)) "If-None-Match must be * for a conditional create"
    .invalidPrecondition 400

def assertIfMatch (ifMatch : JsValue) (etag : JsString) (operation : String) : Except CalDavError Unit := do
  throwIf ifMatch.isUndefined
    (calDavError (js "If-Match is required for " ++ js operation) .preconditionRequired 428)
  failIf (!(ifMatch.isString (js "*") || ifMatch.isString etag)) "If-Match does not match the current ETag"
    .preconditionFailed 412

def assertCollectionMatch (ifMatch : JsValue) (etag : JsString) : Except CalDavError Unit :=
  failIf (!(ifMatch.isUndefined || ifMatch.isString (js "*") || ifMatch.isString etag))
    "If-Match does not match the collection ETag" .preconditionFailed 412

end GuloGulo.CalDav
