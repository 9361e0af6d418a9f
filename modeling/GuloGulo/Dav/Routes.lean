import GuloGulo.CalDav.Contract
import GuloGulo.CalDav.View
import GuloGulo.Js.UriText

/-!
# Hrefs and routes

The hrefs that `runtime/server.ts` gives for collections and objects, the route
it matches a path with, and the calendar id it makes of the match.
-/

namespace GuloGulo.Dav
open Js CalDav

inductive DavKind where
  | caldav | carddav
  deriving DecidableEq

inductive DavLevel where
  | collection | object
  deriving DecidableEq

structure DavRouteMatch where
  kind : DavKind
  level : DavLevel
  tenantId : JsString
  ownerUserId : JsString
  collectionId : JsString
  objectSegment : Option JsString
  deriving DecidableEq

def collectionHref (root tenantId userId collectionId : JsString) : JsString :=
  root ++ encodeURIComponent tenantId ++ js "/" ++ encodeURIComponent userId ++ js "/" ++
    encodeURIComponent collectionId ++ js "/"

def caldavRoot : JsString := js "/dav/calendars/"
def carddavRoot : JsString := js "/dav/contacts/"

def caldavCollectionHref (tenantId ownerUserId collectionId : JsString) : JsString :=
  collectionHref caldavRoot tenantId ownerUserId collectionId

def carddavCollectionHref (tenantId userId addressBookId : JsString) : JsString :=
  collectionHref carddavRoot tenantId userId addressBookId

def davObjectHref (collectionHref objectId : JsString) : JsString := collectionHref ++ encodeURIComponent objectId

/-- The segments of a path below a root. -/
def segments (root path : JsString) : List JsString :=
  if startsWith path root then split (path.drop root.length) 47 else []

/-- `CALDAV_OBJECT_PATTERN.exec` and `CARDDAV_OBJECT_PATTERN.exec`. -/
def objectPattern (root path : JsString) : Option (JsString × JsString × JsString × JsString) :=
  match segments root path with
  | [tenantId, ownerUserId, collectionId, objectSegment] =>
    if tenantId = [] ∨ ownerUserId = [] ∨ collectionId = [] ∨ objectSegment = [] then none
    else some (tenantId, ownerUserId, collectionId, objectSegment)
  | _ => none

/-- `CALDAV_COLLECTION_PATTERN.exec` and `CARDDAV_COLLECTION_PATTERN.exec`. -/
def collectionPattern (root path : JsString) : Option (JsString × JsString × JsString) :=
  match segments root path with
  | [tenantId, ownerUserId, collectionId, last] =>
    if tenantId = [] ∨ ownerUserId = [] ∨ collectionId = [] ∨ last ≠ [] then none
    else some (tenantId, ownerUserId, collectionId)
  | _ => none

/-- `null` for a malformed escape. -/
def decodeSegment (value : JsString) : Option JsString := decodeURIComponent value

def decodeObject (kind : DavKind) (groups : JsString × JsString × JsString × JsString) : Option DavRouteMatch := do
  let tenantId ← decodeSegment groups.1
  let ownerUserId ← decodeSegment groups.2.1
  let collectionId ← decodeSegment groups.2.2.1
  let objectSegment ← decodeSegment groups.2.2.2
  return ⟨kind, .object, tenantId, ownerUserId, collectionId, some objectSegment⟩

def decodeCollection (kind : DavKind) (groups : JsString × JsString × JsString) : Option DavRouteMatch := do
  let tenantId ← decodeSegment groups.1
  let ownerUserId ← decodeSegment groups.2.1
  let collectionId ← decodeSegment groups.2.2
  return ⟨kind, .collection, tenantId, ownerUserId, collectionId, none⟩

/-- The first pattern that matches decides. -/
def matchDavRoute (path : JsString) : Option DavRouteMatch :=
  match objectPattern caldavRoot path with
  | some groups => decodeObject .caldav groups
  | none =>
    match collectionPattern caldavRoot path with
    | some groups => decodeCollection .caldav groups
    | none =>
      match objectPattern carddavRoot path with
      | some groups => decodeObject .carddav groups
      | none =>
        match collectionPattern carddavRoot path with
        | some groups => decodeCollection .carddav groups
        | none => none

/-- The id that the server hands to the calendar store. -/
def DavRouteMatch.calendarId (route : DavRouteMatch) : JsString := route.ownerUserId ++ js "/" ++ route.collectionId

end GuloGulo.Dav
