import GuloGulo.CardDav.VCard
import GuloGulo.Js.Date

/-!
# The in-memory CardDAV store

`CardDavStore` of `carddav-store.ts`. The clock belongs to the call, since it
may answer differently every time, or throw.
-/

namespace GuloGulo.CardDav
open Js Data
open Eff (check)

structure CardDavContact where
  href : JsString
  uid : JsString
  fullName : JsString
  vCard : JsString
  etag : JsString
  mediaType : JsString
  sizeBytes : Nat
  createdAt : JsString
  updatedAt : JsString
  propertyNames : List JsString
  emailCount : Nat
  telCount : Nat
  revision : Nat
  tenantId : JsString
  userId : JsString
  addressBookId : JsString

inductive Operation where
  | created | updated | deleted
  deriving DecidableEq, Repr

structure CardDavChange where
  version : Nat
  operation : Operation
  href : JsString
  uid : JsString
  etag : Option JsString

structure AddressBookState where
  tenantId : JsString
  userId : JsString
  addressBookId : JsString
  href : JsString
  displayName : JsString
  description : JsString
  color : Option JsString
  supportedAddressData : List JsString
  createdAt : JsString
  updatedAt : JsString
  revision : Nat
  contacts : OrderedMap JsString CardDavContact
  changes : List CardDavChange

structure CardDavStore where
  addressBooks : OrderedMap JsString AddressBookState

def CardDavStore.empty : CardDavStore := ⟨Table.empty⟩

/-- The readings of the clock in one call; `none` is one that throws. -/
abbrev Clock := Nat → Option JsValue

abbrev CardDavOp := Eff (Thrown CardDavError) CardDavStore

structure ContactMetadata where
  href : JsString
  uid : JsString
  fullName : JsString
  etag : JsString
  mediaType : JsString
  sizeBytes : Nat
  createdAt : JsString
  updatedAt : JsString
  propertyNames : List JsString
  emailCount : Nat
  telCount : Nat

structure PublicContact extends ContactMetadata where
  vCard : JsString

structure PublicAddressBook where
  schemaVersion : Nat
  addressBookId : JsString
  href : JsString
  displayName : JsString
  description : JsString
  color : Option JsString
  etag : JsString
  ctag : JsString
  syncToken : JsString
  supportedAddressData : List JsString
  createdAt : JsString
  updatedAt : JsString

inductive Status where
  | present | deleted
  deriving DecidableEq, Repr

structure PublicChange where
  version : Nat
  operation : Operation
  href : JsString
  uid : JsString
  etag : Option JsString
  status : Status

/-- `previousSyncToken` is there if a token was supplied. -/
structure SyncResult where
  schemaVersion : Nat
  addressBookId : JsString
  previousSyncToken : Option JsString
  syncToken : JsString
  ctag : JsString
  changes : List PublicChange

def schemaVersion : Nat := 1

def contactMetadata (contact : CardDavContact) : ContactMetadata where
  href := contact.href
  uid := contact.uid
  fullName := contact.fullName
  etag := contact.etag
  mediaType := contact.mediaType
  sizeBytes := contact.sizeBytes
  createdAt := contact.createdAt
  updatedAt := contact.updatedAt
  propertyNames := contact.propertyNames
  emailCount := contact.emailCount
  telCount := contact.telCount

def publicContact (contact : CardDavContact) : PublicContact :=
  { contactMetadata contact with vCard := contact.vCard }

def publicChange (change : CardDavChange) : PublicChange where
  version := change.version
  operation := change.operation
  href := change.href
  uid := change.uid
  etag := change.etag
  status := if change.operation = .deleted then .deleted else .present

section
variable (host : Host)

def makeCollectionEtag (state : AddressBookState) : JsString :=
  let value := state.addressBookId ++ [0] ++ state.displayName ++ [0] ++ state.description ++ [0] ++
    state.color.getD (js "null") ++ [0] ++ decimal state.revision
  js "\"" ++ base64Url (host.sha256 (utf8 value)) ++ js "\""

def publicAddressBook (state : AddressBookState) (scope : CardDavScope) : PublicAddressBook where
  schemaVersion := schemaVersion
  addressBookId := state.addressBookId
  href := state.href
  displayName := state.displayName
  description := state.description
  color := state.color
  etag := makeCollectionEtag host state
  ctag := makeSyncToken host scope state.addressBookId state.revision
  syncToken := makeSyncToken host scope state.addressBookId state.revision
  supportedAddressData := state.supportedAddressData
  createdAt := state.createdAt
  updatedAt := state.updatedAt

/-- `sort` by `localeCompare` of one text each. -/
def sortBy {α : Type} (text : α → JsString) (xs : List α) : List α :=
  xs.insertionSort fun a b => host.localeLe (text a) (text b)

end

/-- `new Date(readClock(this.clock)).toISOString()`, at the `n`-th reading. -/
def reading (clock : Clock) (n : Nat) : Except (Thrown CardDavError) JsString :=
  match clock n with
  | none => .error .foreign
  | some value => do
    let timestamp ← (readClock value).mapError .contract
    match timeClip timestamp with
    | some time => .ok (isoString time)
    | none => .error .foreign

/-- A `null` cannot be destructured. -/
def destructure (options : JsValue) : CardDavOp Unit :=
  match options with
  | .null => Eff.lift (.error .foreign)
  | _ => return ()

/-- An address book with the scope it was asked for in. -/
structure FoundBook where
  scope : CardDavScope
  addressBookId : JsString
  state : AddressBookState

namespace FoundBook

def key (b : FoundBook) : JsString := keyFor b.scope b.addressBookId

end FoundBook

/-- `#getState`. -/
def getState (s : CardDavStore) (scopeInput addressBookIdInput : JsValue) : Except CardDavError FoundBook := do
  let scope ← normalizeScope scopeInput
  let addressBookId ← normalizeAddressBookId addressBookIdInput
  match s.addressBooks.get (keyFor scope addressBookId) with
  | none => fail "address book was not found in this tenant/user scope" .addressBookNotFound 404
  | some state => return ⟨scope, addressBookId, state⟩

/-- An assignment to fields of a stored address book. -/
def assignBook (key : JsString) (f : AddressBookState → AddressBookState) : CardDavOp Unit :=
  Eff.modify fun s => { s with addressBooks := s.addressBooks.adjust key f }

section
variable (host : Host) (clock : Clock)

/-- `#touch`. The clock is read between the two assignments. -/
def touch (book : FoundBook) (n : Nat) : CardDavOp JsString := do
  assignBook book.key fun state => { state with revision := state.revision + 1 }
  let updatedAt ← Eff.lift (reading clock n)
  assignBook book.key fun state => { state with updatedAt }
  return makeSyncToken host book.scope book.addressBookId (book.state.revision + 1)

/-- `#findUid`. -/
def findUid (state : AddressBookState) (uid : JsString) : Option CardDavContact :=
  state.contacts.values.find? fun contact => contact.uid == uid

/-- `#buildContact`. -/
def buildContact (book : FoundBook) (href : JsString) (parsed : ParsedVCard) (now : JsString) :
    CardDavContact where
  href := href
  uid := parsed.uid
  fullName := parsed.fullName
  vCard := parsed.canonical
  etag := makeEtag host parsed.canonical
  mediaType := parsed.mediaType
  sizeBytes := byteLength parsed.canonical
  createdAt := now
  updatedAt := now
  propertyNames := parsed.propertyNames
  emailCount := parsed.emailCount
  telCount := parsed.telCount
  revision := book.state.revision + 1
  tenantId := book.scope.tenantId
  userId := book.scope.userId
  addressBookId := book.addressBookId

/-- `#record`. -/
def recordChange (book : FoundBook) (contact : CardDavContact) (operation : Operation) (etag : Option JsString)
    (n : Nat) : CardDavOp JsString := do
  let syncToken ← touch host clock book n
  assignBook book.key fun state =>
    { state with changes := state.changes ++ [⟨state.revision, operation, contact.href, contact.uid, etag⟩] }
  return syncToken

structure NewBook where
  scope : CardDavScope
  addressBookId : JsString
  displayName : JsString
  description : JsString
  color : Option JsString

/-- What `createAddressBook` checks before it reads the clock. -/
def checkNewBook (s : CardDavStore) (options : JsValue) : Except CardDavError NewBook := do
  let scope ← normalizeScope (options.get "scope")
  let addressBookId ← normalizeAddressBookId (options.get "addressBookId")
  failIf (s.addressBooks.get (keyFor scope addressBookId)).isSome "address book already exists"
    .addressBookExists 409
  let displayName ← assertString (options.get "displayName") .displayName 256 false anyText
  let description ← normalizeOptionalText (options.get "description") .description 2048
  let color ← normalizeColor (options.get "color")
  return ⟨scope, addressBookId, displayName, description, color⟩

def newState (book : NewBook) (now : JsString) : AddressBookState where
  tenantId := book.scope.tenantId
  userId := book.scope.userId
  addressBookId := book.addressBookId
  href := js "/addressbooks/" ++ book.addressBookId ++ js "/"
  displayName := book.displayName
  description := book.description
  color := book.color
  supportedAddressData := [js "text/vcard; version=3.0", js "text/vcard; version=4.0"]
  createdAt := now
  updatedAt := now
  revision := 0
  contacts := Table.empty
  changes := []

def createAddressBook (options : JsValue) : CardDavOp PublicAddressBook := do
  destructure options
  let s ← Eff.get
  let book ← check (checkNewBook s options)
  let now ← Eff.lift (reading clock 0)
  let state := newState book now
  Eff.modify fun s => { s with addressBooks := s.addressBooks.set (keyFor book.scope book.addressBookId) state }
  return publicAddressBook host state book.scope

/-- `#getState` of the options of an operation. -/
def openBook (options : JsValue) : CardDavOp FoundBook := do
  destructure options
  let s ← Eff.get
  check (getState s (options.get "scope") (options.get "addressBookId"))

def getAddressBook (options : JsValue) : CardDavOp PublicAddressBook := do
  let book ← openBook options
  return publicAddressBook host book.state book.scope

def listAddressBooks (options : JsValue) : CardDavOp (List PublicAddressBook) := do
  destructure options
  let scope ← check (normalizeScope (options.get "scope"))
  let s ← Eff.get
  let found := s.addressBooks.values.filter fun state =>
    state.tenantId == scope.tenantId && state.userId == scope.userId
  return sortBy host (·.addressBookId) (found.map fun state => publicAddressBook host state scope)

structure AddressBookDeletion where
  addressBookId : JsString
  status : Status

def deleteAddressBook (options : JsValue) : CardDavOp AddressBookDeletion := do
  let book ← openBook options
  check (assertIfMatch (options.get "ifMatch") (makeCollectionEtag host book.state) "address book")
  Eff.modify fun s => { s with addressBooks := s.addressBooks.delete book.key }
  return ⟨book.addressBookId, .deleted⟩

/-- The text of a vCard, or of its `vcard` or `vcardText` in its place. -/
def readVCardInput (options : JsValue) : Except CardDavError JsValue := do
  let value := ((options.get "vCard").orElse (options.get "vcard")).orElse (options.get "vcardText")
  failIf value.isUndefined "vCard content is required" .vcardRequired 400
  return value

/-- The name of a contact, made from its UID where none is given. -/
def hrefOf (options : JsValue) (parsed : ParsedVCard) : Except CardDavError JsString :=
  normalizeHref ((options.get "href").orDefault (.string (parsed.uid ++ js ".vcf")))

structure NewContact where
  book : FoundBook
  href : JsString
  parsed : ParsedVCard

/-- What `createContact` and `putContact` check first. -/
def checkContact (s : CardDavStore) (options : JsValue) : Except CardDavError NewContact := do
  let book ← getState s (options.get "scope") (options.get "addressBookId")
  let input ← readVCardInput options
  let parsed ← validateVCardText host input
  let href ← hrefOf options parsed
  return ⟨book, href, parsed⟩

/-- What `createContact` checks before it reads the clock. -/
def checkCreate (s : CardDavStore) (options : JsValue) : Except CardDavError NewContact := do
  let new ← checkContact host s options
  failIf (!(options.get "ifNoneMatch").isString (js "*")) "If-None-Match: * is required to create a contact"
    .preconditionRequired 428
  failIf (new.book.state.contacts.get new.href).isSome
    "contact already exists; create requires If-None-Match: *" .contactExists 412
  failIf (findUid new.book.state new.parsed.uid).isSome "vCard UID already exists in this address book"
    .vcardUidExists 409
  return new

/-- Stores a contact and records it; the clock is read for the `n`-th time in between. -/
def storeContact (book : FoundBook) (contact : CardDavContact) (operation : Operation) (n : Nat) :
    CardDavOp PublicContact := do
  assignBook book.key fun state => { state with contacts := state.contacts.set contact.href contact }
  let _ ← recordChange host clock book contact operation (some contact.etag) n
  return publicContact contact

def createContact (options : JsValue) : CardDavOp PublicContact := do
  destructure options
  let s ← Eff.get
  let new ← check (checkCreate host s options)
  let now ← Eff.lift (reading clock 0)
  storeContact host clock new.book (buildContact host new.book new.href new.parsed now) .created 1

def findContact (book : FoundBook) (href : JsString) : Except CardDavError CardDavContact :=
  match book.state.contacts.get href with
  | none => fail "contact was not found in this tenant/user scope" .contactNotFound 404
  | some contact => .ok contact

/-- The contact that the options name. -/
def openContact (options : JsValue) : CardDavOp (FoundBook × JsString × CardDavContact) := do
  let book ← openBook options
  let href ← check (normalizeHref (options.get "href"))
  let contact ← check (findContact book href)
  return (book, href, contact)

def getContact (options : JsValue) : CardDavOp PublicContact := do
  let (_, _, contact) ← openContact options
  return publicContact contact

def getContactMetadata (options : JsValue) : CardDavOp ContactMetadata := do
  let (_, _, contact) ← openContact options
  return contactMetadata contact

def listMetadata (state : AddressBookState) : List ContactMetadata :=
  (sortBy host (·.href) state.contacts.values).map contactMetadata

def listContacts (options : JsValue) : CardDavOp (List ContactMetadata) := do
  let book ← openBook options
  return listMetadata host book.state

/-- The three ways on for `putContact`. -/
inductive Put where
  | create (options : JsValue)
  | unchanged (existing : CardDavContact)
  | replace (new : NewContact) (existing : CardDavContact)

/-- The options with which `putContact` calls `createContact`. -/
def createOptions (new : NewContact) : JsValue :=
  .object [
    (js "scope", .object [
      (js "tenantId", .string new.book.scope.tenantId),
      (js "userId", .string new.book.scope.userId)]),
    (js "addressBookId", .string new.book.addressBookId),
    (js "href", .string new.href),
    (js "ifNoneMatch", .string (js "*")),
    (js "vCard", .string new.parsed.canonical)]

/-- What `putContact` checks of a contact that is there. -/
def checkReplace (new : NewContact) (existing : CardDavContact) (options : JsValue) : Except CardDavError Put := do
  failIf (!(options.get "ifNoneMatch").isUndefined) "If-None-Match: * cannot update an existing contact"
    .preconditionFailed 412
  assertIfMatch (options.get "ifMatch") existing.etag "contact"
  failIf (new.parsed.uid != existing.uid) "vCard UID cannot change during an update" .vcardUidImmutable 409
  failIf ((findUid new.book.state new.parsed.uid).any fun other => other.href != new.href)
    "vCard UID already exists in this address book" .vcardUidExists 409
  return if makeEtag host new.parsed.canonical = existing.etag then .unchanged existing else .replace new existing

/-- What `putContact` checks, and how it goes on. -/
def checkPut (s : CardDavStore) (options : JsValue) : Except CardDavError Put := do
  let new ← checkContact host s options
  match new.book.state.contacts.get new.href with
  | none => do
    failIf (!(options.get "ifNoneMatch").isString (js "*"))
      "contact was not found; conditional create requires If-None-Match: *" .contactNotFound 404
    return .create (createOptions new)
  | some existing => checkReplace host new existing options

def replaceContact (new : NewContact) (existing : CardDavContact) : CardDavOp PublicContact := do
  let now ← Eff.lift (reading clock 0)
  let replacement := { buildContact host new.book new.href new.parsed now with createdAt := existing.createdAt }
  storeContact host clock new.book replacement .updated 1

def putContact (options : JsValue) : CardDavOp PublicContact := do
  destructure options
  let s ← Eff.get
  match ← check (checkPut host s options) with
  | .create options => createContact host clock options
  | .unchanged existing => return publicContact existing
  | .replace new existing => replaceContact host clock new existing

structure ContactDeletion where
  href : JsString
  status : Status
  etag : Option JsString
  syncToken : JsString

def deleteContact (options : JsValue) : CardDavOp ContactDeletion := do
  let (book, href, contact) ← openContact options
  check (assertIfMatch (options.get "ifMatch") contact.etag "contact")
  assignBook book.key fun state => { state with contacts := state.contacts.delete href }
  let syncToken ← recordChange host clock book contact .deleted none 0
  return ⟨href, .deleted, none, syncToken⟩

/-- The changes that a sync from a version reports. -/
def AddressBookState.since (state : AddressBookState) (fromVersion : Nat) : List CardDavChange :=
  state.changes.filter fun change => decide (fromVersion < change.version)

def syncCollection (options : JsValue) : CardDavOp SyncResult := do
  let book ← openBook options
  let suppliedToken := options.get "syncToken"
  let currentToken := makeSyncToken host book.scope book.addressBookId book.state.revision
  if suppliedToken.isNullish then
    return {
      schemaVersion := schemaVersion
      addressBookId := book.addressBookId
      previousSyncToken := none
      syncToken := currentToken
      ctag := currentToken
      changes := (sortBy host (·.href) book.state.contacts.values).map fun contact =>
        publicChange ⟨contact.revision, .created, contact.href, contact.uid, some contact.etag⟩ }
  else do
    let fromVersion ← check (parseSyncToken host suppliedToken book.scope book.addressBookId)
    check (failIf (decide (book.state.revision < fromVersion)) "syncToken is ahead of the address book state"
      .syncTokenInvalid 409)
    return {
      schemaVersion := schemaVersion
      addressBookId := book.addressBookId
      previousSyncToken := suppliedToken.asString?
      syncToken := currentToken
      ctag := currentToken
      changes := (book.state.since fromVersion).map publicChange }

structure ExportedAddressBook where
  schemaVersion : Nat
  exportType : JsString
  addressBook : PublicAddressBook
  contacts : List ContactMetadata

def exportAddressBookMetadata (options : JsValue) : CardDavOp ExportedAddressBook := do
  let book ← openBook options
  return ⟨schemaVersion, js "carddav-address-book-metadata", publicAddressBook host book.state book.scope,
    listMetadata host book.state⟩

end

/-- `updateContact` and `upsertContact` are `putContact`. -/
inductive CardDavCall where
  | createAddressBook (options : JsValue)
  | getAddressBook (options : JsValue)
  | listAddressBooks (options : JsValue)
  | deleteAddressBook (options : JsValue)
  | createContact (options : JsValue)
  | getContact (options : JsValue)
  | getContactMetadata (options : JsValue)
  | listContacts (options : JsValue)
  | putContact (options : JsValue)
  | deleteContact (options : JsValue)
  | syncCollection (options : JsValue)
  | exportAddressBookMetadata (options : JsValue)

inductive CardDavAnswer where
  | addressBook (book : PublicAddressBook)
  | addressBooks (books : List PublicAddressBook)
  | deletedAddressBook (deletion : AddressBookDeletion)
  | contact (contact : PublicContact)
  | metadata (contact : ContactMetadata)
  | contacts (contacts : List ContactMetadata)
  | deletedContact (deletion : ContactDeletion)
  | sync (result : SyncResult)
  | exported (book : ExportedAddressBook)

def CardDavCall.run (host : Host) (clock : Clock) : CardDavCall → CardDavOp CardDavAnswer
  | createAddressBook options => return .addressBook (← CardDav.createAddressBook host clock options)
  | getAddressBook options => return .addressBook (← CardDav.getAddressBook host options)
  | listAddressBooks options => return .addressBooks (← CardDav.listAddressBooks host options)
  | deleteAddressBook options => return .deletedAddressBook (← CardDav.deleteAddressBook host options)
  | createContact options => return .contact (← CardDav.createContact host clock options)
  | getContact options => return .contact (← CardDav.getContact options)
  | getContactMetadata options => return .metadata (← CardDav.getContactMetadata options)
  | listContacts options => return .contacts (← CardDav.listContacts host options)
  | putContact options => return .contact (← CardDav.putContact host clock options)
  | deleteContact options => return .deletedContact (← CardDav.deleteContact host clock options)
  | syncCollection options => return .sync (← CardDav.syncCollection host options)
  | exportAddressBookMetadata options => return .exported (← CardDav.exportAddressBookMetadata host options)

end GuloGulo.CardDav
