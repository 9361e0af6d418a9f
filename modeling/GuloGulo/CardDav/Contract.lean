import GuloGulo.Js.Effect
import GuloGulo.Js.Uri

/-!
# The CardDAV contract: scopes, names, entity tags, tokens

The exported checks of `carddav-store.ts`.
-/

namespace GuloGulo.CardDav
open Js

/-- The arguments that `assertString` checks. -/
inductive Field where
  | tenantId | userId | addressBookId | href | displayName | description | color
  deriving DecidableEq, Repr

def Field.text : Field → JsString
  | tenantId => js "tenantId"
  | userId => js "userId"
  | addressBookId => js "addressBookId"
  | href => js "href"
  | displayName => js "displayName"
  | description => js "description"
  | color => js "color"

/-- `invalid` is `INVALID_` and the field in capitals. -/
inductive CardDavCode where
  | invalid (field : Field)
  | invalidClock | scopeInvalid | scopeRoleDenied | scopeTargetDenied | syncTokenInvalid
  | preconditionRequired | etagMismatch | preconditionFailed
  | vcardRequired | vcardLineTooLong | vcardInvalid | vcardTooLarge | vcardMultipleObjects
  | vcardVersionInvalid | vcardUidInvalid | vcardFnInvalid
  | addressBookNotFound | addressBookExists
  | contactExists | contactNotFound | vcardUidExists | vcardUidImmutable
  deriving DecidableEq, Repr

structure CardDavError where
  message : JsString
  code : CardDavCode
  status : Nat
  deriving DecidableEq

def cardDavError (message : JsString) (code : CardDavCode) (status : Nat) : CardDavError :=
  ⟨js "CardDAV error: " ++ message, code, status⟩

def fail {α : Type} (message : String) (code : CardDavCode) (status : Nat) : Except CardDavError α :=
  .error (cardDavError (js message) code status)

def failIf (c : Bool) (message : String) (code : CardDavCode) (status : Nat) : Except CardDavError Unit :=
  throwIf c (cardDavError (js message) code status)

theorem failIf_eq_ok {c : Bool} {message : String} {code : CardDavCode} {status : Nat} {u : Unit} :
    failIf c message code status = .ok u ↔ c = false :=
  throwIf_eq_ok

def assertString (value : JsValue) (field : Field) (maxLength : Nat) (allowEmpty : Bool)
    (pattern : JsString → Bool) : Except CardDavError JsString :=
  let invalid := cardDavError (field.text ++ js " is invalid") (.invalid field) 400
  match value with
  | .string s => do
    throwIf ((!allowEmpty && s.isEmpty) || decide (maxLength < s.length)) invalid
    throwIf (s.any isControl) (cardDavError (field.text ++ js " contains control characters") (.invalid field) 400)
    throwIf (!pattern s) invalid
    return s
  | _ => .error invalid

/-- No pattern. -/
def anyText : JsString → Bool := fun _ => true

def isNameUnit (u : UInt16) : Bool := isAlnum u || u == 46 || u == 95 || u == 45
def isScopeUnit (u : UInt16) : Bool := isNameUnit u || u == 58 || u == 64 || u == 47
def isHexUnit (u : UInt16) : Bool := isDigit u || (65 ≤ u && u ≤ 70) || (97 ≤ u && u ≤ 102)

def addressBookIdPattern : JsString → Bool := isName isAlnum isNameUnit 63
def scopeIdPattern : JsString → Bool := isName isAlnum isScopeUnit 127

def hrefPattern (s : JsString) : Bool :=
  endsWith s (js ".vcf") && isName isAlnum isNameUnit 127 (s.take (s.length - 4))

def colorPattern : JsString → Bool
  | u :: us => u == 35 && (us.length == 6 || us.length == 8) && us.all isHexUnit
  | [] => false

structure CardDavScope where
  tenantId : JsString
  userId : JsString
  deriving DecidableEq

def normalizeScope (scope : JsValue) : Except CardDavError CardDavScope := do
  failIf (!scope.isObject) "an authenticated tenant/user scope is required" .scopeInvalid 401
  let tenantId ← assertString (scope.get "tenantId") .tenantId 128 false scopeIdPattern
  let userId ← assertString (scope.get "userId") .userId 128 false scopeIdPattern
  let role := scope.get "role"
  failIf (!role.isUndefined && !role.isString (js "user")) "CardDAV content requires an authenticated user scope"
    .scopeRoleDenied 403
  let targetUserId := scope.get "targetUserId"
  failIf (!targetUserId.isUndefined && !targetUserId.isString userId)
    "targetUserId does not match the authenticated user" .scopeTargetDenied 403
  return ⟨tenantId, userId⟩

def normalizeAddressBookId (value : JsValue) : Except CardDavError JsString :=
  assertString value .addressBookId 64 false addressBookIdPattern

def normalizeHref (value : JsValue) : Except CardDavError JsString := do
  let href ← assertString value .href 128 false hrefPattern
  failIf (includes href (js "..") || href.contains 37 || href.contains 47 || href.contains 92)
    "href must be a single safe vCard object name" (.invalid .href) 400
  return href

def normalizeOptionalText (value : JsValue) (field : Field) (maxLength : Nat) : Except CardDavError JsString :=
  if value.isNullish then .ok [] else assertString value field maxLength true anyText

def normalizeColor (color : JsValue) : Except CardDavError (Option JsString) :=
  if color.isNullish then .ok none else (assertString color .color 32 false colorPattern).map some

def keyFor (scope : CardDavScope) (addressBookId : JsString) : JsString :=
  scope.tenantId ++ [0] ++ scope.userId ++ [0] ++ addressBookId

/-- The time in milliseconds that a clock has returned, truncated. -/
def readClock (value : JsValue) : Except CardDavError Int :=
  let invalid := cardDavError (js "clock must return a valid non-negative timestamp") .invalidClock 500
  let timestamp : Option Rat := match value with
    | .date time => time.map fun t => t
    | .number q => some q
    | _ => none
  match timestamp with
  | some q => if q < 0 then .error invalid else .ok (Int.tdiv q.num q.den)
  | none => .error invalid

example : readClock (.number (5 / 2)) = .ok 2 := by decide +kernel

section
variable (host : Host)

def scopeFingerprint (scope : CardDavScope) (addressBookId : JsString) : JsString :=
  (base64Url (host.sha256 (utf8 (keyFor scope addressBookId)))).take 22

def tokenPrefix : JsString := js "urn:gulogulo:carddav:v1:"

def makeSyncToken (scope : CardDavScope) (addressBookId : JsString) (version : Nat) : JsString :=
  tokenPrefix ++ scopeFingerprint host scope addressBookId ++ js ":" ++ decimal version

/-- `SYNC_TOKEN_PATTERN.exec`: the two groups. -/
def matchSyncToken (s : JsString) : Option (JsString × JsString) :=
  if startsWith s tokenPrefix then
    let fingerprint := (s.drop tokenPrefix.length).take 22
    match s.drop (tokenPrefix.length + 22) with
    | 58 :: digits =>
      if fingerprint.length == 22 && fingerprint.all isBase64Url && isDigits digits then some (fingerprint, digits)
      else none
    | _ => none
  else none

def parseSyncToken (token : JsValue) (scope : CardDavScope) (addressBookId : JsString) : Except CardDavError Nat :=
  match token with
  | .string s =>
    match matchSyncToken s with
    | some (fingerprint, digits) => do
      failIf (fingerprint != scopeFingerprint host scope addressBookId)
        "syncToken is not valid for this tenant/user collection" .syncTokenInvalid 409
      failIf (decide (maxSafeInteger < parseDecimal digits)) "syncToken version is invalid" .syncTokenInvalid 409
      return parseDecimal digits
    | none => fail "syncToken is not valid for this tenant/user collection" .syncTokenInvalid 409
  | _ => fail "syncToken must be a string" .syncTokenInvalid 400

def makeEtag (canonicalVCard : JsString) : JsString :=
  js "\"" ++ base64Url (host.sha256 (utf8 canonicalVCard)) ++ js "\""

end

def matchesIfMatch (ifMatch : JsValue) (currentEtag : JsString) : Bool :=
  match ifMatch with
  | .string s => s == js "*" || (!s.isEmpty && ((split s 44).map trim).any (· == currentEtag))
  | _ => false

def assertIfMatch (ifMatch : JsValue) (currentEtag : JsString) (resourceName : String) : Except CardDavError Unit := do
  throwIf ifMatch.isUndefined
    (cardDavError (js "If-Match is required for " ++ js resourceName) .preconditionRequired 428)
  throwIf (!matchesIfMatch ifMatch currentEtag)
    (cardDavError (js "If-Match does not match the current " ++ js resourceName ++ js " ETag") .etagMismatch 412)

end GuloGulo.CardDav
