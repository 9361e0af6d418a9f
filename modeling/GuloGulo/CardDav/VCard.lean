import GuloGulo.CardDav.Contract
import GuloGulo.Js.Pattern
import GuloGulo.Data.Table
import Mathlib.Data.List.Sort

/-!
# vCards

`validateVCardObject` of `carddav-store.ts`: one vCard is unfolded, split into
properties and written back with one line each.
-/

namespace GuloGulo.CardDav
open Js

def maxVCardBytes : Nat := 262144
def maxVCardLineLength : Nat := 16384

def unfoldVCardLine (unfolded : List JsString) (rawLine : JsString) : Except CardDavError (List JsString) := do
  failIf (decide (maxVCardLineLength < rawLine.length)) "vCard line is too long" .vcardLineTooLong 400
  unfoldLine (cardDavError (js "vCard folding cannot start the object") .vcardInvalid 400) unfolded rawLine

def unfoldVCardLines (text : JsString) : Except CardDavError (List JsString) := do
  let normalized := replaceAll (replaceAll text crlf lf) cr lf
  let lines ← (splitLines normalized).foldlM unfoldVCardLine []
  failIf lines.isEmpty "vCard is empty" .vcardInvalid 400
  return lines.reverse

structure VCardProperty where
  name : JsString
  parameters : JsString
  value : JsString
  deriving DecidableEq

def isWordUnit (u : UInt16) : Bool := isAlnum u || u == 45

/-- `[A-Za-z][A-Za-z0-9-]*`, of a text of word units. -/
def isWord : JsString → Bool
  | u :: _ => isAlpha u
  | [] => false

/-- The groups of the property pattern: the name may follow a group name and a
dot, and the parameters reach to the first colon. -/
def matchVCardProperty (line : JsString) : Option VCardProperty :=
  let word := line.takeWhile isWordUnit
  let rest := line.dropWhile isWordUnit
  let grouped := isWord word && rest.head? == some 46
  let name := if grouped then (rest.drop 1).takeWhile isWordUnit else word
  match cut (if grouped then (rest.drop 1).dropWhile isWordUnit else rest) 58 with
  | some (parameters, value) =>
    if isWord name && (parameters.isEmpty || parameters.head? == some 59) && !value.any isLineTerminator then
      some ⟨name, parameters, value⟩
    else none
  | none => none

/-- A control character other than a tab. -/
def hasRawControl (s : JsString) : Bool := s.any fun u => isControl u && u != 9

def parseVCardProperty (line : JsString) : Except CardDavError VCardProperty :=
  match matchVCardProperty line with
  | some property => do
    failIf (hasRawControl property.parameters || hasRawControl property.value)
      "vCard properties cannot contain raw control characters" .vcardInvalid 400
    return { property with name := property.name.map asciiUpper }
  | none => fail "vCard property syntax is invalid" .vcardInvalid 400

example : (parseVCardProperty (js "item1.tel;TYPE=work:+49")) = .ok ⟨js "TEL", js ";TYPE=work", js "+49"⟩ := by
  decide +kernel

/-- `/\\([nNrR,;\\])/`. -/
def vCardEscape : Matcher
  | 92 :: u :: _ =>
    if u == 110 || u == 78 || u == 114 || u == 82 then some (2, [10])
    else if u == 44 || u == 59 || u == 92 then some (2, [u])
    else none
  | _ => none

def unescapeVCardText (value : JsString) : JsString := replaceWith vCardEscape value

structure ParsedVCard where
  canonical : JsString
  version : JsString
  uid : JsString
  fullName : JsString
  mediaType : JsString
  propertyNames : List JsString
  emailCount : Nat
  telCount : Nat
  deriving DecidableEq

def named (properties : List VCardProperty) (name : String) : List VCardProperty :=
  properties.filter fun property => property.name == js name

def vCardVersion (properties : List VCardProperty) : Except CardDavError JsString :=
  match named properties "VERSION" with
  | [version] => do
    failIf (version.value != js "3.0" && version.value != js "4.0") "vCard VERSION must be exactly 3.0 or 4.0"
      .vcardVersionInvalid 400
    return version.value
  | _ => fail "vCard VERSION must be exactly 3.0 or 4.0" .vcardVersionInvalid 400

/-- The value of the only `UID`, still escaped. -/
def vCardUid (properties : List VCardProperty) : Except CardDavError JsString :=
  match named properties "UID" with
  | [uid] => do
    failIf uid.value.isEmpty "vCard must contain exactly one non-empty UID" .vcardUidInvalid 400
    return uid.value
  | _ => fail "vCard must contain exactly one non-empty UID" .vcardUidInvalid 400

def vCardFullName (properties : List VCardProperty) : Except CardDavError JsString :=
  match named properties "FN" with
  | [fullName] => do
    failIf (trim (unescapeVCardText fullName.value)).isEmpty "vCard must contain exactly one non-empty FN"
      .vcardFnInvalid 400
    return unescapeVCardText fullName.value
  | _ => fail "vCard must contain exactly one non-empty FN" .vcardFnInvalid 400

def isBoundary (line : Option VCardProperty) (name : String) : Bool :=
  line.any fun property => property.name == js name

def validateVCardText (host : Host) (value : JsValue) : Except CardDavError ParsedVCard :=
  match value with
  | .string text => do
    failIf (decide (maxVCardBytes < byteLength text)) "vCard exceeds the maximum size" .vcardTooLarge 413
    failIf (text.contains 0) "vCard contains a NUL character" .vcardInvalid 400
    let lines ← unfoldVCardLines text
    failIf (host.toUpperCase (lines.headD []) != js "BEGIN:VCARD" ||
        host.toUpperCase (lines.getLastD []) != js "END:VCARD")
      "vCard must contain one BEGIN:VCARD and one END:VCARD" .vcardInvalid 400
    let properties ← lines.mapM parseVCardProperty
    failIf (!isBoundary properties.head? "BEGIN" || !isBoundary properties.getLast? "END")
      "vCard boundaries are invalid" .vcardInvalid 400
    failIf ((named properties "BEGIN").length != 1 || (named properties "END").length != 1)
      "a CardDAV object must contain exactly one vCard" .vcardMultipleObjects 400
    let version ← vCardVersion properties
    let uidValue ← vCardUid properties
    let fullName ← vCardFullName properties
    let uid := unescapeVCardText uidValue
    failIf (decide (256 < uid.length) || uid.contains 10 || uid.contains 13) "vCard UID is invalid"
      .vcardUidInvalid 400
    return {
      canonical := join lines crlf ++ crlf
      version, uid, fullName
      mediaType := js "text/vcard; version=" ++ version
      propertyNames := (Data.unique ((properties.drop 1).dropLast.map (·.name))).insertionSort (· ≤ ·)
      emailCount := (named properties "EMAIL").length
      telCount := (named properties "TEL").length }
  | _ => fail "vCard must be a string" .vcardInvalid 400

def sampleVCard (uid fullName : String) : JsString :=
  js "BEGIN:VCARD\r\nVERSION:4.0\r\nUID:" ++ js uid ++ js "\r\nFN:" ++ js fullName ++ js "\r\nEND:VCARD\r\n"

end GuloGulo.CardDav
