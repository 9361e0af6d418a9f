import GuloGulo.Data.Table
import GuloGulo.Js.Base64
import GuloGulo.Js.Date
import GuloGulo.Js.Decode
import GuloGulo.Js.Pattern

/-!
# Parsing a message

`parseMessage` of the web view: unfolded headers, encoded words, encoded bodies
and a bounded walk through the parts of a multipart message.
-/

namespace GuloGulo.Mail.Message

open Js Data

def MAX_MIME_DEPTH : Nat := 5
def MAX_MIME_PARTS : Nat := 50
def MAX_ATTACHMENTS : Nat := 50

/-- What `TextDecoder` is of a label; `none` is a label it does not know. -/
structure Charsets where
  decode : JsString → Option (List UInt8 → JsString)
  decode_utf8 : decode (js "utf-8") = some utf8Decode
  /-- A code unit comes of a byte at least. -/
  decode_length : ∀ label decoder bytes, decode label = some decoder → (decoder bytes).length ≤ bytes.length

structure ParsedAttachment where
  name : JsString
  contentType : JsString
  size : Nat
  deriving DecidableEq

structure ParsedMessage where
  subject : JsString
  sender : JsString
  recipients : JsString
  date : Option JsString
  text : Option JsString
  html : Option JsString
  attachments : List ParsedAttachment
  deriving DecidableEq

structure RawPart where
  headers : OrderedMap JsString JsString
  body : JsString

def isBlank (u : UInt16) : Bool := u == 32 || u == 9

/-- `/\r\n[ \t]+/`, replaced by a blank. -/
def fold : Matcher
  | 13 :: 10 :: u :: rest => if isBlank u then some (3 + (rest.takeWhile isBlank).length, [32]) else none
  | _ => none

/-- One turn of the loop over the header lines. -/
def addHeader (host : Host) (headers : OrderedMap JsString JsString) (line : JsString) : OrderedMap JsString JsString :=
  match cut line 58 with
  | none | some ([], _) => headers
  | some (before, after) =>
    let name := host.toLowerCase (trim before)
    if (headers.get name).isSome then headers else headers.set name (trim after)

def readHeaders (host : Host) (block : JsString) : OrderedMap JsString JsString :=
  (splitString crlf (replaceWith fold block)).foldl (addHeader host) .empty

def splitHeadersAndBody (host : Host) (raw : JsString) : RawPart :=
  let normalized := normalizeNewlines raw
  match cutString [13, 10, 13, 10] normalized with
  | none => ⟨readHeaders host normalized, []⟩
  | some (block, body) => ⟨readHeaders host block, body⟩

/-- `=XX` is a byte, any other unit is encoded by itself. -/
def hexBytes : JsString → List UInt8
  | 61 :: a :: b :: rest =>
    match hexValue a, hexValue b with
    | some hi, some lo => UInt8.ofNat (16 * hi + lo) :: hexBytes rest
    | _, _ => utf8 [61] ++ hexBytes (a :: b :: rest)
  | u :: rest => utf8 [u] ++ hexBytes rest
  | [] => []

def decodeQuotedPrintable (value : JsString) (forHeader : Bool) : List UInt8 :=
  hexBytes (if forHeader then replaceAll value [95] [32] else replaceAll value [61, 13, 10] [])

def decodeCharset (host : Host) (charsets : Charsets) (bytes : List UInt8) (charset : JsString) : JsString :=
  let label := host.toLowerCase (trim charset)
  match charsets.decode (if label.isEmpty then js "utf-8" else label) with
  | some decoder => decoder bytes
  | none => utf8Text bytes

/-- `/(\?=)\s+(=\?)/`, replaced by its groups. -/
def gap : Matcher
  | 63 :: 61 :: rest =>
    let blanks := (rest.takeWhile isWhiteSpace).length
    if blanks ≠ 0 && startsWith (rest.drop blanks) (js "=?") then some (blanks + 4, js "?==?") else none
  | _ => none

/-- What the class `[^?\s]` takes of a text, and what follows it. -/
def wordSpan (s : JsString) : JsString × JsString := s.span fun u => u != 63 && !isWhiteSpace u

/-- The charset, the encoding and the text of an encoded word that starts here:
`/=\?([^?\s]+)\?([BbQq])\?([^?\s]*)\?=/`. -/
def wordParts : JsString → Option (JsString × UInt16 × JsString)
  | 61 :: 63 :: rest =>
    match wordSpan rest with
    | ([], _) => none
    | (charset, 63 :: encoding :: 63 :: rest) =>
      if [66, 98, 81, 113].contains encoding then
        match wordSpan rest with
        | (text, 63 :: 61 :: _) => some (charset, encoding, text)
        | _ => none
      else none
    | _ => none
  | _ => none

def decodeWord (host : Host) (charsets : Charsets) (charset : JsString) (encoding : UInt16) (text : JsString) : JsString :=
  let bytes := if asciiUpper encoding == 66 then fromBase64 text else decodeQuotedPrintable text true
  decodeCharset host charsets bytes (charset.takeWhile fun u => u != 42)

def encodedWord (host : Host) (charsets : Charsets) : Matcher := fun s =>
  (wordParts s).map fun (charset, encoding, text) =>
    (charset.length + text.length + 7, decodeWord host charsets charset encoding text)

def decodeEncodedWords (host : Host) (charsets : Charsets) (value : JsString) : JsString :=
  replaceWith (encodedWord host charsets) (replaceWith gap value)

/-- How the flags `iu` compare a unit with an ASCII letter: by simple case folding. -/
def foldUnit (u : UInt16) : UInt16 := if u == 0x17F then 115 else if u == 0x212A then 107 else asciiLower u

/-- `/((?:[^"\\]|\\.)*)"/`, with its group. -/
def quoted : JsString → Option JsString
  | [] => none
  | [u] => if u == 34 then some [] else none
  | u :: v :: rest =>
    if u == 34 then some []
    else if u == 92 then if isLineTerminator v then none else (quoted rest).map fun s => u :: v :: s
    else (quoted (v :: rest)).map fun s => u :: s

/-- `/[^;\s]+/`. -/
def token (s : JsString) : Option JsString :=
  let t := s.takeWhile fun u => u != 59 && !isWhiteSpace u
  if t.isEmpty then none else some t

/-- `/"((?:[^"\\]|\\.)*)"|([^;\s]+)/`, with the group that took part. -/
def parameterValue (s : JsString) : Option JsString :=
  match s with
  | 34 :: rest => (quoted rest).or (token s)
  | _ => token s

def skipBlanks (s : JsString) : JsString := s.dropWhile isWhiteSpace

/-- A parameter that starts here, at its semicolon. -/
def parameterAt (name : JsString) : JsString → Option JsString
  | 59 :: rest =>
    let rest := skipBlanks rest
    if (rest.take name.length).map foldUnit = name then
      match skipBlanks (rest.drop name.length) with
      | 61 :: rest => parameterValue (skipBlanks rest)
      | _ => none
    else none
  | _ => none

def findParameter (name : JsString) : JsString → Option JsString
  | [] => none
  | u :: rest => (parameterAt name (u :: rest)).or (findParameter name rest)

/-- `/\\(.)/`, replaced by its group. -/
def escaped : Matcher
  | 92 :: u :: _ => if isLineTerminator u then none else some (2, [u])
  | _ => none

def headerParameter (value : Option JsString) (name : String) : Option JsString :=
  (value.bind (findParameter (js name))).map (replaceWith escaped)

/-- `split(';', 1)[0].trim().toLowerCase()`. -/
def firstPart (host : Host) (value : JsString) : JsString := host.toLowerCase (trim (value.takeWhile fun u => u != 59))

def mediaType (host : Host) (value : Option JsString) : JsString :=
  let type := firstPart host (value.getD (js "text/plain"))
  if type.isEmpty then js "text/plain" else type

structure DecodedBody where
  text : JsString
  size : Nat

def decodeBody (host : Host) (charsets : Charsets) (part : RawPart) : DecodedBody :=
  let encoding := host.toLowerCase (trim ((part.headers.get (js "content-transfer-encoding")).getD (js "7bit")))
  let charset := (headerParameter (part.headers.get (js "content-type")) "charset").getD (js "utf-8")
  let bytes :=
    if encoding = js "base64" then fromBase64 (part.body.filter fun u => !isWhiteSpace u)
    else if encoding = js "quoted-printable" then decodeQuotedPrintable part.body false
    else utf8 part.body
  ⟨decodeCharset host charsets bytes charset, bytes.length⟩

/-- The part that is being read, if there is one. -/
def finishPart (host : Host) (current : Option (List JsString)) : List RawPart :=
  (current.map fun lines => splitHeadersAndBody host (join lines crlf)).toList

def splitParts (host : Host) (delimiter : JsString) : Option (List JsString) → List JsString → List RawPart
  | current, [] => finishPart host current
  | current, line :: rest =>
    if line = delimiter ++ js "--" then finishPart host current
    else if line = delimiter then finishPart host current ++ splitParts host delimiter (some []) rest
    else splitParts host delimiter (current.map fun lines => lines ++ [line]) rest

def splitMultipart (host : Host) (body boundary : JsString) : List RawPart :=
  splitParts host (js "--" ++ boundary) none (splitString crlf body)

structure Walk where
  text : Option JsString
  html : Option JsString
  attachments : List ParsedAttachment
  seenParts : Nat

def safeUnit (u : UInt16) : UInt16 := if u == 13 || u == 10 || u == 0 || u == 47 || u == 92 then 95 else u

/-- A part that is not walked into. -/
def readPart (host : Host) (charsets : Charsets) (part : RawPart) (walk : Walk) : Walk :=
  let contentType := part.headers.get (js "content-type")
  let disposition := part.headers.get (js "content-disposition")
  let type := mediaType host contentType
  let filename := (headerParameter disposition "filename").or (headerParameter contentType "name")
  if firstPart host (disposition.getD []) = js "attachment" ∨ filename.isSome ∨
      (!startsWith type (js "text/") && type != js "message/rfc822") then
    if walk.attachments.length < MAX_ATTACHMENTS then
      let name := decodeEncodedWords host charsets (filename.getD (js "attachment"))
      { walk with attachments := walk.attachments ++
        [⟨(name.map safeUnit).take 255, type, (decodeBody host charsets part).size⟩] }
    else walk
  else if type = js "text/plain" ∧ walk.text = none then { walk with text := some (decodeBody host charsets part).text }
  else if type = js "text/html" ∧ walk.html = none then { walk with html := some (decodeBody host charsets part).text }
  else walk

/-- The boundary of a part that is walked into. -/
def boundary (host : Host) (part : RawPart) : Option JsString :=
  let contentType := part.headers.get (js "content-type")
  if startsWith (mediaType host contentType) (js "multipart/") then headerParameter contentType "boundary" else none

/-- `levels` is how much deeper the walk may go. -/
def walkPart (host : Host) (charsets : Charsets) (levels : Nat) (part : RawPart) (walk : Walk) : Walk :=
  let walk := { walk with seenParts := walk.seenParts + 1 }
  if MAX_MIME_PARTS < walk.seenParts then walk
  else match boundary host part with
    | none => readPart host charsets part walk
    | some b =>
      match levels with
      | 0 => walk
      | levels + 1 =>
        (splitMultipart host part.body b).foldl (fun walk child => walkPart host charsets levels child walk) walk

def parseMessage (host : Host) (charsets : Charsets) (raw : JsString) : ParsedMessage :=
  let root := splitHeadersAndBody host raw
  let walk := walkPart host charsets MAX_MIME_DEPTH root ⟨none, none, [], 0⟩
  let header (name : String) := decodeEncodedWords host charsets ((root.headers.get (js name)).getD [])
  { subject := header "subject"
    sender := header "from"
    recipients := header "to"
    date := ((host.parseDate ((root.headers.get (js "date")).getD [])).bind timeClip).map isoString
    text := walk.text
    html := walk.html
    attachments := walk.attachments }

end GuloGulo.Mail.Message
