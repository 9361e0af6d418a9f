import GuloGulo.Js.Base64
import GuloGulo.Js.Date
import GuloGulo.Js.Pattern
import GuloGulo.Mail.Address

/-!
# Composing a message

`validateOutgoing` on the body of the send route and `composeMessage` on what
it accepts. The boundary of the message is its only empty line, so a reader
cuts it there and the headers at each CRLF.
-/

namespace GuloGulo.Mail.Message

open Js

def MAX_RECIPIENTS : Nat := 50
def MAX_SUBJECT_LENGTH : Nat := 255
def MAX_TEXT_BYTES : Nat := 256 * 1024

/-- A unit of the local part in `ADDRESS_PATTERN`. -/
def isAddressUnit (u : UInt16) : Bool := isAlnum u || (js ".!#$%&'*+/=?^_\x60\x7b|\x7d~-").contains u

def isLabelUnit (u : UInt16) : Bool := isAlnum u || u == 45

/-- `ADDRESS_PATTERN`. -/
def addressPattern (s : JsString) : Bool :=
  match cut s 64 with
  | none => false
  | some (localPart, domain) =>
    decide (1 ≤ localPart.length ∧ localPart.length ≤ 64) && localPart.all isAddressUnit &&
      decide (2 ≤ (split domain 46).length) &&
      (split domain 46).all fun l => decide (1 ≤ l.length ∧ l.length ≤ 63) && l.all isLabelUnit

/-- A unit `CONTROL_CHARS` matches. -/
def isControlChar (u : UInt16) : Bool := u ≤ 0x1F || u == 0x7F

structure MailInputError where
  message : String
  code : String
  deriving DecidableEq, Repr

def inputError (message : String) : MailInputError := ⟨message, "INVALID_INPUT"⟩

structure OutgoingMessageInput where
  recipients : List JsString
  subject : JsString
  text : JsString
  deriving DecidableEq

/-- `/<([^<>]+)>\s*$/`, with its group. -/
def angle (s : JsString) : Option JsString :=
  match s.reverse.dropWhile isWhiteSpace with
  | 62 :: rest =>
    match rest.span fun u => u != 60 && u != 62 with
    | ([], _) => none
    | (name, 60 :: _) => some name.reverse
    | _ => none
  | _ => none

/-- One turn of the loop. -/
def addRecipient (recipients : List JsString) (entry : JsValue) : Except MailInputError (List JsString) :=
  match entry with
  | .string s =>
    let trimmed := trim s
    if trimmed.isEmpty then .ok recipients
    else
      let address := trim ((angle trimmed).getD trimmed)
      if 254 < address.length ∨ !addressPattern address then .error (inputError "a recipient address is invalid")
      else .ok (if recipients.contains address then recipients else recipients ++ [address])
  | _ => .error (inputError "recipients are invalid")

/-- The elements of a list, or the parts of a text between `/[,;]/`. -/
def recipientEntries : JsValue → Except MailInputError (List JsValue)
  | .array items => .ok items
  | .string s => .ok ((s.splitOnP fun u => u == 44 || u == 59).map .string)
  | _ => .error (inputError "recipients are required")

def parseRecipients (value : JsValue) : Except MailInputError (List JsString) := do
  let entries ← recipientEntries value
  let recipients ← entries.foldlM addRecipient []
  throwIf recipients.isEmpty (inputError "recipients are required")
  throwIf (decide (MAX_RECIPIENTS < recipients.length)) ⟨"too many recipients", "TOO_MANY_RECIPIENTS"⟩
  return recipients

example : parseRecipients (.string (js "A <a@x.example>; b@x.example, a@x.example")) =
    .ok [js "a@x.example", js "b@x.example"] := by decide

/-- `false` is a list without elements, or no list at all. -/
def hasAttachments : JsValue → Bool
  | .array items => !items.isEmpty
  | v => !v.isUndefined

def subjectField : JsValue → Except MailInputError JsString
  | .string s =>
    if MAX_SUBJECT_LENGTH < s.length ∨ s.any isControlChar then .error (inputError "subject is invalid") else .ok s
  | _ => .error (inputError "subject is invalid")

def textField : JsValue → Except MailInputError JsString
  | .string s => if s.contains 0 then .error (inputError "message text is invalid") else .ok s
  | _ => .error (inputError "message text is invalid")

def validateOutgoing (body : JsValue) : Except MailInputError OutgoingMessageInput := do
  throwIf (hasAttachments (body.get "attachments")) ⟨"attachments are not supported", "ATTACHMENTS_NOT_SUPPORTED"⟩
  let recipients ← parseRecipients (body.get "to")
  let subject ← subjectField ((body.get "subject").orDefault (.string []))
  let text ← textField ((body.get "text").orDefault (.string []))
  throwIf (decide (MAX_TEXT_BYTES < byteLength text)) ⟨"message text is too large", "MESSAGE_TOO_LARGE"⟩
  return { recipients, subject, text }

def encodeSubject (subject : JsString) : JsString :=
  if subject.all isPrintable then subject else js "=?UTF-8?B?" ++ base64 (utf8 subject) ++ js "?="

/-- What `/.{0,max}/` takes of the text, in code units. -/
def dotRun : Nat → JsString → Nat
  | 0, _ => 0
  | _, [] => 0
  | _ + 1, [u] => if isLineTerminator u then 0 else 1
  | max + 1, u :: v :: rest =>
    if isLineTerminator u then 0
    else if isHighSurrogate u && isLowSurrogate v then dotRun max rest + 2
    else dotRun max (v :: rest) + 1

/-- `/.{1,76}/`, replaced by `$&\r\n`. -/
def bodyLine : Matcher := fun s => if dotRun 76 s = 0 then none else some (dotRun 76 s, s.take (dotRun 76 s) ++ crlf)

/-- The text of `randomUUID`. -/
structure Uuid where
  text : JsString
  form : ∀ u ∈ text, isLabelUnit u

def angleList (recipients : List JsString) : JsString :=
  join (recipients.map fun recipient => 60 :: recipient ++ [62]) (js ", ")

def fromLine (sender : JsString) : JsString := js "From: <" ++ sender ++ js ">"
def toLine (recipients : List JsString) : JsString := js "To: " ++ angleList recipients
def subjectLine (subject : JsString) : JsString := js "Subject: " ++ encodeSubject subject
def dateLine (now : Option Int) : JsString := js "Date: " ++ replaceFirst (utcString now) (js "GMT") (js "+0000")
def messageIdLine (sender : JsString) (uuid : Uuid) : JsString :=
  js "Message-ID: <" ++ uuid.text ++ js "@" ++ domainPart sender ++ js ">"

def headerLines (sender : JsString) (input : OutgoingMessageInput) (now : Option Int) (uuid : Uuid) : List JsString :=
  [fromLine sender, toLine input.recipients, subjectLine input.subject, dateLine now, messageIdLine sender uuid,
    js "MIME-Version: 1.0", js "Content-Type: text/plain; charset=utf-8", js "Content-Transfer-Encoding: base64"]

def encodeText (text : JsString) : JsString :=
  replaceWith bodyLine (base64 (utf8 (normalizeNewlines text)))

def composeMessage (sender : JsString) (input : OutgoingMessageInput) (now : Option Int) (uuid : Uuid) : JsString :=
  join (headerLines sender input now uuid ++ [[], encodeText input.text]) crlf

end GuloGulo.Mail.Message
