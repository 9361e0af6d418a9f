import GuloGulo.Mail.Runtime

/-!
# Scanner verdicts

`core/mail/mail-scanners.ts`: what Rspamd and ClamAV return is a value of any
shape, which the normalisers read as a verdict or refuse. The two wrappers
turn a missing, failed or unreadable scan into the verdict `unavailable`.
-/

namespace GuloGulo.Mail
open Js

inductive RspamdAction where
  | accept
  | noAction
  | softReject
  | reject
  | quarantine
  | unavailable
  deriving DecidableEq

def RspamdAction.text : RspamdAction → JsString
  | accept => js "accept"
  | noAction => js "no_action"
  | softReject => js "soft_reject"
  | reject => js "reject"
  | quarantine => js "quarantine"
  | unavailable => js "unavailable"

inductive ClamAvStatus where
  | clean
  | infected
  | unavailable
  deriving DecidableEq

def ClamAvStatus.text : ClamAvStatus → JsString
  | clean => js "clean"
  | infected => js "infected"
  | unavailable => js "unavailable"

structure RspamdVerdict where
  action : RspamdAction
  score : Option Rat
  symbols : List JsString
  deriving DecidableEq

structure ClamAvVerdict where
  status : ClamAvStatus
  signature : Option JsString
  deriving DecidableEq

def scannerError (message : String) : CodedError :=
  ⟨s!"Mail scanner error: {message}", "INVALID_VERDICT"⟩

/-- `[first]{1,max}` between the ends of the text. -/
def isCode (unit : UInt16 → Bool) (max : Nat) (s : JsString) : Bool :=
  decide (1 ≤ s.length ∧ s.length ≤ max) && s.all unit

/-- `/^[A-Z0-9_.:-]{1,64}$/u`. -/
def symbolPattern : JsString → Bool :=
  isCode (fun u => isUpper u || isDigit u || u == 95 || u == 46 || u == 58 || u == 45) 64

/-- Up to 128 of alphanumerics, `_`, `.`, `:`, `+`, `-` and the slash. -/
def signaturePattern : JsString → Bool :=
  isCode (fun u => isAlnum u || u == 95 || u == 46 || u == 58 || u == 43 || u == 47 || u == 45) 128

def asRecord (value : JsValue) : JsValue := if value.isRecord then value else .object []

def ownKeys : JsValue → Nat
  | .object fields => fields.length
  | _ => 0

def normalizeScore : JsValue → Except CodedError (Option Rat)
  | .undefined | .null => .ok none
  | .number q => .ok (some q)
  | _ => .error (scannerError "Rspamd score must be finite")

def rspamdAction (value : JsValue) : Option RspamdAction :=
  [.accept, .noAction, .softReject, .reject, .quarantine, .unavailable].find? fun a =>
    value.isString (RspamdAction.text a)

def clamAvStatus (value : JsValue) : Option ClamAvStatus :=
  [.clean, .infected, .unavailable].find? fun s => value.isString (ClamAvStatus.text s)

/-- The strings of an array, a few at most. -/
def strings (value : JsValue) (keep : JsString → Bool) (max : Nat) : List JsString :=
  match value with
  | .array items => ((items.filterMap JsValue.asString?).filter keep).take max
  | _ => []

/-- `input.action ?? (input.status === 'ok' ? 'accept' : input.status)`. -/
def candidateAction (input : JsValue) : JsValue :=
  (input.get "action").orElse
    (if (input.get "status").isString (js "ok") then .string (js "accept") else input.get "status")

def normalizeRspamdVerdict (value : JsValue) : Except CodedError RspamdVerdict := do
  let input := asRecord value
  throwIf (ownKeys input == 0 && !value.isRecord) (scannerError "Rspamd verdict must be an object")
  match rspamdAction (candidateAction input) with
  | none => throw (scannerError "Rspamd returned an unsupported action")
  | some action => do
    let symbols := strings (input.get "symbols") symbolPattern 128
    let score ← normalizeScore (input.get "score")
    return ⟨action, score, symbols⟩

def normalizeClamAvVerdict (value : JsValue) : Except CodedError ClamAvVerdict := do
  let input := match value with
    | .string s => .object [(js "status", .string s)]
    | _ => asRecord value
  throwIf (ownKeys input == 0 && !value.isRecord) (scannerError "ClamAV verdict must be an object")
  match clamAvStatus (input.get "status") with
  | none => throw (scannerError "ClamAV returned an unsupported status")
  | some status =>
    let signature := if status = .infected then
      (input.get "signature").asString?.filter signaturePattern else none
    return ⟨status, signature⟩

/-- A scanner: what a call of `scan` on the metadata of a message does. -/
abbrev Scanner := JsValue → Outcome

def safeSize (value : JsValue) : JsValue :=
  match value.asInteger? with
  | some i => if 0 ≤ i ∧ i ≤ maxSafeInteger then value else .undefined
  | none => .undefined

/-- What leaves for the scanner: no content, and only values of the declared
types. -/
def metadataOnly (value : JsValue) : JsValue :=
  let input := asRecord value
  .object [
    (js "sender", match input.get "sender" with | .string s => .string s | _ => .undefined),
    (js "recipients", match input.get "recipients" with
      | .array items => .array ((strings (.array items) (fun _ => true) 256).map .string)
      | _ => .undefined),
    (js "sizeBytes", safeSize (input.get "sizeBytes")),
    (js "messageRef", match input.get "messageRef" with | .string s => .string s | _ => .null)]

def RspamdVerdict.value (v : RspamdVerdict) : JsValue :=
  .object [(js "action", .string v.action.text), (js "score", v.score.elim .null .number),
    (js "symbols", .array (v.symbols.map .string))]

def ClamAvVerdict.value (v : ClamAvVerdict) : JsValue :=
  .object [(js "status", .string v.status.text), (js "signature", v.signature.elim .null .string)]

def unavailableRspamdVerdict : RspamdVerdict := ⟨.unavailable, none, []⟩

def unavailableClamAvVerdict : ClamAvVerdict := ⟨.unavailable, none⟩

/-- A wrapped endpoint: what cannot be read is `unavailable`, unless the logger
itself throws. -/
def wrapScan {ν : Type} (normalize : JsValue → Except CodedError ν) (unavailable : ν) (value : ν → JsValue)
    (scan : Option Scanner) (warn : Outcome) : Scanner := fun message =>
  match scan with
  | none => .returned (value unavailable)
  | some scan =>
    match scan (metadataOnly message) with
    | .returned v =>
      match normalize v with
      | .ok verdict => .returned (value verdict)
      | .error _ => match warn with
        | .threw => .threw
        | .returned _ => .returned (value unavailable)
    | .threw => match warn with
      | .threw => .threw
      | .returned _ => .returned (value unavailable)

def createRspamdScanner : Option Scanner → Outcome → Scanner :=
  wrapScan normalizeRspamdVerdict unavailableRspamdVerdict RspamdVerdict.value

def createClamAvScanner : Option Scanner → Outcome → Scanner :=
  wrapScan normalizeClamAvVerdict unavailableClamAvVerdict ClamAvVerdict.value

end GuloGulo.Mail
