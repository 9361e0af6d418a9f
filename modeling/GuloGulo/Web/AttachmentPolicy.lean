import GuloGulo.Js.Effect
import GuloGulo.Net.ReservedText

/-!
# Attachment URLs

`web/content/attachment-policy.ts`. The URL parser and the resolver are what
they are outside: a URL is what the parser says of a text.
-/

namespace GuloGulo.Web
open Js Net

structure AttachmentPolicyError where
  message : String
  code : String
  deriving DecidableEq, Repr

/-- The error's own text is `Attachment policy error: ` and this message. -/
def attachmentError {α : Type} (message code : String) : Except AttachmentPolicyError α := .error ⟨message, code⟩

/-- What the parser says of a URL; without a port it is the default one. -/
structure Url where
  href : JsString
  protocol : JsString
  username : JsString
  password : JsString
  hostname : JsString
  port : Option Nat

section
variable (host : Host)

def isReservedIpv6 (value : JsString) : Bool :=
  isReservedNormalized ((host.toLowerCase value).filter fun u => u != 91 && u != 93)

def isPrivateOrReservedAddress (address : JsValue) : Bool :=
  match address with
  | .string s =>
    let normalized := host.toLowerCase (trim s)
    if isIP normalized = 4 then isReservedIpv4 normalized
    else if isIP normalized = 6 then isReservedIpv6 host normalized
    else true
  | _ => true

/-- `/^\[|\]$/`. -/
def stripBrackets (s : JsString) : JsString :=
  let rest := if startsWith s [91] then s.drop 1 else s
  if endsWith rest [93] then rest.dropLast else rest

/-- `/\.$/`. -/
def stripDot (s : JsString) : JsString := if endsWith s [46] then s.dropLast else s

def normalizeHost (value : JsString) : JsString := stripDot (stripBrackets (host.toLowerCase value))

def isBlockedHostname (hostname : JsString) : Bool :=
  hostname == js "localhost" || endsWith hostname (js ".localhost") || endsWith hostname (js ".local") ||
    endsWith hostname (js ".internal") || endsWith hostname (js ".home.arpa") ||
    hostname == js "metadata.google.internal" || hostname == js "metadata" ||
    hostname == js "instance-data.ec2.internal"

structure AttachmentUrlOptions where
  allowHttp : Bool := false
  allowHosts : List JsString := []
  allowedPorts : Option (List Rat) := none

structure ValidatedUrl where
  url : JsString
  protocol : JsString
  hostname : JsString
  port : Nat
  redirect : String := "error"
  credentials : String := "omit"
  deriving DecidableEq

variable (parseUrl : JsString → Option Url)

def defaultPort (url : Url) : Nat := if url.protocol = js "https:" then 443 else 80

def validateAttachmentUrl (rawUrl : JsValue) (o : AttachmentUrlOptions) : Except AttachmentPolicyError ValidatedUrl :=
  match rawUrl with
  | .string text =>
    if text.isEmpty then attachmentError "URL must be a non-empty string" "INVALID_URL"
    else match parseUrl text with
      | none => attachmentError "URL is invalid" "INVALID_URL"
      | some url =>
        let hostname := normalizeHost host url.hostname
        if url.protocol ≠ js "https:" ∧ ¬ (o.allowHttp = true ∧ url.protocol = js "http:") then
          attachmentError "only HTTPS URLs are allowed" "UNSAFE_PROTOCOL"
        else if url.username ≠ [] ∨ url.password ≠ [] then
          attachmentError "URL credentials are forbidden" "URL_CREDENTIALS_FORBIDDEN"
        else if isBlockedHostname hostname then attachmentError "hostname is not public" "PRIVATE_HOST_BLOCKED"
        else if isIP hostname ≠ 0 ∧ isPrivateOrReservedAddress host (.string hostname) = true then
          attachmentError "address is not public" "PRIVATE_ADDRESS_BLOCKED"
        else
          let normalizedAllowedHosts := o.allowHosts.map (normalizeHost host)
          if normalizedAllowedHosts ≠ [] ∧ hostname ∉ normalizedAllowedHosts then
            attachmentError "hostname is not allow-listed" "HOST_NOT_ALLOWED"
          else
            let ports := o.allowedPorts.getD [(defaultPort url : Rat)]
            let port := url.port.getD (defaultPort url)
            if (port : Rat) ∉ ports then attachmentError "port is not allowed" "PORT_NOT_ALLOWED"
            else .ok { url := url.href, protocol := url.protocol, hostname, port }
  | _ => attachmentError "URL must be a non-empty string" "INVALID_URL"

/-- What a resolver may answer with. -/
inductive LookupAnswer where
  | text (address : JsString)
  | record (address : JsString)

def LookupAnswer.address : LookupAnswer → JsString
  | text address | record address => address

structure ResolvedUrl where
  validated : ValidatedUrl
  addresses : List JsString

/-- The answers that are not empty. -/
def addressesOf (answers : List LookupAnswer) : List JsString :=
  (answers.map LookupAnswer.address).filter fun address => !address.isEmpty

/-- A resolver that throws answers `none`. -/
def resolveAndValidateAttachmentUrl (rawUrl : JsValue) (o : AttachmentUrlOptions)
    (lookup : JsString → Option (List LookupAnswer)) : Except AttachmentPolicyError ResolvedUrl := do
  let validated ← validateAttachmentUrl host parseUrl rawUrl o
  if isIP validated.hostname ≠ 0 then .ok ⟨validated, [validated.hostname]⟩
  else match lookup validated.hostname with
    | none => attachmentError "hostname could not be resolved" "DNS_RESOLUTION_FAILED"
    | some answers =>
      let addresses := addressesOf answers
      if addresses = [] ∨ (addresses.any fun address => isPrivateOrReservedAddress host (.string address)) = true then
        attachmentError "DNS resolved to a non-public address" "PRIVATE_ADDRESS_BLOCKED"
      else .ok ⟨validated, addresses⟩

end

end GuloGulo.Web
