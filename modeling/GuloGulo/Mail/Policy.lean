import GuloGulo.Mail.Directory

/-!
# The mail policy

`createMailPolicy` of `core/mail/mail-policy.ts`: who may send to whom. The
policy is a value; what its methods change, the submission windows of the
users and how often the clock was read, is their state.
-/

namespace GuloGulo.Mail
open Js Data Integrations

structure MailPolicyOptions where
  tenantId : JsValue
  domain : JsValue
  maxMessageBytes : JsValue
  maxRecipients : JsValue
  maxMessagesPerUserPerMinute : JsValue

structure MailPolicy where
  tenantId : JsString
  domain : JsString
  maxMessageBytes : Nat
  maxRecipients : Nat
  maxMessagesPerUserPerMinute : Nat
  domainValid : domainPattern domain = true
  recipientsBound : 1 ≤ maxRecipients ∧ maxRecipients ≤ 1000
  ratePositive : 1 ≤ maxMessagesPerUserPerMinute

/-- A safe integer between two bounds. -/
def boundedInteger (value : JsValue) (low high : Nat) (message : String) :
    Except (Thrown CodedError) {n : Nat // low ≤ n ∧ n ≤ high} :=
  match value.asInteger? with
  | some i =>
    if h : 0 ≤ i ∧ low ≤ i.toNat ∧ i.toNat ≤ high then .ok ⟨i.toNat, h.2⟩
    else .error (policyError message "INVALID_INPUT")
  | none => .error (policyError message "INVALID_INPUT")

def createMailPolicy (host : Host) (options : MailPolicyOptions) :
    Except (Thrown CodedError) MailPolicy := do
  let domain ← requiredString options.domain "domain"
  if valid : domainPattern (host.toLowerCase domain) = true then do
    let maxMessageBytes ← boundedInteger (options.maxMessageBytes.orDefault (.number 52428800)) 1
      maxSafeInteger "maxMessageBytes must be a positive safe integer"
    let maxRecipients ← boundedInteger (options.maxRecipients.orDefault (.number 100)) 1 1000
      "maxRecipients must be between 1 and 1000"
    let rate ← boundedInteger (options.maxMessagesPerUserPerMinute.orDefault (.number 60)) 1
      maxSafeInteger "maxMessagesPerUserPerMinute must be positive"
    let tenantId ← requiredString options.tenantId "tenantId"
    return ⟨tenantId, host.toLowerCase domain, maxMessageBytes, maxRecipients, rate, valid,
      maxRecipients.property, rate.property.1⟩
  else throw (policyError "domain is invalid" "INVALID_DOMAIN")

structure MailEnvelopeOptions where
  sender : JsValue
  envelopeFrom : JsValue
  recipients : JsValue
  sizeBytes : JsValue
  authenticatedUserId : JsValue
  authenticated : JsValue
  messageRef : JsValue
  users : JsValue
  aliases : MailAliases

inductive Via where
  | mailbox
  | alias (address : JsString)
  deriving DecidableEq

structure ResolvedRecipient where
  address : JsString
  userId : JsString
  via : Via
  deriving DecidableEq

structure RejectedRecipient where
  address : JsString
  reason : String
  deriving DecidableEq

structure Recipients where
  requested : List JsString
  resolved : List ResolvedRecipient
  rejected : List RejectedRecipient
  deriving DecidableEq

def Recipients.accepted (r : Recipients) : Bool := r.rejected.isEmpty && !r.resolved.isEmpty

structure Directory where
  users : UserDirectory
  aliases : AliasTable

def directory (host : Host) (policy : MailPolicy) (users : JsValue) (aliases : MailAliases) :
    Except (Thrown CodedError) Directory := do
  let users ← normalizeUserDirectory host users policy.domain
  let aliases ← normalizeAliases host aliases users policy.domain
  return ⟨users, aliases⟩

def normalizeRecipients (host : Host) (recipients : JsValue) :
    Except (Thrown CodedError) (List JsString) :=
  match recipients with
  | .array (first :: others) => do
    let addresses ← (first :: others).zipIdx.mapM fun r =>
      normalizeAddress host r.1 s!"recipients[{r.2}]"
    return unique addresses
  | _ => .error (policyError "at least one recipient is required" "NO_RECIPIENTS")

def resolveDestination (d : Directory) (address destination : JsString) :
    Except (Thrown CodedError) ResolvedRecipient :=
  match d.users.byAddress.lookup destination with
  | some user => .ok ⟨destination, user.userId, .alias address⟩
  | none => .error (policyError "alias destination does not exist" "INVALID_ALIAS")

/-- What one requested address adds to the resolved and the rejected ones. -/
def resolveAddress (policy : MailPolicy) (d : Directory) (address : JsString) :
    Except (Thrown CodedError) (List ResolvedRecipient × List RejectedRecipient) :=
  if domainPart address != policy.domain then .ok ([], [⟨address, "external_recipient"⟩])
  else
    match d.users.byAddress.lookup address with
    | some user => .ok ([⟨address, user.userId, .mailbox⟩], [])
    | none =>
      match d.aliases.get address with
      | none => .ok ([], [⟨address, "unknown_recipient"⟩])
      | some destinations => do
        let resolved ← destinations.mapM (resolveDestination d address)
        return (resolved, [])

def resolveRecipients (host : Host) (policy : MailPolicy) (recipients users : JsValue)
    (aliases : MailAliases) : Except (Thrown CodedError) Recipients := do
  let d ← directory host policy users aliases
  let requested ← normalizeRecipients host recipients
  throwIf (decide (policy.maxRecipients < requested.length))
    (policyError "recipient limit exceeded" "RECIPIENT_LIMIT")
  let outcomes ← requested.mapM (resolveAddress policy d)
  return ⟨requested, outcomes.flatMap Prod.fst, outcomes.flatMap Prod.snd⟩

def assertMessageSize (policy : MailPolicy) (sizeBytes : JsValue) : Except (Thrown CodedError) Nat :=
  match sizeBytes.asInteger? with
  | some i =>
    if 0 ≤ i ∧ i ≤ maxSafeInteger then
      if i ≤ policy.maxMessageBytes then .ok i.toNat
      else .error (policyError "message size limit exceeded" "MESSAGE_TOO_LARGE")
    else .error (policyError "sizeBytes must be a non-negative safe integer" "INVALID_SIZE")
  | none => .error (policyError "sizeBytes must be a non-negative safe integer" "INVALID_SIZE")

structure InboundAuthorization where
  sender : JsString
  recipients : Recipients
  deriving DecidableEq

def authorizeInbound (host : Host) (policy : MailPolicy) (context : JsValue)
    (options : MailEnvelopeOptions) : Except (Thrown CodedError) InboundAuthorization := do
  let canonical ← assertContext host context
  throwIf (canonical.tenantId != policy.tenantId)
    (policyError "mail policy tenant mismatch" "CROSS_TENANT_ACCESS")
  let sender ← normalizeAddress host options.sender "sender"
  let recipients ← resolveRecipients host policy options.recipients options.users options.aliases
  let _ ← assertMessageSize policy (options.sizeBytes.orElse (.number 0))
  throwIf (!recipients.accepted) (policyError
    "one or more recipients are not explicit tenant mailboxes or aliases" "RECIPIENT_REJECTED")
  return ⟨sender, recipients⟩

/-- `startedAt` is `none` where the clock gave an invalid date. -/
structure SubmissionWindow where
  startedAt : Option Int
  count : Nat
  deriving DecidableEq

structure PolicyState where
  windows : OrderedMap JsString SubmissionWindow
  readings : Nat

def PolicyState.initial : PolicyState := ⟨Table.empty, 0⟩

abbrev PolicyM := Eff (Thrown CodedError) PolicyState

/-- `clock().getTime()`. -/
def now (clock : Nat → Reading) : PolicyM (Option Int) := do
  let s ← Eff.get
  Eff.modify fun s => { s with readings := s.readings + 1 }
  Eff.lift (clock s.readings).date

/-- `now - startedAt >= 60_000`, false where one of them is NaN. -/
def windowOver : Option Int → Option Int → Bool
  | some now, some startedAt => decide (now - startedAt ≥ 60000)
  | _, _ => false

/-- `Math.max(1, 60_000 - (now - startedAt))`. -/
def retryAfter : Option Int → Option Int → Option Int
  | some now, some startedAt => some (max 1 (60000 - (now - startedAt)))
  | _, _ => none

structure RateDecision where
  allowed : Bool
  remaining : Nat
  retryAfterMs : Option Int
  deriving DecidableEq

def consumeSubmissionRate (policy : MailPolicy) (clock : Nat → Reading) (userId : JsValue) :
    PolicyM RateDecision := do
  let key ← Eff.lift (requiredString userId "userId")
  let now ← now clock
  let s ← Eff.get
  match s.windows.get key with
  | none => do
    Eff.modify fun s => { s with windows := s.windows.set key ⟨now, 1⟩ }
    return ⟨true, policy.maxMessagesPerUserPerMinute - 1, some 0⟩
  | some current =>
    if windowOver now current.startedAt then do
      Eff.modify fun s => { s with windows := s.windows.set key ⟨now, 1⟩ }
      return ⟨true, policy.maxMessagesPerUserPerMinute - 1, some 0⟩
    else if current.count ≥ policy.maxMessagesPerUserPerMinute then
      return ⟨false, 0, retryAfter now current.startedAt⟩
    else do
      Eff.modify fun s => { s with windows := s.windows.set key ⟨current.startedAt, current.count + 1⟩ }
      return ⟨true, policy.maxMessagesPerUserPerMinute - (current.count + 1), some 0⟩

def authorizeActor (host : Host) (context : JsValue) (userId : JsString) :
    Except (Thrown CodedError) Actor.TenantContext := do
  let canonical ← assertContext host context
  throwIf (canonical.role == .user && canonical.actorId != some userId)
    (policyError "the user actor cannot submit as another user" "SENDER_FORBIDDEN")
  return canonical

structure SubmissionAuthorization where
  sender : JsString
  requested : List JsString
  resolved : List JsString
  external : List JsString
  authenticatedUserId : JsString
  deriving DecidableEq

/-- `address.endsWith('@' + canonicalDomain)`. -/
def isInternal (policy : MailPolicy) (address : JsString) : Bool := endsWith address (64 :: policy.domain)

/-- The sender is a mailbox of the user, or an alias with the user's mailbox
among its destinations. -/
def ownsSender (d : Directory) (sender userId : JsString) : Bool :=
  (d.users.byAddress.lookup sender).any (fun user => user.userId == userId) ||
    (d.aliases.get sender).any fun destinations =>
      destinations.any fun address =>
        (d.users.byAddress.lookup address).any fun user => user.userId == userId

/-- Everything `authorizeSubmission` checks before the rate. -/
def checkSubmission (host : Host) (policy : MailPolicy) (context : JsValue)
    (options : MailEnvelopeOptions) : Except (Thrown CodedError) SubmissionAuthorization := do
  let userId ← requiredString options.authenticatedUserId "authenticatedUserId"
  let canonical ← authorizeActor host context userId
  throwIf (canonical.tenantId != policy.tenantId)
    (policyError "mail policy tenant mismatch" "CROSS_TENANT_ACCESS")
  throwIf (match options.authenticated with | .bool true => false | _ => true)
    (policyError "authenticated submission is required; open relay is disabled" "OPEN_RELAY_DISABLED")
  let sender ← normalizeAddress host (options.sender.orElse options.envelopeFrom) "sender"
  throwIf (domainPart sender != policy.domain)
    (policyError "submission sender is outside the tenant domain" "SENDER_FORBIDDEN")
  let d ← directory host policy options.users options.aliases
  throwIf (!ownsSender d sender userId)
    (policyError "authenticated user is not authorized for the sender identity" "SENDER_FORBIDDEN")
  let recipients ← normalizeRecipients host options.recipients
  throwIf (decide (policy.maxRecipients < recipients.length))
    (policyError "recipient limit exceeded" "RECIPIENT_LIMIT")
  let internal := recipients.filter (isInternal policy)
  if internal ≠ [] then do
    let resolution ← resolveRecipients host policy (.array (internal.map .string)) options.users options.aliases
    throwIf (!resolution.accepted)
      (policyError "submission contains an unknown internal recipient" "RECIPIENT_REJECTED")
  let _ ← assertMessageSize policy (options.sizeBytes.orElse (.number 0))
  return ⟨sender, recipients, internal, recipients.filter fun a => !isInternal policy a, userId⟩

def authorizeSubmission (host : Host) (policy : MailPolicy) (clock : Nat → Reading) (context : JsValue)
    (options : MailEnvelopeOptions) : PolicyM SubmissionAuthorization := do
  let checked ← Eff.lift (checkSubmission host policy context options)
  let rate ← consumeSubmissionRate policy clock (.string checked.authenticatedUserId)
  Eff.lift (throwIf (!rate.allowed) (policyError "submission rate limit exceeded" "RATE_LIMITED"))
  return checked

structure AuditRecord where
  eventType : JsString
  tenantId : JsString
  actorId : Option JsString
  result : JsString
  reason : JsValue
  details : JsValue
  occurredAt : JsString

def audit (host : Host) (clock : Nat → Reading) (eventType context result reason details : JsValue) :
    PolicyM AuditRecord := do
  let canonical ← Eff.lift (assertContext host context)
  let eventType ← Eff.lift (requiredString eventType "eventType")
  let result ← Eff.lift (requiredString result "result")
  let occurredAt ← now clock
  let occurredAt ← Eff.lift (isoText occurredAt)
  return ⟨eventType, canonical.tenantId, canonical.actorId, result, reason, details, occurredAt⟩

end GuloGulo.Mail
