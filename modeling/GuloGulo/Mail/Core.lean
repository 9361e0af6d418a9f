import GuloGulo.Mail.Policy
import GuloGulo.Mail.Queue
import GuloGulo.Mail.Scanners

/-!
# The mail core

`createMailCore` of `core/mail/mail-core.ts`. A call awaits the scanners, the
quota and LMTP; each of them sees what the call did so far and answers as it
likes, and other calls may change the policy's and the queue's state while it
waits. The trace lists what the call asked of whom and what came back.
-/

namespace GuloGulo.Mail
open Js Data Integrations

structure LmtpDeliveryInput where
  tenantId : JsString
  userId : JsString
  address : JsString
  sizeBytes : JsValue
  messageRef : JsValue

structure Notification where
  userId : JsString
  mailbox : JsValue
  uidNext : JsValue

inductive CoreEvent where
  | rspamd (outcome : Outcome)
  | clamav (outcome : Outcome)
  | reserve (userId : JsString) (outcome : Outcome)
  | deliver (input : LmtpDeliveryInput) (outcome : Outcome)
  | notify (notification : Notification) (outcome : Outcome)
  | enqueue (entry : QueueEntry)

abbrev Trace := List CoreEvent

/-- The options of the core that run code: what each does at a point of the
call, given what the call did before. -/
structure CoreServices where
  /-- `none` where no scanner is passed. -/
  rspamd : Option (Trace → Scanner)
  clamav : Option (Trace → Scanner)
  reserve : Trace → JsString → JsValue → Outcome
  deliver : Trace → LmtpDeliveryInput → Outcome
  notify : Trace → Notification → Outcome
  warn : Trace → Outcome
  policyClock : Trace → Reading
  queue : QueueServices
  /-- Other calls, while this one waits. -/
  meanwhile : Trace → PolicyState × QueueState → PolicyState × QueueState

structure CoreOptions where
  host : Host
  policy : MailPolicy
  queue : MailQueueOptions
  services : CoreServices

structure CoreState where
  policy : PolicyState
  queue : QueueState
  trace : Trace

abbrev CoreM := Eff (Thrown CodedError) CoreState

def coreError (message code : String) : Thrown CodedError := .contract ⟨s!"Mail core error: {message}", code⟩

def onPolicy {α : Type} (m : PolicyM α) : CoreM α := fun s =>
  ((m s.policy).1, { s with policy := (m s.policy).2 })

def onQueue {α : Type} (m : QueueM α) : CoreM α := fun s =>
  ((m s.queue).1, { s with queue := (m s.queue).2 })

def record (event : CoreEvent) : CoreM Unit := Eff.modify fun s => { s with trace := s.trace ++ [event] }

/-- Text of the sources as a value. -/
def text (s : String) : JsValue := .string (js s)

section
variable (core : CoreOptions)

/-- The end of an `await`. -/
def await : CoreM Unit := Eff.modify fun s =>
  let (policy, queue) := core.services.meanwhile s.trace (s.policy, s.queue)
  { s with policy := policy, queue := queue }

def warn : CoreM Unit := do
  let s ← Eff.get
  let _ ← Eff.lift (core.services.warn s.trace).value

def messageSize (options : MailEnvelopeOptions) : JsValue := options.sizeBytes.orElse (.number 0)

def messageMetadata (options : MailEnvelopeOptions) : JsValue :=
  .object [(js "sender", options.sender), (js "recipients", options.recipients),
    (js "sizeBytes", messageSize options), (js "messageRef", options.messageRef.orElse .null)]

inductive ScanStatus where
  | accepted
  | rejected
  | quarantined
  | deferred
  deriving DecidableEq

def ScanStatus.text : ScanStatus → JsValue
  | accepted => Mail.text "accepted"
  | rejected => Mail.text "rejected"
  | quarantined => Mail.text "quarantined"
  | deferred => Mail.text "deferred"

structure ScanResult where
  status : ScanStatus
  reason : String
  rspamdVerdict : Option RspamdVerdict
  clamavVerdict : Option ClamAvVerdict

/-- What scanner is asked: the one that was passed, or a wrapper of nothing. -/
def rspamdScanner (trace : Trace) : Scanner :=
  match core.services.rspamd with
  | some scanner => scanner trace
  | none => createRspamdScanner none (core.services.warn trace)

def clamavScanner (trace : Trace) : Scanner :=
  match core.services.clamav with
  | some scanner => scanner trace
  | none => createClamAvScanner none (core.services.warn trace)

/-- The verdict in a scanner's answer, if there is one. -/
def verdict {ν : Type} (normalize : JsValue → Except CodedError ν) : Outcome → Option ν
  | .returned v => (normalize v).toOption
  | .threw => none

def scanClamAv (options : MailEnvelopeOptions) (rspamdVerdict : RspamdVerdict) : CoreM ScanResult := do
  let s ← Eff.get
  let outcome := clamavScanner core s.trace (messageMetadata options)
  record (.clamav outcome)
  await core
  match verdict normalizeClamAvVerdict outcome with
  | none => do
    warn core
    return ⟨.deferred, "clamav_unavailable", rspamdVerdict, none⟩
  | some v =>
    match v.status with
    | .infected => return ⟨.quarantined, "malware_detected", rspamdVerdict, v⟩
    | .unavailable => return ⟨.deferred, "clamav_unavailable", rspamdVerdict, v⟩
    | .clean => return ⟨.accepted, "clean", rspamdVerdict, v⟩

def scan (options : MailEnvelopeOptions) : CoreM ScanResult := do
  let s ← Eff.get
  let outcome := rspamdScanner core s.trace (messageMetadata options)
  record (.rspamd outcome)
  await core
  match verdict normalizeRspamdVerdict outcome with
  | none => do
    warn core
    return ⟨.deferred, "rspamd_unavailable", none, none⟩
  | some v =>
    match v.action with
    | .reject => return ⟨.rejected, "spam_policy", v, none⟩
    | .quarantine => return ⟨.quarantined, "rspamd_quarantine", v, none⟩
    | .softReject => return ⟨.deferred, "rspamd_soft_reject", v, none⟩
    | .unavailable => return ⟨.deferred, "rspamd_unavailable", v, none⟩
    | .accept | .noAction => scanClamAv core options v

inductive MailStatus where
  | rejected
  | quarantined
  | deferred
  | partialDelivery
  | delivered
  | queued
  deriving DecidableEq

structure MailResult where
  status : MailStatus
  reason : Option String
  delivered : List JsString
  queue : Option QueueEntry
  audit : AuditRecord

/-- The status of a message that did not pass. -/
def ScanStatus.refusal : ScanStatus → MailStatus
  | rejected => .rejected
  | quarantined => .quarantined
  | _ => .deferred

def auditCall (context : JsValue) (eventType : String) (result : JsValue) (reason : String)
    (details : List (String × JsValue)) : CoreM AuditRecord := do
  let s ← Eff.get
  onPolicy (audit core.host (fun _ => core.services.policyClock s.trace) (text eventType) context result
    (text reason) (.object (details.map fun d => (js d.1, d.2))))

/-- The recipients, which the policy has read as texts. -/
def recipientTexts : JsValue → Option (List JsString)
  | .array items => items.mapM JsValue.asString?
  | _ => none

/-- `queue.enqueue` of the metadata of the message. -/
def enqueue (context : JsValue) (options : MailEnvelopeOptions) (reason : String) : CoreM QueueEntry := do
  let entry ← onQueue (Queue.enqueue core.host core.services.queue context
    ⟨options.sender, recipientTexts options.recipients, messageSize options,
      options.messageRef.orElse .null, js reason⟩)
  record (.enqueue entry)
  return entry

def isAccepted : Outcome → Bool
  | .returned v => match v.get "accepted" with
    | .bool true => true
    | _ => false
  | .threw => false

def hasStatus (status : String) : Outcome → Bool
  | .returned v => (v.get "status").isString (js status)
  | .threw => false

inductive Delivery where
  | delivered
  | temporary
  | failed

def lmtpInput (options : MailEnvelopeOptions) (recipient : ResolvedRecipient) : LmtpDeliveryInput :=
  ⟨core.policy.tenantId, recipient.userId, recipient.address, messageSize options,
    options.messageRef.orElse .null⟩

def notification (recipient : ResolvedRecipient) (delivery : JsValue) : Notification :=
  ⟨recipient.userId, (delivery.get "mailbox").orElse (text "INBOX"), (delivery.get "uidNext").orElse .null⟩

/-- One recipient: reserve, deliver, notify. -/
def deliverTo (options : MailEnvelopeOptions) (recipient : ResolvedRecipient) : CoreM Delivery := do
  let s ← Eff.get
  let reservation := core.services.reserve s.trace recipient.userId (messageSize options)
  record (.reserve recipient.userId reservation)
  await core
  let _ ← Eff.lift reservation.value
  Eff.lift (throwIf (!isAccepted reservation)
    (coreError "mail delivery would exceed the assigned quota" "QUOTA_EXCEEDED"))
  let s ← Eff.get
  let delivery := core.services.deliver s.trace (lmtpInput core options recipient)
  record (.deliver (lmtpInput core options recipient) delivery)
  await core
  let answer ← Eff.lift delivery.value
  if hasStatus "temporary_failure" delivery then return .temporary
  else if !hasStatus "delivered" delivery then return .failed
  else do
    let s ← Eff.get
    let outcome := core.services.notify s.trace (notification recipient answer)
    record (.notify (notification recipient answer) outcome)
    let _ ← Eff.lift outcome.value
    return .delivered

/-- How the loop over the recipients ends. -/
inductive Deliveries where
  | finished (delivered : List ResolvedRecipient) (deferred : List JsString)
  | rejected (address : JsString)

def deliverAll (options : MailEnvelopeOptions) :
    List ResolvedRecipient → List ResolvedRecipient → List JsString → CoreM Deliveries
  | [], delivered, deferred => return .finished delivered deferred
  | recipient :: rest, delivered, deferred => do
    match ← deliverTo core options recipient with
    | .delivered => deliverAll options rest (delivered ++ [recipient]) deferred
    | .temporary => deliverAll options rest delivered (deferred ++ [recipient.address])
    | .failed => return .rejected recipient.address

/-- What follows the loop. -/
def settle (context : JsValue) (options : MailEnvelopeOptions) (details : List (String × JsValue)) :
    Deliveries → CoreM MailResult
  | .rejected address => do
    let audit ← auditCall core context "mail.delivery.failed" (text "rejected") "lmtp_failure"
      (details ++ [("address", .string address)])
    return ⟨.rejected, some "lmtp_failure", [], none, audit⟩
  | .finished delivered [] => do
    let audit ← auditCall core context "mail.delivery.accepted" (text "accepted") "delivered" details
    return ⟨.delivered, none, delivered.map (·.address), none, audit⟩
  | .finished delivered (_ :: _) => do
    let queued ← enqueue core context options "lmtp_temporary_failure"
    let audit ← auditCall core context "mail.delivery.failed" (text "deferred") "lmtp_temporary_failure"
      (details ++ [("queueId", .string queued.queueId)])
    return ⟨if delivered.isEmpty then .deferred else .partialDelivery, none, delivered.map (·.address),
      some queued, audit⟩

/-- `receiveInbound` after the scan. -/
def answerInbound (context : JsValue) (options : MailEnvelopeOptions) (authorization : InboundAuthorization)
    (result : ScanResult) : CoreM MailResult :=
  let details : List (String × JsValue) := [("path", text "inbound"),
    ("recipientCount", .number authorization.recipients.resolved.length), ("sizeBytes", messageSize options)]
  match result.status with
  | .deferred => do
    let queued ← enqueue core context options result.reason
    let audit ← auditCall core context "mail.delivery.failed" (text "deferred") result.reason
      (details ++ [("queueId", .string queued.queueId)])
    return ⟨.deferred, some result.reason, [], some queued, audit⟩
  | .rejected | .quarantined => do
    let audit ← auditCall core context "mail.delivery.failed" result.status.text result.reason details
    return ⟨result.status.refusal, some result.reason, [], none, audit⟩
  | .accepted => do
    let deliveries ← deliverAll core options authorization.recipients.resolved [] []
    settle core context options details deliveries

def receiveInbound (context : JsValue) (options : MailEnvelopeOptions) : CoreM MailResult := do
  let authorization ← Eff.lift (authorizeInbound core.host core.policy context options)
  let result ← scan core options
  answerInbound core context options authorization result

/-- `submit` after the scan. -/
def answerSubmission (context : JsValue) (options : MailEnvelopeOptions)
    (authorization : SubmissionAuthorization) (result : ScanResult) : CoreM MailResult :=
  if result.status ≠ .accepted then do
    let audit ← auditCall core context "mail.delivery.failed" result.status.text result.reason
      [("path", text "submission"), ("sizeBytes", messageSize options)]
    return ⟨result.status.refusal, some result.reason, [], none, audit⟩
  else do
    let queued ← enqueue core context options "authenticated_submission"
    let audit ← auditCall core context "mail.queue.enqueued" (text "accepted") "authenticated_submission"
      [("path", text "submission"), ("queueId", .string queued.queueId),
        ("recipientCount", .number authorization.requested.length)]
    return ⟨.queued, none, [], some queued, audit⟩

def submit (context : JsValue) (options : MailEnvelopeOptions) : CoreM MailResult := do
  let s ← Eff.get
  let authorization ← onPolicy
    (authorizeSubmission core.host core.policy (fun _ => core.services.policyClock s.trace) context options)
  let result ← scan core options
  answerSubmission core context options authorization result

end

end GuloGulo.Mail
