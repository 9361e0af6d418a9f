import GuloGulo.Data.Table
import GuloGulo.Mail.Runtime

/-!
# The mail queue

`createMailQueue` of `core/mail/mail-queue.ts`. Its methods write the fields of
an entry one after the other, and the clock can throw between two of them; a
specification below says what is left in either case.
-/

namespace GuloGulo.Mail
open Js Data Integrations

inductive MailQueueState where
  | queued
  | delivering
  | deferred
  | delivered
  | bounced
  | quarantined
  deriving DecidableEq

structure QueueEntry where
  queueId : JsString
  tenantId : JsString
  sender : JsString
  recipients : List JsString
  sizeBytes : Int
  state : MailQueueState
  attempts : Nat
  createdAt : JsString
  updatedAt : JsString
  nextAttemptAt : JsString
  reason : JsString
  messageRef : JsValue

structure MailQueueOptions where
  maxAttempts : Nat
  retryBaseMs : Nat
  attemptsBound : 1 ≤ maxAttempts ∧ maxAttempts ≤ 100
  retryBound : 1000 ≤ retryBaseMs ∧ retryBaseMs ≤ maxSafeInteger

/-- `clock` and `idFactory`, by how often they were called; `none` throws. -/
structure QueueServices where
  clock : Nat → Reading
  makeId : Nat → Option JsString

structure QueueState where
  entries : OrderedMap JsString QueueEntry
  readings : Nat
  ids : Nat

abbrev QueueM := Eff (Thrown CodedError) QueueState

def queueError (message code : String) : Thrown CodedError :=
  .contract ⟨s!"Mail queue error: {message}", code⟩

/-- Up to 96 of alphanumerics, `_`, `.`, `:` and `-`. -/
def safeReason (reason : JsString) : JsString :=
  if decide (1 ≤ reason.length ∧ reason.length ≤ 96) &&
      reason.all (fun u => isAlnum u || u == 95 || u == 46 || u == 58 || u == 45) then reason
  else js "unspecified"

/-- The factory that is used when none is passed. -/
def defaultId (sequence : Nat) : Option JsString := some (js "q-" ++ pad 8 (sequence + 1))

variable (host : Host) (options : MailQueueOptions) (services : QueueServices)

namespace Queue

/-- `clock().getTime()`. -/
def readClock : QueueM (Option Int) := do
  let s ← Eff.get
  Eff.modify fun s => { s with readings := s.readings + 1 }
  Eff.lift (services.clock s.readings).date

/-- `clock().toISOString()`. -/
def now : QueueM JsString := do
  let time ← readClock services
  Eff.lift (isoText time)

def makeId : QueueM JsString := do
  let s ← Eff.get
  Eff.modify fun s => { s with ids := s.ids + 1 }
  match services.makeId s.ids with
  | some id => return id
  | none => Eff.lift (.error .foreign)

def get (queueId : JsString) : QueueM QueueEntry := do
  let s ← Eff.get
  match s.entries.get queueId with
  | some entry => return entry
  | none => Eff.lift (.error (queueError "queue item does not exist" "NOT_FOUND"))

/-- Assignments to the fields of an entry. -/
def assign (queueId : JsString) (f : QueueEntry → QueueEntry) : QueueM Unit :=
  Eff.modify fun s => { s with entries := s.entries.adjust queueId f }

structure QueueEnqueueOptions where
  sender : JsValue
  /-- `none` is not an array. -/
  recipients : Option (List JsString)
  sizeBytes : JsValue
  messageRef : JsValue
  reason : JsString

/-- A non-negative safe integer. -/
def size (value : JsValue) : Except (Thrown CodedError) Int :=
  match value.asInteger? with
  | some i =>
    if 0 ≤ i ∧ i ≤ maxSafeInteger then .ok i
    else .error (queueError "sizeBytes must be a non-negative safe integer" "INVALID_INPUT")
  | none => .error (queueError "sizeBytes must be a non-negative safe integer" "INVALID_INPUT")

/-- The sender and the recipients, both not empty. -/
def parties (input : QueueEnqueueOptions) : Except (Thrown CodedError) (JsString × List JsString) :=
  match input.sender, input.recipients with
  | .string (u :: s), some (r :: rs) => .ok (u :: s, r :: rs)
  | _, _ => .error (queueError "sender and recipients are required" "INVALID_INPUT")

def enqueue (context : JsValue) (input : QueueEnqueueOptions) : QueueM QueueEntry := do
  let canonical ← Eff.lift (assertContext host context)
  let (sender, recipients) ← Eff.lift (parties input)
  let sizeBytes ← Eff.lift (size (input.sizeBytes.orDefault (.number 0)))
  let timestamp ← now services
  let queueId ← makeId services
  let entry : QueueEntry := ⟨queueId, canonical.tenantId, sender, unique recipients, sizeBytes, .queued, 0,
    timestamp, timestamp, timestamp, safeReason input.reason, input.messageRef.orDefault .null⟩
  Eff.modify fun s => { s with entries := s.entries.set queueId entry }
  return entry

def claim (queueId : JsString) (context : JsValue) : QueueM QueueEntry := do
  let entry ← get queueId
  let _ ← Eff.lift (assertAccess host context entry.tenantId)
  Eff.lift (throwIf (entry.state != .queued && entry.state != .deferred)
    (queueError "queue item is not claimable" "INVALID_STATE"))
  assign queueId fun e => { e with state := .delivering }
  let time ← now services
  assign queueId fun e => { e with updatedAt := time, attempts := e.attempts + 1 }
  get queueId

/-- `new Date(now + retryBaseMs * 2 ** Math.max(0, attempts - 1))`. -/
def nextAttempt (attempts : Nat) (now : Option Int) : Option Int :=
  now.bind fun t => timeClip (t + Int.ofNat (options.retryBaseMs * Nat.pow 2 (attempts - 1)))

def defer (queueId : JsString) (context : JsValue) (reason : JsString) : QueueM QueueEntry := do
  let entry ← get queueId
  let _ ← Eff.lift (assertAccess host context entry.tenantId)
  Eff.lift (throwIf (entry.state != .queued && entry.state != .delivering && entry.state != .deferred)
    (queueError "queue item cannot be deferred" "INVALID_STATE"))
  let state := if entry.attempts ≥ options.maxAttempts then MailQueueState.bounced else .deferred
  assign queueId fun e =>
    { e with state := state, reason := safeReason (if state = .bounced then js "retry_exhausted" else reason) }
  let start ← readClock services
  let next ← Eff.lift (isoText (nextAttempt options entry.attempts start))
  assign queueId fun e => { e with nextAttemptAt := next }
  let time ← now services
  assign queueId fun e => { e with updatedAt := time }
  get queueId

def complete (queueId : JsString) (context : JsValue) (state : MailQueueState) (reason : JsString) :
    QueueM QueueEntry := do
  let entry ← get queueId
  let _ ← Eff.lift (assertAccess host context entry.tenantId)
  Eff.lift (throwIf (state != .delivered && state != .bounced && state != .quarantined)
    (queueError "unsupported terminal queue state" "INVALID_STATE"))
  assign queueId fun e => { e with state := state, reason := safeReason reason }
  let time ← now services
  assign queueId fun e => { e with updatedAt := time }
  get queueId

end Queue

def sampleQueueOptions : MailQueueOptions := ⟨5, 60000, by decide, by decide⟩

end GuloGulo.Mail
