import GuloGulo.Abuse.Limiter

/-!
# The abuse guard

`createAbuseGuard` of `core/ops/abuse/index.ts`: failures in a window lock a
subject out and quarantine it, an operator may quarantine or release it, and
`check` refuses requests that name a blocked subject.
-/

namespace GuloGulo.Abuse
open Js Data

inductive SubjectType where
  | tenant | ip | session | user
  deriving DecidableEq, Repr

def SubjectType.name : SubjectType → String
  | tenant => "tenant"
  | ip => "ip"
  | session => "session"
  | user => "user"

def ABUSE_SUBJECT_TYPES : List SubjectType := [.tenant, .ip, .session, .user]

/-- `SAFE_REASON_PATTERN`. -/
def safeReasonPattern : JsString → Bool :=
  isName isAlnum (fun u => isAlnum u || u == 46 || u == 95 || u == 58 || u == 45) 127

def assertSubjectType (subjectType : JsValue) : Except AbuseError SubjectType :=
  match ABUSE_SUBJECT_TYPES.find? fun t => subjectType.isString (js t.name) with
  | some t => .ok t
  | none => .error (abuseError "subjectType is unsupported" "INVALID_SUBJECT")

def assertReason (reason : JsValue) : Except AbuseError JsString := assertString reason "reason" safeReasonPattern 128

structure LockoutPolicy where
  failureThreshold : Nat
  failureWindowMs : Nat
  lockoutMs : Nat
  quarantineThreshold : Nat
  quarantineMs : Nat
  threshold_low : 1 ≤ failureThreshold
  threshold_high : failureThreshold ≤ 1000
  window_low : 1000 ≤ failureWindowMs
  window_high : failureWindowMs ≤ 86400000
  lockout_low : 1000 ≤ lockoutMs
  lockout_high : lockoutMs ≤ 86400000
  quarantineThreshold_low : 1 ≤ quarantineThreshold
  quarantineThreshold_high : quarantineThreshold ≤ 10000
  quarantine_low : 1000 ≤ quarantineMs
  quarantine_high : quarantineMs ≤ 604800000

def normalizeLockoutPolicy (policy : JsValue) : Except AbuseError LockoutPolicy := do
  let policy := policy.orDefault (.object [])
  assertPlainObject policy "lockoutPolicy"
  let field (name : String) (standard : Nat) := (policy.get name).orElse (.number standard)
  let failureThreshold ← assertInteger (field "failureThreshold" 5) "failureThreshold" 1 1000
  let failureWindowMs ← assertInteger (field "failureWindowMs" 900000) "failureWindowMs" 1000 86400000
  let lockoutMs ← assertInteger (field "lockoutMs" 900000) "lockoutMs" 1000 86400000
  let quarantineThreshold ← assertInteger (field "quarantineThreshold" 10) "quarantineThreshold" 1 10000
  let quarantineMs ← assertInteger (field "quarantineMs" 3600000) "quarantineMs" 1000 604800000
  return ⟨failureThreshold.1, failureWindowMs.1, lockoutMs.1, quarantineThreshold.1, quarantineMs.1,
    failureThreshold.2.1, failureThreshold.2.2, failureWindowMs.2.1, failureWindowMs.2.2, lockoutMs.2.1, lockoutMs.2.2,
    quarantineThreshold.2.1, quarantineThreshold.2.2, quarantineMs.2.1, quarantineMs.2.2⟩

/-- What `createAbuseGuard` closes over and does not change. -/
structure AbuseGuard where
  limiter : RateLimiter
  policy : LockoutPolicy

def createAbuseGuard (limits lockoutPolicy : JsValue) : Except AbuseError AbuseGuard := do
  let limiter ← createRateLimiter limits .undefined
  let policy ← normalizeLockoutPolicy lockoutPolicy
  return { limiter, policy }

structure GuardState where
  buckets : Buckets
  failures : OrderedMap JsString Bucket
  lockouts : OrderedMap JsString Int
  quarantines : OrderedMap JsString Int

def GuardState.empty : GuardState := ⟨Table.empty, Table.empty, Table.empty, Table.empty⟩

structure Subject where
  tenantId : JsString
  subjectType : SubjectType
  subject : JsString
  deriving DecidableEq

def Subject.digest (x : Subject) (host : Host) : JsString :=
  hex (host.sha256 (utf8 (js x.subjectType.name ++ [0] ++ x.subject)))

def readSubject (tenantId subjectType subject : JsValue) : Except AbuseError Subject := do
  let tenantId ← assertId tenantId "tenantId"
  let subjectType ← assertSubjectType subjectType
  let subject ← assertString subject "subject" anyText 512
  return { tenantId, subjectType, subject }

def Subject.key (x : Subject) (host : Host) : JsString :=
  x.tenantId ++ 58 :: (js x.subjectType.name ++ 58 :: x.digest host)

structure AbuseAuditEvent where
  action : String
  channel : AbuseChannel
  outcome : String
  tenantId : JsString
  subjectType : SubjectType
  subjectDigest : JsString
  reason : JsString
  details : List (String × Nat)
  occurredAt : JsString

/-- `createAbuseAuditEvent` on what the guard passes: it has read the subject
and the reason, its details hold numbers only. -/
def createAbuseAuditEvent (host : Host) (action : String) (channel : AbuseChannel) (outcome : String) (x : Subject)
    (reason : JsString) (details : List (String × Nat)) (occurredAt : Int) : AbuseAuditEvent :=
  { action, channel, outcome, tenantId := x.tenantId, subjectType := x.subjectType, subjectDigest := x.digest host,
    reason, details, occurredAt := isoString occurredAt }

/-- `onAudit` hears an event, and may throw. -/
def emit (onAudit : Answer) (event : AbuseAuditEvent) : Except (Thrown AbuseError) AbuseAuditEvent :=
  match onAudit with
  | .threw => .error .foreign
  | .returned _ => .ok event

structure SubjectStatus where
  blocked : Bool
  locked : Bool
  quarantined : Bool
  lockoutUntil : Option JsString
  quarantineUntil : Option JsString

/-- The text of the end of a block that is on. -/
def untilText (on : Bool) (t : Int) : Except (Thrown AbuseError) (Option JsString) :=
  if on then (timeText t).map some else .ok none

def status (host : Host) (tenantId subjectType subject now : JsValue) (clock : Answer) :
    Eff (Thrown AbuseError) GuardState SubjectStatus := do
  let timestamp ← Eff.lift (nowMilliseconds host clock now)
  let x ← Eff.check (readSubject tenantId subjectType subject)
  let s ← Eff.get
  let lockoutUntil := (s.lockouts.get (x.key host)).getD 0
  let quarantineUntil := (s.quarantines.get (x.key host)).getD 0
  let locked := decide (timestamp < lockoutUntil)
  let quarantined := decide (timestamp < quarantineUntil)
  let lockoutText ← Eff.lift (untilText locked lockoutUntil)
  let quarantineText ← Eff.lift (untilText quarantined quarantineUntil)
  return {
    blocked := locked || quarantined, locked, quarantined, lockoutUntil := lockoutText,
    quarantineUntil := quarantineText }

structure SubjectInput where
  tenantId : JsValue
  subjectType : JsValue
  subject : JsValue
  channel : JsValue
  reason : JsValue
  durationMs : JsValue
  now : JsValue

/-- What is read of a report about a subject. -/
structure Report (α : Type) where
  timestamp : Int
  channel : AbuseChannel
  rest : α
  subject : Subject

/-- The checks of a report, in their order; `checks` are those between the
channel and the subject. -/
def readReport {α : Type} (host : Host) (defaultChannel : String) (checks : Except AbuseError α) (input : SubjectInput)
    (clock : Answer) : Except (Thrown AbuseError) (Report α) := do
  let timestamp ← nowMilliseconds host clock input.now
  let channel ← (assertChannel (input.channel.orDefault (.string (js defaultChannel)))).mapError .contract
  let rest ← checks.mapError .contract
  let subject ← (readSubject input.tenantId input.subjectType input.subject).mapError .contract
  return { timestamp, channel, rest, subject }

structure FailureResult where
  count : Nat
  locked : Bool
  quarantined : Bool
  lockoutUntil : Option JsString
  quarantineUntil : Option JsString
  audit : AbuseAuditEvent

def readFailure (host : Host) (input : SubjectInput) (clock : Answer) : Except (Thrown AbuseError) (Report JsString) :=
  readReport host "login" (assertReason (input.reason.orDefault (.string (js "authentication-failure")))) input clock

/-- The bucket of a failure: one more in the window that is running. -/
def failureBucket (policy : LockoutPolicy) (s : GuardState) (key : JsString) (timestamp : Int) : Bucket :=
  let bucket := currentBucket s.failures key policy.failureWindowMs timestamp
  { bucket with count := bucket.count + 1 }

def noteFailure (policy : LockoutPolicy) (key : JsString) (timestamp : Int) (s : GuardState) : GuardState :=
  let bucket := failureBucket policy s key timestamp
  { s with
    failures := s.failures.set key bucket
    lockouts := if policy.failureThreshold ≤ bucket.count then s.lockouts.set key (timestamp + policy.lockoutMs) else s.lockouts
    quarantines :=
      if policy.quarantineThreshold ≤ bucket.count then s.quarantines.set key (timestamp + policy.quarantineMs)
      else s.quarantines }

def recordFailure (host : Host) (policy : LockoutPolicy) (input : SubjectInput) (clock onAudit : Answer) :
    Eff (Thrown AbuseError) GuardState FailureResult := do
  let report ← Eff.lift (readFailure host input clock)
  let s ← Eff.get
  let key := report.subject.key host
  let bucket := failureBucket policy s key report.timestamp
  Eff.modify (noteFailure policy key report.timestamp)
  let locked := decide (policy.failureThreshold ≤ bucket.count)
  let quarantined := decide (policy.quarantineThreshold ≤ bucket.count)
  let outcome := if quarantined then "quarantined" else if locked then "locked" else "rejected"
  let event := createAbuseAuditEvent host "abuse.failure" report.channel outcome report.subject report.rest
    [("count", bucket.count), ("threshold", policy.failureThreshold)] report.timestamp
  let lockoutUntil ← Eff.lift (untilText locked (report.timestamp + policy.lockoutMs))
  let quarantineUntil ← Eff.lift (untilText quarantined (report.timestamp + policy.quarantineMs))
  let audit ← Eff.lift (emit onAudit event)
  return { count := bucket.count, locked, quarantined, lockoutUntil, quarantineUntil, audit }

def readSuccess (host : Host) (input : SubjectInput) (clock : Answer) : Except (Thrown AbuseError) (Report Unit) :=
  readReport host "login" (.ok ()) input clock

def noteSuccess (key : JsString) (s : GuardState) : GuardState :=
  { s with failures := s.failures.delete key, lockouts := s.lockouts.delete key }

def recordSuccess (host : Host) (input : SubjectInput) (clock onAudit : Answer) :
    Eff (Thrown AbuseError) GuardState AbuseAuditEvent := do
  let report ← Eff.lift (readSuccess host input clock)
  Eff.modify (noteSuccess (report.subject.key host))
  let event := createAbuseAuditEvent host "abuse.recovery" report.channel "released" report.subject
    (js "authenticated-success") [] report.timestamp
  Eff.lift (emit onAudit event)

structure QuarantineResult where
  quarantineUntil : JsString
  audit : AbuseAuditEvent

/-- The duration and the reason of a quarantine. -/
def readQuarantine (host : Host) (policy : LockoutPolicy) (input : SubjectInput) (clock : Answer) :
    Except (Thrown AbuseError) (Report (Nat × JsString)) :=
  readReport host "api" (do
    let durationMs ← assertInteger (input.durationMs.orDefault (.number policy.quarantineMs)) "durationMs" 1000 604800000
    let reason ← assertReason (input.reason.orDefault (.string (js "operator-quarantine")))
    return (durationMs.1, reason)) input clock

def noteQuarantine (key : JsString) (quarantineUntil : Int) (s : GuardState) : GuardState :=
  { s with quarantines := s.quarantines.set key quarantineUntil }

def quarantineSubject (host : Host) (policy : LockoutPolicy) (input : SubjectInput) (clock onAudit : Answer) :
    Eff (Thrown AbuseError) GuardState QuarantineResult := do
  let report ← Eff.lift (readQuarantine host policy input clock)
  let (durationMs, reason) := report.rest
  Eff.modify (noteQuarantine (report.subject.key host) (report.timestamp + durationMs))
  let event := createAbuseAuditEvent host "abuse.quarantine" report.channel "quarantined" report.subject reason
    [("durationMs", durationMs)] report.timestamp
  let quarantineUntil ← Eff.lift (timeText (report.timestamp + durationMs))
  let audit ← Eff.lift (emit onAudit event)
  return { quarantineUntil, audit }

def readRelease (host : Host) (input : SubjectInput) (clock : Answer) : Except (Thrown AbuseError) (Report JsString) :=
  readReport host "api" (assertReason (input.reason.orDefault (.string (js "operator-release")))) input clock

def noteRelease (key : JsString) (s : GuardState) : GuardState :=
  { s with
    quarantines := s.quarantines.delete key
    lockouts := s.lockouts.delete key
    failures := s.failures.delete key }

def releaseSubject (host : Host) (input : SubjectInput) (clock onAudit : Answer) :
    Eff (Thrown AbuseError) GuardState AbuseAuditEvent := do
  let report ← Eff.lift (readRelease host input clock)
  Eff.modify (noteRelease (report.subject.key host))
  let event := createAbuseAuditEvent host "abuse.release" report.channel "released" report.subject report.rest []
    report.timestamp
  Eff.lift (emit onAudit event)

structure CheckInput where
  channel : JsValue
  tenantId : JsValue
  ipAddress : JsValue
  sessionId : JsValue
  userId : JsValue
  cost : JsValue
  now : JsValue

inductive CheckDecision where
  | blocked (blockedBy : List SubjectType)
  | limited (decision : RateDecision)

def CheckDecision.allowed : CheckDecision → Bool
  | blocked _ => false
  | limited decision => decision.allowed

/-- The subjects that a request names. -/
def candidates (identity : RateIdentity) (userId : Option JsString) : List (SubjectType × JsString) :=
  (.tenant, identity.tenantId) :: (identity.ipAddress.map (SubjectType.ip, ·)).toList ++
    (identity.sessionId.map (SubjectType.session, ·)).toList ++ (userId.map (SubjectType.user, ·)).toList

/-- The loop over the candidates; each of them reads the clock. -/
def blockedBy (host : Host) (tenantId : JsString) (now : JsValue) (clock : Nat → Answer) :
    Nat → List (SubjectType × JsString) → Eff (Thrown AbuseError) GuardState (List SubjectType)
  | _, [] => pure []
  | i, (subjectType, subject) :: rest => do
    let state ← status host (.string tenantId) (.string (js subjectType.name)) (.string subject) now (clock i)
    let others ← blockedBy host tenantId now clock (i + 1) rest
    return if state.blocked then subjectType :: others else others

/-- A computation on the buckets of the limiter. -/
def onBuckets {α : Type} (m : Eff (Thrown AbuseError) Buckets α) : Eff (Thrown AbuseError) GuardState α := fun s =>
  match m s.buckets with
  | (r, buckets) => (r, { s with buckets })

/-- A text, or `null`. -/
def textValue (text : Option JsString) : JsValue := (text.map JsValue.string).getD .null

def readCheck (input : CheckInput) : Except AbuseError (RateIdentity × Option JsString) := do
  let identity ← normalizeRateIdentity input.tenantId input.ipAddress input.sessionId
  let userId ← if input.userId.isNullish then .ok none else (assertId input.userId "userId").map some
  return (identity, userId)

def check (host : Host) (guard : AbuseGuard) (input : CheckInput) (clock : Nat → Answer) :
    Eff (Thrown AbuseError) GuardState CheckDecision := do
  let (identity, userId) ← Eff.check (readCheck input)
  let names := candidates identity userId
  let blockedBy ← blockedBy host identity.tenantId input.now clock 0 names
  if blockedBy.isEmpty then do
    let decision ← onBuckets (consume host guard.limiter
      ⟨input.channel, .string identity.tenantId, textValue identity.ipAddress, textValue identity.sessionId, input.cost,
        input.now⟩ (clock names.length))
    return .limited decision
  else return .blocked blockedBy

end GuloGulo.Abuse
