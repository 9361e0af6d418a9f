import GuloGulo.Js.Date
import GuloGulo.Js.Effect

/-!
# Secret references, versions and errors

What `core/secrets/secret-store.ts` checks and throws.
-/

namespace GuloGulo.Secrets
open Js

inductive SecretErrorCode where
  | invalidReference
  | referenceNotAllowlisted
  | invalidInput
  | invalidVersion
  | invalidExpiry
  | invalidCorrelationId
  | secretNotFound
  | secretUnavailable
  | secretExpired
  | secretExpiring
  | secretTooLarge
  | secretFileUnsafe
  | secretStateInvalid
  | versionConflict
  | versionNotFound
  | unchangedSecret
  | rollbackNotAvailable
  | rollbackWindowExpired
  | rotationLockTimeout
  | auditUnavailable
  deriving DecidableEq, Repr

def SecretErrorCode.text : SecretErrorCode → String
  | invalidReference => "INVALID_REFERENCE"
  | referenceNotAllowlisted => "REFERENCE_NOT_ALLOWLISTED"
  | invalidInput => "INVALID_INPUT"
  | invalidVersion => "INVALID_VERSION"
  | invalidExpiry => "INVALID_EXPIRY"
  | invalidCorrelationId => "INVALID_CORRELATION_ID"
  | secretNotFound => "SECRET_NOT_FOUND"
  | secretUnavailable => "SECRET_UNAVAILABLE"
  | secretExpired => "SECRET_EXPIRED"
  | secretExpiring => "SECRET_EXPIRING"
  | secretTooLarge => "SECRET_TOO_LARGE"
  | secretFileUnsafe => "SECRET_FILE_UNSAFE"
  | secretStateInvalid => "SECRET_STATE_INVALID"
  | versionConflict => "VERSION_CONFLICT"
  | versionNotFound => "VERSION_NOT_FOUND"
  | unchangedSecret => "UNCHANGED_SECRET"
  | rollbackNotAvailable => "ROLLBACK_NOT_AVAILABLE"
  | rollbackWindowExpired => "ROLLBACK_WINDOW_EXPIRED"
  | rotationLockTimeout => "ROTATION_LOCK_TIMEOUT"
  | auditUnavailable => "AUDIT_UNAVAILABLE"

/-- What is thrown: a system error by its code, a `SecretStoreError`, or
anything else. `transient` is one of `TRANSIENT_FILE_CODES`. -/
inductive SecretFailure where
  | enoent
  | eexist
  | transient
  | store (code : SecretErrorCode)
  | other
  deriving DecidableEq, Repr

def secretErrorCode : SecretFailure → SecretErrorCode
  | .store code => code
  | _ => .secretUnavailable

def isNameUnit (u : UInt16) : Bool := isAlnum u || u == 46 || u == 95 || u == 45

/-- `SECRET_REFERENCE_PATTERN`. -/
def secretReferencePattern : JsString → Bool := isName isAlnum (fun u => isNameUnit u || u == 47) 127

/-- `SECRET_VERSION_PATTERN`. -/
def secretVersionPattern : JsString → Bool := isName isAlnum isNameUnit 127

/-- `SECRET_CORRELATION_ID_PATTERN`. -/
def secretCorrelationIdPattern : JsString → Bool := isName isAlnum (fun u => isNameUnit u || u == 58) 127

def assertSecretReference (reference : JsValue) (allowlist : List JsString) : Except SecretErrorCode JsString :=
  match reference with
  | .string s =>
    if !secretReferencePattern s then .error .invalidReference
    else if s ∈ allowlist then .ok s
    else .error .referenceNotAllowlisted
  | _ => .error .invalidReference

def assertSecretVersion (version : JsValue) : Except SecretErrorCode JsString :=
  match version with
  | .string s => if secretVersionPattern s then .ok s else .error .invalidVersion
  | _ => .error .invalidVersion

def readCorrelationId (value : JsValue) : Except SecretErrorCode (Option JsString) :=
  if value.isNullish then .ok none
  else match value with
    | .string s => if secretCorrelationIdPattern s then .ok (some s) else .error .invalidCorrelationId
    | _ => .error .invalidCorrelationId

def readMinimumValidity (value : JsValue) : Except SecretErrorCode Int :=
  if value.isUndefined then .ok 0
  else match value.asInteger? with
    | some n => if 0 ≤ n ∧ n ≤ 86400000 then .ok n else .error .invalidInput
    | none => .error .invalidInput

inductive SecretAuditAction where
  | read
  | rotate
  | rollback
  deriving DecidableEq, Repr

inductive SecretAuditResult where
  | success
  | denied
  | failed
  deriving DecidableEq, Repr

/-- `occurredAt` is what the clock shows when the event is handed over; the
source and the schema version never change. -/
structure SecretAuditEvent where
  action : SecretAuditAction
  result : SecretAuditResult
  reference : JsString
  correlationId : Option JsString
  version : Option JsString
  reason : Option SecretErrorCode
  deriving DecidableEq, Repr

structure SecretMetadata where
  reference : JsString
  version : JsString
  createdAt : Int
  expiresAt : Int
  deriving DecidableEq, Repr

structure SecretLease where
  value : JsString
  metadata : SecretMetadata
  deriving DecidableEq, Repr

inductive SecretMutationAction where
  | rotated
  | rolledBack
  deriving DecidableEq, Repr

structure SecretMutationResult where
  reference : JsString
  action : SecretMutationAction
  activeVersion : JsString
  previousVersion : Option JsString
  occurredAt : Int
  expiresAt : Int
  rollbackUntil : Option Int
  deriving DecidableEq, Repr

inductive SecretStatusState where
  | ready
  | expired
  | unavailable
  deriving DecidableEq, Repr

structure SecretStatus where
  reference : JsString
  state : SecretStatusState
  activeVersion : Option JsString
  previousVersion : Option JsString
  createdAt : Option Int
  expiresAt : Option Int
  rollbackUntil : Option Int
  reason : Option SecretErrorCode
  deriving DecidableEq, Repr

end GuloGulo.Secrets
