import GuloGulo.Js.Decode
import GuloGulo.Secrets.Files

/-!
# The versioned file store

`core/secrets/versioned-file-secret-store.ts`: one directory of the store, for
a reference that has been checked. Another reference has a directory of its
own. Times stand for their ISO texts.
-/

namespace GuloGulo.Secrets
open Js Sql

/-- `audit` says whether there is a sink. -/
structure NormalizedOptions where
  allowlist : List JsString
  audit : Bool
  readRetryAttempts : Nat
  lockRetryAttempts : Nat
  retryBaseMs : Nat
  lockStaleMs : Nat
  defaultTtlMs : Nat
  maximumTtlMs : Nat
  rollbackWindowMs : Nat
  maximumSecretBytes : Nat
  retainedVersions : Nat

structure VersionMetadataFile where
  version : JsString
  createdAt : Int
  expiresAt : Int
  deriving DecidableEq

structure ActiveStateFile where
  activeVersion : JsString
  previousVersion : Option JsString
  rollbackUntil : Option Int
  updatedAt : Int
  deriving DecidableEq

/-- `isCanonicalTimestamp`, with the time. -/
def canonicalTimestamp : JsValue → Option Int
  | .date time => time
  | _ => none

/-- A string, also one that is a timestamp. -/
def textOf : JsValue → Option JsString
  | .string s => some s
  | .date time => time.map isoString
  | _ => none

/-- A field that may be `null`. -/
def nullable {α : Type} (value : JsValue) (read : JsValue → Option α) : Option (Option α) :=
  match value with
  | .null => some none
  | value => (read value).map some

def isSchemaVersion : JsValue → Bool
  | .number q => decide (q = 1)
  | _ => false

def parseVersionMetadata (contents : Option JsValue) (reference version : JsString) :
    Except SecretErrorCode VersionMetadataFile :=
  match contents with
  | some record =>
    if !record.isRecord || !isSchemaVersion (record.get "schemaVersion") || !(record.get "reference").isString reference ||
        !(record.get "version").isString version then .error .secretStateInvalid
    else match canonicalTimestamp (record.get "createdAt"), canonicalTimestamp (record.get "expiresAt") with
      | some createdAt, some expiresAt => .ok ⟨version, createdAt, expiresAt⟩
      | _, _ => .error .secretStateInvalid
  | none => .error .secretStateInvalid

/-- The fields of a state, before its versions are checked. -/
def stateFields (record : JsValue) (reference : JsString) : Option ActiveStateFile := do
  guard (record.isRecord && isSchemaVersion (record.get "schemaVersion") && (record.get "reference").isString reference)
  let activeVersion ← textOf (record.get "activeVersion")
  let updatedAt ← canonicalTimestamp (record.get "updatedAt")
  let previousVersion ← nullable (record.get "previousVersion") textOf
  let rollbackUntil ← nullable (record.get "rollbackUntil") canonicalTimestamp
  return ⟨activeVersion, previousVersion, rollbackUntil, updatedAt⟩

def parseState (contents : Option JsValue) (reference : JsString) : Except SecretErrorCode ActiveStateFile :=
  match contents.bind fun record => stateFields record reference with
  | some state =>
    if secretVersionPattern state.activeVersion && state.previousVersion.all secretVersionPattern then .ok state
    else .error .invalidVersion
  | none => .error .secretStateInvalid

/-- `JSON.stringify` of metadata. -/
def metadataRecord (reference : JsString) (metadata : VersionMetadataFile) : JsValue :=
  .object [(js "schemaVersion", .number 1), (js "reference", .string reference),
    (js "version", .string metadata.version), (js "createdAt", .date (some metadata.createdAt)),
    (js "expiresAt", .date (some metadata.expiresAt))]

/-- `JSON.stringify` of a state. -/
def stateRecord (reference : JsString) (state : ActiveStateFile) : JsValue :=
  .object [(js "schemaVersion", .number 1), (js "reference", .string reference),
    (js "activeVersion", .string state.activeVersion),
    (js "previousVersion", state.previousVersion.elim .null .string),
    (js "rollbackUntil", state.rollbackUntil.elim .null fun time => .date (some time)),
    (js "updatedAt", .date (some state.updatedAt))]

/-- `.catch(() => {})`. -/
def ignored (operation : Call Unit) : Call Unit := operation.tryCatch fun _ => pure ()

def throwCode {α : Type} (code : SecretErrorCode) : Call α := .throw (.store code)

/-- A check of `secret-store.ts` between operations. -/
def checked {α : Type} (x : Except SecretErrorCode α) : Call α := Program.lift (x.mapError .store)

def refuse (c : Bool) (code : SecretErrorCode) : Call Unit := checked (throwIf c code)

/-- `toISOString`, a `RangeError` for an invalid date. -/
def toISOString (time : Option Int) : Call Int := Program.lift (time.elim (.error .other) .ok)

/-- A value that must not be `null`. -/
def existing {α : Type} (value : Option α) (code : SecretErrorCode) : Call α :=
  Program.lift (value.elim (.error (.store code)) .ok)

/-- `#retry` after so many attempts, with so many left. -/
def retryFrom {α : Type} (o : NormalizedOptions) (operation : Call α) : Nat → Nat → Call α
  | 0, _ => operation
  | left + 1, attempt => operation.tryCatch fun error =>
    if error = .transient then do
      call (.sleep (min 1000 (o.retryBaseMs * Nat.pow 2 attempt)))
      retryFrom o operation left (attempt + 1)
    else .throw error

def retry {α : Type} (o : NormalizedOptions) (operation : Call α) : Call α :=
  retryFrom o operation o.readRetryAttempts 0

/-- What is thrown instead of `ENOENT`. -/
def whenMissing {α : Type} (operation missing : Call α) : Call α :=
  operation.tryCatch fun error => if error = .enoent then missing else .throw error

def audit (o : NormalizedOptions) (event : SecretAuditEvent) : Call Unit :=
  if o.audit then (call (.audit event)).tryCatch fun _ => throwCode .auditUnavailable
  else pure ()

section
variable (o : NormalizedOptions) (reference : JsString)

def readState : Call (Option ActiveStateFile) :=
  whenMissing
    (do
      let serialized ← retry o (call (.readFile .state))
      let state ← checked (parseState serialized reference)
      return some state)
    (pure none)

def readMetadata (version : JsString) : Call VersionMetadataFile :=
  whenMissing
    (do
      let version ← checked (assertSecretVersion (.string version))
      let serialized ← retry o (call (.readFile (.metadata version)))
      checked (parseVersionMetadata serialized reference version))
    (throwCode .versionNotFound)

/-- The version is checked before the `try`. -/
def readValue (version : JsString) : Call JsString := do
  let version ← checked (assertSecretVersion (.string version))
  whenMissing
    (do
      let fileStat ← retry o (call (.statValue version))
      refuse (!fileStat.isFile) .secretFileUnsafe
      refuse (fileStat.size == 0) .secretUnavailable
      refuse (decide (o.maximumSecretBytes < fileStat.size)) .secretTooLarge
      let buffer ← retry o (call (.readFile (.value version)))
      refuse (decide (o.maximumSecretBytes < buffer.length)) .secretTooLarge
      refuse ((utf8Text buffer).isEmpty || (utf8Text buffer).contains 0) .secretUnavailable
      return utf8Text buffer)
    (throwCode .secretNotFound)

/-- `#writeAtomic` of `active.json`. -/
def writeAtomic (contents : Option JsValue) : Call Unit := do
  let id ← call .randomUUID
  call (.temporary (.open id))
  Program.andFinally
    (do
      call (.temporary (.write contents))
      call (.temporary .sync))
    (call (.temporary .close))
  (call (.rename contents)).tryCatch fun error => do
    ignored (call (.temporary .unlink))
    .throw error

/-- What is done with a file that has been opened. -/
def writeOpened (path : Path) (handle : Nat) (contents : path.Contents) : Call Unit :=
  Program.andFinally
    (do
      call (.write path handle contents)
      call (.sync path))
    (call (.close path))

def writeExclusive (path : Path) (contents : path.Contents) : Call Unit := do
  let handle ← (call (.openExclusive path)).tryCatch fun error =>
    if error = .eexist then throwCode .versionConflict else .throw error
  writeOpened path handle contents

/-- Opens the lock file and writes the token. -/
def openLock (lockToken : JsString) : Call JsString := do
  let handle ← call (.openExclusive .lock)
  writeOpened .lock handle lockToken
  return lockToken

/-- Whether a lock that is there is stale, and then has been removed. -/
def removeStale : Call Bool := do
  let mtimeMs ← call .statLock
  let now ← call .now
  if now.any fun time => decide ((o.lockStaleMs : Rat) < time - mtimeMs) then do
    call (.unlink .lock)
    return true
  else return false

/-- One attempt; `next` are the attempts after it. -/
def lockAttempt (attempt : Nat) (last : Bool) (next : Call JsString) : Call JsString := do
  let now ← call .now
  let time ← toISOString now
  let id ← call .randomUUID
  (openLock (isoString time ++ js " " ++ id ++ js "\n")).tryCatch fun error =>
    if error ≠ .eexist then .throw error
    else do
      let again ← (removeStale o).tryCatch fun lockError =>
        if lockError = .enoent then pure true else .throw lockError
      if again then next
      else if last then throwCode .rotationLockTimeout
      else do
        call (.sleep (min 1000 (o.retryBaseMs * Nat.pow 2 attempt)))
        next

def acquireFrom : Nat → Nat → Call JsString
  | 0, attempt => lockAttempt o attempt true (throwCode .rotationLockTimeout)
  | left + 1, attempt => lockAttempt o attempt false (acquireFrom left (attempt + 1))

/-- The answer is the token, for `release`. -/
def acquireLock : Call JsString := do
  call .mkdir
  acquireFrom o o.lockRetryAttempts 0

def release (lockToken : JsString) : Call Unit :=
  ignored do
    let text ← call (.readFile .lock)
    if text = lockToken then call (.unlink .lock) else pure ()

/-- The metadata of these versions that can be read. -/
def readRecords : List JsString → Call (List VersionMetadataFile)
  | [] => pure []
  | version :: versions => do
    let record ← Program.tryCatch
      (do
        let metadata ← readMetadata o reference version
        return [metadata])
      fun _ => pure []
    let records ← readRecords versions
    return record ++ records

def removeVersions : List JsString → Call Unit
  | [] => pure ()
  | version :: versions => do
    ignored (call (.unlink (.value version)))
    ignored (call (.unlink (.metadata version)))
    removeVersions versions

/-- The versions of these records that are kept: the latest, and two by their role. -/
def retained (host : Host) (records : List VersionMetadataFile) (activeVersion : JsString)
    (previousVersion : Option JsString) : List JsString :=
  let latest := records.mergeSort fun left right => host.localeLe (isoString right.createdAt) (isoString left.createdAt)
  (latest.take o.retainedVersions).map VersionMetadataFile.version ++ activeVersion :: previousVersion.toList

def prune (host : Host) (activeVersion : JsString) (previousVersion : Option JsString) : Call Unit := do
  let entries ← call .readdir
  let records ← readRecords o reference ((entries.filter Prod.snd).map Prod.fst)
  let kept := retained o host records activeVersion previousVersion
  removeVersions ((records.map VersionMetadataFile.version).filter fun version => decide (version ∉ kept))

end

/-- What a `SecretStoreError` is thrown as, and anything else. -/
def rethrow {α : Type} (error : SecretFailure) : Call α := throwCode (secretErrorCode error)

section
variable (o : NormalizedOptions)

/-- What `get` does with the active version. -/
def leaseActive (reference : JsString) (correlationId : Option JsString) (minimumValidity : Int)
    (activeVersion : JsString) : Call SecretLease := do
  let metadata ← readMetadata o reference activeVersion
  let now ← call .now
  refuse (now.any fun time => decide (metadata.expiresAt - time ≤ 0)) .secretExpired
  refuse (now.any fun time => decide (metadata.expiresAt - time < minimumValidity)) .secretExpiring
  let value ← readValue o activeVersion
  audit o ⟨.read, .success, reference, correlationId, some activeVersion, none⟩
  return ⟨value, ⟨reference, activeVersion, metadata.createdAt, metadata.expiresAt⟩⟩

def get (reference : JsValue) (options : JsValue) : Call SecretLease := do
  let validatedReference ← checked (assertSecretReference reference o.allowlist)
  let correlationId ← checked (readCorrelationId (options.get "correlationId"))
  Program.tryCatch
    (do
      let minimumValidity ← checked (readMinimumValidity (options.get "minValidityMs"))
      let state ← readState o validatedReference
      let state ← existing state .secretNotFound
      leaseActive o validatedReference correlationId minimumValidity state.activeVersion)
    fun error => do
      let code := secretErrorCode error
      let result := if code = .referenceNotAllowlisted ∨ code = .invalidReference then .denied else .failed
      audit o ⟨.read, result, validatedReference, correlationId, none, some code⟩
      rethrow error

def unavailable (reference : JsString) (reason : SecretErrorCode) : SecretStatus :=
  ⟨reference, .unavailable, none, none, none, none, none, some reason⟩

def status (reference : JsValue) : Call SecretStatus := do
  let validatedReference ← checked (assertSecretReference reference o.allowlist)
  Program.tryCatch
    (do
      match ← readState o validatedReference with
      | none => pure (unavailable validatedReference .secretNotFound)
      | some state => do
        let metadata ← readMetadata o validatedReference state.activeVersion
        let _ ← readValue o state.activeVersion
        let now ← call .now
        let expired := now.any fun time => decide (metadata.expiresAt ≤ time)
        return ⟨validatedReference, if expired then .expired else .ready, some state.activeVersion,
          state.previousVersion, some metadata.createdAt, some metadata.expiresAt, state.rollbackUntil,
          if expired then some .secretExpired else none⟩)
    fun error =>
      if error = .store .referenceNotAllowlisted then .throw error
      else pure (unavailable validatedReference (secretErrorCode error))

/-- `#expiry`; a clock that shows no date compares with nothing. -/
def expiry (host : Host) (expiresAt : JsValue) : Call Int := do
  let now ← call .now
  let expiryMs := if expiresAt.isUndefined then now.map (· + (o.defaultTtlMs : Int)) else newDate host expiresAt
  match expiryMs with
  | none => throwCode .invalidExpiry
  | some time => do
    refuse (now.any fun now => decide (time ≤ now ∨ (o.maximumTtlMs : Int) < time - now)) .invalidExpiry
    toISOString (timeClip time)

/-- The new state of a rotation. -/
def rotatedState (version : JsString) (current : Option ActiveStateFile) (now : Int) (rollbackUntil : Option Int) :
    ActiveStateFile :=
  ⟨version, current.map ActiveStateFile.activeVersion, rollbackUntil, now⟩

def compareSecrets (left right : JsString) : Bool := decide (utf8 left = utf8 right)

def checkChanged (current : Option ActiveStateFile) (candidate : JsString) : Call Unit :=
  match current with
  | some state => do
    let currentValue ← readValue o state.activeVersion
    refuse (compareSecrets currentValue candidate) .unchangedSecret
  | none => pure ()

/-- Only a version that is replaced can be rolled back to. -/
def rotationDeadline (current : Option ActiveStateFile) (occurredAt : Int) : Call (Option Int) :=
  match current with
  | some _ => do
    let rollbackUntil ← toISOString (timeClip (occurredAt + o.rollbackWindowMs))
    return some rollbackUntil
  | none => pure none

/-- `rotate` while it holds the lock, without what a failure does. -/
def rotateHolding (host : Host) (reference candidate : JsString) (expectedVersion correlationId : Option JsString)
    (expiresAt : Int) : Call SecretMutationResult := do
  let current ← readState o reference
  refuse (decide (current.map ActiveStateFile.activeVersion ≠ expectedVersion)) .versionConflict
  checkChanged o current candidate
  let now ← call .now
  let occurredAt ← toISOString now
  let generated ← call .createVersion
  let version ← checked (assertSecretVersion generated)
  refuse (decide (current.map ActiveStateFile.activeVersion = some version)) .versionConflict
  call .mkdir
  writeExclusive (.value version) (utf8 candidate)
  (writeExclusive (.metadata version) (some (metadataRecord reference ⟨version, occurredAt, expiresAt⟩))).tryCatch
    fun error => do
      ignored (call (.unlink (.value version)))
      .throw error
  let rollbackUntil ← rotationDeadline o current occurredAt
  let state := rotatedState version current occurredAt rollbackUntil
  writeAtomic (some (stateRecord reference state))
  audit o ⟨.rotate, .success, reference, correlationId, some version, none⟩
  ignored (prune o reference host version state.previousVersion)
  return ⟨reference, .rotated, version, state.previousVersion, occurredAt, expiresAt, rollbackUntil⟩

def hasExpectedVersion : JsValue → Bool
  | .object fields => fields.any fun field => decide (field.1 = js "expectedVersion")
  | _ => false

def readExpected (value : JsValue) : Except SecretErrorCode (Option JsString) :=
  match value with
  | .null => .ok none
  | value => (assertSecretVersion value).map some

def rotate (host : Host) (reference candidate options : JsValue) : Call SecretMutationResult := do
  let validatedReference ← checked (assertSecretReference reference o.allowlist)
  match candidate with
  | .string candidate => do
    refuse (candidate.isEmpty || candidate.contains 0) .invalidInput
    refuse (decide (o.maximumSecretBytes < byteLength candidate)) .secretTooLarge
    refuse (!hasExpectedVersion options) .invalidInput
    let expectedVersion ← checked (readExpected (options.get "expectedVersion"))
    let correlationId ← checked (readCorrelationId (options.get "correlationId"))
    let expiresAt ← expiry o host (options.get "expiresAt")
    let lockToken ← acquireLock o
    Program.andFinally
      ((rotateHolding o host validatedReference candidate expectedVersion correlationId expiresAt).tryCatch fun error => do
        let code := secretErrorCode error
        let result := if code = .versionConflict ∨ code = .unchangedSecret then .denied else .failed
        audit o ⟨.rotate, result, validatedReference, correlationId, none, some code⟩
        rethrow error)
      (release lockToken)
  | _ => throwCode .invalidInput

/-- `rollback` while it holds the lock, without what a failure does. -/
def rollbackHolding (reference expectedCurrentVersion targetVersion : JsString) (correlationId : Option JsString) :
    Call SecretMutationResult := do
  let state ← readState o reference
  let state ← existing state .versionConflict
  refuse (decide (state.activeVersion ≠ expectedCurrentVersion)) .versionConflict
  refuse (decide (state.previousVersion ≠ some targetVersion)) .rollbackNotAvailable
  let deadline ← existing state.rollbackUntil .rollbackNotAvailable
  let now ← call .now
  refuse (now.any fun time => decide (deadline < time)) .rollbackWindowExpired
  let targetMetadata ← readMetadata o reference targetVersion
  refuse (now.any fun time => decide (targetMetadata.expiresAt ≤ time)) .secretExpired
  let _ ← readValue o targetVersion
  let occurredAt ← toISOString now
  let rollbackUntil ← toISOString (timeClip (occurredAt + o.rollbackWindowMs))
  let nextState : ActiveStateFile := ⟨targetVersion, some state.activeVersion, some rollbackUntil, occurredAt⟩
  writeAtomic (some (stateRecord reference nextState))
  audit o ⟨.rollback, .success, reference, correlationId, some targetVersion, none⟩
  return ⟨reference, .rolledBack, targetVersion, some state.activeVersion, occurredAt, targetMetadata.expiresAt,
    some rollbackUntil⟩

def rollback (reference options : JsValue) : Call SecretMutationResult := do
  let validatedReference ← checked (assertSecretReference reference o.allowlist)
  refuse (!options.isObject) .invalidInput
  let expectedCurrentVersion ← checked (assertSecretVersion (options.get "expectedCurrentVersion"))
  let targetVersion ← checked (assertSecretVersion (options.get "targetVersion"))
  let correlationId ← checked (readCorrelationId (options.get "correlationId"))
  let lockToken ← acquireLock o
  Program.andFinally
    ((rollbackHolding o validatedReference expectedCurrentVersion targetVersion correlationId).tryCatch fun error => do
      let code := secretErrorCode error
      let result := if code = .versionConflict ∨ startsWith (js code.text) (js "ROLLBACK_") then .denied else .failed
      audit o ⟨.rollback, result, validatedReference, correlationId, none, some code⟩
      rethrow error)
    (release lockToken)

end

end GuloGulo.Secrets
