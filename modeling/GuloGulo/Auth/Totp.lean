import GuloGulo.Auth.Runtime
import GuloGulo.Data.Lockout
import GuloGulo.Js.Uri

/-!
# Time-based one-time passwords

`core/auth/totp.ts`: `createTotpManager` with `enroll`, `confirmEnrollment`,
`verify`, `revoke` and `listFactorMetadata`. The audit sink can change nothing
and is left out.
-/

namespace GuloGulo.Auth.Totp
open Js Data

def totpError (message : String) (code : String := "TOTP_ERROR") : AuthError := authError "TOTP" message code

inductive TotpAlgorithm where
  | sha1 | sha256 | sha512
  deriving DecidableEq, Repr

def TotpAlgorithm.name : TotpAlgorithm → String
  | sha1 => "sha1"
  | sha256 => "sha256"
  | sha512 => "sha512"

def HASH_ALGORITHMS : List TotpAlgorithm := [.sha1, .sha256, .sha512]

/-- A host with `createHmac`. -/
structure TotpHost extends Host where
  hmac : TotpAlgorithm → List UInt8 → List UInt8 → List UInt8

def TOTP_SECRET_BYTES : Nat := 20

def BASE32_ALPHABET : List UInt16 := js "ABCDEFGHIJKLMNOPQRSTUVWXYZ234567"

def encodeBase32 (bytes : List UInt8) : JsString := encodeQuintets BASE32_ALPHABET bytes 0 0

example : encodeBase32 [0xde, 0xad, 0xbe, 0xef] = js "32W353Y" := by decide

def decodeQuintets : List Nat → Nat → Nat → List UInt8
  | [], _, _ => []
  | quintet :: rest, buffer, bits =>
    let buffer := buffer * 32 + quintet
    if 3 ≤ bits then
      UInt8.ofNat (buffer >>> (bits - 3)) :: decodeQuintets rest (buffer % (1 <<< (bits - 3))) (bits - 3)
    else decodeQuintets rest buffer (bits + 5)

def decodeBase32 (host : Host) (secret : JsString) : Except AuthError (List UInt8) := do
  throwIf (secret.length < 16 || 128 < secret.length) (totpError "secret must be a base32 string" "INVALID_SECRET")
  let canonical := host.toUpperCase (secret.filter fun u => !(u == 32 || u == 61 || u == 45))
  throwIf (canonical.isEmpty || !canonical.all fun u => BASE32_ALPHABET.contains u)
    (totpError "secret contains a non-base32 character" "INVALID_SECRET")
  let output := decodeQuintets (canonical.map fun u => BASE32_ALPHABET.idxOf u) 0 0
  throwIf (output.length < 10 || 64 < output.length)
    (totpError "secret length is outside the supported range" "INVALID_SECRET")
  return output

def normalizeSecret (host : Host) (secret : JsString) : Except AuthError JsString := do
  let decoded ← decodeBase32 host secret
  return encodeBase32 decoded

/-- What `encrypt` returns. -/
inductive ProtectorAnswer where
  | threw
  | text (s : JsString)
  | buffer (bytes : List UInt8)
  | other

def protectSecret : ProtectorAnswer → Except (Thrown AuthError) JsString
  | .threw => .error .foreign
  | .text s => .ok s
  | .buffer bytes => .ok (base64Url bytes)
  | .other =>
    .error (.contract (totpError "secretProtector.encrypt must return a string or buffer" "INVALID_SECRET_PROTECTOR"))

def unprotectSecret (host : Host) (decrypt : Answer) : Except (Thrown AuthError) JsString :=
  match decrypt with
  | .threw => .error .foreign
  | .returned (.string secret) => (normalizeSecret host secret).mapError .contract
  | .returned _ =>
    .error (.contract (totpError "secretProtector.decrypt must return a base32 string" "INVALID_SECRET_PROTECTOR"))

/-- `10 ** n`. -/
def tenTo : Nat → Nat
  | 0 => 1
  | n + 1 => 10 * tenTo n

/-- The eight bytes of a counter, the highest first. -/
def counterBuffer (counter : Nat) : List UInt8 :=
  (List.range 8).reverse.map fun i => UInt8.ofNat (counter >>> (8 * i))

/-- The 31 bits at the offset that the last byte gives. -/
def truncated (digest : List UInt8) : Nat :=
  let offset := (digest.getLastD 0).toNat % 16
  let byte (i : Nat) := (digest.getD (offset + i) 0).toNat
  byte 0 % 128 * 16777216 + byte 1 * 65536 + byte 2 * 256 + byte 3

def generateTotpCode (host : TotpHost) (secret : JsString) (counter digits : Nat) (algorithm : TotpAlgorithm) :
    Except AuthError JsString := do
  throwIf (maxSafeInteger < counter) (totpError "counter must be a non-negative safe integer" "INVALID_COUNTER")
  throwIf (digits < 6 || 8 < digits) (totpError "digits or algorithm is unsupported" "INVALID_TOTP_CONFIGURATION")
  let key ← decodeBase32 host.toHost secret
  return pad digits (truncated (host.hmac algorithm key (counterBuffer counter)) % tenTo digits)

/-- The texts as `ascii` buffers, which keep the low byte of a unit. -/
def codesEqual (left right : JsString) : Bool := left.map UInt16.toUInt8 = right.map UInt16.toUInt8

/-- The code, if it has the form of one. -/
def assertCode (code : JsValue) (digits : Nat) : Option JsString :=
  match code with
  | .string s => if s.length = digits ∧ s.all isDigit ∧ 6 ≤ s.length ∧ s.length ≤ 8 then some s else none
  | _ => none

/-- What `createTotpManager` closes over and does not change. -/
structure TotpManager where
  periodSeconds : Nat
  digits : Nat
  algorithm : TotpAlgorithm
  window : Nat
  maxFailures : Within 1 20
  lockoutMs : Within 1000 maxSafeInteger
  period_bounds : 15 ≤ periodSeconds ∧ periodSeconds ≤ 300
  digits_bounds : 6 ≤ digits ∧ digits ≤ 8
  window_bounds : 0 ≤ window ∧ window ≤ 2

def TotpManager.lockout (m : TotpManager) : Lockout := lockoutOf m.maxFailures m.lockoutMs

structure TotpOptions where
  periodSeconds : JsValue
  digits : JsValue
  algorithm : JsValue
  window : JsValue
  maxFailures : JsValue
  lockoutMs : JsValue

def readOptions (options : TotpOptions) : Option TotpManager := do
  let periodSeconds ← integerWithin (options.periodSeconds.orDefault (.number 30)) 15 300
  let digits ← integerWithin (options.digits.orDefault (.number 6)) 6 8
  let algorithm ← HASH_ALGORITHMS.find? fun a => (options.algorithm.orDefault (.string (js "sha1"))).isString (js a.name)
  let window ← integerWithin (options.window.orDefault (.number 1)) 0 2
  let maxFailures ← integerWithin (options.maxFailures.orDefault (.number 5)) 1 20
  let lockoutMs ← integerWithin (options.lockoutMs.orDefault (.number 900000)) 1000 maxSafeInteger
  return ⟨periodSeconds.value, digits.value, algorithm, window.value, maxFailures, lockoutMs, periodSeconds.bounds,
    digits.bounds, window.bounds⟩

def createTotpManager (options : TotpOptions) : Except AuthError TotpManager :=
  match readOptions options with
  | some m => .ok m
  | none => .error (totpError "TOTP configuration is invalid" "INVALID_TOTP_CONFIGURATION")

inductive FactorStatus where
  | pending | active | revoked
  deriving DecidableEq, Repr

structure TotpRecord where
  factorId : JsString
  tenantId : JsString
  userId : JsString
  label : JsString
  status : FactorStatus
  createdAt : Int
  confirmedAt : Option Int
  revokedAt : Option Int
  lastUsedAt : Option Int
  lastUsedCounter : Option Nat
  encryptedSecret : JsString

/-- What callers see of a record. -/
structure TotpFactor where
  factorId : JsString
  tenantId : JsString
  userId : JsString
  label : JsString
  status : FactorStatus
  createdAt : Int
  confirmedAt : Option Int
  revokedAt : Option Int
  lastUsedAt : Option Int

def metadata (r : TotpRecord) : TotpFactor :=
  { factorId := r.factorId, tenantId := r.tenantId, userId := r.userId, label := r.label, status := r.status,
    createdAt := r.createdAt, confirmedAt := r.confirmedAt, revokedAt := r.revokedAt, lastUsedAt := r.lastUsedAt }

structure TotpState where
  factors : OrderedMap JsString TotpRecord
  attempts : OrderedMap JsString Attempts

/-- What the callbacks answer during a call; `clockAgain` is the second
reading of the clock. -/
structure TotpEnv where
  clock : Reading
  clockAgain : Reading
  randomBytes : Nat → RandomAnswer
  encrypt : ProtectorAnswer
  decrypt : Answer
  rateLimiter : Answer
  authorizeRevocation : Answer

/-- Why a code is not accepted. -/
inductive TotpFailure where
  | malformedCode
  | rateLimitedOrLocked
  | secretUnavailable
  | wrongCode
  | replayedCode
  deriving DecidableEq

def TotpFailure.code : TotpFailure → String
  | malformedCode | wrongCode => "INVALID_CODE"
  | rateLimitedOrLocked => "RATE_LIMITED_OR_LOCKED"
  | secretUnavailable => "SECRET_UNAVAILABLE"
  | replayedCode => "REPLAYED_CODE"

/-- Whether the code had been compared with those of the secret. -/
def TotpFailure.compared : TotpFailure → Bool
  | wrongCode | replayedCode => true
  | malformedCode | rateLimitedOrLocked | secretUnavailable => false

inductive Evaluation where
  | refused (code : String)
  | failed (reason : TotpFailure) (lockedUntil : Option Int)
  | verified (counter : Nat) (offset : Int) (factor : TotpFactor)

abbrev TotpEff := Eff (Thrown AuthError) TotpState

def TotpState.setRecord (s : TotpState) (r : TotpRecord) : TotpState := { s with factors := s.factors.set r.factorId r }

def TotpState.setAttempts (s : TotpState) (id : JsString) (attempts : Option Attempts) : TotpState :=
  { s with
    attempts := match attempts with
      | some a => s.attempts.set id a
      | none => s.attempts.delete id }

def assertScope (record : TotpRecord) (tenantId userId : JsValue) : Except AuthError Unit :=
  assertOwner "TOTP" record.tenantId record.userId tenantId userId

def emitFailure (m : TotpManager) (record : TotpRecord) (reason : TotpFailure) (now : Int) : TotpEff Evaluation := do
  let s ← Eff.get
  let state := m.lockout.fail (s.attempts.get record.factorId) now
  Eff.modify fun s => s.setAttempts record.factorId (some state)
  return .failed reason (Lockout.announced state now)

def allowAttempt (record : TotpRecord) (now : Int) (rateLimiter : Answer) : TotpEff Bool := do
  let s ← Eff.get
  let state := s.attempts.get record.factorId
  if Lockout.locks state now then return false
  else do
    Eff.modify fun s => s.setAttempts record.factorId (Lockout.lapse state now)
    return rateAllows rateLimiter

/-- `Math.floor(now / 1000 / periodSeconds)`. -/
def currentCounter (m : TotpManager) (now : Int) : Nat :=
  (Number.divide (Number.divide now.toNat 1000) m.periodSeconds).floor.toNat

/-- The steps from the first in the window to the last, without those before
the first of all. -/
def candidateCounters (m : TotpManager) (now : Int) : List Nat :=
  let current := currentCounter m now
  ((List.range (2 * m.window + 1)).filter fun i => m.window ≤ current + i).map fun i => current + i - m.window

/-- The loop over the candidates. -/
def findCounter (host : TotpHost) (m : TotpManager) (secret code : JsString) : List Nat → Except AuthError (Option Nat)
  | [] => .ok none
  | counter :: rest => do
    let expected ← generateTotpCode host secret counter m.digits m.algorithm
    if codesEqual expected code then return some counter else findCounter host m secret code rest

def replayed (record : TotpRecord) (counter : Nat) : Bool :=
  match record.lastUsedCounter with
  | some last => counter ≤ last
  | none => false

/-- The record once a code has been accepted. -/
def TotpRecord.used (r : TotpRecord) (counter : Nat) (now : Int) : TotpRecord :=
  { r with lastUsedCounter := some counter, lastUsedAt := some now }

/-- What is done with a code that has been let through. -/
def compareCode (host : TotpHost) (m : TotpManager) (env : TotpEnv) (record : TotpRecord) (code : JsString) (now : Int) :
    TotpEff Evaluation :=
  match unprotectSecret host.toHost env.decrypt with
  | .error _ => emitFailure m record .secretUnavailable now
  | .ok secret => do
    let matched ← Eff.check (findCounter host m secret code (candidateCounters m now))
    match matched with
    | none => emitFailure m record .wrongCode now
    | some counter =>
      if replayed record counter then emitFailure m record .replayedCode now
      else do
        Eff.modify fun s => (s.setAttempts record.factorId none).setRecord (record.used counter now)
        return .verified counter (counter - currentCounter m now) (metadata (record.used counter now))

def evaluate (host : TotpHost) (m : TotpManager) (env : TotpEnv) (record : TotpRecord) (code : JsValue) (now : Int)
    (allowPending : Bool) : TotpEff Evaluation :=
  if record.status = .revoked then return .refused "FACTOR_REVOKED"
  else if !allowPending ∧ record.status ≠ .active then return .refused "FACTOR_NOT_ACTIVE"
  else
    match assertCode code m.digits with
    | none => emitFailure m record .malformedCode now
    | some code => do
      let allowed ← allowAttempt record now env.rateLimiter
      if allowed then compareCode host m env record code now else emitFailure m record .rateLimitedOrLocked now

/-- `FACTOR_ID_PATTERN`. -/
def factorIdPattern (s : JsString) : Bool :=
  startsWith s (js "totp_") && (s.drop 5).all isBase64Url && 16 ≤ (s.drop 5).length && (s.drop 5).length ≤ 64

def assertFactorId (value : JsValue) : Except AuthError JsString :=
  match value with
  | .string s => if factorIdPattern s then .ok s else .error (totpError "factorId is invalid" "INVALID_FACTOR")
  | _ => .error (totpError "factorId is invalid" "INVALID_FACTOR")

structure Enrollment where
  factor : TotpFactor
  secret : JsString
  otpauthUri : JsString

structure EnrollInput where
  tenantId : JsValue
  userId : JsValue
  label : JsValue
  actorId : JsValue

def otpauthUri (m : TotpManager) (tenantId userId secret : JsString) : JsString :=
  let issuer := encodeURIComponent (js "Gulo Gulo")
  js "otpauth://totp/" ++ issuer ++ js ":" ++ encodeURIComponent (userId ++ js "@" ++ tenantId) ++ js "?secret=" ++ secret ++
    js "&issuer=" ++ issuer ++ js "&algorithm=" ++ js (m.algorithm.name.toUpper) ++ js "&digits=" ++ decimal m.digits ++
    js "&period=" ++ decimal m.periodSeconds

def enroll (m : TotpManager) (env : TotpEnv) (input : EnrollInput) : TotpEff Enrollment := do
  let tenantId ← Eff.check (assertIdentityPart "TOTP" input.tenantId "tenantId")
  let userId ← Eff.check (assertIdentityPart "TOTP" input.userId "userId")
  let actorId ← Eff.check (assertIdentityPart "TOTP" (input.actorId.orDefault input.userId) "actorId")
  Eff.check (throwIf (actorId ≠ userId)
    (totpError "TOTP enrollment must be initiated by the user" "FACTOR_SCOPE_VIOLATION"))
  let bytes ← Eff.lift (assertRandomBytes "TOTP" (env.randomBytes 0) TOTP_SECRET_BYTES)
  let secret := encodeBase32 bytes.1
  let s ← Eff.get
  let factorId ← Eff.lift (freshId "TOTP" s.factors (fun bytes => js "totp_" ++ base64Url bytes) env.randomBytes 4 1)
  let now ← Eff.lift (readTime "TOTP" env.clock)
  let label ← Eff.check (normalizeLabel "TOTP" "user" input.label)
  let encryptedSecret ← Eff.lift (protectSecret env.encrypt)
  let record : TotpRecord :=
    { factorId, tenantId, userId, label, status := .pending, createdAt := now, confirmedAt := none, revokedAt := none,
      lastUsedAt := none, lastUsedCounter := none, encryptedSecret }
  Eff.modify fun s => s.setRecord record
  return { factor := metadata record, secret, otpauthUri := otpauthUri m tenantId userId secret }

structure CodeInput where
  factorId : JsValue
  tenantId : JsValue
  userId : JsValue
  code : JsValue

/-- A code that has been evaluated, and the factor if it confirms it. -/
structure Confirmation where
  evaluation : Evaluation
  factor : Option TotpFactor

def TotpRecord.confirmed (r : TotpRecord) (now : Int) : TotpRecord := { r with status := .active, confirmedAt := some now }

/-- The last steps of a confirmation. -/
def activate (env : TotpEnv) (record : TotpRecord) (evaluation : Evaluation) : TotpEff Confirmation := do
  Eff.modify fun s => s.setRecord { record with status := .active }
  let now ← Eff.lift (readTime "TOTP" env.clockAgain)
  Eff.modify fun s => s.setRecord (record.confirmed now)
  return ⟨evaluation, some (metadata (record.confirmed now))⟩

def confirmRecord (host : TotpHost) (m : TotpManager) (env : TotpEnv) (input : CodeInput) (record : TotpRecord) :
    TotpEff Confirmation := do
  Eff.check (assertScope record input.tenantId input.userId)
  match record.status with
  | .revoked => return ⟨.refused "FACTOR_REVOKED", none⟩
  | .active => return ⟨.refused "FACTOR_ALREADY_ACTIVE", none⟩
  | .pending => do
    let now ← Eff.lift (readTime "TOTP" env.clock)
    let result ← evaluate host m env record input.code now true
    match result with
    | .verified counter _ _ => activate env (record.used counter now) result
    | .refused _ | .failed _ _ => return ⟨result, none⟩

def confirmEnrollment (host : TotpHost) (m : TotpManager) (env : TotpEnv) (input : CodeInput) : TotpEff Confirmation := do
  let _ ← Eff.check (assertIdentityPart "TOTP" input.tenantId "tenantId")
  let _ ← Eff.check (assertIdentityPart "TOTP" input.userId "userId")
  let id ← Eff.check (assertFactorId input.factorId)
  let s ← Eff.get
  match s.factors.get id with
  | none => return ⟨.refused "FACTOR_NOT_FOUND", none⟩
  | some record => confirmRecord host m env input record

def verifyRecord (host : TotpHost) (m : TotpManager) (env : TotpEnv) (input : CodeInput) (record : TotpRecord) :
    TotpEff Evaluation := do
  Eff.check (assertScope record input.tenantId input.userId)
  let now ← Eff.lift (readTime "TOTP" env.clock)
  evaluate host m env record input.code now false

def verify (host : TotpHost) (m : TotpManager) (env : TotpEnv) (input : CodeInput) : TotpEff Evaluation := do
  let id ← Eff.check (assertFactorId input.factorId)
  let s ← Eff.get
  match s.factors.get id with
  | none => return .refused "FACTOR_NOT_FOUND"
  | some record => verifyRecord host m env input record

structure RevokeInput where
  factorId : JsValue
  tenantId : JsValue
  userId : JsValue
  actorId : JsValue
  actorRole : JsValue
  reason : JsValue

def TotpRecord.revoked (r : TotpRecord) (now : Int) : TotpRecord := { r with status := .revoked, revokedAt := some now }

def revokeRecord (env : TotpEnv) (input : RevokeInput) (userId : JsString) (record : TotpRecord) : TotpEff TotpFactor := do
  Eff.check (assertScope record input.tenantId input.userId)
  let actorId ← Eff.check (assertIdentityPart "TOTP" (input.actorId.orDefault input.userId) "actorId")
  Eff.check (throwIf (!mayRevoke actorId userId input.actorRole env.authorizeRevocation)
    (totpError "factor revocation is not authorized" "FACTOR_SCOPE_VIOLATION"))
  let _ ← Eff.check (assertReason "TOTP" input.reason)
  let now ← Eff.lift (readTime "TOTP" env.clock)
  Eff.modify fun s => (s.setRecord (record.revoked now)).setAttempts record.factorId none
  return metadata (record.revoked now)

/-- `none` is `FACTOR_NOT_FOUND`. -/
def revoke (env : TotpEnv) (input : RevokeInput) : TotpEff (Option TotpFactor) := do
  let _ ← Eff.check (assertIdentityPart "TOTP" input.tenantId "tenantId")
  let userId ← Eff.check (assertIdentityPart "TOTP" input.userId "userId")
  let id ← Eff.check (assertFactorId input.factorId)
  let s ← Eff.get
  match s.factors.get id with
  | none => return none
  | some record => do
    let factor ← revokeRecord env input userId record
    return some factor

def listFactorMetadata (s : TotpState) (tenantId userId : JsValue) : Except AuthError (List TotpFactor) := do
  let tenantId ← assertIdentityPart "TOTP" tenantId "tenantId"
  let userId ← assertIdentityPart "TOTP" userId "userId"
  return (s.factors.values.filter fun r => r.tenantId = tenantId && r.userId = userId).map metadata

end GuloGulo.Auth.Totp
