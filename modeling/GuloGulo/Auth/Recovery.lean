import GuloGulo.Auth.Runtime
import GuloGulo.Js.Uri

/-!
# Recovery codes

`core/auth/recovery-codes.ts`: `createRecoveryCodeManager` with `enroll`,
`consume`, `revoke`, `getFactor` and `listFactorMetadata`. Of the codes the
manager keeps salted digests only. The audit sink can change nothing and is
left out.
-/

namespace GuloGulo.Auth.Recovery
open Js Data

def recoveryError (message : String) (code : String := "RECOVERY_ERROR") : AuthError :=
  authError "Recovery code" message code

def RECOVERY_CODE_BYTES : Nat := 10

def RECOVERY_CODE_LENGTH : Nat := 16

def RECOVERY_CODE_ALPHABET : List UInt16 := js "23456789ABCDEFGHJKLMNPQRSTUVWXYZ"

def FORBIDDEN_ROLES : List String := ["provider", "tenant_master", "master", "monitor", "admin"]

/-- `FACTOR_ID_PATTERN`. -/
def factorIdPattern (s : JsString) : Bool :=
  startsWith s (js "recovery_") && (s.drop 9).all isBase64Url && 16 ≤ (s.drop 9).length && (s.drop 9).length ≤ 64

def assertFactorId (value : JsValue) : Except AuthError JsString :=
  match value with
  | .string s => if factorIdPattern s then .ok s else .error (recoveryError "factorId is invalid" "INVALID_FACTOR")
  | _ => .error (recoveryError "factorId is invalid" "INVALID_FACTOR")

/-! ## Codes -/

/-- `CODE_PATTERN`. -/
def codePattern (s : JsString) : Bool :=
  s.length = RECOVERY_CODE_LENGTH && s.all fun u => RECOVERY_CODE_ALPHABET.contains u

def normalizeCode (host : Host) (code : JsValue) : Option JsString :=
  match code with
  | .string s =>
    let canonical := host.toUpperCase (s.filter fun u => !(isWhiteSpace u || u == 45))
    if codePattern canonical then some canonical else none
  | _ => none

def hashCode (host : Host) (salt : List UInt8) (code : JsString) : List UInt8 :=
  host.sha256 (salt ++ code.map UInt16.toUInt8)

/-- Four groups of four. -/
def grouped (code : JsString) : JsString :=
  code.take 4 ++ 45 :: ((code.drop 4).take 4 ++ 45 :: ((code.drop 8).take 4 ++ 45 :: (code.drop 12).take 4))

def generateRecoveryCode (answer : RandomAnswer) : Except (Thrown AuthError) JsString := do
  let bytes ← assertRandomBytes "Recovery code" answer RECOVERY_CODE_BYTES
  let code := encodeQuintets RECOVERY_CODE_ALPHABET bytes.1 0 0
  if code.length = RECOVERY_CODE_LENGTH then return grouped code
  else .error (.contract (recoveryError "recovery code generation failed" "INVALID_RANDOM_SOURCE"))

example : generateRecoveryCode (.returned (some [0, 0, 0, 0, 0, 0, 0, 0, 0, 1])) = .ok (js "2222-2222-2222-2223") := by
  decide

/-! ## The manager -/

/-- What `createRecoveryCodeManager` closes over and does not change. -/
structure RecoveryManager where
  count : Nat
  maxFailures : Within 1 20
  lockoutMs : Within 1000 maxSafeInteger
  count_bounds : 5 ≤ count ∧ count ≤ 20

def RecoveryManager.lockout (m : RecoveryManager) : Lockout := lockoutOf m.maxFailures m.lockoutMs

structure RecoveryOptions where
  count : JsValue
  maxFailures : JsValue
  lockoutMs : JsValue

def readOptions (options : RecoveryOptions) : Option RecoveryManager := do
  let count ← integerWithin (options.count.orDefault (.number 10)) 5 20
  let maxFailures ← integerWithin (options.maxFailures.orDefault (.number 5)) 1 20
  let lockoutMs ← integerWithin (options.lockoutMs.orDefault (.number 900000)) 1000 maxSafeInteger
  return ⟨count.value, maxFailures, lockoutMs, count.bounds⟩

def createRecoveryCodeManager (options : RecoveryOptions) : Except AuthError RecoveryManager :=
  match readOptions options with
  | some m => .ok m
  | none => .error (recoveryError "recovery code configuration is invalid" "INVALID_CONFIGURATION")

structure RecoveryEntry where
  salt : List UInt8
  digest : List UInt8
  usedAt : Option Int

structure RecoveryRecord where
  factorId : JsString
  tenantId : JsString
  userId : JsString
  createdAt : Int
  revokedAt : Option Int
  usedAt : Option Int
  codes : OrderedMap JsString RecoveryEntry

/-- What callers see of a record. -/
structure RecoveryFactor where
  factorId : JsString
  tenantId : JsString
  userId : JsString
  createdAt : Int
  revokedAt : Option Int
  usedAt : Option Int
  totalCodes : Nat
  remainingCodes : Nat

def RecoveryRecord.remainingCodes (r : RecoveryRecord) : Nat := r.codes.rows.countP fun p => p.2.usedAt.isNone

def metadata (r : RecoveryRecord) : RecoveryFactor :=
  { factorId := r.factorId, tenantId := r.tenantId, userId := r.userId, createdAt := r.createdAt, revokedAt := r.revokedAt,
    usedAt := r.usedAt, totalCodes := r.codes.size, remainingCodes := r.remainingCodes }

structure RecoveryState where
  factors : OrderedMap JsString RecoveryRecord
  attempts : OrderedMap JsString Attempts

/-- What the callbacks answer during a call; the random bytes are told apart by
what they are for. -/
structure RecoveryEnv where
  clock : Reading
  idBytes : Nat → RandomAnswer
  codeBytes : Nat → RandomAnswer
  saltBytes : Nat → RandomAnswer
  rateLimiter : Answer
  authorizeRevocation : Answer

/-- Why a code is not accepted. -/
inductive RecoveryFailure where
  | rateLimitedOrLocked
  | invalidCode
  deriving DecidableEq

def RecoveryFailure.code : RecoveryFailure → String
  | rateLimitedOrLocked => "RATE_LIMITED_OR_LOCKED"
  | invalidCode => "INVALID_CODE"

inductive Consumption where
  | refused (code : String)
  | failed (reason : RecoveryFailure) (lockedUntil : Option Int)
  | recovered (factor : RecoveryFactor)

abbrev RecoveryEff := Eff (Thrown AuthError) RecoveryState

def RecoveryState.setRecord (s : RecoveryState) (r : RecoveryRecord) : RecoveryState :=
  { s with factors := s.factors.set r.factorId r }

def RecoveryState.setAttempts (s : RecoveryState) (id : JsString) (attempts : Option Attempts) : RecoveryState :=
  { s with
    attempts := match attempts with
      | some a => s.attempts.set id a
      | none => s.attempts.delete id }

def scope (record : RecoveryRecord) (tenantId userId : JsValue) : Except AuthError Unit :=
  assertOwner "Recovery code" record.tenantId record.userId tenantId userId

def failure (m : RecoveryManager) (record : RecoveryRecord) (reason : RecoveryFailure) (now : Int) : RecoveryEff Consumption := do
  let s ← Eff.get
  let state := m.lockout.fail (s.attempts.get record.factorId) now
  Eff.modify fun s => s.setAttempts record.factorId (some state)
  return .failed reason (Lockout.announced state now)

def allowed (record : RecoveryRecord) (now : Int) (rateLimiter : Answer) : RecoveryEff Bool := do
  let s ← Eff.get
  let state := s.attempts.get record.factorId
  if Lockout.locks state now then return false
  else do
    Eff.modify fun s => s.setAttempts record.factorId (Lockout.lapse state now)
    return rateAllows rateLimiter

structure IdentityInput where
  tenantId : JsValue
  userId : JsValue
  actorId : JsValue
  role : JsValue

def assertUserActor (input : IdentityInput) : Except AuthError (JsString × JsString) := do
  let tenantId ← assertIdentityPart "Recovery code" input.tenantId "tenantId"
  let userId ← assertIdentityPart "Recovery code" input.userId "userId"
  let actorId ← assertIdentityPart "Recovery code" (input.actorId.orDefault input.userId) "actorId"
  throwIf (actorId ≠ userId || FORBIDDEN_ROLES.any fun role => input.role.isString (js role))
    (recoveryError "recovery code management must be initiated by the user" "FACTOR_SCOPE_VIOLATION")
  return (tenantId, userId)

def codeKey (index : Nat) (salt : List UInt8) : JsString := decimal index ++ 58 :: base64Url salt

/-- The loop that issues the codes from an index on. -/
def issueCodes (host : Host) (env : RecoveryEnv) :
    Nat → Nat → OrderedMap JsString RecoveryEntry → List JsString →
      Except (Thrown AuthError) (OrderedMap JsString RecoveryEntry × List JsString)
  | 0, _, codes, clearCodes => .ok (codes, clearCodes)
  | left + 1, index, codes, clearCodes => do
    let clearCode ← generateRecoveryCode (env.codeBytes index)
    match normalizeCode host (.string clearCode) with
    | none => .error (.contract (recoveryError "generated recovery code is invalid" "INVALID_RANDOM_SOURCE"))
    | some canonical => do
      let salt ← assertRandomBytes "Recovery code" (env.saltBytes index) 16
      issueCodes host env left (index + 1)
        (codes.set (codeKey index salt.1) ⟨salt.1, hashCode host salt.1 canonical, none⟩) (clearCodes ++ [clearCode])

structure Enrollment where
  factor : RecoveryFactor
  codes : List JsString

def enroll (host : Host) (m : RecoveryManager) (env : RecoveryEnv) (input : IdentityInput) : RecoveryEff Enrollment := do
  let identity ← Eff.check (assertUserActor input)
  let s ← Eff.get
  let factorId ← Eff.lift (freshId "Recovery code" s.factors (fun bytes => js "recovery_" ++ base64Url bytes) env.idBytes 4 0)
  let now ← Eff.lift (readTime "Recovery code" env.clock)
  let issued ← Eff.lift (issueCodes host env m.count 0 Table.empty [])
  let record : RecoveryRecord :=
    { factorId, tenantId := identity.1, userId := identity.2, createdAt := now, revokedAt := none, usedAt := none,
      codes := issued.1 }
  Eff.modify fun s => s.setRecord record
  return { factor := metadata record, codes := issued.2 }

structure ConsumeInput where
  factorId : JsValue
  tenantId : JsValue
  userId : JsValue
  code : JsValue

/-- The first entry that is unused and has the digest of a code. -/
def findEntry (host : Host) (codes : OrderedMap JsString RecoveryEntry) (code : JsString) : Option (JsString × RecoveryEntry) :=
  codes.rows.find? fun p => p.2.usedAt.isNone && p.2.digest == hashCode host p.2.salt code

/-- The record once the entry of a key has been used. -/
def RecoveryRecord.used (r : RecoveryRecord) (key : JsString) (now : Int) : RecoveryRecord :=
  { r with codes := r.codes.adjust key fun e => { e with usedAt := some now }, usedAt := some now }

/-- What is done with a code that has been let through. -/
def compareCode (host : Host) (m : RecoveryManager) (record : RecoveryRecord) (code : JsValue) (now : Int) :
    RecoveryEff Consumption :=
  match normalizeCode host code with
  | none => failure m record .invalidCode now
  | some canonical =>
    match findEntry host record.codes canonical with
    | none => failure m record .invalidCode now
    | some (key, _) => do
      Eff.modify fun s => (s.setRecord (record.used key now)).setAttempts record.factorId none
      return .recovered (metadata (record.used key now))

def consumeRecord (host : Host) (m : RecoveryManager) (env : RecoveryEnv) (input : ConsumeInput) (record : RecoveryRecord) :
    RecoveryEff Consumption := do
  Eff.check (scope record input.tenantId input.userId)
  let now ← Eff.lift (readTime "Recovery code" env.clock)
  if record.revokedAt.isSome then return .refused "FACTOR_REVOKED"
  else do
    let admitted ← allowed record now env.rateLimiter
    if admitted then compareCode host m record input.code now else failure m record .rateLimitedOrLocked now

def consume (host : Host) (m : RecoveryManager) (env : RecoveryEnv) (input : ConsumeInput) : RecoveryEff Consumption := do
  let _ ← Eff.check (assertIdentityPart "Recovery code" input.tenantId "tenantId")
  let _ ← Eff.check (assertIdentityPart "Recovery code" input.userId "userId")
  let id ← Eff.check (assertFactorId input.factorId)
  let s ← Eff.get
  match s.factors.get id with
  | none => return .refused "FACTOR_NOT_FOUND"
  | some record => consumeRecord host m env input record

structure RevokeInput where
  factorId : JsValue
  tenantId : JsValue
  userId : JsValue
  actorId : JsValue
  role : JsValue
  reason : JsValue

def RecoveryRecord.revoked (r : RecoveryRecord) (now : Int) : RecoveryRecord := { r with revokedAt := some now }

def revokeRecord (env : RecoveryEnv) (input : RevokeInput) (record : RecoveryRecord) : RecoveryEff RecoveryFactor := do
  let _ ← Eff.check (assertReason "Recovery code" input.reason)
  let now ← Eff.lift (readTime "Recovery code" env.clock)
  Eff.modify fun s => (s.setRecord (record.revoked now)).setAttempts record.factorId none
  return metadata (record.revoked now)

/-- `none` is `FACTOR_NOT_FOUND`, which also stands for a factor of another
tenant or user. -/
def revoke (env : RecoveryEnv) (input : RevokeInput) : RecoveryEff (Option RecoveryFactor) := do
  let tenantId ← Eff.check (assertIdentityPart "Recovery code" input.tenantId "tenantId")
  let userId ← Eff.check (assertIdentityPart "Recovery code" input.userId "userId")
  let actorId ← Eff.check (assertIdentityPart "Recovery code" (input.actorId.orDefault input.userId) "actorId")
  Eff.check (throwIf (!mayRevoke actorId userId input.role env.authorizeRevocation)
    (recoveryError "recovery factor revocation is not authorized" "FACTOR_SCOPE_VIOLATION"))
  let id ← Eff.check (assertFactorId input.factorId)
  let s ← Eff.get
  match s.factors.get id with
  | none => return none
  | some record =>
    if record.tenantId ≠ tenantId ∨ record.userId ≠ userId then return none
    else do
      let factor ← revokeRecord env input record
      return some factor

def getFactor (s : RecoveryState) (factorId : JsValue) : Except AuthError (Option RecoveryFactor) := do
  let id ← assertFactorId factorId
  return (s.factors.get id).map metadata

def listFactorMetadata (s : RecoveryState) (tenantId userId : JsValue) : Except AuthError (List RecoveryFactor) := do
  let tenantId ← assertIdentityPart "Recovery code" tenantId "tenantId"
  let userId ← assertIdentityPart "Recovery code" userId "userId"
  return (s.factors.values.filter fun r => r.tenantId = tenantId && r.userId = userId).map metadata

end GuloGulo.Auth.Recovery
