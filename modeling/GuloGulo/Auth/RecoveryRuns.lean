import GuloGulo.Auth.RecoveryFactor
import GuloGulo.Data.Machine
import GuloGulo.Js.Sha256
import Mathlib.Logic.Equiv.Basic

/-!
# Runs of the recovery code manager

What each call does to the factors, and from it what holds of one factor in a
run.
-/

namespace GuloGulo.Auth.Recovery
open Js Data

variable {host : Host} {m : RecoveryManager} {s s' : RecoveryState}

inductive RecoveryCall where
  | enroll (input : IdentityInput)
  | consume (input : ConsumeInput)
  | revoke (input : RevokeInput)

inductive RecoveryResult where
  | enrolled (enrollment : Enrollment)
  | consumption (consumption : Consumption)
  | revoked (factor : Option RecoveryFactor)

def RecoveryCall.exec (host : Host) (m : RecoveryManager) (env : RecoveryEnv) : RecoveryCall → RecoveryEff RecoveryResult
  | enroll input => do
    let result ← Recovery.enroll host m env input
    return .enrolled result
  | consume input => do
    let result ← Recovery.consume host m env input
    return .consumption result
  | revoke input => do
    let result ← Recovery.revoke env input
    return .revoked result

/-- A call, what the callbacks answered, and how it ended. -/
structure RecoveryEvent where
  call : RecoveryCall
  env : RecoveryEnv
  outcome : Except (Thrown AuthError) RecoveryResult

def Consumption.seen (scope : JsString × JsString) (code : Option JsString) : Consumption → Option Seen
  | .refused _ => none
  | .failed reason lockedUntil => some (.failed reason lockedUntil)
  | .recovered _ => code.map fun c => .consumed scope.1 scope.2 c

/-- What a result shows of a factor. -/
def RecoveryCall.seen (host : Host) (id : JsString) (call : RecoveryCall) (result : RecoveryResult) : Option Seen :=
  match call, result with
  | .enroll input, .enrolled enrollment =>
    (scopeOn id (.string enrollment.factor.factorId) input.tenantId input.userId).map
      fun p => .enrolled p.1 p.2 enrollment.codes
  | .consume input, .consumption c =>
    (scopeOn id input.factorId input.tenantId input.userId).bind fun p => c.seen p (normalizeCode host input.code)
  | .revoke input, .revoked (some _) =>
    (scopeOn id input.factorId input.tenantId input.userId).map fun p => .revoked p.1 p.2
  | _, _ => none

/-- What an outcome of a call shows of the factors. -/
def RecoveryCall.shows (host : Host) (call : RecoveryCall) (outcome : Except (Thrown AuthError) RecoveryResult)
    (id : JsString) : Option Seen :=
  outcome.toOption.bind (call.seen host id)

def RecoveryEvent.seen (host : Host) (id : JsString) (e : RecoveryEvent) : Option Seen := e.call.shows host e.outcome id

structure ClockedManager where
  now : Int
  manager : RecoveryState

def RecoveryState.empty : RecoveryState := ⟨Table.empty, Table.empty⟩

/-- Every record stands under its own identifier. -/
def Keyed (s : RecoveryState) : Prop := ∀ id r, s.factors.get id = some r → r.factorId = id

section
variable {now : Int} {seen : JsString → Option Seen} {record : RecoveryRecord}

variable {env : RecoveryEnv} {t : Int} {double : Number.IsDouble t} {input : ConsumeInput} {id : JsString}

end

/-- A salt and a code. -/
def sampleInput : List UInt8 := (List.range 16).map UInt8.ofNat ++ List.replicate 16 50

/-- The digest of the sample is that of SHA-256. -/
def sampleSha256 (bytes : List UInt8) : List UInt8 :=
  if bytes.length = 32 then Equiv.swap sampleInput (Sha256.digest sampleInput) bytes else Sha256.digest bytes

theorem sampleSha256_length (bytes : List UInt8) : (sampleSha256 bytes).length = 32 := by
  unfold sampleSha256
  split
  · rename_i length
    rw [Equiv.swap_apply_def]
    split
    · rfl
    · split
      · rfl
      · exact length
  · rfl

def sampleHost : Host := { asciiHost with sha256 := sampleSha256, sha256_length := sampleSha256_length }

/-- A source of random bytes that repeats them. -/
def sampleEnv (t : Int) : RecoveryEnv where
  clock := if double : Number.IsDouble t then .shows t double else .notFinite
  idBytes _ := .returned (some (List.replicate 12 0))
  codeBytes _ := .returned (some (List.replicate 10 0))
  saltBytes _ := .returned (some ((List.range 16).map UInt8.ofNat))
  rateLimiter := .returned (.bool true)
  authorizeRevocation := .threw

/-- A call at a time. -/
def sampleExec (m : RecoveryManager) (c : ClockedManager) (call : RecoveryCall × Int) : RecoveryEvent × ClockedManager :=
  let result := call.1.exec sampleHost m (sampleEnv call.2) c.manager
  (⟨call.1, sampleEnv call.2, result.1⟩, ⟨call.2, result.2⟩)

def sampleGuard (c : ClockedManager) (call : RecoveryCall × Int) : Bool := c.now ≤ call.2 && Number.IsDouble call.2

def sampleRun (m : RecoveryManager) (calls : List (RecoveryCall × Int)) : List RecoveryEvent × ClockedManager :=
  Machine.replay (sampleExec m) calls ([], ⟨0, .empty⟩)

end GuloGulo.Auth.Recovery
