import GuloGulo.Auth.TotpFactor
import GuloGulo.Data.Machine
import GuloGulo.Js.Sha256

/-!
# Runs of the TOTP manager

What each call does to the factors, and from it what holds of one factor in a
run.
-/

namespace GuloGulo.Auth.Totp
open Js Data

variable {host : TotpHost} {m : TotpManager} {s s' : TotpState}

section
variable {env : TotpEnv} {record : TotpRecord} {now : Int} {allowPending : Bool}

end

inductive TotpCall where
  | enroll (input : EnrollInput)
  | confirmEnrollment (input : CodeInput)
  | verify (input : CodeInput)
  | revoke (input : RevokeInput)

inductive TotpResult where
  | enrolled (enrollment : Enrollment)
  | confirmation (confirmation : Confirmation)
  | evaluation (evaluation : Evaluation)
  | revoked (factor : Option TotpFactor)

def TotpCall.exec (host : TotpHost) (m : TotpManager) (env : TotpEnv) : TotpCall → TotpEff TotpResult
  | enroll input => do
    let result ← Totp.enroll m env input
    return .enrolled result
  | confirmEnrollment input => do
    let result ← Totp.confirmEnrollment host m env input
    return .confirmation result
  | verify input => do
    let result ← Totp.verify host m env input
    return .evaluation result
  | revoke input => do
    let result ← Totp.revoke env input
    return .revoked result

/-- A call, what the callbacks answered, and how it ended. -/
structure TotpEvent where
  call : TotpCall
  env : TotpEnv
  outcome : Except (Thrown AuthError) TotpResult

def Evaluation.seen (accepted : Nat → Seen) : Evaluation → Option Seen
  | .refused _ => none
  | .failed reason lockedUntil => some (.failed reason lockedUntil)
  | .verified counter _ _ => some (accepted counter)

/-- What a result shows of a factor. -/
def TotpCall.seen (id : JsString) (call : TotpCall) (result : TotpResult) : Option Seen :=
  match call, result with
  | .enroll input, .enrolled enrollment =>
    (scopeOn id (.string enrollment.factor.factorId) input.tenantId input.userId).map fun p => .enrolled p.1 p.2
  | .confirmEnrollment input, .confirmation c =>
    (scopeOn id input.factorId input.tenantId input.userId).bind fun p => c.evaluation.seen (.confirmed p.1 p.2)
  | .verify input, .evaluation e =>
    (scopeOn id input.factorId input.tenantId input.userId).bind fun p => e.seen (.verified p.1 p.2)
  | .revoke input, .revoked (some _) =>
    (scopeOn id input.factorId input.tenantId input.userId).map fun p => .revoked p.1 p.2
  | _, _ => none

def TotpEvent.seen (id : JsString) (e : TotpEvent) : Option Seen := e.outcome.toOption.bind (e.call.seen id)

structure ClockedManager where
  now : Int
  manager : TotpState

def TotpState.empty : TotpState := ⟨Table.empty, Table.empty⟩

/-- The time of a call. -/
def TotpEvent.time (e : TotpEvent) : Int :=
  match e.env.clock with
  | .shows t _ => t
  | .threw | .notFinite => 0

/-- Every record stands under its own identifier. -/
def Keyed (s : TotpState) : Prop := ∀ id r, s.factors.get id = some r → r.factorId = id

section
variable {now : Int} {seen : JsString → Option Seen}

end

section
variable {now : Int} {seen : JsString → Option Seen} {record : TotpRecord} {outcome : Except (Thrown AuthError) Evaluation}

/-- What an outcome of a call shows of the factors. -/
def TotpCall.shows (call : TotpCall) (outcome : Except (Thrown AuthError) TotpResult) (id : JsString) : Option Seen :=
  outcome.toOption.bind (call.seen id)

variable {env : TotpEnv} {t : Int} {double : Number.IsDouble t}

end

/-- The digest that the sample uses is that of SHA-256. -/
def sampleHost : TotpHost :=
  { asciiHost with
    hmac := fun algorithm key message =>
      match algorithm with
      | .sha256 => Sha256.hmac key message
      | .sha1 | .sha512 => [] }

/-- The base32 text of the bytes 0 to 19. -/
def sampleSecret : JsString := js "AAAQEAYEAUDAOCAJBIFQYDIOB4IBCEQT"

def shownTime (t : Int) : Reading := if double : Number.IsDouble t then .shows t double else .notFinite

/-- A protector that keeps the text, and a clock that stands still. -/
def sampleEnv (t : Int) : TotpEnv where
  clock := shownTime t
  clockAgain := shownTime t
  randomBytes i := .returned (some ((List.range (if i = 0 then 20 else 12)).map UInt8.ofNat))
  encrypt := .text sampleSecret
  decrypt := .returned (.string sampleSecret)
  rateLimiter := .returned (.bool true)
  authorizeRevocation := .threw

/-- A call at a time. -/
def sampleExec (m : TotpManager) (c : ClockedManager) (call : TotpCall × Int) : TotpEvent × ClockedManager :=
  let result := call.1.exec sampleHost m (sampleEnv call.2) c.manager
  (⟨call.1, sampleEnv call.2, result.1⟩, ⟨call.2, result.2⟩)

def sampleGuard (c : ClockedManager) (call : TotpCall × Int) : Bool := c.now ≤ call.2 && Number.IsDouble call.2

def bob : JsValue := .string (js "bob")

def acme : JsValue := .string (js "acme")

end GuloGulo.Auth.Totp
