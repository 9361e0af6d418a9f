import GuloGulo.Js.Date
import GuloGulo.Js.Double
import GuloGulo.Js.Effect
import GuloGulo.Data.Lockout
import GuloGulo.Data.Table

/-!
# What the authentication managers share

The checks that `totp.ts`, `recovery-codes.ts` and `webauthn.ts` of `core/auth`
each have of their own, with the name of the manager as a parameter, and what
their callbacks may answer.
-/

namespace GuloGulo.Auth
open Js Data

structure AuthError where
  message : String
  code : String
  deriving DecidableEq, Repr

/-- `authError` of the manager of a name. -/
def authError (manager message code : String) : AuthError := ⟨s!"{manager} error: {message}", code⟩

/-- What the clock shows: no finite number, or one whose whole part is a double. -/
inductive Reading where
  | threw
  | notFinite
  | shows (time : Int) (double : Number.IsDouble time)

/-- What the source of random bytes returns; `none` is no buffer. -/
inductive RandomAnswer where
  | threw
  | returned (bytes : Option (List UInt8))

/-- Whether the rate limiter lets an attempt through: it returns `true` or an
object that says so. -/
def rateAllows : Answer → Bool
  | .threw => false
  | .returned value => value.isTrue || (value.get "allowed").isTrue

/-- Whether `authorizeRevocation` returns `true`. -/
def authorizes : Answer → Bool
  | .threw => false
  | .returned value => value.isTrue

def readTime (manager : String) : Reading → Except (Thrown AuthError) Int
  | .threw => .error .foreign
  | .notFinite =>
    .error (.contract (authError manager "clock must return a non-negative millisecond timestamp" "INVALID_CLOCK"))
  | .shows time _ =>
    if time < 0 then
      .error (.contract (authError manager "clock must return a non-negative millisecond timestamp" "INVALID_CLOCK"))
    else .ok time

/-- `ID_PATTERN`. -/
def idPattern : JsString → Bool :=
  isName (fun u => isLower u || isDigit u)
    (fun u => isLower u || isDigit u || u == 46 || u == 95 || u == 58 || u == 64 || u == 47 || u == 45) 127

def assertIdentityPart (manager : String) (value : JsValue) (name : String) : Except AuthError JsString :=
  match value with
  | .string s => if idPattern s then .ok s else .error (authError manager s!"{name} is invalid" "INVALID_IDENTITY")
  | _ => .error (authError manager s!"{name} is invalid" "INVALID_IDENTITY")

/-- Whether a call names the tenant and the user of a factor. -/
def assertOwner (manager : String) (ownTenant ownUser : JsString) (tenantId userId : JsValue) : Except AuthError Unit := do
  let tenantId ← assertIdentityPart manager tenantId "tenantId"
  let userId ← assertIdentityPart manager userId "userId"
  throwIf (ownTenant ≠ tenantId || ownUser ≠ userId)
    (authError manager "factor is outside the requested identity scope" "FACTOR_SCOPE_VIOLATION")

/-- The tenant and the user that a call gives with a factor. -/
def scopeOn (id : JsString) (factorId tenantId userId : JsValue) : Option (JsString × JsString) :=
  match factorId, tenantId, userId with
  | .string factorId, .string tenantId, .string userId => if factorId = id then some (tenantId, userId) else none
  | _, _, _ => none

def assertRandomBytes (manager : String) (answer : RandomAnswer) (size : Nat) :
    Except (Thrown AuthError) { bytes : List UInt8 // bytes.length = size } :=
  match answer with
  | .threw => .error .foreign
  | .returned (some bytes) =>
    if h : bytes.length = size then .ok ⟨bytes, h⟩
    else .error (.contract (authError manager s!"randomBytesFn must return {size} bytes" "INVALID_RANDOM_SOURCE"))
  | .returned none =>
    .error (.contract (authError manager s!"randomBytesFn must return {size} bytes" "INVALID_RANDOM_SOURCE"))

/-- `text.length` within bounds, and no line break. -/
def isLine (s : JsString) (max : Nat) : Bool :=
  1 ≤ s.length && s.length ≤ max && s.all fun u => u ≠ 13 && u ≠ 10

def normalizeLabel (manager standard : String) (label : JsValue) : Except AuthError JsString :=
  match label with
  | .undefined => .ok (js standard)
  | .string s => if isLine s 64 then .ok s else .error (authError manager "label is invalid" "INVALID_LABEL")
  | _ => .error (authError manager "label is invalid" "INVALID_LABEL")

def assertReason (manager : String) (reason : JsValue) : Except AuthError JsString :=
  match reason.orDefault (.string (js "user_request")) with
  | .string s => if isLine s 128 then .ok s else .error (authError manager "reason is invalid" "INVALID_REASON")
  | _ => .error (authError manager "reason is invalid" "INVALID_REASON")

/-- Whether an actor may revoke what is the user's. -/
def mayRevoke (actorId userId : JsString) (actorRole : JsValue) (authorizeRevocation : Answer) : Bool :=
  (actorId = userId && (actorRole.orDefault (.string (js "user"))).isString (js "user")) ||
    (actorId ≠ userId && authorizes authorizeRevocation)

/-- The characters for groups of five bits; `buffer` holds the `bits` bits that
have not been written yet, and what is left over is filled with zeros. -/
def encodeQuintets (alphabet : List UInt16) : List UInt8 → Nat → Nat → JsString
  | [], buffer, bits => if bits = 0 then [] else [alphabet.getD ((buffer <<< (5 - bits)) % 32) 0]
  | byte :: rest, buffer, bits =>
    let buffer := buffer * 256 + byte.toNat
    let left := (bits + 8) % 5
    let written := (List.range ((bits + 8) / 5)).reverse.map fun i => alphabet.getD ((buffer >>> (left + 5 * i)) % 32) 0
    written ++ encodeQuintets alphabet rest (buffer % (1 <<< left)) left

/-- A number that has been checked. -/
structure Within (low high : Nat) where
  value : Nat
  bounds : low ≤ value ∧ value ≤ high

def integerWithin (value : JsValue) (low high : Nat) : Option (Within low high) :=
  match value.asInteger? with
  | some (.ofNat n) => if h : low ≤ n ∧ n ≤ high then some ⟨n, h⟩ else none
  | _ => none

/-- Locks of a length; a `Date` cannot hold a time at which they do not last. -/
def lockoutOf (maxFailures : Within 1 20) (lockoutMs : Within 1000 maxSafeInteger) : Lockout where
  maxFailures := maxFailures.value
  ends now := Number.add now.toNat lockoutMs.value
  reach := maxTime
  positive := maxFailures.bounds.1
  lasts now started within := by
    have length := lockoutMs.bounds.1
    have after : now.toNat < Number.add now.toNat lockoutMs.value := Number.lt_add (by unfold maxTime at within; omega) (by omega)
    omega
  ordered now later before := by
    have sums : Number.add now.toNat lockoutMs.value ≤ Number.add later.toNat lockoutMs.value :=
      Number.add_mono (Int.toNat_le_toNat before) _
    omega

/-- The first of four candidates that is not taken. -/
def freshId {ν : Type} (manager : String) (taken : OrderedMap JsString ν) (candidate : List UInt8 → JsString)
    (randomBytes : Nat → RandomAnswer) : Nat → Nat → Except (Thrown AuthError) JsString
  | 0, _ => .error (.contract (authError manager "factor identifier collision" "FACTOR_GENERATION_FAILED"))
  | attempts + 1, i => do
    let bytes ← assertRandomBytes manager (randomBytes i) 12
    if (taken.get (candidate bytes.1)).isSome then freshId manager taken candidate randomBytes attempts (i + 1)
    else return candidate bytes.1

end GuloGulo.Auth
