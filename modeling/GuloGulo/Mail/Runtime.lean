import GuloGulo.Integrations.TenantContext
import GuloGulo.Js.Date

/-!
# What the mail modules share

Coded errors, the clock, and the services that are passed in: a call of one
may throw and may return anything.
-/

namespace GuloGulo.Mail
open Js Integrations

/-- An `Error` with a `code`. -/
structure CodedError where
  message : String
  code : String
  deriving DecidableEq

/-- A context that is refused is one exception to the callers. -/
def assertContext (host : Host) (context : JsValue) : Except (Thrown CodedError) Actor.TenantContext :=
  (Actor.assertTenantContext host context).mapError fun _ => .foreign

def assertAccess (host : Host) (context : JsValue) (tenantId : JsString) :
    Except (Thrown CodedError) Actor.TenantContext :=
  (Actor.assertTenantAccess host context tenantId).mapError fun _ => .foreign

/-- What a call of `clock` does: it throws, or gives a date, which may be
invalid. -/
inductive Reading where
  | throws
  | invalid
  | time (t : Int)
  deriving DecidableEq

namespace Reading

/-- `getTime()`; `none` is NaN. -/
def date : Reading → Except (Thrown CodedError) (Option Int)
  | throws => .error .foreign
  | invalid => .ok none
  | time t => .ok (some t)

def value? : Reading → Option Int
  | time t => some t
  | _ => none

end Reading

/-- `toISOString()`, which an invalid date does not have. -/
def isoText : Option Int → Except (Thrown CodedError) JsString
  | some t => .ok (isoString t)
  | none => .error .foreign

/-- How a call of a service ends, a rejected promise being a throw. -/
inductive Outcome where
  | threw
  | returned (value : JsValue)

/-- The value, for code that awaits the call. -/
def Outcome.value : Outcome → Except (Thrown CodedError) JsValue
  | threw => .error .foreign
  | returned value => .ok value

end GuloGulo.Mail
