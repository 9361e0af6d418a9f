import GuloGulo.Web.WebSecurity

/-!
# The state of the HTTP server

What `createRuntimeServer` of `runtime/server.ts` keeps between requests, and
the response to the request at hand: `finish` answers at most once, since it
sets its flag first. `events` is a history of what the handler does.
-/

namespace GuloGulo.Runtime.Server
open Js Data Web.Security
open Eff (check zoom)

structure LoginFailure where
  startedAt : Nat
  count : Nat
  deriving DecidableEq

structure Response where
  completed : Bool
  setCookie : Option SetCookie
  heads : List Nat
  ends : Nat
  body : JsValue

def Response.fresh : Response := ⟨false, none, [], 0, .undefined⟩

def Response.Unanswered (r : Response) : Prop := r.completed = false ∧ r.heads = [] ∧ r.ends = 0

inductive Event where
  | sessionCreated (session : WebSession)
  deriving DecidableEq

structure ServerState extends SecurityState where
  loginFailures : OrderedMap JsString LoginFailure
  sessionMailAddress : OrderedMap JsString JsString
  imapIdleAvailability : OrderedMap JsString Bool
  response : Response
  events : List Event

def onSecurity {α : Type} (m : Eff Err SecurityState α) : Eff Err ServerState α :=
  zoom ServerState.toSecurityState (fun s t => { t with toSecurityState := s }) m

def record (e : Event) : Eff Err ServerState Unit := Eff.modify fun s => { s with events := s.events ++ [e] }

/-- `clock().toISOString()`. -/
def showClock (env : Ambient) : Eff Err Uses Unit := fun u =>
  (match env.clock u.readings with
    | .time _ | .early => .ok ()
    | .invalid | .threw => .error .foreign,
    { u with readings := u.readings + 1 })

def setHeader (setCookie : SetCookie) : Eff Err ServerState Unit :=
  Eff.modify fun s => { s with response := { s.response with setCookie := some setCookie } }

/-- `finish`, of a payload that can be serialised. -/
def finish (status : Nat) (payload : JsValue) : Eff Err ServerState Unit := fun s =>
  (.ok (), if s.response.completed then s else { s with
    response := { s.response with
      completed := true, heads := s.response.heads ++ [status], ends := s.response.ends + 1, body := payload } })

/-- `responsePayload`, by what differs between answers, and then `finish`. -/
def respond (env : Ambient) (status : Nat) (details : JsValue) : Eff Err ServerState Unit := do
  onSecurity (onSessions (onUses (showClock env)))
  finish status details

def errorDetails (code message : String) : JsValue :=
  .object [(js "error", .object [(js "code", .string (js code)), (js "message", .string (js message))])]

end GuloGulo.Runtime.Server
