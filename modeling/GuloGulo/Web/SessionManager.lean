import GuloGulo.Integrations.TenantContext
import GuloGulo.Data.Table
import GuloGulo.Js.Double

/-!
# Web sessions

`web/security/session-manager.ts`, with the store a `Map`. The clock and the
random source answer once for each call, and the state counts the calls made of
them; the random source is asked for a number of bytes. `SessionManager` holds
the options that `createSessionManager` accepts.
-/

namespace GuloGulo.Web.Security
open Js Data
open Integrations (actorIdPattern domainPattern)
open Integrations.Actor (TenantContext TenantRole createTenantContext)
open Eff (check zoom)

structure WebSecurityError where
  message : String
  code : String
  deriving DecidableEq

abbrev Err := Thrown WebSecurityError

def securityError (message code : String) : WebSecurityError := ⟨"Web security error: " ++ message, code⟩

/-- What a call of the clock shows: a time, a date before 1970, a `Date` without
a time value, or nothing. -/
inductive ClockReading where
  | time (t : Nat)
  | early
  | invalid
  | threw
  deriving DecidableEq

/-- What a call of the random source ends in. -/
inductive Draw where
  | bytes (bytes : List UInt8)
  | other
  | threw
  deriving DecidableEq

structure Ambient where
  host : Host
  clock : Nat → ClockReading
  random : Nat → Nat → Draw
  /-- Lower-casing a domain twice is lower-casing it once. -/
  lowered : ∀ d, domainPattern d → host.toLowerCase (host.toLowerCase d) = host.toLowerCase d

/-- The calls made of the clock and of the random source. -/
structure Uses where
  readings : Nat
  draws : Nat
  deriving DecidableEq

section
variable (env : Ambient)

def readClock : Eff Err Uses Nat := fun u =>
  (match env.clock u.readings with
    | .time t => .ok t
    | .early | .invalid => .error (.contract (securityError "clock must return a valid time" "INVALID_CLOCK"))
    | .threw => .error .foreign,
    { u with readings := u.readings + 1 })

/-- A buffer of the size asked for. -/
def randomBytes (size : Nat) (message : String) : Eff Err Uses (List UInt8) := fun u =>
  (match env.random u.draws size with
    | .bytes bytes =>
      if bytes.length = size then .ok bytes
      else .error (.contract (securityError message "INVALID_RANDOM_SOURCE"))
    | .other => .error (.contract (securityError message "INVALID_RANDOM_SOURCE"))
    | .threw => .error .foreign,
    { u with draws := u.draws + 1 })

end

def sessionIdBytes : Nat := 32
def sessionIdPattern (s : JsString) : Bool := decide (s.length = 43) && s.all isBase64Url

def isCookieNameUnit (u : UInt16) : Bool := isAlnum u || (js "!#$%&'*+.^_`|~-").contains u

def cookieNamePattern (s : JsString) : Bool := !s.isEmpty && s.all isCookieNameUnit

/-- `USER_ID_PATTERN` is the pattern of an actor id. -/
def userIdPattern : JsString → Bool := actorIdPattern

def cookieHeaderMaxBytes : Nat := 8192
def defaultTtlMs : Nat := 28800000
def maxTtlMs : Nat := 2592000000

inductive SameSite where
  | strict
  | lax
  | none
  deriving DecidableEq

def SameSite.text : SameSite → JsString
  | strict => js "Strict"
  | lax => js "Lax"
  | none => js "None"

/-- The options that pass `assertTtl` and `assertCookieConfiguration`. -/
structure SessionManager where
  ttlMs : Nat
  cookieName : JsString
  sameSite : SameSite
  ttlMs_bounds : 1 ≤ ttlMs ∧ ttlMs ≤ maxTtlMs
  cookieName_valid : cookieNamePattern cookieName

/-- The tenant, the domain, the actor and the role of a session are those of
its context. -/
structure WebSession where
  sessionId : JsString
  userId : JsString
  context : TenantContext
  createdAt : Nat
  lastSeenAt : Nat
  expiresAt : Nat
  deriving DecidableEq

namespace WebSession
variable (x : WebSession)

def tenantId : JsString := x.context.tenantId
def domain : JsString := x.context.domain
def actorId : Option JsString := x.context.actorId
def role : TenantRole := x.context.role

end WebSession

structure SessionState extends Uses where
  sessions : OrderedMap JsString WebSession

/-- A step that uses the clock or the random source only. -/
def onUses {α : Type} (m : Eff Err Uses α) : Eff Err SessionState α :=
  zoom SessionState.toUses (fun u s => { s with toUses := u }) m

/-- The value a part of the header gives the cookie of a name. -/
def cookieOf (cookieName part : JsString) : Option JsString :=
  match cut part 61 with
  | none => none
  | some (name, value) => if name.isEmpty || trim name != cookieName then none else some (trim value)

def selectCookie (cookieName : JsString) : List JsString → Option JsString → Option JsString
  | [], selected => selected
  | part :: parts, selected =>
    match cookieOf cookieName part with
    | none => selectCookie cookieName parts selected
    | some value => if selected.isSome then none else selectCookie cookieName parts (some value)

def parseCookieHeader (cookieHeader : JsValue) (cookieName : JsString) : Option JsString :=
  match cookieHeader with
  | .string header =>
    if cookieHeaderMaxBytes < byteLength header then none else selectCookie cookieName (split header 59) none
  | _ => none

section
variable (m : SessionManager) (env : Ambient)

def invalidIdentity : WebSecurityError := securityError "tenant identity is invalid" "INVALID_IDENTITY"

def assertUserId (userId : JsValue) : Except WebSecurityError JsString :=
  match userId with
  | .string s =>
    if userIdPattern s then .ok s else .error (securityError "user identifier is invalid" "INVALID_IDENTITY")
  | _ => .error (securityError "user identifier is invalid" "INVALID_IDENTITY")

/-- Reading a property of `null` or `undefined` throws. -/
def assertReadable (value : JsValue) : Except Err Unit := throwIf value.isNullish .foreign

def contextInput (identity : JsValue) : JsValue :=
  .object [(js "tenantId", identity.get "tenantId"), (js "domain", identity.get "domain"),
    (js "actorId", (identity.get "actorId").orElse (identity.get "userId")),
    (js "role", (identity.get "role").orElse (.string (js "user")))]

/-- The identity of a new session. -/
def identify (identity : JsValue) : Except Err (JsString × TenantContext) := do
  throwIf identity.isUndefined (.contract invalidIdentity)
  assertReadable identity
  let userId ← (assertUserId (identity.get "userId")).mapError .contract
  let context ← (createTenantContext env.host (contextInput identity)).mapError fun _ => .contract invalidIdentity
  return (userId, context)

def normalizeRandomBytes : Eff Err SessionState JsString := do
  let generated ← onUses (randomBytes env sessionIdBytes "randomBytesFn must return 32 bytes")
  return base64Url generated

/-- The loop over the attempts that are left. -/
def drawSessionId : Nat → Eff Err SessionState JsString
  | 0 => Eff.throw (.contract (securityError "random session identifier collision" "SESSION_GENERATION_FAILED"))
  | attempts + 1 => do
    let candidate ← normalizeRandomBytes env
    let s ← Eff.get
    if (s.sessions.get candidate).isNone then return candidate else drawSessionId attempts

def newSession (sessionId userId : JsString) (context : TenantContext) (now : Nat) : WebSession where
  sessionId := sessionId
  userId := userId
  context := context
  createdAt := now
  lastSeenAt := now
  expiresAt := Number.add now m.ttlMs

def createSession (identity : JsValue) : Eff Err SessionState WebSession := do
  let (userId, context) ← Eff.lift (identify env identity)
  let now ← onUses (readClock env)
  let sessionId ← drawSessionId env 4
  let session := newSession m sessionId userId context now
  Eff.modify fun s => { s with sessions := s.sessions.set sessionId session }
  return session

/-- A session id that can be looked up. -/
def asSessionId? : JsValue → Option JsString
  | .string s => if sessionIdPattern s then some s else none
  | _ => none

def getActiveSession (sessionId : JsValue) : Eff Err SessionState (Option WebSession) := do
  match asSessionId? sessionId with
  | none => return none
  | some sessionId =>
    let s ← Eff.get
    match s.sessions.get sessionId with
    | none => return none
    | some session =>
      let now ← onUses (readClock env)
      if session.expiresAt ≤ now then
        Eff.modify fun s => { s with sessions := s.sessions.delete sessionId }
        return none
      else return some session

def clearCookieExpires : JsString := js "Thu, 01 Jan 1970 00:00:00 GMT"

def clearSessionCookie : JsString :=
  m.cookieName ++ js "=; Path=/; HttpOnly; Secure; SameSite=" ++ m.sameSite.text ++
    js "; Max-Age=0; Expires=" ++ clearCookieExpires

def authenticateCookie (cookieHeader : JsValue) : Eff Err SessionState (Option WebSession) :=
  match parseCookieHeader cookieHeader m.cookieName with
  | none => return none
  | some sessionId => getActiveSession env (.string sessionId)

def requireSession (cookieHeader : JsValue) : Eff Err SessionState WebSession := do
  match ← authenticateCookie m env cookieHeader with
  | none => Eff.throw (.contract (securityError "session is missing, expired, or invalid" "SESSION_INVALID"))
  | some session => return session

def invalidate (sessionId : JsValue) : Eff Err SessionState Bool :=
  match asSessionId? sessionId with
  | none => return false
  | some sessionId => fun s =>
    (.ok (s.sessions.get sessionId).isSome, { s with sessions := s.sessions.delete sessionId })

structure Logout where
  sessionId : Option JsString
  invalidated : Bool
  clearCookie : JsString
  deriving DecidableEq

def logout (cookieHeader : JsValue) : Eff Err SessionState Logout := do
  match parseCookieHeader cookieHeader m.cookieName with
  | none => return ⟨none, false, clearSessionCookie m⟩
  | some sessionId =>
    let invalidated ← invalidate (.string sessionId)
    return ⟨some sessionId, invalidated, clearSessionCookie m⟩

/-- An actor, or `null`. -/
def actorValue : Option JsString → JsValue
  | none => .null
  | some s => .string s

def nextIdentity (overrides : JsValue) (old : WebSession) : JsValue :=
  .object [(js "tenantId", (overrides.get "tenantId").orElse (.string old.tenantId)),
    (js "domain", (overrides.get "domain").orElse (.string old.domain)),
    (js "userId", (overrides.get "userId").orElse (.string old.userId)),
    (js "role", (overrides.get "role").orElse (.string old.role.text)),
    (js "actorId", ((overrides.get "actorId").orElse (actorValue old.actorId)).orElse (.string old.userId))]

/-- The next identity names what the old session is bound to. -/
def sameBinding (next : JsValue) (old : WebSession) : Bool :=
  (next.get "tenantId").isString old.tenantId && (next.get "domain").isString old.domain &&
    (next.get "userId").isString old.userId && (next.get "role").isString old.role.text &&
    old.actorId.any (next.get "actorId").isString

def rotate (sessionId overrides : JsValue) : Eff Err SessionState WebSession := do
  match ← getActiveSession env sessionId with
  | none => Eff.throw (.contract (securityError "cannot rotate an inactive session" "SESSION_INVALID"))
  | some old =>
    let overrides := overrides.orDefault (.object [])
    Eff.lift (assertReadable overrides)
    let next := nextIdentity overrides old
    check (throwIf (!sameBinding next old)
      (securityError "session rotation cannot change tenant or user binding" "SESSION_BINDING_VIOLATION"))
    let session ← createSession m env next
    let _ ← invalidate (.string old.sessionId)
    return session

def ofUser (tenantId : JsValue) (userId : JsString) (x : WebSession) : Bool :=
  tenantId.isString x.tenantId && x.userId == userId

/-- The entries a condition selects are deleted, and counted. -/
def deleteSessions (p : WebSession → Bool) : Eff Err SessionState Nat := fun s =>
  (.ok (s.sessions.values.countP p), { s with sessions := s.sessions.deleteWhere fun row => p row.2 })

def invalidateUserSessions (input : JsValue) : Eff Err SessionState Nat := do
  let input := input.orDefault (.object [])
  Eff.lift (assertReadable input)
  let userId ← check (assertUserId (input.get "userId"))
  deleteSessions (ofUser (input.get "tenantId") userId)

def purgeExpired : Eff Err SessionState Nat := do
  let now ← onUses (readClock env)
  deleteSessions fun x => decide (x.expiresAt ≤ now)

end

inductive SessionCall where
  | createSession (identity : JsValue)
  | getActiveSession (sessionId : JsValue)
  | authenticateCookie (cookieHeader : JsValue)
  | requireSession (cookieHeader : JsValue)
  | invalidate (sessionId : JsValue)
  | logout (cookieHeader : JsValue)
  | rotate (sessionId overrides : JsValue)
  | invalidateUserSessions (input : JsValue)
  | purgeExpired

inductive SessionAnswer where
  | issued (session : WebSession)
  | found (session : Option WebSession)
  | invalidated (invalidated : Bool)
  | loggedOut (logout : Logout)
  | count (n : Nat)
  deriving DecidableEq

def answering {α : Type} (answer : α → SessionAnswer) (m : Eff Err SessionState α) :
    Eff Err SessionState SessionAnswer := do
  let a ← m
  return answer a

def perform (m : SessionManager) (env : Ambient) : SessionCall → Eff Err SessionState SessionAnswer
  | .createSession identity => answering .issued (createSession m env identity)
  | .getActiveSession sessionId => answering .found (getActiveSession env sessionId)
  | .authenticateCookie header => answering .found (authenticateCookie m env header)
  | .requireSession header => answering (fun x => .found (some x)) (requireSession m env header)
  | .invalidate sessionId => answering .invalidated (invalidate sessionId)
  | .logout header => answering .loggedOut (logout m header)
  | .rotate sessionId overrides => answering .issued (rotate m env sessionId overrides)
  | .invalidateUserSessions input => answering .count (invalidateUserSessions input)
  | .purgeExpired => answering .count (purgeExpired env)

def SessionState.initial : SessionState := ⟨⟨0, 0⟩, Table.empty⟩

end GuloGulo.Web.Security
