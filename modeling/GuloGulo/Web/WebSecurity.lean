import GuloGulo.Web.SessionManager
import GuloGulo.Js.Decode

/-!
# CSRF tokens and session credentials

`csrf.ts`, `session-credential.ts` and `index.ts` of `web/security`, over one
state: the sessions, the tokens of each session and the sealed mail passwords.
The three share the clock and the random source.
-/

namespace GuloGulo.Web.Security
open Js Data
open Eff (check zoom)

structure TokenRecord where
  digest : List UInt8
  issuedAt : Nat
  expiresAt : Nat
  deriving DecidableEq

abbrev Bucket := OrderedMap JsString TokenRecord

/-- AES-256-GCM opens under the key that is derived from a session id, with the
id as associated data, what it has sealed so, and nothing else. -/
structure Sealed where
  key : JsString
  aad : JsString
  iv : List UInt8
  plaintext : List UInt8
  deriving DecidableEq

structure CredentialEntry where
  box : Sealed
  expiresAt : Nat
  deriving DecidableEq

structure SecurityState extends SessionState where
  tokensBySession : OrderedMap JsString Bucket
  credentials : OrderedMap JsString CredentialEntry

def onSessions {α : Type} (m : Eff Err SessionState α) : Eff Err SecurityState α :=
  zoom SecurityState.toSessionState (fun s t => { t with toSessionState := s }) m

def tokenBytes : Nat := 32

/-- The pattern of tokens is the pattern of session ids. -/
def tokenPattern : JsString → Bool := sessionIdPattern

structure CsrfManager where
  tokenTtlMs : Nat
  maxOutstandingTokens : Nat
  tokenTtlMs_bounds : 1 ≤ tokenTtlMs ∧ tokenTtlMs ≤ 3600000
  maxOutstandingTokens_bounds : 1 ≤ maxOutstandingTokens ∧ maxOutstandingTokens ≤ 256

def csrfInvalid : WebSecurityError := securityError "CSRF token is invalid or expired" "CSRF_INVALID"

section
variable (c : CsrfManager) (env : Ambient)

def digestToken (token : JsString) : List UInt8 := env.host.sha256 (token.map fun u => UInt8.ofNat u.toNat)

/-- `isSessionActive`, as the facade wires it. -/
def isSessionActive (sessionId : JsString) : Eff Err SecurityState Bool := do
  return (← onSessions (getActiveSession env (.string sessionId))).isSome

/-- A `try` block whose handler returns a value. -/
def orElse {α : Type} (m : Eff Err SecurityState α) (a : α) : Eff Err SecurityState α := fun s =>
  match m s with
  | (.ok b, s') => (.ok b, s')
  | (.error _, s') => (.ok a, s')

def active (session : WebSession) : Eff Err SecurityState Bool := do
  check (throwIf (!sessionIdPattern session.sessionId)
    (securityError "an authenticated session is required" "SESSION_INVALID"))
  let now ← onSessions (onUses (readClock env))
  if session.expiresAt ≤ now then return false
  else orElse (isSessionActive env session.sessionId) false

def removeExpired (bucket : Bucket) (now : Nat) : Bucket :=
  bucket.deleteWhere fun row => decide (row.2.expiresAt ≤ now)

/-- The oldest tokens go while there are `max` or more. -/
def evictOldest (max : Nat) (bucket : Bucket) : Bucket where
  rows := bucket.rows.drop (bucket.rows.length + 1 - max)
  nodup := bucket.nodup.sublist ((List.drop_sublist _ _).map Prod.fst)

structure IssuedToken where
  token : JsString
  issuedAt : Nat
  expiresAt : Nat
  deriving DecidableEq

def issue (session : WebSession) : Eff Err SecurityState IssuedToken := do
  let isActive ← active env session
  check (throwIf (!isActive) (securityError "cannot issue a token for an inactive session" "SESSION_INVALID"))
  let now ← onSessions (onUses (readClock env))
  let generated ← onSessions (onUses (randomBytes env tokenBytes "randomBytesFn must return 32 bytes"))
  let token := base64Url generated
  let digest := digestToken env token
  let key := base64Url digest
  let s ← Eff.get
  let bucket := (s.tokensBySession.get session.sessionId).getD Table.empty
  let bucket := evictOldest c.maxOutstandingTokens (removeExpired bucket now)
  let bucket := bucket.set key ⟨digest, now, Number.add now c.tokenTtlMs⟩
  Eff.modify fun s => { s with tokensBySession := s.tokensBySession.set session.sessionId bucket }
  return ⟨token, now, Number.add now c.tokenTtlMs⟩

/-- The last entry whose digest is that of the token. -/
def matching (bucket : Bucket) (digest : List UInt8) : Option (JsString × TokenRecord) :=
  (bucket.rows.filter fun row => row.2.digest == digest).getLast?

def validate (session : WebSession) (token : JsValue) (consume : Bool) : Eff Err SecurityState Unit := do
  let isActive ← active env session
  match isActive, token with
  | true, .string token =>
    check (throwIf (!tokenPattern token) csrfInvalid)
    let s ← Eff.get
    match s.tokensBySession.get session.sessionId with
    | none => Eff.throw (.contract csrfInvalid)
    | some bucket =>
      let now ← onSessions (onUses (readClock env))
      let bucket := removeExpired bucket now
      Eff.modify fun s => { s with tokensBySession := s.tokensBySession.set session.sessionId bucket }
      match matching bucket (digestToken env token) with
      | none => Eff.throw (.contract csrfInvalid)
      | some (key, record) =>
        check (throwIf (decide (record.expiresAt ≤ now)) csrfInvalid)
        if consume then
          let bucket := bucket.delete key
          Eff.modify fun s => { s with
            tokensBySession :=
              if bucket.size = 0 then s.tokensBySession.delete session.sessionId
              else s.tokensBySession.set session.sessionId bucket }
        else return ()
  | _, _ => Eff.throw (.contract csrfInvalid)

/-- A header token and a body token have to be the same, if both are there. -/
def validateRequest (session : WebSession) (headerToken bodyToken : Option JsString) (consume : Bool) :
    Eff Err SecurityState Unit := do
  check (throwIf (headerToken.any fun a => bodyToken.any fun b => a != b)
    (securityError "CSRF header and body tokens differ" "CSRF_INVALID"))
  validate env session ((headerToken.or bodyToken).elim .undefined .string) consume

def revokeSession (sessionId : JsString) : Eff Err SecurityState Unit :=
  if sessionIdPattern sessionId then
    Eff.modify fun s => { s with tokensBySession := s.tokensBySession.delete sessionId }
  else return ()

end

/-- The buckets without their expired tokens, and without those that are empty then. -/
def purgeBuckets (tokensBySession : OrderedMap JsString Bucket) (now : Nat) : OrderedMap JsString Bucket where
  rows := (tokensBySession.rows.filter fun row => decide ((removeExpired row.2 now).size ≠ 0)).map fun row =>
    (row.1, removeExpired row.2 now)
  nodup := by
    rw [List.map_map]
    exact tokensBySession.nodup.sublist (List.filter_sublist.map _)

def Csrf.purgeExpired (env : Ambient) : Eff Err SecurityState Nat := do
  let now ← onSessions (onUses (readClock env))
  let s ← Eff.get
  Eff.modify fun s => { s with tokensBySession := purgeBuckets s.tokensBySession now }
  return (s.tokensBySession.values.map fun bucket => bucket.size - (removeExpired bucket now).size).sum

namespace MailCredentials

def ivBytes : Nat := 12
def maxCredentialBytes : Nat := 1024

section
variable (env : Ambient)

def assertSessionId (sessionId : JsString) : Except WebSecurityError Unit :=
  throwIf (!sessionIdPattern sessionId) (securityError "session identifier is invalid" "SESSION_INVALID")

def sweep (now : Nat) : Eff Err SecurityState Unit :=
  Eff.modify fun s => { s with credentials := s.credentials.deleteWhere fun row => decide (row.2.expiresAt ≤ now) }

def sealCredential (sessionId : JsString) (iv : List UInt8) (credential : JsString) : Sealed :=
  ⟨sessionId, sessionId, iv, utf8 credential⟩

def openCredential (sessionId : JsString) (box : Sealed) : Option (List UInt8) :=
  if box.key = sessionId ∧ box.aad = sessionId then some box.plaintext else none

def set (sessionId credential : JsString) (expiresAt : Nat) : Eff Err SecurityState Unit := do
  check (assertSessionId sessionId)
  check (throwIf (credential.isEmpty || decide (maxCredentialBytes < byteLength credential))
    (securityError "credential is invalid" "INVALID_CREDENTIAL"))
  let now ← onSessions (onUses (readClock env))
  check (throwIf (decide (maxSafeInteger < expiresAt ∨ expiresAt ≤ now))
    (securityError "expiresAt is invalid" "INVALID_TTL"))
  sweep now
  let iv ← onSessions (onUses (randomBytes env ivBytes "randomBytesFn must return 12 bytes"))
  Eff.modify fun s => { s with
    credentials := s.credentials.set sessionId ⟨sealCredential sessionId iv credential, expiresAt⟩ }

def get (sessionId : JsString) : Eff Err SecurityState (Option JsString) := do
  check (assertSessionId sessionId)
  let now ← onSessions (onUses (readClock env))
  sweep now
  let s ← Eff.get
  match s.credentials.get sessionId with
  | none => return none
  | some entry =>
    match openCredential sessionId entry.box with
    | some plaintext => return some (utf8Text plaintext)
    | none =>
      Eff.modify fun s => { s with credentials := s.credentials.delete sessionId }
      return none

def remove (sessionId : JsString) : Eff Err SecurityState Unit :=
  if sessionIdPattern sessionId then
    Eff.modify fun s => { s with credentials := s.credentials.delete sessionId }
  else return ()

end

end MailCredentials

/-- The attributes of the cookie that differ between cookies. -/
structure SetCookie where
  name : JsString
  value : JsString
  maxAge : Nat
  expires : Nat
  deriving DecidableEq

section
variable (m : SessionManager) (env : Ambient)

def serializeSessionCookie (session : WebSession) : Eff Err SessionState SetCookie := do
  check (throwIf (!sessionIdPattern session.sessionId)
    (securityError "session identifier is invalid" "SESSION_INVALID"))
  let found ← getActiveSession env (.string session.sessionId)
  check (throwIf (decide (found ≠ some session))
    (securityError "cannot serialize an inactive or foreign session" "SESSION_INVALID"))
  let now ← onUses (readClock env)
  return ⟨m.cookieName, session.sessionId, (session.expiresAt - now + 999) / 1000, session.expiresAt⟩

/-- The facade's `logout`: the session, its tokens and its password. -/
def logoutAll (cookieHeader : JsValue) : Eff Err SecurityState Logout := do
  let result ← onSessions (logout m cookieHeader)
  match result.sessionId with
  | none => return result
  | some sessionId =>
    revokeSession sessionId
    MailCredentials.remove sessionId
    return result

end

end GuloGulo.Web.Security
