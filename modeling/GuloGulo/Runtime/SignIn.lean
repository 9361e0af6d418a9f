import GuloGulo.Runtime.ServerState

/-!
# Signing in

`startSession` of `runtime/server.ts`, after a verified password or a completed
challenge. Its `try` block changes six stores one after another, and its
handler answers 401 and restores nothing.
-/

namespace GuloGulo.Runtime.Server
open Js Data Web.Security
open Eff (check zoom)

structure MfaLoginInput where
  identity : JsValue
  email : JsString
  password : JsString
  rememberMe : Bool

/-- The length of a password, as the login route checks it. -/
def acceptsPassword (password : JsString) : Bool := decide (1 ≤ password.length ∧ password.length ≤ 1024)

structure Managers where
  sessions : SessionManager
  csrf : CsrfManager

section
variable (m : Managers) (env : Ambient)

/-- The session of the request goes first. -/
def dropSession (session : Option WebSession) (cookieHeader : JsValue) : Eff Err ServerState Unit :=
  match session with
  | none => return ()
  | some session => do
    let _ ← onSecurity (logoutAll m.sessions cookieHeader)
    Eff.modify fun s => { s with
      sessionMailAddress := s.sessionMailAddress.delete session.sessionId
      imapIdleAvailability := s.imapIdleAvailability.delete session.sessionId }

def createAuthenticatedSession (identity : JsValue) : Eff Err ServerState (WebSession × SetCookie) := do
  let session ← onSecurity (onSessions (createSession m.sessions env identity))
  record (.sessionCreated session)
  let setCookie ← onSecurity (onSessions (serializeSessionCookie m.sessions env session))
  return (session, setCookie)

def publicSessionUser (session : WebSession) : JsValue :=
  .object [(js "tenantId", .string session.tenantId), (js "domain", .string session.domain),
    (js "userId", .string session.userId),
    (js "email", .string (if session.userId.contains 64 then session.userId
      else session.userId ++ js "@" ++ session.domain)),
    (js "role", .string session.role.text)]

def sessionDetails (session : WebSession) (csrfToken : JsString) (recoveryCodes : Option (List JsString)) : JsValue :=
  .object ([(js "authenticated", .bool true), (js "user", publicSessionUser session),
    (js "csrfToken", .string csrfToken)] ++
      recoveryCodes.elim [] fun codes => [(js "recoveryCodes", .array (codes.map .string))])

/-- What follows on the creation of the session, up to the answer. -/
def equip (login : MfaLoginInput) (loginKey : Option JsString) (recoveryCodes : Option (List JsString))
    (session : WebSession) (setCookie : SetCookie) : Eff Err ServerState Unit := do
  let issued ← onSecurity (issue m.csrf env session)
  onSecurity (MailCredentials.set env session.sessionId login.password session.expiresAt)
  Eff.modify fun s => { s with
    sessionMailAddress := s.sessionMailAddress.set session.sessionId login.email
    loginFailures := loginKey.elim s.loginFailures s.loginFailures.delete }
  setHeader setCookie
  respond env 200 (sessionDetails session issued.token recoveryCodes)

def signIn (session : Option WebSession) (cookieHeader : JsValue) (login : MfaLoginInput)
    (loginKey : Option JsString) (recoveryCodes : Option (List JsString)) : Eff Err ServerState Unit := do
  dropSession m session cookieHeader
  let (created, setCookie) ← createAuthenticatedSession m env login.identity
  equip m env login loginKey recoveryCodes created setCookie

/-- The handler of the `try` block. -/
def orCatch (body handler : Eff Err ServerState Unit) : Eff Err ServerState Unit := fun s =>
  match body s with
  | (.ok _, s') => (.ok (), s')
  | (.error _, s') => handler s'

def startSession (session : Option WebSession) (cookieHeader : JsValue) (login : MfaLoginInput)
    (loginKey : Option JsString) (recoveryCodes : Option (List JsString)) : Eff Err ServerState Unit :=
  orCatch (signIn m env session cookieHeader login loginKey recoveryCodes)
    (respond env 401 (errorDetails "SIGN_IN_FAILED" "Unable to sign in."))

end

end GuloGulo.Runtime.Server
