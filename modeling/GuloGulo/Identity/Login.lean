import GuloGulo.Identity.Clients
import GuloGulo.Mail.Address

/-!
# Logging in

`createProvisionedLoginAuthenticator` of `runtime/login.ts`. The identity
client is made on first use and kept, also when making it failed.
-/

namespace GuloGulo.Identity
open Js Integrations.Actor

/-- The roles a tenant-bound login may carry. -/
def loginRoles : List TenantRole := [.user, .tenantMaster, .monitor]

/-- No assignment means least privilege; an unknown role is none. -/
def resolveLoginRole (identity : Option TenantIdentity) : Option TenantRole :=
  match identity.bind TenantIdentity.role with
  | none => some .user
  | some role => loginRoles.find? fun r => r.text == role

structure ParsedLoginEmail where
  tenantId : JsString
  domain : JsString
  username : JsString
  deriving DecidableEq

def parseLoginEmail (host : Host) (email : JsValue) : Option ParsedLoginEmail :=
  match email with
  | .string email =>
    match Mail.cutLast (host.toLowerCase (trim email)) 64 with
    | some (username, domain) => if username.isEmpty || domain.isEmpty then none else some ⟨domain, domain, username⟩
    | none => none
  | _ => none

structure SessionIdentity where
  tenantId : JsString
  domain : JsString
  userId : JsString
  actorId : JsString
  role : TenantRole
  deriving DecidableEq

structure LoginCredentials where
  email : JsValue
  password : JsValue

/-- The configuration given to the authenticator, if any, and what the adapter
makes of it. -/
structure Adapter where
  config : Bool
  createIdentityClient : Except Unit IdentityClient

/-- `clientPromise`: the client, or the failure to make one. -/
abbrev Authenticator := Option (Except Unit IdentityClient)

def readConfig (adapter : Adapter) (outage : Outage) : Io Unit :=
  if adapter.config then pure () else perform outage .loadConfig true

def buildClient (adapter : Adapter) (outage : Outage) : Io IdentityClient := do
  readConfig adapter outage
  perform outage .createIdentityClient true
  Eff.lift adapter.createIdentityClient

def identityClient (adapter : Adapter) (outage : Outage) (clientPromise : Authenticator) : Io IdentityClient :=
  match clientPromise with
  | some ended => Eff.lift ended
  | none => buildClient adapter outage

/-- The tenant context of a login. -/
def loginContext (host : Host) (parsed : ParsedLoginEmail) : Except Unit TenantContext :=
  createTenantContext host (.object [(js "tenantId", .string parsed.tenantId), (js "domain", .string parsed.domain)])

/-- A lookup that fails counts as one that finds nothing. -/
def found : Except Unit (Option TenantIdentity) → Option TenantIdentity
  | .ok identity => identity
  | .error _ => none

/-- The session of a user who has authenticated. -/
def sessionOf (parsed : ParsedLoginEmail) (identity : Option TenantIdentity) : Option SessionIdentity :=
  if identity.any fun i => i.active == false then none
  else (resolveLoginRole identity).map fun role =>
    let userId := (identity.bind TenantIdentity.externalId).getD parsed.username
    ⟨parsed.tenantId, parsed.domain, userId, userId, role⟩

/-- What a login does once the client is there. -/
def loginWith (client : IdentityClient) (outage : Outage) (host : Host) (parsed : ParsedLoginEmail) (password : JsString) :
    Io (Option SessionIdentity) := do
  if !client.enabled then pure none
  else do
    match loginContext host parsed with
    | .error _ => pure none
    | .ok context =>
      let tenantContext := contextValue context
      let ended ← settled (client.authenticate outage host tenantContext parsed.username password)
      match ended with
      | .ok true =>
        let identity ← settled (client.lookupUser outage host tenantContext parsed.username)
        pure (sessionOf parsed (found identity))
      | _ => pure none

/-- One login: the session identity, if any, the calls made, and the client
that later logins use. -/
def login (adapter : Adapter) (outage : Outage) (host : Host) (clientPromise : Authenticator)
    (credentials : LoginCredentials) : Option SessionIdentity × Calls × Authenticator :=
  match parseLoginEmail host credentials.email, credentials.password with
  | some parsed, .string password =>
    if password.isEmpty then (none, [], clientPromise)
    else
      match identityClient adapter outage clientPromise [] with
      | (.error _, calls) => (none, calls, some (.error ()))
      | (.ok client, calls) =>
        match loginWith client outage host parsed password calls with
        | (.ok session, calls) => (session, calls, some (.ok client))
        | (.error _, calls) => (none, calls, some (.ok client))
  | _, _ => (none, [], clientPromise)

end GuloGulo.Identity
