import GuloGulo.Integrations.TenantContext

/-!
# Identity clients

`createLdapIdentityClient` of `integrations/ldap-client.ts` and
`createCpanelIdentityClient` of `platform/cpanel/cpanel-identity-client.ts`,
for settings that passed their checks. What they exchange with the directory,
the mail server and the secret store is a list of calls; an outage says which
of them fail, and may go by all that was called before.
-/

namespace GuloGulo.Identity
open Js Integrations.Actor

inductive Call where
  | loadConfig
  | createIdentityClient
  | openClient
  | startTls
  | resolveSecret (reference : JsString)
  | bind (dn password : JsString)
  | search (base filter : JsString)
  | listPops
  | createImapClient
  | imapConnect
  | imapLogin (mailAddress password : JsString)
  deriving DecidableEq

/-- The calls made, the latest first, with whether each succeeded. -/
abbrev Calls := List (Call × Bool)

abbrev Outage := Calls → Call → Bool

/-- A computation that makes calls. Every exception is one to the callers. -/
abbrev Io := Eff Unit Calls

/-- A call that fails in an outage, and otherwise does what the other side does with it. -/
def perform (outage : Outage) (call : Call) (accepted : Bool) : Io Unit := fun calls =>
  if accepted && !outage calls call then (.ok (), (call, true) :: calls) else (.error (), (call, false) :: calls)

/-- `try`: how a computation ended. -/
def settled {α : Type} (m : Io α) : Io (Except Unit α) := fun calls => (.ok (m calls).1, (m calls).2)

def usernamePattern : JsString → Bool := isName isAlnum (fun u => isAlnum u || u == 46 || u == 95 || u == 45) 63

structure TenantIdentity where
  externalId : Option JsString
  mailAddress : Option JsString
  displayName : Option JsString
  dn : Option JsString
  active : Bool
  role : Option JsString
  deriving DecidableEq

/-- What a caller passes as tenant context. -/
def contextValue (context : TenantContext) : JsValue :=
  .object [(js "tenantId", .string context.tenantId), (js "domain", .string context.domain),
    (js "actorId", context.actorId.elim .null .string), (js "role", .string context.role.text)]

/-- An attribute as the client library returns it. -/
inductive Attribute where
  | absent
  | flag (b : Bool)
  | text (s : JsString)
  | texts (values : List JsString)
  deriving DecidableEq

def Attribute.isFalse : Attribute → Bool
  | flag b => !b
  | _ => false

structure LdapEntry where
  dn : Attribute
  uid : Attribute
  mail : Attribute
  displayName : Attribute
  cn : Attribute
  active : Attribute
  guloguloRole : Attribute
  deriving DecidableEq

/-- The settings of the client, the secrets it can resolve, and the directory:
what a search finds and which passwords a bind accepts. -/
structure Ldap where
  startTls : Bool
  bindDn : JsString
  bindSecretRef : JsString
  userBaseDn : JsString
  retryAttempts : Nat
  secrets : JsString → JsString
  search : JsString → JsString → List LdapEntry
  accepts : JsString → JsString → Bool

def escapeUnit (u : UInt16) : JsString :=
  if u = 92 then js "\\5c" else if u = 42 then js "\\2a" else if u = 40 then js "\\28"
  else if u = 41 then js "\\29" else if u = 0 then js "\\00" else [u]

def escapeFilter (value : JsString) : JsString := value.flatMap escapeUnit

def attributeString : Attribute → Option JsString
  | .text s => some s
  | .texts values => values.head?
  | _ => none

/-- Several values are ambiguous and become a role that no login may carry. -/
def roleAttribute (value : Attribute) : Option JsString :=
  match value with
  | .texts (_ :: _ :: _) => some (js "ambiguous")
  | _ => attributeString value

def lookupFilter (username domain : JsString) : JsString :=
  js "(&(objectClass=person)(mail=" ++ escapeFilter username ++ js "@" ++ escapeFilter domain ++ js "))"

def identityOf (entry : LdapEntry) : TenantIdentity where
  externalId := attributeString entry.uid
  mailAddress := attributeString entry.mail
  displayName := attributeString entry.displayName <|> attributeString entry.cn
  dn := attributeString entry.dn
  active := !entry.active.isFalse
  role := roleAttribute entry.guloguloRole

namespace Ldap
variable (ldap : Ldap) (outage : Outage)

def retry {α : Type} (operation : Io α) : Nat → Io α
  | 0 => operation
  | n + 1 => do
    let ended ← settled operation
    match ended with
    | .ok a => pure a
    | .error _ => retry operation n

def openClient : Io Unit := do
  perform outage .openClient true
  if ldap.startTls then perform outage .startTls true else pure ()

/-- A secret that is no text or empty counts as one that cannot be resolved. -/
def serviceClient {α : Type} (callback : Io α) : Io α := do
  ldap.openClient outage
  let secret := ldap.secrets ldap.bindSecretRef
  perform outage (.resolveSecret ldap.bindSecretRef) (!secret.isEmpty)
  perform outage (.bind ldap.bindDn secret) (ldap.accepts ldap.bindDn secret)
  callback

def readEntries (filter : JsString) : Io (Option TenantIdentity) := do
  perform outage (.search ldap.userBaseDn filter) true
  match ldap.search ldap.userBaseDn filter with
  | [] => pure none
  | [entry] => pure (some (identityOf entry))
  | _ => Eff.lift (.error ())

def lookupUser (host : Host) (tenantContext : JsValue) (username : JsString) : Io (Option TenantIdentity) := do
  let context ← Eff.lift (assertTenantContext host tenantContext)
  Eff.lift (throwIf (!usernamePattern username) ())
  retry (ldap.serviceClient outage (ldap.readEntries outage (lookupFilter username context.domain))) ldap.retryAttempts

/-- The body of the `try` of `authenticate`. -/
def bindUser (host : Host) (tenantContext : JsValue) (username password : JsString) : Io Bool := do
  let identity ← ldap.lookupUser outage host tenantContext username
  match identity with
  | none => pure false
  | some identity =>
    let dn := identity.dn.getD []
    if dn.isEmpty || identity.active == false then pure false
    else do
      ldap.openClient outage
      perform outage (.bind dn password) (ldap.accepts dn password)
      pure true

def authenticate (host : Host) (tenantContext : JsValue) (username password : JsString) : Io Bool :=
  if password.isEmpty then pure false
  else do
    let ended ← settled (ldap.bindUser outage host tenantContext username password)
    match ended with
    | .ok answer => pure answer
    | .error _ => pure false

end Ldap

/-- The settings of the client, the secrets it can resolve, what
`Email::list_pops` answers, and which passwords the mail server accepts. -/
structure Cpanel where
  apiTokenSecretRef : JsString
  secrets : JsString → JsString
  listPops : JsValue
  accepts : JsString → JsString → Bool

namespace Cpanel
variable (cpanel : Cpanel) (outage : Outage) (host : Host)

/-- `rows.find`: the property of a row that is `null` or `undefined` throws. -/
def findRow (mailAddress : JsString) : List JsValue → Except Unit (Option JsValue)
  | [] => .ok none
  | row :: rows =>
    if row.isNullish then .error ()
    else match row.get "email" with
      | .string email => if host.toLowerCase email = mailAddress then .ok (some row) else findRow mailAddress rows
      | _ => findRow mailAddress rows

def rows : List JsValue :=
  match cpanel.listPops.get "data" with
  | .array items => items
  | _ => []

def suspended (entry : JsValue) : Bool := (entry.get "suspended_login").isTrue || (entry.get "suspended").isTrue

def identityOf (username mailAddress : JsString) (entry : JsValue) : TenantIdentity where
  externalId := some (((entry.get "login").asString?).getD username)
  mailAddress := some mailAddress
  displayName := none
  dn := none
  active := !suspended entry
  role := none

def mailAddress (username domain : JsString) : JsString := host.toLowerCase (username ++ js "@" ++ domain)

def lookupUser (tenantContext : JsValue) (username : JsString) : Io (Option TenantIdentity) := do
  let context ← Eff.lift (assertTenantContext host tenantContext)
  Eff.lift (throwIf (!usernamePattern username) ())
  let address := mailAddress host username context.domain
  perform outage (.resolveSecret cpanel.apiTokenSecretRef) (!(cpanel.secrets cpanel.apiTokenSecretRef).isEmpty)
  perform outage .listPops true
  let entry ← Eff.lift (findRow host address cpanel.rows)
  return entry.map (identityOf username address)

/-- What follows the login, logging out and closing, is not seen by the caller. -/
def imapLogin (address password : JsString) : Io Unit := do
  perform outage .imapConnect true
  perform outage (.imapLogin address password) (cpanel.accepts address password)

def authenticateWithImapLogin (address password : JsString) : Io Bool := do
  perform outage .createImapClient true
  let ended ← settled (cpanel.imapLogin outage address password)
  match ended with
  | .ok _ => pure true
  | .error _ => pure false

def authenticate (tenantContext : JsValue) (username password : JsString) : Io Bool := do
  let context ← Eff.lift (assertTenantContext host tenantContext)
  if !usernamePattern username || password.isEmpty then pure false
  else cpanel.authenticateWithImapLogin outage (mailAddress host username context.domain) password

end Cpanel

inductive IdentityClient where
  | disabled
  | ldap (client : Ldap)
  | cpanel (client : Cpanel)

namespace IdentityClient

def enabled : IdentityClient → Bool
  | disabled => false
  | _ => true

/-- A client that is disabled has no lookup, and none is made with it. -/
def lookupUser (client : IdentityClient) (outage : Outage) (host : Host) (tenantContext : JsValue) (username : JsString) :
    Io (Option TenantIdentity) :=
  match client with
  | disabled => Eff.lift (.error ())
  | ldap client => client.lookupUser outage host tenantContext username
  | cpanel client => client.lookupUser outage host tenantContext username

def authenticate (client : IdentityClient) (outage : Outage) (host : Host) (tenantContext : JsValue)
    (username password : JsString) : Io Bool :=
  match client with
  | disabled => pure false
  | ldap client => client.authenticate outage host tenantContext username password
  | cpanel client => client.authenticate outage host tenantContext username password

end IdentityClient

end GuloGulo.Identity
