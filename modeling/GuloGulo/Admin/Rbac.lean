import GuloGulo.Integrations.TenantContext

/-!
# Administrative authorization

`core/admin/rbac.ts`. Every operation normalizes its actor again, so that a
canonical actor has to pass for the context it was made from.
-/

namespace GuloGulo.Admin
open Js Integrations Actor

structure AdminError where
  name : String
  message : String
  code : String
  status : Nat
  deriving DecidableEq

structure AdminActor where
  tenantId : JsString
  domain : JsString
  actorId : JsString
  userId : Option JsString
  role : TenantRole
  deriving DecidableEq

namespace AdminActor

/-- The actor as an argument of the next call. -/
def value (actor : AdminActor) : JsValue :=
  .object [(js "tenantId", .string actor.tenantId), (js "domain", .string actor.domain),
    (js "actorId", .string actor.actorId), (js "userId", actor.userId.elim .null .string),
    (js "role", .string actor.role.text)]

end AdminActor

/-- `canAccess` of a delegation store; `none` throws. -/
abbrev DelegationAccess := AdminActor → Option JsString → JsString → Option Bool

structure AuthorizationRequest where
  permission : JsValue
  targetTenantId : JsValue := .undefined
  targetUserId : JsValue := .null
  resource : Option JsString := none
  content : Bool := false
  delegationStore : Option DelegationAccess := none
  policy : JsValue := .object []
  policyField : Option JsString := none

structure AuthorizationDecision where
  tenantId : JsString
  actorId : JsString
  actorRole : TenantRole
  targetUserId : Option JsString
  permission : JsString
  resource : Option JsString
  content : Bool
  policyField : Option JsString
  deriving DecidableEq

/-- `[a-z][a-z0-9]*`. -/
def permissionWord (s : JsString) : Bool :=
  s.head?.any isLower && s.all fun u => isLower u || isDigit u

/-- Two to four words with dots between them. -/
def permissionPattern (s : JsString) : Bool :=
  let words := split s 46
  decide (2 ≤ words.length ∧ words.length ≤ 4) && words.all permissionWord

def contentResources : List String :=
  ["mail", "mailbox", "message", "calendar", "contacts", "dav", "user_session"]

def contentPermissions : List String := ["content.read", "content.write"]

def providerPermissions : List String :=
  ["tenant.read", "tenant.manage", "policy.read", "policy.manage", "user.read", "user.manage", "alias.read",
    "alias.manage", "quota.read", "quota.manage", "delegation.read", "delegation.manage", "queue.read",
    "queue.action", "service.read", "metrics.read", "audit.read", "log.read", "mfa.reset.user",
    "recovery.reset.user"]

def masterPermissions : List String :=
  ["tenant.read", "policy.read", "policy.manage", "user.read", "user.manage", "alias.read", "alias.manage",
    "quota.read", "quota.manage", "delegation.read", "delegation.manage", "queue.read", "service.read",
    "metrics.read", "audit.read", "log.read", "mfa.reset.user", "recovery.reset.user"]

def userPermissions : List String :=
  ["user.read.self", "user.update.self", "quota.read", "content.read", "content.write", "session.read",
    "session.revoke", "mfa.manage.self", "recovery.manage.self", "backup.request.self",
    "delegation.manage.self", "audit.read.self"]

def monitorPermissions : List String :=
  ["tenant.read", "quota.read", "queue.read", "service.read", "metrics.read", "audit.read"]

def permissionMatrix : TenantRole → List String
  | .provider => providerPermissions
  | .tenantMaster => masterPermissions
  | .user => userPermissions
  | .monitor => monitorPermissions

def grants (permissions : List String) (permission : JsString) : Bool :=
  permissions.any fun p => js p == permission

def authorizationError (message : String) (code : String := "FORBIDDEN") (status : Nat := 403) : AdminError :=
  ⟨"AdminAuthorizationError", s!"Authorization error: {message}", code, status⟩

def assertSafeActorId (value : JsValue) (field : String := "actorId") : Except AdminError JsString :=
  match value with
  | .string s =>
    if actorIdPattern s then .ok s else .error (authorizationError s!"{field} is invalid" "INVALID_ACTOR" 400)
  | _ => .error (authorizationError s!"{field} is invalid" "INVALID_ACTOR" 400)

def assertSafeUserId (value : JsValue) (field : String := "userId") : Except AdminError JsString :=
  match value with
  | .string s =>
    if actorIdPattern s then .ok s else .error (authorizationError s!"{field} is invalid" "INVALID_USER" 400)
  | _ => .error (authorizationError s!"{field} is invalid" "INVALID_USER" 400)

/-- Whom an actor acts for: a user for nobody else, the other roles for no user. -/
def scopedUser (role : TenantRole) (userId : JsValue) (actorId : JsString) : Except AdminError (Option JsString) :=
  match role with
  | .user => do
    let userId ← assertSafeUserId (userId.orElse (.string actorId))
    throwIf (userId != actorId) (authorizationError "actor and user scope do not match" "ACTOR_SCOPE_MISMATCH")
    return some userId
  | _ => .ok none

/-- A context without an actor may name the user instead. Every role of a
context is an administrative role. -/
def normalizeActor (host : Host) (actor : JsValue) : Except AdminError AdminActor := do
  throwIf (!(actor.get "role").isUndefined && !(requiredRole (actor.get "role")).toBool)
    (authorizationError "role is not supported" "ROLE_DENIED")
  let context ← (assertTenantContext host actor).mapError fun _ =>
    authorizationError "authenticated tenant context is required" "AUTHENTICATION_REQUIRED" 401
  let actorId ← assertSafeActorId ((context.actorId.elim .null JsValue.string).orElse (actor.get "userId"))
  let userId ← scopedUser context.role (actor.get "userId") actorId
  return ⟨context.tenantId, context.domain, actorId, userId, context.role⟩

def assertAdminActor (host : Host) (actor : JsValue) : Except AdminError AdminActor := normalizeActor host actor

def assertPermission (permission : JsValue) : Except AdminError JsString :=
  match permission with
  | .string s =>
    if permissionPattern s then .ok s
    else .error (authorizationError "permission is invalid" "INVALID_PERMISSION" 400)
  | _ => .error (authorizationError "permission is invalid" "INVALID_PERMISSION" 400)

def targetMatchesActor (actor : AdminActor) (targetUserId : Option JsString) : Bool :=
  targetUserId.isNone || targetUserId == actor.userId

def isContentRequest (permission : JsString) (resource : Option JsString) (content : Bool) : Bool :=
  content || grants contentPermissions permission || resource.any (grants contentResources)

def canDelegateContent (actor : AdminActor) (targetUserId : Option JsString) (permission : JsString)
    (delegationStore : Option DelegationAccess) : Bool :=
  match delegationStore with
  | some canAccess =>
    actor.role = .user && grants contentPermissions permission &&
      canAccess actor targetUserId (if permission = js "content.write" then js "write" else js "read") == some true
  | none => false

/-- `targetUserId ?? null`, checked if it is there. -/
def requestedUser (targetUserId : JsValue) : Except AdminError (Option JsString) :=
  if targetUserId.isNullish then .ok none else (assertSafeUserId targetUserId "targetUserId").map some

/-- A user acts for another one only on content delegated to them. -/
def userScope (actor : AdminActor) (requested : Option JsString) (permission : JsString) (content : Bool)
    (delegationStore : Option DelegationAccess) : Except AdminError Unit := do
  let target := requested.or actor.userId
  throwIf (!targetMatchesActor actor target && !canDelegateContent actor target permission delegationStore)
    (authorizationError "user scope is not authorized" "USER_SCOPE_DENIED")
  throwIf (!content && requested.isSome && !targetMatchesActor actor requested)
    (authorizationError "user administration scope is not authorized" "USER_SCOPE_DENIED")

/-- What a tenant's policy keeps from its master. -/
def masterScope (permission : JsString) (policy : JsValue) (policyField : Option JsString) :
    Except AdminError Unit := do
  throwIf (grants ["audit.read", "log.read"] permission && !(policy.get "masterLogAccess").isTrue)
    (authorizationError "master log visibility is disabled by tenant policy" "MASTER_LOG_ACCESS_DISABLED")
  throwIf (policyField.any (grants ["masterLogAccess", "grossQuotaBytes"]))
    (authorizationError "this tenant policy field is provider-controlled" "POLICY_FIELD_DENIED")

def roleScope (canonical : AdminActor) (request : AuthorizationRequest) (permission : JsString)
    (requested : Option JsString) (content : Bool) : Except AdminError Unit :=
  match canonical.role with
  | .user => userScope canonical requested permission content request.delegationStore
  | .tenantMaster => masterScope permission request.policy request.policyField
  | .provider | .monitor => .ok ()

def authorize (host : Host) (actor : JsValue) (request : AuthorizationRequest) :
    Except AdminError AuthorizationDecision := do
  let canonical ← normalizeActor host actor
  let permission ← assertPermission request.permission
  let requested ← requestedUser request.targetUserId
  throwIf (!(request.targetTenantId.orDefault (.string canonical.tenantId)).isString canonical.tenantId)
    (authorizationError "cross-tenant access denied" "CROSS_TENANT_DENIED")
  let content := isContentRequest permission request.resource request.content
  throwIf (content && canonical.role ≠ .user)
    (authorizationError "administrative roles cannot access user content" "CONTENT_ACCESS_DENIED")
  throwIf (!grants (permissionMatrix canonical.role) permission)
    (authorizationError "permission is not granted to this role" "PERMISSION_DENIED")
  roleScope canonical request permission requested content
  return ⟨canonical.tenantId, canonical.actorId, canonical.role, requested.or canonical.userId, permission,
    request.resource, content, request.policyField⟩

/-! ## Results -/

section
variable {host : Host}

theorem assertSafeUserId_eq_ok {value : JsValue} {field : String} {s : JsString} :
    assertSafeUserId value field = .ok s ↔ value = .string s ∧ actorIdPattern s := by
  cases value with
  | string t =>
    constructor
    · intro h
      simp only [assertSafeUserId] at h
      split at h
      · rename_i holds
        cases h
        exact ⟨rfl, holds⟩
      · cases h
    · rintro ⟨same, holds⟩
      cases same
      exact if_pos holds
  | _ => simp [assertSafeUserId]

theorem assertSafeActorId_eq_ok {value : JsValue} {field : String} {s : JsString} :
    assertSafeActorId value field = .ok s ↔ value = .string s ∧ actorIdPattern s := by
  cases value with
  | string t =>
    constructor
    · intro h
      simp only [assertSafeActorId] at h
      split at h
      · rename_i holds
        cases h
        exact ⟨rfl, holds⟩
      · cases h
    · rintro ⟨same, holds⟩
      cases same
      exact if_pos holds
  | _ => simp [assertSafeActorId]

theorem assertPermission_eq_ok {value : JsValue} {s : JsString} :
    assertPermission value = .ok s ↔ value = .string s ∧ permissionPattern s := by
  cases value with
  | string t =>
    constructor
    · intro h
      simp only [assertPermission] at h
      split at h
      · rename_i holds
        cases h
        exact ⟨rfl, holds⟩
      · cases h
    · rintro ⟨same, holds⟩
      cases same
      exact if_pos holds
  | _ => simp [assertPermission]

/-- What a canonical actor is made of. -/
structure Canonical (host : Host) (actor : AdminActor) : Prop where
  tenantId : tenantIdPattern actor.tenantId
  domain : domainPattern actor.domain
  lower : host.toLowerCase actor.domain = actor.domain
  actorId : actorIdPattern actor.actorId
  userId : actor.userId = if actor.role = .user then some actor.actorId else none

theorem scopedUser_eq_ok {role : TenantRole} {userId : JsValue} {actorId : JsString} {user : Option JsString}
    (h : scopedUser role userId actorId = .ok user) : user = if role = .user then some actorId else none := by
  cases role with
  | user =>
    obtain ⟨id, _, h⟩ := bind_eq_ok.mp h
    obtain ⟨_, same, h⟩ := bind_eq_ok.mp h
    cases h
    have same : id = actorId := bne_eq_false_iff_eq.mp (throwIf_eq_ok.mp same)
    rw [same]
    rfl
  | _ =>
    cases h
    rfl

theorem scopedUser_self {role : TenantRole} {actorId : JsString} (safe : actorIdPattern actorId) :
    scopedUser role ((if role = .user then some actorId else none).elim .null .string) actorId =
      .ok (if role = .user then some actorId else none) := by
  cases role with
  | user =>
    have userOk : assertSafeUserId (.string actorId) = .ok actorId := assertSafeUserId_eq_ok.mpr ⟨rfl, safe⟩
    show (assertSafeUserId (.string actorId) >>= _) = _
    rw [userOk, ok_bind, bne_self_eq_false, throwIf_false]
    rfl
  | _ => rfl

theorem normalizeActor_canonical {actor : JsValue} {c : AdminActor} (h : normalizeActor host actor = .ok c) :
    Canonical host c := by
  obtain ⟨_, _, h⟩ := bind_eq_ok.mp h
  obtain ⟨context, known, h⟩ := bind_eq_ok.mp h
  obtain ⟨domain, tenant, _, lower⟩ := canonical_parts (mapError_eq_ok.mp known)
  obtain ⟨actorId, actorOk, h⟩ := bind_eq_ok.mp h
  obtain ⟨userId, userOk, h⟩ := bind_eq_ok.mp h
  cases h
  exact ⟨tenant, domain, lower, (assertSafeActorId_eq_ok.mp actorOk).2, scopedUser_eq_ok userOk⟩

/-- A canonical actor is an argument every operation takes. -/
theorem normalizeActor_value {c : AdminActor} (canonical : Canonical host c) :
    normalizeActor host c.value = .ok c := by
  have object : c.value.isObject = true := rfl
  have tenantKey : c.value.get "tenantId" = .string c.tenantId := rfl
  have domainKey : c.value.get "domain" = .string c.domain := rfl
  have actorKey : c.value.get "actorId" = .string c.actorId := rfl
  have userKey : c.value.get "userId" = c.userId.elim .null .string := rfl
  have roleKey : c.value.get "role" = .string c.role.text := rfl
  have context := assertTenantContext_parts object tenantKey domainKey actorKey roleKey canonical.tenantId
    canonical.domain canonical.actorId canonical.lower
  have actorOk : assertSafeActorId (.string c.actorId) = .ok c.actorId :=
    assertSafeActorId_eq_ok.mpr ⟨rfl, canonical.actorId⟩
  have supported : (requiredRole (.string c.role.text)).toBool = true := by
    rw [requiredRole_text]
    rfl
  have user : scopedUser c.role (c.userId.elim .null .string) c.actorId = .ok c.userId := by
    rw [canonical.userId]
    exact scopedUser_self canonical.actorId
  simp only [normalizeActor, roleKey, userKey, context, supported, mapError_ok, ok_bind, Bool.not_true,
    Bool.and_false, throwIf_false, Option.elim_some, JsValue.orElse, JsValue.isNullish, Bool.false_eq_true,
    ↓reduceIte, actorOk, user]
  rfl

/-- What a decision rests on. -/
structure Decides (host : Host) (actor : JsValue) (request : AuthorizationRequest)
    (decision : AuthorizationDecision) (canonical : AdminActor) (permission : JsString)
    (requested : Option JsString) : Prop where
  known : normalizeActor host actor = .ok canonical
  wellFormed : assertPermission request.permission = .ok permission
  target : requestedUser request.targetUserId = .ok requested
  tenant : (request.targetTenantId.orDefault (.string canonical.tenantId)).isString canonical.tenantId
  content : isContentRequest permission request.resource request.content → canonical.role = .user
  granted : grants (permissionMatrix canonical.role) permission
  scope : roleScope canonical request permission requested
    (isContentRequest permission request.resource request.content) = .ok ()
  decision : decision = ⟨canonical.tenantId, canonical.actorId, canonical.role, requested.or canonical.userId,
    permission, request.resource, isContentRequest permission request.resource request.content,
    request.policyField⟩

theorem authorize_eq_ok {actor : JsValue} {request : AuthorizationRequest} {decision : AuthorizationDecision} :
    authorize host actor request = .ok decision ↔
      ∃ canonical permission requested, Decides host actor request decision canonical permission requested := by
  constructor
  · intro h
    obtain ⟨canonical, known, h⟩ := bind_eq_ok.mp h
    obtain ⟨permission, wellFormed, h⟩ := bind_eq_ok.mp h
    obtain ⟨requested, target, h⟩ := bind_eq_ok.mp h
    obtain ⟨_, tenant, h⟩ := bind_eq_ok.mp h
    obtain ⟨_, content, h⟩ := bind_eq_ok.mp h
    obtain ⟨_, granted, h⟩ := bind_eq_ok.mp h
    obtain ⟨_, scope, h⟩ := bind_eq_ok.mp h
    cases h
    have tenant := throwIf_eq_ok.mp tenant
    have granted := throwIf_eq_ok.mp granted
    refine ⟨canonical, permission, requested, known, wellFormed, target, by simpa using tenant, ?_,
      by simpa using granted, scope, rfl⟩
    intro isContent
    simpa [isContent] using throwIf_eq_ok.mp content
  · rintro ⟨canonical, permission, requested, known, wellFormed, target, tenant, content, granted, scope, rfl⟩
    have allowed : (isContentRequest permission request.resource request.content &&
        decide (canonical.role ≠ .user)) = false := by
      simpa using content
    simp only [authorize, known, wellFormed, target, ok_bind, tenant, granted, Bool.not_true, throwIf_false,
      allowed, scope]
    rfl

/-! ## Refusals -/

/-- The errors of this module have its name. -/
def Named (e : AdminError) : Prop := e.name = "AdminAuthorizationError"

theorem named_throwIf {c : Bool} {message code : String} {status : Nat} :
    Fails Named (throwIf c (authorizationError message code status)) :=
  fails_throwIf rfl

theorem named_assertSafeUserId {value : JsValue} {field : String} : Fails Named (assertSafeUserId value field) := by
  unfold assertSafeUserId
  split
  · split
    · exact fails_ok
    · exact fails_error rfl
  · exact fails_error rfl

theorem named_assertSafeActorId {value : JsValue} {field : String} : Fails Named (assertSafeActorId value field) := by
  unfold assertSafeActorId
  split
  · split
    · exact fails_ok
    · exact fails_error rfl
  · exact fails_error rfl

theorem named_scopedUser {role : TenantRole} {userId : JsValue} {actorId : JsString} :
    Fails Named (scopedUser role userId actorId) := by
  unfold scopedUser
  split
  · apply fails_bind named_assertSafeUserId
    intro _
    exact fails_bind named_throwIf fun _ => fails_ok
  · exact fails_ok

theorem named_normalizeActor (actor : JsValue) : Fails Named (normalizeActor host actor) := by
  apply fails_bind named_throwIf
  intro _
  have authenticated (context : Except Unit Actor.TenantContext) :
      Fails Named (context.mapError fun _ =>
        authorizationError "authenticated tenant context is required" "AUTHENTICATION_REQUIRED" 401) :=
    fails_mapError fun _ => rfl
  apply fails_bind (authenticated _)
  intro context
  apply fails_bind named_assertSafeActorId
  intro actorId
  exact fails_bind named_scopedUser fun _ => fails_ok

theorem named_assertPermission {permission : JsValue} : Fails Named (assertPermission permission) := by
  unfold assertPermission
  split
  · split
    · exact fails_ok
    · exact fails_error rfl
  · exact fails_error rfl

theorem named_requestedUser {targetUserId : JsValue} : Fails Named (requestedUser targetUserId) := by
  unfold requestedUser
  split
  · exact fails_ok
  · exact fails_map named_assertSafeUserId

theorem named_roleScope {canonical : AdminActor} {request : AuthorizationRequest} {permission : JsString}
    {requested : Option JsString} {content : Bool} :
    Fails Named (roleScope canonical request permission requested content) := by
  unfold roleScope
  split
  · exact fails_bind named_throwIf fun _ => named_throwIf
  · exact fails_bind named_throwIf fun _ => named_throwIf
  · exact fails_ok
  · exact fails_ok

theorem named_authorize (actor : JsValue) (request : AuthorizationRequest) :
    Fails Named (authorize host actor request) := by
  apply fails_bind (named_normalizeActor _)
  intro canonical
  apply fails_bind named_assertPermission
  intro permission
  apply fails_bind named_requestedUser
  intro requested
  apply fails_bind named_throwIf
  intro _
  apply fails_bind named_throwIf
  intro _
  apply fails_bind named_throwIf
  intro _
  exact fails_bind named_roleScope fun _ => fails_ok

end

end GuloGulo.Admin
