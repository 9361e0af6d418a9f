import GuloGulo.Js.Effect

/-!
# Tenant contexts

`assertTenantContext` of `integrations/tenant-context.ts`: for the role `user`
that both DAV stores pass and, under `Actor`, for a context of unknown shape
and every role.
-/

namespace GuloGulo.Integrations
open Js

structure TenantContext where
  tenantId : JsString
  domain : JsString
  actorId : JsString

/-- `/^[a-z0-9][a-z0-9._-]{0,63}$/u`. -/
def tenantIdPattern : JsString → Bool :=
  isName (fun u => isLower u || isDigit u)
    (fun u => isLower u || isDigit u || u == 46 || u == 95 || u == 45) 63

/-- An alphanumeric, then at most 127 of alphanumerics, `.`, `_`, `-`, `:`, `@`
and the slash. -/
def actorIdPattern : JsString → Bool :=
  isName isAlnum
    (fun u => isAlnum u || u == 46 || u == 95 || u == 45 || u == 58 || u == 64 || u == 47) 127

/-- `[a-z0-9]` without regard to case; in Unicode, the long s and the Kelvin
sign fold to letters as well. -/
def isDomainUnit (u : UInt16) : Bool := isAlnum u || u == 0x17F || u == 0x212A

def domainLabel (s : JsString) : Bool :=
  decide (s.length ≤ 63) && s.head?.any isDomainUnit && s.getLast?.any isDomainUnit &&
    s.all fun u => isDomainUnit u || u == 45

def domainPattern (s : JsString) : Bool :=
  decide (1 ≤ s.length ∧ s.length ≤ 253) && (split s 46).all domainLabel

/-- The domain has to be in lower case already. Every failure is one exception
to the callers. -/
def assertTenantContext (host : Host) (tenantId : JsString) (domain : Option JsString)
    (actorId : JsString) : Except Unit TenantContext :=
  match domain with
  | none => .error ()
  | some domain => do
    throwIf (!domainPattern domain) ()
    throwIf (!tenantIdPattern tenantId) ()
    throwIf (!actorIdPattern actorId) ()
    throwIf (host.toLowerCase domain != domain) ()
    return ⟨tenantId, domain, actorId⟩

namespace Actor

inductive TenantRole where
  | provider
  | tenantMaster
  | user
  | monitor
  deriving DecidableEq

def TenantRole.text : TenantRole → JsString
  | provider => js "provider"
  | tenantMaster => js "tenant_master"
  | user => js "user"
  | monitor => js "monitor"

structure TenantContext where
  tenantId : JsString
  domain : JsString
  actorId : Option JsString
  role : TenantRole
  deriving DecidableEq

def requiredString (value : JsValue) (pattern : JsString → Bool) : Except Unit JsString :=
  match value with
  | .string s => if pattern s then .ok s else .error ()
  | _ => .error ()

def requiredRole (value : JsValue) : Except Unit TenantRole :=
  match [TenantRole.provider, .tenantMaster, .user, .monitor].find? fun r => value.isString r.text with
  | some role => .ok role
  | none => .error ()

def requiredActor (value : JsValue) : Except Unit (Option JsString) :=
  match value with
  | .null => .ok none
  | _ => (requiredString value actorIdPattern).map some

def createTenantContext (host : Host) (input : JsValue) : Except Unit TenantContext := do
  let domain ← requiredString (input.get "domain") domainPattern
  let role ← requiredRole ((input.get "role").orDefault (.string (js "user")))
  let tenantId ← requiredString (input.get "tenantId") tenantIdPattern
  let actorId ← requiredActor ((input.get "actorId").orDefault .null)
  return ⟨tenantId, host.toLowerCase domain, actorId, role⟩

def isActor (value : JsValue) (actorId : Option JsString) : Bool :=
  match value, actorId with
  | .null, none => true
  | .string s, some t => s == t
  | _, _ => false

/-- The domain has to be in lower case already, and the role and the actor have
to be there. -/
def assertTenantContext (host : Host) (context : JsValue) : Except Unit TenantContext := do
  throwIf (!context.isObject) ()
  throwIf (context.get "tenantId").isUndefined ()
  let canonical ← createTenantContext host context
  throwIf (!(context.get "domain").isString canonical.domain ||
    !(context.get "role").isString canonical.role.text ||
    !isActor (context.get "actorId") canonical.actorId) ()
  return canonical

def assertTenantAccess (host : Host) (context : JsValue) (requestedTenantId : JsString) :
    Except Unit TenantContext := do
  let canonical ← assertTenantContext host context
  throwIf (requestedTenantId != canonical.tenantId) ()
  return canonical

theorem assertTenantAccess_eq_ok {host : Host} {context : JsValue} {tenantId : JsString}
    {canonical : TenantContext} (h : assertTenantAccess host context tenantId = .ok canonical) :
    assertTenantContext host context = .ok canonical ∧ canonical.tenantId = tenantId := by
  obtain ⟨c, hc, h⟩ := bind_eq_ok.mp h
  obtain ⟨_, same, h⟩ := bind_eq_ok.mp h
  cases h
  have equal : tenantId = canonical.tenantId := bne_eq_false_iff_eq.mp (throwIf_eq_ok.mp same)
  exact ⟨hc, equal.symm⟩

theorem requiredString_eq_ok {value : JsValue} {pattern : JsString → Bool} {s : JsString} :
    requiredString value pattern = .ok s ↔ value = .string s ∧ pattern s := by
  cases value with
  | string t =>
    constructor
    · intro h
      simp only [requiredString] at h
      split at h
      · rename_i holds
        cases h
        exact ⟨rfl, holds⟩
      · cases h
    · rintro ⟨same, holds⟩
      cases same
      exact if_pos holds
  | _ => simp [requiredString]

theorem requiredActor_eq_some {value : JsValue} {actorId : JsString}
    (h : requiredActor value = .ok (some actorId)) : actorIdPattern actorId := by
  unfold requiredActor at h
  split at h
  · cases h
  · obtain ⟨x, required, same⟩ := map_eq_ok.mp h
    cases same
    exact (requiredString_eq_ok.mp required).2

theorem isString_eq {value : JsValue} {s : JsString} (h : value.isString s) : value = .string s := by
  cases value with
  | string t => rw [eq_of_beq (show (t == s) = true from h)]
  | _ => cases h

/-- A context that passes has parts that pass, and its domain is in lower case. -/
theorem canonical_parts {host : Host} {context : JsValue} {c : TenantContext}
    (h : assertTenantContext host context = .ok c) :
    domainPattern c.domain ∧ tenantIdPattern c.tenantId ∧ (∀ x, c.actorId = some x → actorIdPattern x) ∧
      host.toLowerCase c.domain = c.domain := by
  obtain ⟨_, _, h⟩ := bind_eq_ok.mp h
  obtain ⟨_, _, h⟩ := bind_eq_ok.mp h
  obtain ⟨canonical, created, h⟩ := bind_eq_ok.mp h
  obtain ⟨_, kept, h⟩ := bind_eq_ok.mp h
  cases h
  have kept := throwIf_eq_ok.mp kept
  simp only [Bool.or_eq_false_iff, Bool.not_eq_false'] at kept
  have domainKept := isString_eq kept.1.1
  obtain ⟨domain, domainOk, created⟩ := bind_eq_ok.mp created
  obtain ⟨role, _, created⟩ := bind_eq_ok.mp created
  obtain ⟨tenantId, tenantOk, created⟩ := bind_eq_ok.mp created
  obtain ⟨actorId, actorOk, created⟩ := bind_eq_ok.mp created
  cases created
  obtain ⟨domainIs, domainOk⟩ := requiredString_eq_ok.mp domainOk
  have same : host.toLowerCase domain = domain := JsValue.string.inj (domainKept.symm.trans domainIs)
  have passes : domainPattern (host.toLowerCase domain) := by
    rw [same]
    exact domainOk
  have lower : host.toLowerCase (host.toLowerCase domain) = host.toLowerCase domain := congrArg host.toLowerCase same
  refine ⟨passes, (requiredString_eq_ok.mp tenantOk).2, ?_, lower⟩
  intro x hx
  rw [show actorId = some x from hx] at actorOk
  exact requiredActor_eq_some actorOk

theorem requiredRole_text (role : TenantRole) : requiredRole (.string role.text) = .ok role := by
  cases role <;> decide

attribute [local simp] assertTenantContext in
/-- A context of such parts passes. -/
theorem assertTenantContext_parts {host : Host} {context : JsValue} {tenantId domain actorId : JsString}
    {role : TenantRole} (object : context.isObject) (tenantKey : context.get "tenantId" = .string tenantId)
    (domainKey : context.get "domain" = .string domain) (actorKey : context.get "actorId" = .string actorId)
    (roleKey : context.get "role" = .string role.text) (tenant : tenantIdPattern tenantId)
    (domainOk : domainPattern domain) (actor : actorIdPattern actorId)
    (lower : host.toLowerCase domain = domain) :
    assertTenantContext host context = .ok ⟨tenantId, domain, some actorId, role⟩ := by
  have created : createTenantContext host context = .ok ⟨tenantId, domain, some actorId, role⟩ := by
    have domainRead : requiredString (.string domain) domainPattern = .ok domain :=
      requiredString_eq_ok.mpr ⟨rfl, domainOk⟩
    have tenantRead : requiredString (.string tenantId) tenantIdPattern = .ok tenantId :=
      requiredString_eq_ok.mpr ⟨rfl, tenant⟩
    have actorRead : requiredString (.string actorId) actorIdPattern = .ok actorId :=
      requiredString_eq_ok.mpr ⟨rfl, actor⟩
    have actorRead : requiredActor (.string actorId) = .ok (some actorId) := by
      show (requiredString (.string actorId) actorIdPattern).map some = _
      rw [actorRead]
      rfl
    simp only [createTenantContext, domainKey, roleKey, tenantKey, actorKey, JsValue.orDefault,
      JsValue.isUndefined, Bool.false_eq_true, ↓reduceIte, domainRead, requiredRole_text, tenantRead, actorRead,
      ok_bind, lower]
    rfl
  have same (s : JsString) : JsValue.isString (.string s) s = true := beq_self_eq_true s
  have isActor : isActor (.string actorId) (some actorId) = true := beq_self_eq_true actorId
  simp only [assertTenantContext, object, tenantKey, JsValue.isUndefined, Bool.not_true, throwIf_false, ok_bind,
    created, domainKey, roleKey, actorKey, same, isActor, Bool.or_self]
  rfl

/-- The scope the stores build, as a context. -/
def userContext (tenantId domain actorId : JsString) : JsValue :=
  .object [(js "tenantId", .string tenantId), (js "domain", .string domain),
    (js "actorId", .string actorId), (js "role", .string (js "user"))]

end Actor

end GuloGulo.Integrations
