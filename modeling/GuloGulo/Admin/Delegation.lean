import GuloGulo.Admin.Quota

/-!
# Delegations

`core/admin/delegation.ts`. The operations that change a delegation end with
their only write, so that each is a function from the records it finds to the
`Change` it makes. A call reads the clock at most once.
-/

namespace GuloGulo.Admin
open Js Data Integrations Actor

structure DelegationRecord where
  tenantId : JsString
  ownerUserId : JsString
  delegateUserId : JsString
  permissions : List JsString
  forced : Bool
  policySource : String
  reason : Option JsString
  createdAt : Int
  updatedAt : Int
  expiresAt : Option Int
  actorId : JsString
  deriving DecidableEq

structure DelegationEvent where
  schemaVersion : Nat := 1
  eventType : String
  tenantId : JsString
  actorId : JsString
  actorRole : TenantRole
  ownerUserId : JsString
  delegateUserId : JsString
  permissions : List JsString
  forced : Bool
  result : String := "success"
  reason : Option JsString
  occurredAt : JsString
  deriving DecidableEq

/-- What the operations return of a record. -/
structure DelegationView where
  schemaVersion : Nat := 1
  tenantId : JsString
  ownerUserId : JsString
  delegateUserId : JsString
  permissions : List JsString
  forced : Bool
  policySource : String
  reason : Option JsString
  createdAt : JsString
  expiresAt : Option JsString
  status : String
  actorId : JsString
  deriving DecidableEq

structure DelegationState where
  records : OrderedMap JsString DelegationRecord
  history : List DelegationEvent

def delegationError (message : String) (code : String := "DELEGATION_ERROR") (status : Nat := 403) : AdminError :=
  ⟨"DelegationError", s!"Delegation error: {message}", code, status⟩

namespace Delegation

def permissionSet : List JsString := [js "read", js "write"]

/-- Every entry as one of the permissions. -/
def permissionItems : List JsValue → Option (List JsString)
  | [] => some []
  | .string s :: rest => if permissionSet.contains s then (permissionItems rest).map (s :: ·) else none
  | _ :: _ => none

def normalizePermissions (value : JsValue) : Except AdminError (List JsString) :=
  let invalid := delegationError "permissions must contain read or write" "INVALID_PERMISSIONS" 400
  match value with
  | .array items =>
    match permissionItems items with
    | none | some [] => .error invalid
    | some permissions =>
      let permissions := if permissions.contains (js "write") then permissions ++ [js "read"] else permissions
      .ok ((unique permissions).insertionSort (· ≤ ·))
  | _ => .error invalid

/-- `REASON_PATTERN`. -/
def reasonPattern (s : JsString) : Bool := decide (1 ≤ s.length ∧ s.length ≤ 256) && s.all isPrintable

def normalizeReason (value : JsValue) (required : Bool := false) : Except AdminError (Option JsString) :=
  if value.isNullish || value.isString [] then do
    throwIf required (delegationError "forced delegation requires a reason" "REASON_REQUIRED" 400)
    return none
  else
    match value with
    | .string s =>
      if reasonPattern (trim s) then .ok (some (trim s))
      else .error (delegationError "reason is invalid" "INVALID_REASON" 400)
    | _ => .error (delegationError "reason is invalid" "INVALID_REASON" 400)

def isTimestamp : JsValue → Bool
  | .date _ | .string _ | .number _ | .nonFinite => true
  | _ => false

variable (host : Host)

def normalizeTimestamp (value : JsValue) (field : String) (allowNull : Bool := true) :
    Except AdminError (Option Int) :=
  if value.isNullish then do
    throwIf (!allowNull) (delegationError s!"{field} is required" "INVALID_TIMESTAMP" 400)
    return none
  else do
    throwIf (!isTimestamp value) (delegationError s!"{field} is invalid" "INVALID_TIMESTAMP" 400)
    match newDate host value with
    | some time => return some time
    | none => .error (delegationError s!"{field} is invalid" "INVALID_TIMESTAMP" 400)

def isActive (record : DelegationRecord) (now : Int) : Bool := record.expiresAt.all fun expiry => decide (now < expiry)

def cloneDelegation (record : DelegationRecord) (now : Int) : DelegationView where
  tenantId := record.tenantId
  ownerUserId := record.ownerUserId
  delegateUserId := record.delegateUserId
  permissions := record.permissions
  forced := record.forced
  policySource := record.policySource
  reason := record.reason
  createdAt := isoString record.createdAt
  expiresAt := record.expiresAt.map isoString
  status := if isActive record now then "active" else "expired"
  actorId := record.actorId

/-- A check inside code in which a callback or the runtime can throw as well. -/
def check {α : Type} (x : Except AdminError α) : Except (Thrown AdminError) α := x.mapError .contract

def now (clock : Answer) : Except (Thrown AdminError) Int :=
  match clock with
  | .threw => .error .foreign
  | .returned value =>
    match newDate host value with
    | some time => .ok time
    | none => .error (.contract (delegationError "clock returned an invalid timestamp" "CLOCK_INVALID" 500))

def assertTenantOwner (actor ownerUserId : JsValue) (allowMaster : Bool := true) :
    Except AdminError (AdminActor × JsString) := do
  let canonical ← normalizeActor host actor
  let owner ← assertSafeUserId ownerUserId "ownerUserId"
  throwIf (canonical.role = .user && canonical.userId ≠ some owner)
    (delegationError "a user can manage only their own delegation" "OWNER_SCOPE_DENIED")
  throwIf (canonical.role = .tenantMaster && !allowMaster)
    (delegationError "master delegation is not allowed for this operation" "ROLE_DENIED")
  throwIf (canonical.role ≠ .user && canonical.role ≠ .tenantMaster)
    (delegationError "only the owner or tenant master can manage delegation" "ROLE_DENIED")
  return (canonical, owner)

/-- What `appendHistory` records of a change. -/
def historyEvent (record : DelegationRecord) (action : String) (actor : AdminActor) (reason : Option JsString)
    (occurredAt : Int) : DelegationEvent where
  eventType := s!"delegation.{action}"
  tenantId := record.tenantId
  actorId := actor.actorId
  actorRole := actor.role
  ownerUserId := record.ownerUserId
  delegateUserId := record.delegateUserId
  permissions := record.permissions
  forced := record.forced
  reason := reason
  occurredAt := isoString occurredAt

/-- The record that a call writes under its owner, what it appends to the
history, and the time it read. -/
structure Change where
  owner : JsString
  record : DelegationRecord
  event : DelegationEvent
  time : Int

/-- What a `create` has established before it looks for a record. -/
structure Draft where
  canonical : AdminActor
  owner : JsString
  delegate : JsString
  timestamp : Int
  expiry : Option Int
  reason : Option JsString

def assertDraft (clock : Answer) (actor input : JsValue) : Except (Thrown AdminError) Draft := do
  let (canonical, owner) ← check (assertTenantOwner host actor (input.get "ownerUserId"))
  let delegate ← check (assertSafeUserId (input.get "delegateUserId") "delegateUserId")
  check (throwIf (owner = delegate)
    (delegationError "owner and delegate must be different users" "SELF_DELEGATION" 400))
  let isMaster : Bool := canonical.role = .tenantMaster
  let forced := (input.get "forced").isTrue
  check (throwIf (isMaster && !forced)
    (delegationError "master-created delegation must be explicitly forced" "FORCED_FLAG_REQUIRED" 400))
  check (throwIf (!isMaster && forced)
    (delegationError "only a tenant master can create forced delegation" "FORCED_FLAG_DENIED"))
  let timestamp ← now host clock
  let expiry ← check (normalizeTimestamp host (input.get "expiresAt") "expiresAt")
  check (throwIf (expiry.any fun expiry => expiry ≤ timestamp)
    (delegationError "expiresAt must be in the future" "INVALID_EXPIRY" 400))
  let reason ← check (normalizeReason (input.get "reason") isMaster)
  return ⟨canonical, owner, delegate, timestamp, expiry, reason⟩

def requestedPermissions (input : JsValue) : Except AdminError (List JsString) :=
  normalizePermissions ((input.get "permissions").orDefault (.array [.string (js "read")]))

def create (records : OrderedMap JsString DelegationRecord) (clock : Answer) (actor input : JsValue) :
    Except (Thrown AdminError) Change := do
  let input ← parameter input
  let draft ← assertDraft host clock actor input
  check (throwIf ((records.get draft.owner).any fun existing => isActive existing draft.timestamp)
    (delegationError "an active delegate already exists for this owner" "ACTIVE_DELEGATE_EXISTS" 409))
  let permissions ← check (requestedPermissions input)
  let isMaster : Bool := draft.canonical.role = .tenantMaster
  let record : DelegationRecord :=
    { tenantId := draft.canonical.tenantId
      ownerUserId := draft.owner
      delegateUserId := draft.delegate
      permissions := permissions
      forced := isMaster
      policySource := if isMaster then "master_forced" else "user_delegated"
      reason := draft.reason
      createdAt := draft.timestamp
      updatedAt := draft.timestamp
      expiresAt := draft.expiry
      actorId := draft.canonical.actorId }
  return ⟨draft.owner, record, historyEvent record "created" draft.canonical draft.reason record.createdAt,
    draft.timestamp⟩

/-- The active record of an owner that the actor may change. -/
def lookupActive (records : OrderedMap JsString DelegationRecord) (canonical : AdminActor) (owner : JsString)
    (timestamp : Int) (verb : String) : Except AdminError DelegationRecord :=
  match (records.get owner).filter fun record => isActive record timestamp with
  | none => .error (delegationError "active delegation does not exist" "NOT_FOUND" 404)
  | some record => do
    throwIf (record.tenantId != canonical.tenantId)
      (delegationError "cross-tenant delegation denied" "CROSS_TENANT_DENIED")
    throwIf (record.forced && canonical.role = .user)
      (delegationError s!"a user cannot {verb} a master-forced delegation" "FORCED_DELEGATION_LOCKED")
    return record

/-- `undefined` leaves what is there. -/
def given {α : Type} (value : JsValue) (present : α) (normalize : JsValue → Except AdminError α) :
    Except AdminError α :=
  if value.isUndefined then .ok present else normalize value

def update (records : OrderedMap JsString DelegationRecord) (clock : Answer) (actor ownerUserId input : JsValue) :
    Except (Thrown AdminError) Change := do
  let input ← parameter input
  let (canonical, owner) ← check (assertTenantOwner host actor ownerUserId)
  let timestamp ← now host clock
  let record ← check (lookupActive records canonical owner timestamp "change")
  let delegate ← check (given (input.get "delegateUserId") record.delegateUserId
    (assertSafeUserId · "delegateUserId"))
  check (throwIf (delegate = owner)
    (delegationError "owner and delegate must be different users" "SELF_DELEGATION" 400))
  let expiry ← check (given (input.get "expiresAt") record.expiresAt (normalizeTimestamp host · "expiresAt"))
  check (throwIf (expiry.any fun expiry => expiry ≤ timestamp)
    (delegationError "expiresAt must be in the future" "INVALID_EXPIRY" 400))
  let reason ← check (given (input.get "reason") record.reason (normalizeReason · record.forced))
  let permissions ← check (given (input.get "permissions") record.permissions normalizePermissions)
  let updated := { record with
    delegateUserId := delegate
    permissions := permissions
    expiresAt := expiry
    reason := reason
    updatedAt := timestamp
    actorId := canonical.actorId }
  return ⟨owner, updated, historyEvent updated "updated" canonical reason updated.updatedAt, timestamp⟩

def revoke (records : OrderedMap JsString DelegationRecord) (clock : Answer) (actor ownerUserId input : JsValue) :
    Except (Thrown AdminError) Change := do
  let input ← parameter input
  let (canonical, owner) ← check (assertTenantOwner host actor ownerUserId)
  let timestamp ← now host clock
  let record ← check (lookupActive records canonical owner timestamp "revoke")
  let reason ← check (normalizeReason ((input.get "reason").orDefault (.string (js "owner_revoked"))) true)
  let revoked := { record with
    expiresAt := some timestamp
    updatedAt := timestamp
    actorId := canonical.actorId }
  return ⟨owner, revoked, historyEvent revoked "revoked" canonical reason revoked.updatedAt, timestamp⟩

def canAccess (records : OrderedMap JsString DelegationRecord) (clock : Answer)
    (actor ownerUserId permission : JsValue) : Except (Thrown AdminError) Bool :=
  match normalizeActor host actor, assertSafeUserId ownerUserId "ownerUserId",
      (permission.orDefault (.string (js "read"))).asString? with
  | .ok canonical, .ok owner, some permission =>
    if canonical.role ≠ .user || !permissionSet.contains permission then .ok false
    else if canonical.userId = some owner then .ok true
    else
      match (records.get owner).filter fun record =>
          record.tenantId = canonical.tenantId && canonical.userId = some record.delegateUserId with
      | none => .ok false
      | some record => do
        let timestamp ← now host clock
        return isActive record timestamp && record.permissions.contains permission
  | _, _, _ => .ok false

def get (records : OrderedMap JsString DelegationRecord) (clock : Answer) (actor ownerUserId : JsValue) :
    Except (Thrown AdminError) DelegationView := do
  let canonical ← check (normalizeActor host actor)
  let owner ← check (assertSafeUserId ownerUserId "ownerUserId")
  match (records.get owner).filter fun record => record.tenantId = canonical.tenantId with
  | none => .error (.contract (delegationError "delegation does not exist" "NOT_FOUND" 404))
  | some record =>
    check (throwIf (canonical.role = .user && canonical.userId ≠ some owner &&
        canonical.userId ≠ some record.delegateUserId)
      (authorizationError "delegation metadata is outside the user scope" "USER_SCOPE_DENIED"))
    check (throwIf (canonical.role = .monitor)
      (delegationError "role cannot inspect delegation metadata" "ROLE_DENIED"))
    let timestamp ← now host clock
    return cloneDelegation record timestamp

/-- Only administrative roles look at more than one delegation. -/
def assertEnumerates (canonical : AdminActor) (what : String) : Except AdminError Unit :=
  throwIf (canonical.role ≠ .provider && canonical.role ≠ .tenantMaster)
    (delegationError s!"only administrative roles can {what}" "ROLE_DENIED")

def list (records : OrderedMap JsString DelegationRecord) (clock : Answer) (actor : JsValue) :
    Except (Thrown AdminError) (List DelegationView) := do
  let canonical ← check (normalizeActor host actor)
  check (assertEnumerates canonical "enumerate delegations")
  let timestamp ← now host clock
  let own := records.values.filter fun record => record.tenantId = canonical.tenantId
  let sorted := own.mergeSort fun left right => host.localeLe left.ownerUserId right.ownerUserId
  return sorted.map fun record => cloneDelegation record timestamp

def events (history : List DelegationEvent) (actor input : JsValue) :
    Except (Thrown AdminError) (List DelegationEvent) := do
  let input ← parameter input
  let canonical ← check (normalizeActor host actor)
  check (assertEnumerates canonical "inspect delegation events")
  check (throwIf (canonical.role = .tenantMaster && !(input.get "masterLogAccess").isTrue)
    (delegationError "master log visibility is disabled by tenant policy" "MASTER_LOG_ACCESS_DISABLED"))
  return history.filter fun event => event.tenantId = canonical.tenantId

inductive Call where
  | create (actor input : JsValue)
  | update (actor ownerUserId input : JsValue)
  | revoke (actor ownerUserId input : JsValue)
  | canAccess (actor ownerUserId permission : JsValue)
  | get (actor ownerUserId : JsValue)
  | list (actor : JsValue)
  | events (actor input : JsValue)

inductive Reply where
  | delegation (view : DelegationView)
  | access (granted : Bool)
  | delegations (views : List DelegationView)
  | events (events : List DelegationEvent)
  deriving DecidableEq

def Call.actor : Call → JsValue
  | create actor _ | update actor _ _ | revoke actor _ _ | canAccess actor _ _ | get actor _ | list actor
  | events actor _ => actor

/-- `records.set` and `history.push`. -/
def write (s : DelegationState) (change : Change) : DelegationState :=
  ⟨s.records.set change.owner change.record, s.history ++ [change.event]⟩

def apply (s : DelegationState) (change : Except (Thrown AdminError) Change) :
    Except (Thrown AdminError) Reply × DelegationState :=
  match change with
  | .ok change => (.ok (.delegation (cloneDelegation change.record change.time)), write s change)
  | .error e => (.error e, s)

/-- A call, with what the clock answers it. -/
def step (s : DelegationState) (asked : Call × Answer) : Except (Thrown AdminError) Reply × DelegationState :=
  match asked with
  | (.create actor input, clock) => apply s (create host s.records clock actor input)
  | (.update actor owner input, clock) => apply s (update host s.records clock actor owner input)
  | (.revoke actor owner input, clock) => apply s (revoke host s.records clock actor owner input)
  | (.canAccess actor owner permission, clock) =>
    ((canAccess host s.records clock actor owner permission).map .access, s)
  | (.get actor owner, clock) => ((get host s.records clock actor owner).map .delegation, s)
  | (.list actor, clock) => ((list host s.records clock actor).map .delegations, s)
  | (.events actor input, _) => ((events host s.history actor input).map .events, s)

/-- The state of `createDelegationStore`. -/
def created : DelegationState := ⟨Table.empty, []⟩

end Delegation

end GuloGulo.Admin
