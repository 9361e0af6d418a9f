import GuloGulo.Data.Table
import GuloGulo.Js.Date
import GuloGulo.Js.Effect

/-!
# The account deletion lifecycle

`createAccountLifecycleStore` of `account-lifecycle.ts`. Each operation is what
it checks, and what it then assigns; an assignment stays when something later
throws. Dates are kept as time values, of which the source keeps the ISO text.
-/

namespace GuloGulo.Lifecycle
open Js Data
open Eff (check)

inductive AccountCode where
  | invalidInput | invalidIdentity | invalidOperationId | invalidReason | invalidTimestamp
  | invalidRecoveryPolicy | invalidCleanupPlan | purgeIncomplete | invalidStateTransition
  | accountNotFound | accountExists | strongConfirmationRequired | accountOnHold
  | deletionRequestMismatch | accountNotRecoverable | recoveryWindowExpired | recoveryWindowActive
  deriving DecidableEq, Repr

structure AccountError where
  message : JsString
  code : AccountCode
  deriving DecidableEq

def accountError (message : JsString) (code : AccountCode) : AccountError :=
  ⟨js "Account lifecycle error: " ++ message, code⟩

def failIf (c : Bool) (message : String) (code : AccountCode) : Except AccountError Unit :=
  throwIf c (accountError (js message) code)

inductive AccountState where
  | active | deletionRequested | softDeleted | purgePending | purged
  deriving DecidableEq, Repr

def AccountState.text : AccountState → JsString
  | active => js "active"
  | deletionRequested => js "deletion_requested"
  | softDeleted => js "soft_deleted"
  | purgePending => js "purge_pending"
  | purged => js "purged"

inductive AccountResourceType where
  | aliases | delegations | factors | backups | mailbox | davCollections | preferences
  deriving DecidableEq, Repr

def AccountResourceType.name : AccountResourceType → String
  | aliases => "aliases"
  | delegations => "delegations"
  | factors => "factors"
  | backups => "backups"
  | mailbox => "mailbox"
  | davCollections => "dav_collections"
  | preferences => "preferences"

/-- `ACCOUNT_RESOURCE_TYPES`. -/
def accountResourceTypes : List AccountResourceType :=
  [.aliases, .delegations, .factors, .backups, .mailbox, .davCollections, .preferences]

/-! ## Checks -/

def isIdUnit (u : UInt16) : Bool :=
  isAlnum u || u == 46 || u == 95 || u == 58 || u == 64 || u == 47 || u == 45

def isOperationUnit (u : UInt16) : Bool := isAlnum u || u == 46 || u == 95 || u == 58 || u == 45

def idPattern : JsString → Bool := isName isAlnum isIdUnit 127
def operationPattern : JsString → Bool := isName isAlnum isOperationUnit 127

def reasonPattern (s : JsString) : Bool :=
  s.all (fun u => u != 13 && u != 10) && decide (1 ≤ codePoints s ∧ codePoints s ≤ 256)

def assertObject (value : JsValue) (field : String) : Except AccountError Unit :=
  failIf (!value.isRecord) (field ++ " must be an object") .invalidInput

/-- A string that matches a pattern. -/
def assertPattern (pattern : JsString → Bool) (value : JsValue) (message : String) (code : AccountCode) :
    Except AccountError JsString :=
  match value with
  | .string s => if pattern s then .ok s else .error (accountError (js message) code)
  | _ => .error (accountError (js message) code)

def assertId (value : JsValue) (field : String) : Except AccountError JsString :=
  assertPattern idPattern value (field ++ " is invalid") .invalidIdentity

def assertOperationId (value : JsValue) (field : String) : Except AccountError JsString :=
  assertPattern operationPattern value (field ++ " is invalid") .invalidOperationId

def assertReason (value : JsValue) (field : String) : Except AccountError JsString :=
  assertPattern reasonPattern value (field ++ " must be a single-line value of 1-256 characters") .invalidReason

def parseDate (host : Host) (value : JsValue) (field : String) (fallback : JsValue) :
    Except AccountError Int :=
  match newDate host (value.orDefault fallback) with
  | some time => .ok time
  | none => .error (accountError (js field ++ js " is invalid") .invalidTimestamp)

def assertRecoveryDays (value : JsValue) : Except AccountError Nat :=
  match value.asInteger? with
  | some days =>
    if 1 ≤ days ∧ days ≤ 3650 then .ok days.toNat
    else .error (accountError (js "recoveryDays must be an integer between 1 and 3650") .invalidRecoveryPolicy)
  | none =>
    .error (accountError (js "recoveryDays must be an integer between 1 and 3650") .invalidRecoveryPolicy)

structure Actor where
  actorId : JsString
  role : JsString
  deriving DecidableEq

def normalizeActor (actor : JsValue) (fallbackId : Option JsString) : Except AccountError Actor :=
  match actor with
  | .undefined => .ok ⟨fallbackId.getD (js "account-lifecycle"), if fallbackId.isSome then js "user" else js "system"⟩
  | _ => do
    assertObject actor "actor"
    let actorId ← assertId (actor.get "actorId") "actor.actorId"
    let role ← assertId ((actor.get "role").orElse (.string (js "system"))) "actor.role"
    return ⟨actorId, role⟩

structure AccountScope where
  tenantId : JsString
  userId : JsString
  deriving DecidableEq

def assertAccountScope (input : JsValue) : Except AccountError AccountScope := do
  assertObject input "scope"
  let tenantId ← assertId (input.get "tenantId") "tenantId"
  let userId ← assertId (input.get "userId") "userId"
  return ⟨tenantId, userId⟩

def confirmationFor (userId : JsString) : JsString := js "DELETE:" ++ userId

def purgeConfirmationFor (userId : JsString) : JsString := js "PURGE:" ++ userId

def resourceType? (item : JsValue) : Option AccountResourceType :=
  accountResourceTypes.find? fun t => item.isString (js t.name)

/-- The list of a plan's names, as a value. -/
def planValue (plan : List AccountResourceType) : List JsValue := plan.map fun t => .string (js t.name)

def normalizeCleanupPlan (plan : JsValue) : Except AccountError (List AccountResourceType) := do
  let selected := match plan with
    | .undefined => planValue accountResourceTypes
    | .array items => items
    | _ => []
  failIf selected.isEmpty "cleanupPlan must be a non-empty list" .invalidCleanupPlan
  match selected.mapM resourceType? with
  | some types => return types.eraseDups
  | none => .error (accountError (js "cleanupPlan contains an unsupported resource type") .invalidCleanupPlan)

/-! ## Records -/

structure AccountHold where
  holdId : JsString
  reasonCode : JsString
  addedAt : Int

structure AccountRecord extends AccountScope where
  accountType : JsString
  state : AccountState
  createdAt : Int
  deletionRequestedAt : Option Int
  softDeletedAt : Option Int
  recoveryUntil : Option Int
  purgeQueuedAt : Option Int
  purgedAt : Option Int
  cleanupPlan : List AccountResourceType
  holds : OrderedMap JsString AccountHold
  deletionRequestId : Option JsString

structure PublicAccount extends AccountScope where
  accountType : JsString
  state : AccountState
  createdAt : JsString
  deletionRequestedAt : Option JsString
  softDeletedAt : Option JsString
  recoveryUntil : Option JsString
  purgeQueuedAt : Option JsString
  purgedAt : Option JsString
  cleanupPlan : List AccountResourceType
  activeHoldIds : List JsString
  deletionRequestId : Option JsString

def publicAccount (account : AccountRecord) : PublicAccount where
  toAccountScope := account.toAccountScope
  accountType := account.accountType
  state := account.state
  createdAt := isoString account.createdAt
  deletionRequestedAt := account.deletionRequestedAt.map isoString
  softDeletedAt := account.softDeletedAt.map isoString
  recoveryUntil := account.recoveryUntil.map isoString
  purgeQueuedAt := account.purgeQueuedAt.map isoString
  purgedAt := account.purgedAt.map isoString
  cleanupPlan := account.cleanupPlan
  activeHoldIds := account.holds.rows.map Prod.fst
  deletionRequestId := account.deletionRequestId

/-- The event of an audit entry, with its metadata. -/
inductive AccountEvent where
  | registered (accountType : JsString) (cleanupPlan : List AccountResourceType)
  | deletionRequested (reason : JsString) (recoveryUntil : Int) (recoveryDays : Nat)
      (cleanupPlan : List AccountResourceType)
  | softDeleted (recoveryUntil : Option Int) (cleanupPlan : List AccountResourceType)
  | restored (reason : JsString)
  | holdAdded (holdId reasonCode : JsString)
  | holdReleased (holdId : JsString)
  | purgeQueued (cleanupPlan : List AccountResourceType)
  | purged (cleanupPlan resourceResults : List AccountResourceType)

def AccountEvent.name : AccountEvent → JsString
  | registered .. => js "account.registered"
  | deletionRequested .. => js "account.deletion_requested"
  | softDeleted .. => js "account.soft_deleted"
  | restored .. => js "account.restored"
  | holdAdded .. => js "account.hold_added"
  | holdReleased .. => js "account.hold_released"
  | purgeQueued .. => js "account.purge_queued"
  | purged .. => js "account.purged"

structure AccountAuditEvent extends AccountScope where
  event : AccountEvent
  occurredAt : Int
  actor : Actor
  operationId : Option JsString

inductive OperationName where
  | accountRegistered | deletionRequested | softDeleted | accountRestored | accountHoldAdded
  | accountHoldReleased | purgeQueued | accountPurged
  deriving DecidableEq, Repr

structure AccountOperation where
  operation : OperationName
  account : PublicAccount
  audit : Option AccountAuditEvent
  requestId : Option JsString
  operationId : Option JsString
  holdId : Option JsString
  idempotent : Bool

/-- The operations that remember their results. -/
inductive Remembered where
  | request | restore | queue | complete
  deriving DecidableEq, Repr

/-- The keys of `operationResults`, whose parts the source joins with NUL, which
none of them contains. -/
structure OperationKey where
  operation : Remembered
  scope : AccountScope
  id : JsString
  deriving DecidableEq

structure AccountLifecycleStore where
  accounts : OrderedMap AccountScope AccountRecord
  operationResults : OrderedMap OperationKey AccountOperation
  auditEvents : List AccountAuditEvent

structure LifecycleConfig where
  host : Host
  defaultRecoveryDays : Nat

def createAccountLifecycleStore (host : Host) (recoveryDays : JsValue) :
    Except AccountError (LifecycleConfig × AccountLifecycleStore) := do
  let days ← assertRecoveryDays (recoveryDays.orDefault (.number 28))
  return (⟨host, days⟩, ⟨Table.empty, Table.empty, []⟩)

/-- What a call gets from outside: the readings of the clock, which may throw,
and the id of `randomUUID`. -/
structure Ambient where
  clock : Nat → Option JsValue
  uuid : JsString

abbrev LifecycleOp := Eff (Thrown AccountError) AccountLifecycleStore

/-- The `n`-th `currentDate()` of a call. -/
def currentDate (cfg : LifecycleConfig) (env : Ambient) (n : Nat) : Except (Thrown AccountError) Int :=
  match env.clock n with
  | some value => (parseDate cfg.host value "clock" .undefined).mapError .contract
  | none => .error .foreign

def requireAccount (s : AccountLifecycleStore) (scope : AccountScope) : Except AccountError AccountRecord :=
  match s.accounts.get scope with
  | some account => .ok account
  | none => .error (accountError (js "account does not exist") .accountNotFound)

def requireState (account : AccountRecord) (expected : AccountState) : Except AccountError Unit :=
  throwIf (account.state != expected) (accountError
    (js "account must be " ++ expected.text ++ js ", not " ++ account.state.text) .invalidStateTransition)

def requireNoHold (account : AccountRecord) : Except AccountError Unit :=
  failIf (account.holds.size != 0) "account has an active hold" .accountOnHold

/-- The account as assigned so far. -/
def assign (scope : AccountScope) (account : AccountRecord) : LifecycleOp Unit :=
  Eff.modify fun s => { s with accounts := s.accounts.set scope account }

/-- `appendAudit(createAuditEvent(…))`, once its arguments are there. -/
def appendAudit (account : AccountRecord) (event : AccountEvent) (actor : Actor) (occurredAt : Int)
    (operationId : Option JsString) : LifecycleOp AccountAuditEvent := do
  let entry := ⟨account.toAccountScope, event, occurredAt, actor, operationId⟩
  Eff.modify fun s => { s with auditEvents := s.auditEvents ++ [entry] }
  return entry

/-- `result`. -/
def operationResult (operation : OperationName) (account : AccountRecord) (audit : Option AccountAuditEvent) :
    AccountOperation :=
  ⟨operation, publicAccount account, audit, none, none, none, false⟩

/-- `operationResults.set(key, output)`. -/
def remember (key : OperationKey) (output : AccountOperation) : LifecycleOp AccountOperation := do
  Eff.modify fun s => { s with operationResults := s.operationResults.set key output }
  return output

/-- `if (prior) return prior`. -/
def unlessReplayed (key : OperationKey) (operation : LifecycleOp AccountOperation) : LifecycleOp AccountOperation := do
  let s ← Eff.get
  match s.operationResults.get key with
  | some prior => return prior
  | none => operation

/-! ## Operations -/

section
variable (cfg : LifecycleConfig) (env : Ambient) (input : JsValue)

/-- The scope and id of a call that is remembered. -/
def identify (input : JsValue) (operation : Remembered) : Except AccountError OperationKey := do
  let scope ← assertAccountScope input
  let field := if operation = .request then "requestId" else "operationId"
  let id ← assertOperationId ((input.get field).orElse (.string env.uuid)) field
  return ⟨operation, scope, id⟩

/-- The date of a call: what the input has, or the first reading of the clock,
which is read in any case. -/
def dateOf (field : String) : LifecycleOp Int := do
  let now ← Eff.lift (currentDate cfg env 0)
  check (parseDate cfg.host (input.get field) field (.date (some now)))

/-- The time of an audit event: what the input has, or the `n`-th reading of
the clock. -/
def occurredAt (field : String) (n : Nat) : Except (Thrown AccountError) Int :=
  if (input.get field).isNullish then currentDate cfg env n
  else (parseDate cfg.host (input.get field) "occurredAt" .undefined).mapError .contract

def checkRegistration : LifecycleOp AccountRecord := do
  let scope ← check (assertAccountScope input)
  let accountType ← check (assertId ((input.get "accountType").orElse (.string (js "user"))) "accountType")
  let s ← Eff.get
  check (failIf (s.accounts.get scope).isSome "account already exists" .accountExists)
  let createdAt ← dateOf cfg env input "createdAt"
  let cleanupPlan ← check (normalizeCleanupPlan (input.get "cleanupPlan"))
  return {
    toAccountScope := scope
    accountType, createdAt, cleanupPlan
    state := .active
    deletionRequestedAt := none
    softDeletedAt := none
    recoveryUntil := none
    purgeQueuedAt := none
    purgedAt := none
    holds := Table.empty
    deletionRequestId := none }

def registerAccount : LifecycleOp AccountOperation := do
  let account ← checkRegistration cfg env input
  assign account.toAccountScope account
  let actor ← check (normalizeActor (input.get "actor") (some account.userId))
  let occurredAt ← Eff.lift (occurredAt cfg env input "createdAt" 1)
  let audit ← appendAudit account (.registered account.accountType account.cleanupPlan) actor occurredAt none
  return operationResult .accountRegistered account (some audit)

structure DeletionRequest where
  actor : Actor
  reason : JsString
  days : Nat
  date : Int
  account : AccountRecord

def checkDeletionRequest (scope : AccountScope) : LifecycleOp DeletionRequest := do
  check (failIf (!(input.get "confirmation").isString (confirmationFor scope.userId))
    "strong deletion confirmation is required" .strongConfirmationRequired)
  let actor ← check (normalizeActor (input.get "actor") (some scope.userId))
  let reason ← check (assertReason ((input.get "reason").orElse (.string (js "user_requested"))) "reason")
  let days ← check
    (assertRecoveryDays ((input.get "recoveryDays").orElse (.number cfg.defaultRecoveryDays)))
  let date ← dateOf cfg env input "requestedAt"
  let account ← check (requireAccount (← Eff.get) scope)
  check (requireState account .active)
  check (requireNoHold account)
  return ⟨actor, reason, days, date, account⟩

/-- `toISOString` of a date past the last one throws a `RangeError`. -/
def recoveryEnd (date : Int) (days : Nat) : Except (Thrown AccountError) Int :=
  match timeClip (date + days * msPerDay) with
  | some time => .ok time
  | none => .error .foreign

/-- The plan of a request: that of the input, or the account's. -/
def requestedPlan (account : AccountRecord) : Except AccountError (List AccountResourceType) :=
  normalizeCleanupPlan ((input.get "cleanupPlan").orElse (.array (planValue account.cleanupPlan)))

def requestDeletion : LifecycleOp AccountOperation := do
  let key ← check (identify env input .request)
  unlessReplayed key do
    let request ← checkDeletionRequest cfg env input key.scope
    let account := { request.account with
      state := .deletionRequested, deletionRequestedAt := some request.date }
    assign key.scope account
    let recoveryUntil ← Eff.lift (recoveryEnd request.date request.days)
    let account := { account with recoveryUntil := some recoveryUntil }
    assign key.scope account
    let cleanupPlan ← check (requestedPlan input account)
    let account := { account with cleanupPlan, deletionRequestId := some key.id }
    assign key.scope account
    let audit ← appendAudit account
      (.deletionRequested request.reason recoveryUntil request.days cleanupPlan) request.actor request.date
      (some key.id)
    remember key { operationResult .deletionRequested account (some audit) with requestId := some key.id }

/-- `input.requestId === account.deletionRequestId`. -/
def isPending (deletionRequestId : Option JsString) (requestId : JsValue) : Bool :=
  match deletionRequestId, requestId with
  | some pending, .string id => id == pending
  | none, .null => true
  | _, _ => false

def checkSoftDeletion : LifecycleOp (AccountScope × AccountRecord × Int) := do
  let scope ← check (assertAccountScope input)
  let account ← check (requireAccount (← Eff.get) scope)
  check (requireState account .deletionRequested)
  check (failIf (!(input.get "confirmation").isString (confirmationFor scope.userId))
    "strong deletion confirmation is required" .strongConfirmationRequired)
  check (failIf (!(input.get "requestId").isUndefined &&
      !isPending account.deletionRequestId (input.get "requestId"))
    "requestId does not match the pending deletion" .deletionRequestMismatch)
  let date ← dateOf cfg env input "deletedAt"
  return (scope, account, date)

def softDeleteAccount : LifecycleOp AccountOperation := do
  let (scope, account, date) ← checkSoftDeletion cfg env input
  let account := { account with state := .softDeleted, softDeletedAt := some date }
  assign scope account
  let actor ← check (normalizeActor (input.get "actor") (some scope.userId))
  let audit ← appendAudit account (.softDeleted account.recoveryUntil account.cleanupPlan) actor date
    account.deletionRequestId
  return operationResult .softDeleted account (some audit)

def recoverable (account : AccountRecord) : Bool :=
  account.state == .deletionRequested || account.state == .softDeleted || account.state == .purgePending

def checkRestoration (scope : AccountScope) : LifecycleOp (AccountRecord × Int) := do
  let account ← check (requireAccount (← Eff.get) scope)
  check (failIf (!recoverable account) "account is not recoverable in its current state" .accountNotRecoverable)
  let date ← dateOf cfg env input "restoredAt"
  check (failIf (account.recoveryUntil.any fun until_ => decide (until_ < date))
    "the account recovery window has elapsed" .recoveryWindowExpired)
  return (account, date)

def restoreAccount : LifecycleOp AccountOperation := do
  let key ← check (identify env input .restore)
  unlessReplayed key do
    let (account, date) ← checkRestoration cfg env input key.scope
    let account := { account with
      state := .active, recoveryUntil := none, purgeQueuedAt := none, deletionRequestedAt := none
      softDeletedAt := none, deletionRequestId := none }
    assign key.scope account
    let actor ← check (normalizeActor (input.get "actor") (some key.scope.userId))
    let reason ← check (assertReason ((input.get "reason").orElse (.string (js "account_recovery"))) "reason")
    let audit ← appendAudit account (.restored reason) actor date (some key.id)
    remember key { operationResult .accountRestored account (some audit) with operationId := some key.id }

structure HoldRequest where
  scope : AccountScope
  holdId : JsString
  reason : JsString
  account : AccountRecord

def checkHold : LifecycleOp HoldRequest := do
  let scope ← check (assertAccountScope input)
  let holdId ← check (assertOperationId (input.get "holdId") "holdId")
  let reason ← check
    (assertReason ((input.get "reasonCode").orElse (.string (js "administrative_hold"))) "reasonCode")
  let account ← check (requireAccount (← Eff.get) scope)
  return ⟨scope, holdId, reason, account⟩

def addAccountHold : LifecycleOp AccountOperation := do
  let request ← checkHold input
  if (request.account.holds.get request.holdId).isSome then
    return { operationResult .accountHoldAdded request.account none with
      holdId := some request.holdId, idempotent := true }
  else do
    let addedAt ← dateOf cfg env input "addedAt"
    let account := { request.account with
      holds := request.account.holds.set request.holdId ⟨request.holdId, request.reason, addedAt⟩ }
    assign request.scope account
    let actor ← check (normalizeActor (input.get "actor") none)
    let occurredAt ← Eff.lift (occurredAt cfg env input "addedAt" 1)
    let audit ← appendAudit account (.holdAdded request.holdId request.reason) actor occurredAt none
    return { operationResult .accountHoldAdded account (some audit) with holdId := some request.holdId }

def checkHoldRelease : LifecycleOp (AccountScope × JsString × AccountRecord) := do
  let scope ← check (assertAccountScope input)
  let holdId ← check (assertOperationId (input.get "holdId") "holdId")
  let account ← check (requireAccount (← Eff.get) scope)
  return (scope, holdId, account)

def releaseAccountHold : LifecycleOp AccountOperation := do
  let (scope, holdId, account) ← checkHoldRelease input
  if (account.holds.get holdId).isNone then
    return { operationResult .accountHoldReleased account none with
      holdId := some holdId, idempotent := true }
  else do
    let account := { account with holds := account.holds.delete holdId }
    assign scope account
    let actor ← check (normalizeActor (input.get "actor") none)
    let occurredAt ← Eff.lift (occurredAt cfg env input "releasedAt" 0)
    let audit ← appendAudit account (.holdReleased holdId) actor occurredAt none
    return { operationResult .accountHoldReleased account (some audit) with holdId := some holdId }

def checkPurgeQueue (scope : AccountScope) : LifecycleOp (AccountRecord × Int) := do
  let account ← check (requireAccount (← Eff.get) scope)
  check (requireState account .softDeleted)
  let date ← dateOf cfg env input "queuedAt"
  check (failIf (!account.recoveryUntil.any fun until_ => decide (until_ ≤ date))
    "the account recovery window has not elapsed" .recoveryWindowActive)
  check (requireNoHold account)
  return (account, date)

def queuePurge : LifecycleOp AccountOperation := do
  let key ← check (identify env input .queue)
  unlessReplayed key do
    let (account, date) ← checkPurgeQueue cfg env input key.scope
    let account := { account with state := .purgePending, purgeQueuedAt := some date }
    assign key.scope account
    let actor ← check (normalizeActor (input.get "actor") none)
    let audit ← appendAudit account (.purgeQueued account.cleanupPlan) actor date (some key.id)
    remember key { operationResult .purgeQueued account (some audit) with operationId := some key.id }

/-- The results, which are the resources of the plan, each `purged`. -/
def normalizeResourceResults (account : AccountRecord) (value : JsValue) :
    Except AccountError (List AccountResourceType) := do
  assertObject value "resourceResults"
  match account.cleanupPlan.find? fun t => !(value.get t.name).isString (js "purged") with
  | some resource =>
    .error (accountError (js "resource purge is incomplete: " ++ js resource.name) .purgeIncomplete)
  | none => return account.cleanupPlan

structure PurgeCompletion where
  account : AccountRecord
  resourceResults : List AccountResourceType
  date : Int

def checkPurgeCompletion (scope : AccountScope) : LifecycleOp PurgeCompletion := do
  let account ← check (requireAccount (← Eff.get) scope)
  check (requireState account .purgePending)
  check (failIf (!(input.get "confirmation").isString (purgeConfirmationFor scope.userId))
    "strong purge confirmation is required" .strongConfirmationRequired)
  check (requireNoHold account)
  let resourceResults ← check
    (normalizeResourceResults account ((input.get "resourceResults").orElse (.object [])))
  let date ← dateOf cfg env input "completedAt"
  return ⟨account, resourceResults, date⟩

def completePurge : LifecycleOp AccountOperation := do
  let key ← check (identify env input .complete)
  unlessReplayed key do
    let completion ← checkPurgeCompletion cfg env input key.scope
    let account := { completion.account with state := .purged, purgedAt := some completion.date }
    assign key.scope account
    let actor ← check (normalizeActor (input.get "actor") none)
    let audit ← appendAudit account (.purged account.cleanupPlan completion.resourceResults) actor
      completion.date (some key.id)
    remember key { operationResult .accountPurged account (some audit) with operationId := some key.id }

def getAccount (s : AccountLifecycleStore) (scope : JsValue) : Except AccountError PublicAccount := do
  let scope ← assertAccountScope scope
  let account ← requireAccount s scope
  return publicAccount account

end

/-- The operations that may change the store. -/
inductive AccountMethod where
  | registerAccount | requestDeletion | softDeleteAccount | restoreAccount | addAccountHold
  | releaseAccountHold | queuePurge | completePurge
  deriving DecidableEq, Repr

def AccountMethod.run (cfg : LifecycleConfig) (env : Ambient) (input : JsValue) :
    AccountMethod → LifecycleOp AccountOperation
  | .registerAccount => Lifecycle.registerAccount cfg env input
  | .requestDeletion => Lifecycle.requestDeletion cfg env input
  | .softDeleteAccount => Lifecycle.softDeleteAccount cfg env input
  | .restoreAccount => Lifecycle.restoreAccount cfg env input
  | .addAccountHold => Lifecycle.addAccountHold cfg env input
  | .releaseAccountHold => Lifecycle.releaseAccountHold cfg env input
  | .queuePurge => Lifecycle.queuePurge cfg env input
  | .completePurge => Lifecycle.completePurge cfg env input

structure AccountCall where
  env : Ambient
  method : AccountMethod
  argument : JsValue

/-- An input that is left out is `{}`. -/
def AccountCall.input (call : AccountCall) : JsValue := call.argument.orDefault (.object [])

def AccountCall.run (cfg : LifecycleConfig) (call : AccountCall) : LifecycleOp AccountOperation :=
  call.method.run cfg call.env call.input

end GuloGulo.Lifecycle
