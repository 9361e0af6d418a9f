import Mathlib.Data.List.Sort
import GuloGulo.Lifecycle.Account

/-!
# Trash retention

`createRetentionStore` of `retention.ts`. A record can be replaced while a purge
batch still refers to it; its generation tells it from those that came after
it. The hold map is one and the same for all the records of an item.
-/

namespace GuloGulo.Lifecycle.Retention
open Js Data
open Eff (check)

inductive RetentionCode where
  | invalidInput | invalidIdentity | invalidOperationId | invalidTimestamp | invalidRetentionPolicy
  | invalidBatchSize | invalidRole
  | invalidResourceType | resourceTypeDisabled | itemNotFound | itemAlreadyPurged | invalidHoldReason
  | invalidHoldExpiry | invalidLockLease | itemLocked | lockNotOwned | invalidScope | invalidPurgeAdapter
  deriving DecidableEq, Repr

structure RetentionError where
  message : JsString
  code : RetentionCode
  deriving DecidableEq

def retentionError (message : JsString) (code : RetentionCode) : RetentionError :=
  ⟨js "Retention error: " ++ message, code⟩

def failIf (c : Bool) (message : String) (code : RetentionCode) : Except RetentionError Unit :=
  throwIf c (retentionError (js message) code)

/-! ## Checks -/

def isLabelUnit (u : UInt16) : Bool := isLower u || isDigit u || u == 95 || u == 45

/-- `RESOURCE_PATTERN` and `ROLE_PATTERN`. -/
def labelPattern : JsString → Bool := isName isLower isLabelUnit 31

def assertObject (value : JsValue) (field : String) : Except RetentionError Unit :=
  failIf (!value.isRecord) (field ++ " must be an object") .invalidInput

def assertText (pattern : JsString → Bool) (value : JsValue) (message : String) (code : RetentionCode) :
    Except RetentionError JsString :=
  match value with
  | .string s => if pattern s then .ok s else .error (retentionError (js message) code)
  | _ => .error (retentionError (js message) code)

def assertId (value : JsValue) (field : String) : Except RetentionError JsString :=
  assertText idPattern value (field ++ " is invalid") .invalidIdentity

def assertOperationId (value : JsValue) (field : String) : Except RetentionError JsString :=
  assertText operationPattern value (field ++ " is invalid") .invalidOperationId

def resource (value : JsValue) : Except RetentionError JsString :=
  assertText labelPattern value "resourceType is invalid" .invalidResourceType

def parseDate (host : Host) (value : JsValue) (field : String) (fallback : JsValue) :
    Except RetentionError Int :=
  match newDate host (value.orDefault fallback) with
  | some time => .ok time
  | none => .error (retentionError (js field ++ js " is invalid") .invalidTimestamp)

/-- An integer between two bounds. -/
def assertInteger (value : JsValue) (min max : Int) (message : String) (code : RetentionCode) :
    Except RetentionError Nat :=
  match value.asInteger? with
  | some n => if min ≤ n ∧ n ≤ max then .ok n.toNat else .error (retentionError (js message) code)
  | none => .error (retentionError (js message) code)

def batchSize (value : JsValue) (max : Nat) : Except RetentionError Nat :=
  assertInteger value 1 max s!"limit must be an integer between 1 and {max}" .invalidBatchSize

def normalizeActor (value : JsValue) (fallback : JsString) : Except RetentionError Actor :=
  match value with
  | .undefined => .ok ⟨fallback, js "user"⟩
  | _ => do
    assertObject value "actor"
    let role ← assertText labelPattern ((value.get "role").orElse (.string (js "user"))) "actor.role is invalid"
      .invalidRole
    let actorId ← assertId (value.get "actorId") "actor.actorId"
    return ⟨actorId, role⟩

structure RetentionScope where
  tenantId : JsString
  userId : JsString
  itemId : JsString
  deriving DecidableEq

def scopeOf (value : JsValue) : Except RetentionError RetentionScope := do
  assertObject value "scope"
  let tenantId ← assertId (value.get "tenantId") "scope.tenantId"
  let userId ← assertId (value.get "userId") "scope.userId"
  let itemId ← assertId (value.get "itemId") "scope.itemId"
  return ⟨tenantId, userId, itemId⟩

/-- `key`, where it is compared and not only looked up. -/
def RetentionScope.text (scope : RetentionScope) : JsString :=
  scope.tenantId ++ [0] ++ scope.userId ++ [0] ++ scope.itemId

/-! ## Records -/

inductive ItemState where
  | trashed | restored | purged
  deriving DecidableEq, Repr

structure Hold where
  holdId : JsString
  reasonCode : JsString
  createdAt : Int
  expiresAt : Option Int

structure Lock where
  lockId : JsString
  owner : JsString
  acquiredAt : Int
  leaseExpiresAt : Int

structure RecordItem extends RetentionScope where
  resourceType : JsString
  generation : Nat
  state : ItemState
  deletedAt : Int
  retentionUntil : Option Int
  restoredAt : Option Int
  purgedAt : Option Int
  lock : Option Lock

abbrev Holds := OrderedMap JsString Hold

/-- The records of an item: the stored one, and those it replaced, which only a
purge batch under way can still refer to. -/
structure Entry where
  item : RecordItem
  holds : Holds
  replaced : List RecordItem

structure RetentionItem extends RetentionScope where
  resourceType : JsString
  generation : Nat
  state : ItemState
  deletedAt : Int
  retentionUntil : Option Int
  restoredAt : Option Int
  purgedAt : Option Int
  holdIds : List JsString
  lock : Option (JsString × Int × Int)

def publicItem (item : RecordItem) (holds : Holds) : RetentionItem where
  toRetentionScope := item.toRetentionScope
  resourceType := item.resourceType
  generation := item.generation
  state := item.state
  deletedAt := item.deletedAt
  retentionUntil := item.retentionUntil
  restoredAt := item.restoredAt
  purgedAt := item.purgedAt
  holdIds := holds.rows.map Prod.fst
  lock := item.lock.map fun lock => (lock.owner, lock.acquiredAt, lock.leaseExpiresAt)

def activeHolds (holds : Holds) (now : Int) : List Hold :=
  holds.values.filter fun hold => hold.expiresAt.all fun expires => decide (now < expires)

def locked (item : RecordItem) (now : Int) : Bool :=
  item.lock.any fun lock => decide (now < lock.leaseExpiresAt)

/-- What a purge requires of a record and its holds, before and after the callback. -/
def isDue (item : RecordItem) (holds : Holds) (at_ : Int) : Bool :=
  item.state == .trashed && item.retentionUntil.any (fun until_ => decide (until_ ≤ at_)) &&
    (activeHolds holds at_).isEmpty

/-- The event of an audit entry, with its metadata. -/
inductive RetentionEvent where
  | itemTrashed (resourceType : JsString) (generation : Nat) (retentionUntil : Int)
  | itemRestored (generation : Nat)
  | holdAdded (holdId reasonCode : JsString) (expiresAt : Option Int)
  | holdReleased (holdId : JsString)
  | purge (resourceType : JsString) (generation : Nat)
  | purgeFailed (resourceType : JsString) (generation : Nat) (code : JsString)

def RetentionEvent.isPurge : RetentionEvent → Bool
  | purge .. => true
  | _ => false

def RetentionEvent.isPurgeFailed : RetentionEvent → Bool
  | purgeFailed .. => true
  | _ => false

structure RetentionAuditEvent extends RetentionScope where
  event : RetentionEvent
  occurredAt : Int
  actor : Actor
  operationId : Option JsString

inductive MetricName where
  | itemsTrashed | itemsRestored | itemsHeld | itemsLocked | purgeBatches | purgeCandidates | itemsPurged
  | itemsSkipped | purgeFailures | holdsAdded | holdsReleased
  deriving DecidableEq, Repr

inductive ItemOperationName where
  | itemTrashed | itemRestored | holdAdded | holdReleased | itemLocked | itemUnlocked
  deriving DecidableEq, Repr

structure RetentionItemOperation where
  operation : ItemOperationName
  item : RetentionItem
  audit : Option RetentionAuditEvent := none
  idempotencyKey : Option JsString := none
  holdId : Option JsString := none
  lockId : Option JsString := none
  idempotent : Bool := false

inductive SkipReason where
  | stateChanged | purgeFailed
  deriving DecidableEq, Repr

structure PurgeBatchResult where
  operationId : JsString
  workerId : JsString
  startedAt : Int
  completedAt : Int
  batchSize : Nat
  scanned : Nat
  purged : Nat
  skipped : Nat
  failed : Nat
  remaining : Nat
  items : List RetentionItem
  skippedItems : List (JsString × SkipReason)
  failures : List (JsString × JsString)
  auditEvents : List RetentionAuditEvent
  metrics : MetricName → Nat

/-- The keys of `results`, whose parts the source joins with NUL: those of the
operations on items, which are a deletion or a restore, and those of batches. -/
structure ItemKey where
  deletion : Bool
  scope : RetentionScope
  id : JsString
  deriving DecidableEq

structure BatchKey where
  workerId : JsString
  tenant : Option JsString
  user : Option JsString
  operationId : JsString
  deriving DecidableEq

structure RetentionStore where
  records : OrderedMap RetentionScope Entry
  itemResults : OrderedMap ItemKey RetentionItemOperation
  batchResults : OrderedMap BatchKey PurgeBatchResult
  events : List RetentionAuditEvent
  metrics : MetricName → Nat

def RetentionStore.empty : RetentionStore := ⟨Table.empty, Table.empty, Table.empty, [], fun _ => 0⟩

structure RetentionConfig where
  host : Host
  retentionDays : Nat
  maxBatchSize : Nat
  resourceTypes : List JsString

def createRetentionStore (host : Host) (retentionDays maxBatchSize : JsValue) (resourceTypes : List JsString) :
    Except RetentionError (RetentionConfig × RetentionStore) := do
  let days ← assertInteger (retentionDays.orDefault (.number 28)) 1 3650
    "retentionDays must be an integer between 1 and 3650" .invalidRetentionPolicy
  let size ← assertInteger (maxBatchSize.orDefault (.number 100)) 1 10000
    "maxBatchSize must be between 1 and 10000" .invalidBatchSize
  let _ ← resourceTypes.mapM fun type => resource (.string type)
  return (⟨host, days, size, resourceTypes⟩, .empty)

abbrev RetentionOp := Eff (Thrown RetentionError) RetentionStore

/-- The `n`-th `current()` of a call. -/
def current (cfg : RetentionConfig) (env : Ambient) (n : Nat) : Except (Thrown RetentionError) Int :=
  match env.clock n with
  | some value => (parseDate cfg.host value "clock" .undefined).mapError .contract
  | none => .error .foreign

/-- `date(value, field, current())`: the clock is read in any case. -/
def dateOr (cfg : RetentionConfig) (env : Ambient) (n : Nat) (value : JsValue) (field : String) :
    Except (Thrown RetentionError) Int := do
  let now ← current cfg env n
  (parseDate cfg.host value field (.date (some now))).mapError .contract

/-- The time of an audit event, `value ?? current()`. -/
def occurredAt (cfg : RetentionConfig) (env : Ambient) (n : Nat) (value : JsValue) :
    Except (Thrown RetentionError) Int :=
  if value.isNullish then current cfg env n
  else (parseDate cfg.host value "occurredAt" .undefined).mapError .contract

/-- `toISOString` of a time past the last date throws a `RangeError`. -/
def dateAt (time : Int) : Except (Thrown RetentionError) Int :=
  match timeClip time with
  | some time => .ok time
  | none => .error .foreign

def requireItem (s : RetentionStore) (scope : RetentionScope) : Except RetentionError Entry :=
  match s.records.get scope with
  | some entry => .ok entry
  | none => .error (retentionError (js "item does not exist") .itemNotFound)

namespace RetentionStore

def put (s : RetentionStore) (scope : RetentionScope) (entry : Entry) : RetentionStore :=
  { s with records := s.records.set scope entry }

def increment (s : RetentionStore) (name : MetricName) (amount : Nat) : RetentionStore :=
  { s with metrics := fun m => if m = name then s.metrics m + amount else s.metrics m }

def record (s : RetentionStore) (entry : RetentionAuditEvent) : RetentionStore :=
  { s with events := s.events ++ [entry] }

end RetentionStore

def put (scope : RetentionScope) (entry : Entry) : RetentionOp Unit := Eff.modify (·.put scope entry)

def increment (name : MetricName) : RetentionOp Unit := Eff.modify (·.increment name 1)

def appendEvent (entry : RetentionAuditEvent) : RetentionOp Unit := Eff.modify (·.record entry)

/-- `results.set(resultKey, output)`. -/
def remember (key : ItemKey) (output : RetentionItemOperation) : RetentionOp RetentionItemOperation := do
  Eff.modify fun s => { s with itemResults := s.itemResults.set key output }
  return output

def unlessReplayed (key : ItemKey) (operation : RetentionOp RetentionItemOperation) :
    RetentionOp RetentionItemOperation := do
  let s ← Eff.get
  match s.itemResults.get key with
  | some prior => return prior
  | none => operation

/-! ## Operations on items -/

section
variable (cfg : RetentionConfig) (env : Ambient) (input : JsValue)

def identifyItem (deletion : Bool) (scope : RetentionScope) : Except RetentionError ItemKey := do
  let id ← assertOperationId ((input.get "idempotencyKey").orElse (.string env.uuid)) "idempotencyKey"
  return ⟨deletion, scope, id⟩

/-- The key and the resource type of a deletion. -/
def checkDeletion : Except RetentionError (ItemKey × JsString) := do
  let scope ← scopeOf input
  let type ← resource (input.get "resourceType")
  throwIf (!cfg.resourceTypes.contains type)
    (retentionError (js "resourceType " ++ type ++ js " is not enabled") .resourceTypeDisabled)
  let key ← identifyItem env input true scope
  return (key, type)

/-- When an item was deleted, and until when it is kept. -/
def deletionDates : Except (Thrown RetentionError) (Int × Int) := do
  let deletedAt ← dateOr cfg env 0 (input.get "deletedAt") "deletedAt"
  let retentionUntil ← dateAt (deletedAt + cfg.retentionDays * msPerDay)
  return (deletedAt, retentionUntil)

/-- The entry with a new record, of the next generation. -/
def trashed (prior : Option Entry) (scope : RetentionScope) (resourceType : JsString)
    (deletedAt retentionUntil : Int) : Entry where
  item := {
    toRetentionScope := scope
    resourceType, deletedAt
    generation := prior.elim 1 fun e => e.item.generation + 1
    state := .trashed
    retentionUntil := some retentionUntil
    restoredAt := none
    purgedAt := none
    lock := none }
  holds := prior.elim Table.empty (·.holds)
  replaced := prior.elim [] fun e => e.item :: e.replaced

def markDeleted : RetentionOp RetentionItemOperation := do
  let (key, resourceType) ← check (checkDeletion cfg env input)
  unlessReplayed key do
    let (deletedAt, retentionUntil) ← Eff.lift (deletionDates cfg env input)
    let s ← Eff.get
    let entry := trashed (s.records.get key.scope) key.scope resourceType deletedAt retentionUntil
    put key.scope entry
    increment .itemsTrashed
    let actor ← check (normalizeActor (input.get "actor") key.scope.userId)
    let audit := ⟨key.scope, .itemTrashed resourceType entry.item.generation retentionUntil, deletedAt, actor,
      some key.id⟩
    appendEvent audit
    remember key { operation := .itemTrashed, item := publicItem entry.item entry.holds
                   idempotencyKey := some key.id, audit := some audit }

def checkRestore (key : ItemKey) : RetentionOp (Entry × Int) := do
  let entry ← check (requireItem (← Eff.get) key.scope)
  check (failIf (entry.item.state == .purged) "purged content cannot be restored by this contract"
    .itemAlreadyPurged)
  let restoredAt ← Eff.lift (dateOr cfg env 0 (input.get "restoredAt") "restoredAt")
  return (entry, restoredAt)

def restoreItem : RetentionOp RetentionItemOperation := do
  let scope ← check (scopeOf input)
  let key ← check (identifyItem env input false scope)
  unlessReplayed key do
    let (entry, restoredAt) ← checkRestore cfg env input key
    let entry := { entry with
      item := { entry.item with
        state := .restored, restoredAt := some restoredAt, retentionUntil := none, lock := none } }
    put key.scope entry
    increment .itemsRestored
    let actor ← check (normalizeActor (input.get "actor") key.scope.userId)
    let audit := ⟨key.scope, .itemRestored entry.item.generation, restoredAt, actor, some key.id⟩
    appendEvent audit
    remember key { operation := .itemRestored, item := publicItem entry.item entry.holds
                   idempotencyKey := some key.id, audit := some audit }

/-- 1 to 256 units on one line. -/
def assertReasonCode (value : JsValue) : Except RetentionError JsString :=
  assertText (fun s => decide (1 ≤ s.length ∧ s.length ≤ 256) && s.all fun u => u != 13 && u != 10) value
    "reasonCode must contain 1-256 single-line characters" .invalidHoldReason

structure HoldRequest where
  scope : RetentionScope
  holdId : JsString
  reasonCode : JsString
  entry : Entry
  expiresAt : Option Int

/-- The clock is read once if there is an expiry. -/
def checkHold : RetentionOp HoldRequest := do
  let scope ← check (scopeOf input)
  let holdId ← check (assertOperationId (input.get "holdId") "holdId")
  let reasonCode ← check (assertReasonCode (input.get "reasonCode"))
  let entry ← check (requireItem (← Eff.get) scope)
  if (input.get "expiresAt").isNullish then return ⟨scope, holdId, reasonCode, entry, none⟩
  else do
    let expiresAt ← check (parseDate cfg.host (input.get "expiresAt") "expiresAt" .undefined)
    let now ← Eff.lift (current cfg env 0)
    check (failIf (decide (expiresAt ≤ now)) "expiresAt must be in the future" .invalidHoldExpiry)
    return ⟨scope, holdId, reasonCode, entry, some expiresAt⟩

def addHold : RetentionOp RetentionItemOperation := do
  let ⟨scope, holdId, reasonCode, entry, expiresAt⟩ ← checkHold cfg env input
  if (entry.holds.get holdId).isSome then
    return { operation := .holdAdded, item := publicItem entry.item entry.holds, holdId := some holdId
             idempotent := true }
  else do
    let readings := if expiresAt.isSome then 1 else 0
    let createdAt ← Eff.lift (dateOr cfg env readings (input.get "occurredAt") "occurredAt")
    let entry := { entry with holds := entry.holds.set holdId ⟨holdId, reasonCode, createdAt, expiresAt⟩ }
    put scope entry
    increment .itemsHeld
    increment .holdsAdded
    let actor ← check (normalizeActor (input.get "actor") scope.userId)
    let occurredAt ← Eff.lift (occurredAt cfg env (readings + 1) (input.get "occurredAt"))
    let audit := ⟨scope, .holdAdded holdId reasonCode expiresAt, occurredAt, actor, none⟩
    appendEvent audit
    return { operation := .holdAdded, item := publicItem entry.item entry.holds, holdId := some holdId
             audit := some audit }

def checkHoldRelease : RetentionOp (RetentionScope × JsString × Entry) := do
  let scope ← check (scopeOf input)
  let holdId ← check (assertOperationId (input.get "holdId") "holdId")
  let entry ← check (requireItem (← Eff.get) scope)
  return (scope, holdId, entry)

def releaseHold : RetentionOp RetentionItemOperation := do
  let (scope, holdId, entry) ← checkHoldRelease input
  if (entry.holds.get holdId).isNone then
    return { operation := .holdReleased, item := publicItem entry.item entry.holds, holdId := some holdId
             idempotent := true }
  else do
    let entry := { entry with holds := entry.holds.delete holdId }
    put scope entry
    increment .holdsReleased
    let actor ← check (normalizeActor (input.get "actor") scope.userId)
    let occurredAt ← Eff.lift (occurredAt cfg env 0 (input.get "occurredAt"))
    let audit := ⟨scope, .holdReleased holdId, occurredAt, actor, none⟩
    appendEvent audit
    return { operation := .holdReleased, item := publicItem entry.item entry.holds, holdId := some holdId
             audit := some audit }

structure LockRequest where
  scope : RetentionScope
  entry : Entry
  lock : Lock

def checkLock : RetentionOp LockRequest := do
  let scope ← check (scopeOf input)
  let lockId ← check (assertOperationId ((input.get "lockId").orElse (.string env.uuid)) "lockId")
  let owner ← check (assertId (input.get "owner") "owner")
  let leaseMs ← check (assertInteger ((input.get "leaseMs").orElse (.number 30000)) 1000 msPerDay
    "leaseMs must be between 1000 and 86400000 milliseconds" .invalidLockLease)
  let acquiredAt ← Eff.lift (dateOr cfg env 0 (input.get "acquiredAt") "acquiredAt")
  let entry ← check (requireItem (← Eff.get) scope)
  check (failIf (locked entry.item acquiredAt && entry.item.lock.any fun lock => lock.owner != owner)
    "item is locked by another worker" .itemLocked)
  let leaseExpiresAt ← Eff.lift (dateAt (acquiredAt + leaseMs))
  return ⟨scope, entry, lockId, owner, acquiredAt, leaseExpiresAt⟩

def acquireLock : RetentionOp RetentionItemOperation := do
  let ⟨scope, entry, lock⟩ ← checkLock cfg env input
  let entry := { entry with item := { entry.item with lock := some lock } }
  put scope entry
  increment .itemsLocked
  return { operation := .itemLocked, item := publicItem entry.item entry.holds, lockId := some lock.lockId }

def checkUnlock : RetentionOp (RetentionScope × Entry) := do
  let scope ← check (scopeOf input)
  let lockId ← check (assertOperationId (input.get "lockId") "lockId")
  let owner ← check (assertId (input.get "owner") "owner")
  let entry ← check (requireItem (← Eff.get) scope)
  check (failIf (!entry.item.lock.any fun lock => lock.lockId == lockId && lock.owner == owner)
    "lock does not belong to the owner" .lockNotOwned)
  return (scope, entry)

def releaseLock : RetentionOp RetentionItemOperation := do
  let (scope, entry) ← checkUnlock input
  let entry := { entry with item := { entry.item with lock := none } }
  put scope entry
  return { operation := .itemUnlocked, item := publicItem entry.item entry.holds }

end

/-- The operations on one item, which a purge callback may call as well. -/
inductive ItemMethod where
  | markDeleted | restoreItem | addHold | releaseHold | acquireLock | releaseLock
  deriving DecidableEq, Repr

def ItemMethod.run (cfg : RetentionConfig) (env : Ambient) (input : JsValue) :
    ItemMethod → RetentionOp RetentionItemOperation
  | .markDeleted => Retention.markDeleted cfg env input
  | .restoreItem => Retention.restoreItem cfg env input
  | .addHold => Retention.addHold cfg env input
  | .releaseHold => Retention.releaseHold cfg env input
  | .acquireLock => Retention.acquireLock cfg env input
  | .releaseLock => Retention.releaseLock input

structure ItemCall where
  env : Ambient
  method : ItemMethod
  argument : JsValue

def ItemCall.input (call : ItemCall) : JsValue := call.argument.orDefault (.object [])

def ItemCall.run (cfg : RetentionConfig) (call : ItemCall) : RetentionOp RetentionItemOperation :=
  call.method.run cfg call.env call.input

/-! ## Purge batches -/

/-- `a.localeCompare(b) || c.localeCompare(d)`, at most zero. -/
def candidateLe (host : Host) (l r : Entry) : Bool :=
  let until_ (e : Entry) := (e.item.retentionUntil.map isoString).getD []
  if host.localeLe (until_ l) (until_ r) && host.localeLe (until_ r) (until_ l) then
    host.localeLe l.item.text r.item.text
  else host.localeLe (until_ l) (until_ r)

/-- What `listCandidates` selects, once its arguments are validated. -/
def isCandidate (tenant user : Option JsString) (asOf : Int) (e : Entry) : Bool :=
  tenant.all (· == e.item.tenantId) && user.all (· == e.item.userId) && isDue e.item e.holds asOf &&
    !locked e.item asOf

def candidates (cfg : RetentionConfig) (s : RetentionStore) (tenant user : Option JsString) (asOf : Int)
    (limit : Nat) : List RetentionItem :=
  (((s.records.values.filter (isCandidate tenant user asOf)).insertionSort
    fun l r => candidateLe cfg.host l r).take limit).map fun e => publicItem e.item e.holds

/-- What a purge callback comes to. -/
inductive AdapterAnswer where
  | accepts
  | returnsFalse
  | returnsThenable
  /-- With the `code` of the error, if it is a string. -/
  | throws (code : Option JsString)

/-- The code of a failed purge. -/
def AdapterAnswer.failure : AdapterAnswer → Option JsString
  | accepts => none
  | returnsFalse => some (js "PURGE_REJECTED")
  | returnsThenable => some (js "ASYNC_PURGE_ADAPTER")
  | throws code => some (code.getD (js "PURGE_ADAPTER_ERROR"))

/-- A purge callback: the calls it makes on the store, whose errors it may
catch, and its answer, by how many items it got before, the item, and the store. -/
abbrev Callback := Nat → RetentionItem → RetentionStore → List ItemCall × AdapterAnswer

def runCalls (cfg : RetentionConfig) (calls : List ItemCall) (s : RetentionStore) : RetentionStore :=
  calls.foldl (fun s call => (call.run cfg s).2) s

/-- The local variables of a batch, with the items that were handed to the
callback. -/
structure Batch where
  items : List RetentionItem
  skippedItems : List (JsString × SkipReason)
  failures : List (JsString × JsString)
  events : List RetentionAuditEvent
  handed : List RetentionItem

def Batch.empty : Batch := ⟨[], [], [], [], []⟩

structure BatchContext where
  cfg : RetentionConfig
  workerId : JsString
  operationId : JsString
  startedAt : Int
  callback : Option Callback

/-- Whether a record is the one of a generation. -/
def RecordItem.isGeneration (generation : Nat) (item : RecordItem) : Bool := item.generation == generation

/-- The record a batch refers to: the stored one, or one that was replaced. -/
def Entry.referred (e : Entry) (item : RecordItem) : RecordItem :=
  ((e.item :: e.replaced).find? (RecordItem.isGeneration item.generation)).getD item

def Entry.update (e : Entry) (generation : Nat) (f : RecordItem → RecordItem) : Entry :=
  let update (r : RecordItem) := if r.isGeneration generation then f r else r
  { e with item := update e.item, replaced := e.replaced.map update }

namespace BatchContext
variable (ctx : BatchContext)

/-- The first look at a candidate. -/
def ready (s : RetentionStore) (candidate : RetentionItem) : Option Entry :=
  (s.records.get candidate.toRetentionScope).filter fun e =>
    isDue e.item e.holds ctx.startedAt && !locked e.item ctx.startedAt

def lock (leaseExpiresAt : Int) : Lock := ⟨ctx.operationId, ctx.workerId, ctx.startedAt, leaseExpiresAt⟩

/-- The store and the item the callback gets. -/
def lockItem (e : Entry) (leaseExpiresAt : Int) : RecordItem := { e.item with lock := some (ctx.lock leaseExpiresAt) }

def lockStore (s : RetentionStore) (e : Entry) (leaseExpiresAt : Int) : RetentionStore :=
  s.put e.item.toRetentionScope { e with item := ctx.lockItem e leaseExpiresAt }

def answer (b : Batch) (item : RetentionItem) (s : RetentionStore) : List ItemCall × AdapterAnswer :=
  match ctx.callback with
  | some callback => callback b.handed.length item s
  | none => ([], .accepts)

def event (item : RecordItem) (event : RetentionEvent) : RetentionAuditEvent :=
  ⟨item.toRetentionScope, event, ctx.startedAt, ⟨ctx.workerId, js "system"⟩, some ctx.operationId⟩

end BatchContext

namespace RetentionStore

/-- What a reference to a record reads. -/
def referred (s : RetentionStore) (item : RecordItem) : RecordItem × Holds :=
  match s.records.get item.toRetentionScope with
  | some e => (e.referred item, e.holds)
  | none => (item, Table.empty)

def update (s : RetentionStore) (item : RecordItem) (f : RecordItem → RecordItem) : RetentionStore :=
  { s with records := s.records.adjust item.toRetentionScope (·.update item.generation f) }

end RetentionStore

/-- The assignments at the end of a round. -/
def unlock (item : RecordItem) : RecordItem := { item with lock := none }

def purgeAt (startedAt : Int) (item : RecordItem) : RecordItem :=
  { item with state := .purged, purgedAt := some startedAt, lock := none }

/-- One round of the loop over the candidates. -/
def turn (ctx : BatchContext) (candidate : RetentionItem) (b : Batch) : RetentionOp Batch := do
  let s ← Eff.get
  match ctx.ready s candidate with
  | none => return { b with skippedItems := b.skippedItems ++ [(candidate.itemId, .stateChanged)] }
  | some e => do
    let leaseExpiresAt ← Eff.lift (dateAt (ctx.startedAt + 30000))
    let item := ctx.lockItem e leaseExpiresAt
    let handed := publicItem item e.holds
    let s := ctx.lockStore s e leaseExpiresAt
    let (calls, answer) := ctx.answer b handed s
    Eff.modify fun _ => runCalls ctx.cfg calls s
    let b := { b with handed := b.handed ++ [handed] }
    match answer.failure with
    | some code => do
      increment .purgeFailures
      let event := ctx.event item (.purgeFailed item.resourceType item.generation code)
      appendEvent event
      Eff.modify (·.update item unlock)
      return { b with
        failures := b.failures ++ [(item.itemId, code)], events := b.events ++ [event]
        skippedItems := b.skippedItems ++ [(item.itemId, .purgeFailed)] }
    | none => do
      let (now, holds) := (← Eff.get).referred item
      if isDue now holds ctx.startedAt then do
        Eff.modify (·.update item (purgeAt ctx.startedAt))
        increment .itemsPurged
        let event := ctx.event item (.purge item.resourceType item.generation)
        appendEvent event
        return { b with
          events := b.events ++ [event], items := b.items ++ [publicItem (purgeAt ctx.startedAt now) holds] }
      else do
        Eff.modify (·.update item unlock)
        return { b with skippedItems := b.skippedItems ++ [(item.itemId, .stateChanged)] }

def purgeLoop (ctx : BatchContext) : List RetentionItem → Batch → RetentionOp Batch
  | [], b => pure b
  | candidate :: rest, b => do
    let b ← turn ctx candidate b
    purgeLoop ctx rest b

/-- The `purgeItem` of a batch's input. -/
inductive GivenAdapter where
  | omitted | callable | notCallable
  deriving DecidableEq, Repr

/-- A batch, with the adapter its input gives, whether the store has one of its
own, and how the one that is called behaves. -/
structure BatchCall where
  env : Ambient
  argument : JsValue
  given : GivenAdapter
  configured : Bool
  behaviour : Callback

def BatchCall.input (call : BatchCall) : JsValue := call.argument.orDefault (.object [])

def BatchCall.callback (call : BatchCall) : Option Callback :=
  match call.given with
  | .omitted => if call.configured then some call.behaviour else none
  | _ => some call.behaviour

/-- An id that may be left out. -/
def optionalId (value : JsValue) (field : String) : Except RetentionError (Option JsString) :=
  if value.isUndefined then .ok none else (assertId value field).map some

/-- The key and the limit of a batch. -/
def identifyBatch (cfg : RetentionConfig) (env : Ambient) (input : JsValue) :
    Except RetentionError (BatchKey × Nat) := do
  let workerId ← assertId (input.get "workerId") "workerId"
  let operationId ← assertOperationId ((input.get "operationId").orElse (.string env.uuid)) "operationId"
  let tenant ← optionalId (input.get "tenantId") "tenantId"
  let user ← optionalId (input.get "userId") "userId"
  failIf (user.isSome && tenant.isNone) "tenantId is required with userId" .invalidScope
  let limit ← batchSize ((input.get "limit").orElse (.number cfg.maxBatchSize)) cfg.maxBatchSize
  return (⟨workerId, tenant, user, operationId⟩, limit)

/-- What a batch checks before it looks at the items. -/
def checkBatch (cfg : RetentionConfig) (call : BatchCall) : Except (Thrown RetentionError) Int := do
  let startedAt ← dateOr cfg call.env 0 (call.input.get "startedAt") "startedAt"
  throwIf (call.given == .notCallable) (.contract
    (retentionError (js "purgeItem must be a function when provided") .invalidPurgeAdapter))
  let _ ← current cfg call.env 1
  return startedAt

def batchContext (cfg : RetentionConfig) (call : BatchCall) (key : BatchKey) (startedAt : Int) : BatchContext :=
  ⟨cfg, key.workerId, key.operationId, startedAt, call.callback⟩

/-- The store when the loop of a batch begins. -/
def batchStore (s : RetentionStore) (scanned : Nat) : RetentionStore :=
  (s.increment .purgeBatches 1).increment .purgeCandidates scanned

def runPurgeBatch (cfg : RetentionConfig) (call : BatchCall) : RetentionOp PurgeBatchResult := do
  let (key, limit) ← check (identifyBatch cfg call.env call.input)
  let s ← Eff.get
  match s.batchResults.get key with
  | some prior => return prior
  | none => do
    let startedAt ← Eff.lift (checkBatch cfg call)
    let listed := candidates cfg s key.tenant key.user startedAt limit
    Eff.modify fun s => batchStore s listed.length
    let b ← purgeLoop (batchContext cfg call key startedAt) listed .empty
    Eff.modify (·.increment .itemsSkipped b.skippedItems.length)
    let completedAt ← Eff.lift (current cfg call.env 2)
    let _ ← Eff.lift (current cfg call.env 3)
    let s ← Eff.get
    let output := {
      operationId := key.operationId, workerId := key.workerId
      startedAt, completedAt
      batchSize := limit
      scanned := listed.length, purged := b.items.length, skipped := b.skippedItems.length
      failed := b.failures.length
      remaining := (candidates cfg s key.tenant key.user completedAt cfg.maxBatchSize).length
      items := b.items, skippedItems := b.skippedItems, failures := b.failures, auditEvents := b.events
      metrics := s.metrics }
    Eff.modify fun s => { s with batchResults := s.batchResults.set key output }
    return output

end GuloGulo.Lifecycle.Retention
