import GuloGulo.Data.Table
import GuloGulo.Integrations.TenantContext
import GuloGulo.Js.Json
import GuloGulo.Sql.Program

/-!
# Tenants and quota in the PostgreSQL store

`bootstrapTenant`, `createUserReference` and `allocateQuota` of
`postgres-store.ts`, each as the program that one attempt of
`withTenantTransaction` runs, over the tables of `0001_m2_foundation.sql` they
read and write. What an operation checks before it opens the transaction is
checked before the first statement here.
-/

namespace GuloGulo.Integrations.Postgres
open Js Data Sql
open Sql.Program (check)

inductive StoreErrorCode where
  | invalidInput | notFound | conflict | quotaExceeded | dataIntegrity
  deriving DecidableEq, Repr

structure StoreError where
  message : JsString
  code : StoreErrorCode
  deriving DecidableEq

def storeError (message : String) (code : StoreErrorCode) : StoreError :=
  ⟨js "PostgreSQL store error: " ++ js message, code⟩

/-- `SAFE_IDENTIFIER` is written like the pattern of actor ids. -/
def safeIdentifierPattern : JsString → Bool := actorIdPattern

def safeIdentifier (value : JsValue) (name : String) : Except StoreError JsString :=
  match value with
  | .string s => if safeIdentifierPattern s then .ok s else .error (storeError (name ++ " is invalid") .invalidInput)
  | _ => .error (storeError (name ++ " is invalid") .invalidInput)

/-- A safe integer that is at least `least`. -/
def safeBytes (least : Int) (value : JsValue) (message : String) : Except StoreError Int :=
  match value.asInteger? with
  | some n => if least ≤ n ∧ n ≤ maxSafeInteger then .ok n else .error (storeError message .invalidInput)
  | none => .error (storeError message .invalidInput)

def quotaBytes (value : JsValue) : Except StoreError Int :=
  safeBytes 0 value "allocatedQuotaBytes must be a non-negative safe integer"

/-- What the driver may return for a number. -/
inductive Numeric where
  | bigint (n : Int)
  | string (s : JsString)
  | number (q : Rat)

def asBigInt (value : Numeric) (field : String) : Except StoreError Int :=
  match value with
  | .bigint n => .ok n
  | .string s =>
    if isDigits s then .ok (parseDecimal s)
    else .error (storeError (field ++ " returned an invalid numeric value") .dataIntegrity)
  | .number q =>
    if q.den = 1 ∧ 0 ≤ q.num ∧ q.num ≤ maxSafeInteger then .ok q.num
    else .error (storeError (field ++ " returned an invalid numeric value") .dataIntegrity)

structure UserRow where
  userId : JsString
  externalId : JsString
  mailAddress : JsString
  displayName : Option JsString
  status : JsString

/-- A tenant with the rows that reference it: its users, and the bytes
allocated to each. -/
structure Tenant where
  tenantId : JsString
  domain : JsString
  grossQuotaBytes : Int
  users : Table UserRow.userId
  allocations : OrderedMap JsString Int

structure Db where
  tenants : Table Tenant.tenantId

namespace Db

def empty : Db := ⟨Table.empty⟩

def find (db : Db) (tenantId : JsString) : Option Tenant := db.tenants.lookup tenantId

/-- A change of one tenant; `none` is a constraint that does not hold. -/
def write (db : Db) (tenantId : JsString) (change : Tenant → Option Tenant) : Except (Thrown StoreError) (Unit × Db) :=
  match (db.find tenantId).bind change with
  | some tenant => .ok ((), ⟨db.tenants.put tenant⟩)
  | none => .error .foreign

/-- The row of `quota_allocations`. -/
def allocation (db : Db) (tenantId userId : JsString) : Option Int :=
  (db.find tenantId).bind fun tenant => tenant.allocations.get userId

end Db

namespace Tenant

/-- `UNIQUE (tenant_id, external_id)` and `UNIQUE (tenant_id, mail_address)`. -/
def taken (tenant : Tenant) (user : UserRow) : Bool :=
  tenant.users.rows.any fun u => u.externalId == user.externalId || u.mailAddress == user.mailAddress

def statuses : List JsString := [js "active", js "suspended", js "deleted"]

def addUser (user : UserRow) (tenant : Tenant) : Option Tenant :=
  if tenant.taken user || !statuses.contains user.status then none
  else (tenant.users.insert? user).map fun users => { tenant with users }

/-- A row of `quota_allocations` instead of the one there may be. -/
def allocate (userId : JsString) (bytes : Int) (tenant : Tenant) : Option Tenant :=
  if (tenant.users.lookup userId).isNone || decide (bytes < 0) then none
  else some { tenant with allocations := tenant.allocations.set userId bytes }

def allocateNew (userId : JsString) (bytes : Int) (tenant : Tenant) : Option Tenant :=
  if (tenant.allocations.get userId).isSome then none else tenant.allocate userId bytes

end Tenant

structure NewUser where
  userId : JsString
  externalId : JsString
  mailAddress : JsString
  displayName : JsValue
  status : JsString

/-- Both selects of a tenant lock its row, with `FOR UPDATE`. -/
inductive Stmt where
  | selectTenant (tenantId : JsString)
  | selectUser (tenantId userId : JsString)
  | sumAllocations (tenantId : JsString)
  | sumOtherAllocations (tenantId userId : JsString)
  | insertTenant (tenantId domain : JsString) (grossQuotaBytes : Int)
  | insertPolicies (tenantId : JsString) (maxUsers maxAliases maxMessageBytes : JsValue)
  | insertUser (tenantId : JsString) (columns : NewUser)
  | insertAllocation (tenantId userId : JsString) (allocatedQuotaBytes : Int)
  | upsertAllocation (tenantId userId : JsString) (allocatedQuotaBytes : Int)

structure TenantColumns where
  domain : JsString
  grossQuotaBytes : Numeric

def Stmt.Rows : Stmt → Type
  | selectTenant .. => List TenantColumns
  | selectUser .. => List JsString
  | sumAllocations .. | sumOtherAllocations .. => List Numeric
  | insertTenant .. | insertPolicies .. | insertUser .. | insertAllocation .. | upsertAllocation .. => Unit

/-- The driver on values of unknown type: what a text column holds for one, and
whether three of them make a row of policies, which nothing here reads. -/
structure Driver where
  text : JsValue → Except (Thrown StoreError) (Option JsString)
  policies : JsValue → JsValue → JsValue → Bool

/-- Integers of the database come as their texts. -/
def numeric (n : Int) : Numeric := .string (jsonInteger n)

def Tenant.columns (tenant : Tenant) : TenantColumns := ⟨tenant.domain, numeric tenant.grossQuotaBytes⟩

section
variable (driver : Driver)

def Stmt.exec : Program.Semantics (Thrown StoreError) Stmt.Rows Db
  | selectTenant tenantId, db => .ok ((db.find tenantId).toList.map Tenant.columns, db)
  | selectUser tenantId userId, db =>
    .ok (((db.find tenantId).bind fun tenant => tenant.users.lookup userId).toList.map UserRow.userId, db)
  | sumAllocations tenantId, db =>
    .ok ([numeric ((db.find tenantId).elim 0 fun tenant => tenant.allocations.values.sum)], db)
  | sumOtherAllocations tenantId userId, db =>
    .ok ([numeric ((db.find tenantId).elim 0 fun tenant => tenant.allocations.sumExcept userId)], db)
  | insertTenant tenantId domain grossQuotaBytes, db => do
    throwIf (db.tenants.rows.any (fun tenant => tenant.domain == domain) || decide (grossQuotaBytes ≤ 0)) .foreign
    match db.tenants.insert? ⟨tenantId, domain, grossQuotaBytes, Table.empty, Table.empty⟩ with
    | some tenants => return ((), ⟨tenants⟩)
    | none => .error .foreign
  | insertPolicies _ maxUsers maxAliases maxMessageBytes, db => do
    throwIf (!driver.policies maxUsers maxAliases maxMessageBytes) .foreign
    return ((), db)
  | insertUser tenantId columns, db => do
    let displayName ← driver.text columns.displayName
    db.write tenantId (Tenant.addUser
      ⟨columns.userId, columns.externalId, columns.mailAddress, displayName, columns.status⟩)
  | insertAllocation tenantId userId allocatedQuotaBytes, db =>
    db.write tenantId (Tenant.allocateNew userId allocatedQuotaBytes)
  | upsertAllocation tenantId userId allocatedQuotaBytes, db =>
    db.write tenantId (Tenant.allocate userId allocatedQuotaBytes)

end

abbrev StoreProgram := Program (Thrown StoreError) Stmt.Rows

/-- `client.query`. -/
def send (stmt : Stmt) : StoreProgram stmt.Rows := Program.send stmt

/-- A `null` cannot be destructured. -/
def destructure (options : JsValue) : StoreProgram Unit :=
  match options with
  | .null => .throw .foreign
  | _ => return ()

/-- What is reported about a user. -/
structure AllocatedQuota where
  tenantId : JsString
  userId : JsString
  allocatedQuotaBytes : Int
  deriving DecidableEq

/-- What is reported about a tenant. -/
structure BootstrappedTenant where
  tenantId : JsString
  domain : JsString
  grossQuotaBytes : Int
  deriving DecidableEq

section
variable (host : Host)

def openContext (context : JsValue) : StoreProgram Actor.TenantContext :=
  match Actor.assertTenantContext host context with
  | .ok canonical => return canonical
  | .error () => .throw .foreign

def openAccess (context requestedTenantId : JsValue) : StoreProgram Actor.TenantContext := do
  let canonical ← openContext host context
  if requestedTenantId.isString canonical.tenantId then return canonical else .throw .foreign

def bootstrapConflict : StoreError :=
  storeError "tenant bootstrap conflicts with the existing immutable domain or gross quota" .conflict

def bootstrapTenant (context options : JsValue) : StoreProgram BootstrappedTenant := do
  destructure options
  let canonical ← openAccess host context (options.get "tenantId")
  let domain ← check (safeIdentifier (options.get "domain") "domain")
  let normalizedDomain := host.toLowerCase domain
  let grossQuota ← check (safeBytes 1 (options.get "grossQuotaBytes") "grossQuotaBytes must be positive")
  match ← send (.selectTenant canonical.tenantId) with
  | [] => do
    send (.insertTenant canonical.tenantId normalizedDomain grossQuota)
    send (.insertPolicies canonical.tenantId ((options.get "maxUsers").orDefault (.number 1000))
      ((options.get "maxAliases").orDefault (.number 5000))
      ((options.get "maxMessageBytes").orDefault (.number 52428800)))
    return ⟨canonical.tenantId, normalizedDomain, grossQuota⟩
  | existing :: _ => do
    check (throwIf (existing.domain != normalizedDomain) bootstrapConflict)
    let existingQuota ← check (asBigInt existing.grossQuotaBytes "gross_quota_bytes")
    check (throwIf (existingQuota != grossQuota) bootstrapConflict)
    return ⟨canonical.tenantId, normalizedDomain, grossQuota⟩

/-- The comparison both operations make before they write. -/
def requireQuota (used : List Numeric) (gross : Numeric) (allocated : Int) : Except StoreError Unit := do
  let used ← asBigInt (used.head?.getD (.number 0)) "allocated_quota_bytes"
  let gross ← asBigInt gross "gross_quota_bytes"
  throwIf (decide (gross < used + allocated)) (storeError "tenant gross quota would be exceeded" .quotaExceeded)

/-- `createUserReference` from the row of the tenant on. -/
def createInTenant (tenantId : JsString) (user : NewUser) (allocated : Int) (tenant : List TenantColumns) :
    StoreProgram AllocatedQuota :=
  match tenant with
  | [tenantRow] => do
    let used ← send (.sumAllocations tenantId)
    check (requireQuota used tenantRow.grossQuotaBytes allocated)
    send (.insertUser tenantId user)
    send (.insertAllocation tenantId user.userId allocated)
    return ⟨tenantId, user.userId, allocated⟩
  | _ => .throw (.contract (storeError "tenant does not exist" .notFound))

def createUserReference (context options : JsValue) : StoreProgram AllocatedQuota := do
  destructure options
  let canonical ← openContext host context
  let userId ← check (safeIdentifier (options.get "userId") "userId")
  let externalId ← check (safeIdentifier (options.get "externalId") "externalId")
  let mailAddress ← check (safeIdentifier (options.get "mailAddress") "mailAddress")
  let allocated ← check (quotaBytes ((options.get "allocatedQuotaBytes").orDefault (.number 0)))
  let tenant ← send (.selectTenant canonical.tenantId)
  createInTenant canonical.tenantId {
    userId
    externalId
    mailAddress := host.toLowerCase mailAddress
    displayName := (options.get "displayName").orDefault .null
    status := (options.get "status").asString?.getD (js "active") } allocated tenant

/-- `allocateQuota` from the row of the tenant on. -/
def allocateInTenant (tenantId userId : JsString) (allocated : Int) (tenant : List TenantColumns) :
    StoreProgram AllocatedQuota := do
  match tenant, ← send (.selectUser tenantId userId) with
  | [tenantRow], [_] => do
    let used ← send (.sumOtherAllocations tenantId userId)
    check (requireQuota used tenantRow.grossQuotaBytes allocated)
    send (.upsertAllocation tenantId userId allocated)
    return ⟨tenantId, userId, allocated⟩
  | _, _ => .throw (.contract (storeError "tenant or user does not exist" .notFound))

def allocateQuota (context options : JsValue) : StoreProgram AllocatedQuota := do
  destructure options
  let canonical ← openContext host context
  let userId ← check (safeIdentifier (options.get "userId") "userId")
  let allocated ← check (quotaBytes (options.get "allocatedQuotaBytes"))
  let tenant ← send (.selectTenant canonical.tenantId)
  allocateInTenant canonical.tenantId userId allocated tenant

inductive StoreCall where
  | bootstrapTenant (context options : JsValue)
  | createUserReference (context options : JsValue)
  | allocateQuota (context options : JsValue)

inductive StoreAnswer where
  | bootstrapped (answer : BootstrappedTenant)
  | allocated (answer : AllocatedQuota)
  deriving DecidableEq

def program : StoreCall → StoreProgram StoreAnswer
  | .bootstrapTenant context options => do return .bootstrapped (← bootstrapTenant host context options)
  | .createUserReference context options => do return .allocated (← createUserReference host context options)
  | .allocateQuota context options => do return .allocated (← allocateQuota host context options)

end

theorem asBigInt_numeric {n m : Int} {field : String} (h : asBigInt (numeric n) field = .ok m) : m = n := by
  have digits : isDigits (jsonInteger n) := by
    by_contra not
    simp only [asBigInt, numeric, not, if_false] at h
    cases h
  simp only [asBigInt, numeric, digits, if_true, Except.ok.injEq] at h
  subst h
  unfold jsonInteger at digits ⊢
  split at digits
  · simp [isDigits, js, charUnits, isDigit] at digits
  · rename_i positive
    rw [if_neg positive, parseDecimal_decimal]
    omega

end GuloGulo.Integrations.Postgres
