import Mathlib.Data.List.Sort
import GuloGulo.Admin.Rbac
import GuloGulo.Data.Table
import GuloGulo.Js.Date

/-!
# The quota ledger

`createQuotaLedger` of `core/admin/quota.ts`. `QuotaLedger` is what the closures
share and do not change, `LedgerState` what they do.
-/

namespace GuloGulo.Admin
open Js Data Integrations Actor

structure Reservation where
  tenantId : JsString
  userId : JsString
  sizeBytes : Int
  released : Bool

structure QuotaLedger where
  tenantId : JsString
  gross : Int

structure LedgerState where
  allocations : OrderedMap JsString Int
  usage : OrderedMap JsString Int
  reservationSequence : Nat
  reservations : OrderedMap JsString Reservation

structure QuotaAllocation where
  tenantId : JsString
  userId : JsString
  allocatedQuotaBytes : Int
  usedBytes : Int
  remainingBytes : Int
  deriving DecidableEq

structure QuotaSnapshot where
  tenantId : JsString
  grossQuotaBytes : Int
  allocatedQuotaBytes : Int
  remainingQuotaBytes : Int
  users : List QuotaAllocation

inductive ReserveResult where
  | accepted (reservationId tenantId userId : JsString) (sizeBytes : Int)
  | refused (reason : String) (tenantId userId : JsString)
  deriving DecidableEq

structure ReleaseResult where
  released : Bool
  alreadyReleased : Bool
  reservationId : JsString
  deriving DecidableEq

abbrev LedgerM := Eff (Thrown AdminError) LedgerState

def quotaError (message : String) (code : String := "QUOTA_ERROR") (status : Nat := 403) : AdminError :=
  ⟨"QuotaError", s!"Quota error: {message}", code, status⟩

def quotaOverflow : AdminError := quotaError "quota total exceeds safe integer range" "QUOTA_OVERFLOW" 500

def isSafeInteger (n : Int) : Bool := decide (-maxSafeInteger ≤ n ∧ n ≤ maxSafeInteger)

def invalidQuota (field : String) (positive : Bool) : AdminError :=
  let sign := if positive then "positive" else "non-negative"
  quotaError s!"{field} must be a {sign} safe integer" "INVALID_QUOTA" 400

def isBytes (n : Int) (positive : Bool) : Bool :=
  isSafeInteger n && if positive then decide (0 < n) else decide (0 ≤ n)

def assertBytes (value : JsValue) (field : String) (positive : Bool := false) : Except AdminError Int :=
  match value.asInteger? with
  | some n => if isBytes n positive then .ok n else .error (invalidQuota field positive)
  | none => .error (invalidQuota field positive)

def assertTenantId (value : JsValue) : Except AdminError JsString :=
  match value with
  | .string s =>
    if tenantIdPattern s then .ok s else .error (quotaError "tenantId is invalid" "INVALID_TENANT" 400)
  | _ => .error (quotaError "tenantId is invalid" "INVALID_TENANT" 400)

/-- `quota-` and eight digits. -/
def reservationIdPattern (s : JsString) : Bool :=
  decide (s.length = 14) && startsWith s (js "quota-") && (s.drop 6).all isDigit

/-- A destructured parameter: `null` has no properties, `undefined` is its
default. -/
def parameter (input : JsValue) : Except (Thrown AdminError) JsValue :=
  match input with
  | .null => .error .foreign
  | v => .ok v

namespace Quota

/-- Adds up the allocations, but the one of `excludeUserId`. -/
def addAllocations (excludeUserId : Option JsString) : Int → List (JsString × Int) → Except AdminError Int
  | total, [] => .ok total
  | total, (userId, allocated) :: rest =>
    if some userId = excludeUserId then addAllocations excludeUserId total rest
    else do
      throwIf (!isSafeInteger (total + allocated)) quotaOverflow
      addAllocations excludeUserId (total + allocated) rest

def totalAllocated (s : LedgerState) (excludeUserId : Option JsString) : Except AdminError Int :=
  addAllocations excludeUserId 0 s.allocations.rows

variable (host : Host) (ledger : QuotaLedger)

def assertSameTenant (context : JsValue) : Except AdminError Actor.TenantContext := do
  let canonical ← (assertTenantContext host context).mapError fun _ =>
    quotaError "authenticated tenant context is required" "AUTHENTICATION_REQUIRED" 401
  throwIf (canonical.tenantId != ledger.tenantId)
    (quotaError "cross-tenant quota access denied" "CROSS_TENANT_DENIED")
  return canonical

def assertLedgerTenant (canonical : AdminActor) : Except AdminError AdminActor := do
  throwIf (canonical.tenantId != ledger.tenantId)
    (quotaError "cross-tenant quota access denied" "CROSS_TENANT_DENIED")
  return canonical

/-- `assertLedgerTenant(assertAdminActor(actor))`. -/
def ledgerActor (actor : JsValue) : Except AdminError AdminActor := do
  let canonical ← assertAdminActor host actor
  assertLedgerTenant ledger canonical

def requireKnownUser (s : LedgerState) (userId : JsValue) : Except AdminError JsString := do
  let canonical ← assertSafeUserId userId
  throwIf (s.allocations.get canonical).isNone
    (quotaError "user quota allocation does not exist" "NOT_FOUND" 404)
  return canonical

/-- `usage.get(userId) ?? 0`. -/
def used (s : LedgerState) (userId : JsString) : Int := (s.usage.get userId).getD 0

/-- `allocations.get(userId) ?? 0`. -/
def allocated (s : LedgerState) (userId : JsString) : Int := (s.allocations.get userId).getD 0

def setAllocation (userId : JsString) (allocatedQuotaBytes : JsValue) : LedgerM Unit := do
  let allocated ← Eff.check (assertBytes allocatedQuotaBytes "allocatedQuotaBytes")
  let s ← Eff.get
  let others ← Eff.check (totalAllocated s (some userId))
  Eff.check (throwIf (!isSafeInteger (others + allocated)) quotaOverflow)
  Eff.check (throwIf (decide (ledger.gross < others + allocated))
    (quotaError "tenant gross quota would be exceeded" "QUOTA_EXCEEDED" 409))
  Eff.modify fun s => { s with
    allocations := s.allocations.set userId allocated
    usage := if (s.usage.get userId).isNone then s.usage.set userId 0 else s.usage }

/-- One entry of `initialUsers`. -/
def addInitial (initial : JsValue) : LedgerM Unit := do
  Eff.check (throwIf (!initial.isRecord) (quotaError "initialUsers entries must be objects" "INVALID_USER" 400))
  let userId ← Eff.check (assertSafeUserId (initial.get "userId") "initialUsers.userId")
  let s ← Eff.get
  Eff.check (throwIf (s.allocations.get userId).isSome (quotaError "duplicate initial user" "CONFLICT" 409))
  setAllocation ledger userId ((initial.get "allocatedQuotaBytes").orElse (.number 0))
  let initialUsed ← Eff.check (assertBytes ((initial.get "usedBytes").orElse (.number 0)) "initialUsers.usedBytes")
  let s ← Eff.get
  Eff.check (throwIf (decide (allocated s userId < initialUsed))
    (quotaError "initial usage exceeds user allocation" "INVALID_USAGE" 400))
  Eff.modify fun s => { s with usage := s.usage.set userId initialUsed }

def addInitials : List JsValue → LedgerM Unit
  | [] => pure ()
  | initial :: rest => do
    addInitial ledger initial
    addInitials rest

def cloneAllocation (s : LedgerState) (userId : JsString) : QuotaAllocation :=
  ⟨ledger.tenantId, userId, allocated s userId, used s userId, allocated s userId - used s userId⟩

def read (actor input : JsValue) : LedgerM QuotaAllocation := do
  let input ← Eff.lift (parameter input)
  let canonical ← Eff.check (ledgerActor host ledger actor)
  let s ← Eff.get
  let target ← Eff.check (requireKnownUser s
    ((input.get "userId").orDefault (canonical.userId.elim .null .string)))
  let _ ← Eff.check (authorize host canonical.value
    { permission := .string (js "quota.read"), targetUserId := .string target, resource := some (js "quota") })
  return cloneAllocation ledger s target

/-- The argument the ledger passes to its own `read`. -/
def userInput (userId : JsString) : JsValue := .object [(js "userId", .string userId)]

def registerUser (actor input : JsValue) : LedgerM QuotaAllocation := do
  let input ← Eff.lift (parameter input)
  let canonical ← Eff.check (ledgerActor host ledger actor)
  let target ← Eff.check (assertSafeUserId (input.get "userId"))
  let _ ← Eff.check (authorize host canonical.value
    { permission := .string (js "user.manage"), targetUserId := .string target })
  let s ← Eff.get
  Eff.check (throwIf (s.allocations.get target).isSome
    (quotaError "user quota allocation already exists" "CONFLICT" 409))
  setAllocation ledger target ((input.get "allocatedQuotaBytes").orDefault (.number 0))
  read host ledger canonical.value (userInput target)

def allocate (actor input : JsValue) : LedgerM QuotaAllocation := do
  let input ← Eff.lift (parameter input)
  let canonical ← Eff.check (ledgerActor host ledger actor)
  let s ← Eff.get
  let target ← Eff.check (requireKnownUser s (input.get "userId"))
  let _ ← Eff.check (authorize host canonical.value
    { permission := .string (js "quota.manage"), targetUserId := .string target, resource := some (js "quota") })
  let requested ← Eff.check (assertBytes (input.get "allocatedQuotaBytes") "allocatedQuotaBytes")
  Eff.check (throwIf (decide (requested < used s target))
    (quotaError "allocation cannot be below current usage" "ALLOCATION_BELOW_USAGE" 409))
  setAllocation ledger target (.number requested)
  read host ledger canonical.value (userInput target)

def snapshot (actor : JsValue) : LedgerM QuotaSnapshot := do
  let canonical ← Eff.check (ledgerActor host ledger actor)
  let _ ← Eff.check (authorize host canonical.value
    { permission := .string (js "quota.read"), resource := some (js "quota") })
  let s ← Eff.get
  let total ← Eff.check (totalAllocated s none)
  let users := (s.allocations.rows.map Prod.fst).insertionSort fun a b => a ≤ b
  return ⟨ledger.tenantId, ledger.gross, total, ledger.gross - total, users.map (cloneAllocation ledger s)⟩

def reservationId (sequence : Nat) : JsString := js "quota-" ++ pad 8 sequence

def reserve (context input : JsValue) : LedgerM ReserveResult := do
  let input ← Eff.lift (parameter input)
  let _ ← Eff.check (assertSameTenant host ledger context)
  let s ← Eff.get
  let target ← Eff.check (requireKnownUser s (input.get "userId"))
  let size ← Eff.check (assertBytes ((input.get "sizeBytes").orDefault (.number 0)) "sizeBytes")
  let nextUsage := used s target + size
  if allocated s target - used s target < size then
    return .refused "quota_exceeded" ledger.tenantId target
  else if !isSafeInteger nextUsage then
    return .refused "quota_overflow" ledger.tenantId target
  else
    let id := reservationId (s.reservationSequence + 1)
    Eff.modify fun s => { s with
      usage := s.usage.set target nextUsage
      reservationSequence := s.reservationSequence + 1
      reservations := s.reservations.set id ⟨ledger.tenantId, target, size, false⟩ }
    return .accepted id ledger.tenantId target size

/-- `Math.max(0, currentUsage - reservation.sizeBytes)`. -/
def usageAfter (s : LedgerState) (reservation : Reservation) : Int :=
  max 0 (used s reservation.userId - reservation.sizeBytes)

def lookupReservation (s : LedgerState) (id : JsValue) : Except AdminError (JsString × Reservation) := do
  match id with
  | .string id =>
    throwIf (!reservationIdPattern id) (quotaError "reservationId is invalid" "INVALID_RESERVATION" 400)
    match (s.reservations.get id).filter (·.tenantId == ledger.tenantId) with
    | some reservation => return (id, reservation)
    | none => .error (quotaError "reservation does not exist" "NOT_FOUND" 404)
  | _ => .error (quotaError "reservationId is invalid" "INVALID_RESERVATION" 400)

def release (context id : JsValue) : LedgerM ReleaseResult := do
  let _ ← Eff.check (assertSameTenant host ledger context)
  let s ← Eff.get
  let (id, reservation) ← Eff.check (lookupReservation ledger s id)
  if reservation.released then return ⟨false, true, id⟩
  else
    Eff.modify fun s => { s with
      usage := s.usage.set reservation.userId (usageAfter s reservation)
      reservations := s.reservations.set id { reservation with released := true } }
    return ⟨true, false, id⟩

end Quota

structure QuotaLedgerOptions where
  tenantId : JsValue
  grossQuotaBytes : JsValue
  initialUsers : List JsValue

def createQuotaLedger (options : QuotaLedgerOptions) : Except (Thrown AdminError) (QuotaLedger × LedgerState) := do
  let tenantId ← (assertTenantId options.tenantId).mapError .contract
  let gross ← (assertBytes options.grossQuotaBytes "grossQuotaBytes" true).mapError .contract
  let ledger : QuotaLedger := ⟨tenantId, gross⟩
  let (added, s) := Quota.addInitials ledger options.initialUsers ⟨Table.empty, Table.empty, 0, Table.empty⟩
  added
  return (ledger, s)

end GuloGulo.Admin
