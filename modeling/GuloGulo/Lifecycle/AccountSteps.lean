import GuloGulo.Lifecycle.Account
import GuloGulo.Js.Sha256

/-!
# What a call does to an account

Every call reads first; then it may assign to one account, and record that. A
call that throws after an assignment leaves the account as assigned. `Change`
says what an assignment can be, and `run_outcome` how a call can end.
-/

namespace GuloGulo.Lifecycle
open Js Data
open Eff (check wp ReadOnly)

namespace AccountLifecycleStore

def assigned (s : AccountLifecycleStore) (scope : AccountScope) (account : AccountRecord) :
    AccountLifecycleStore :=
  { s with accounts := s.accounts.set scope account }

def recorded (s : AccountLifecycleStore) (entry : AccountAuditEvent) : AccountLifecycleStore :=
  { s with auditEvents := s.auditEvents ++ [entry] }

def remembered (s : AccountLifecycleStore) (key : OperationKey) (output : AccountOperation) :
    AccountLifecycleStore :=
  { s with operationResults := s.operationResults.set key output }

variable (s : AccountLifecycleStore) (scope : AccountScope) (account : AccountRecord)

@[simp] theorem assigned_get (k : AccountScope) :
    (s.assigned scope account).accounts.get k = if k = scope then some account else s.accounts.get k := by
  simp only [assigned, OrderedMap.get_set, eq_comm]

@[simp] theorem assigned_results : (s.assigned scope account).operationResults = s.operationResults := rfl
@[simp] theorem assigned_audit : (s.assigned scope account).auditEvents = s.auditEvents := rfl

/-- Only the last assignment to an account counts. -/
theorem assigned_assigned (account' : AccountRecord) :
    (s.assigned scope account).assigned scope account' = s.assigned scope account' := by
  simp only [assigned, OrderedMap.set_set]

variable (entry : AccountAuditEvent) (key : OperationKey) (output : AccountOperation)

@[simp] theorem recorded_accounts : (s.recorded entry).accounts = s.accounts := rfl
@[simp] theorem recorded_results : (s.recorded entry).operationResults = s.operationResults := rfl
@[simp] theorem recorded_audit : (s.recorded entry).auditEvents = s.auditEvents ++ [entry] := rfl
@[simp] theorem remembered_accounts : (s.remembered key output).accounts = s.accounts := rfl
@[simp] theorem remembered_audit : (s.remembered key output).auditEvents = s.auditEvents := rfl

@[simp] theorem remembered_get (k : OperationKey) :
    (s.remembered key output).operationResults.get k =
      if k = key then some output else s.operationResults.get k := by
  simp only [remembered, OrderedMap.get_set, eq_comm]

end AccountLifecycleStore

section
variable (cfg : LifecycleConfig) (env : Ambient) (input : JsValue) (s : AccountLifecycleStore)

/-- What a call assigns to the account at a scope. -/
inductive Change : AccountMethod → AccountScope → AccountRecord → Prop where
  | registered (a : AccountRecord) (absent : s.accounts.get a.toAccountScope = none)
      (state : a.state = .active) (recoveryUntil : a.recoveryUntil = none) (holds : a.holds = Table.empty)
      (request : a.deletionRequestId = none) : Change .registerAccount a.toAccountScope a
  | requested (key : OperationKey) (a a' : AccountRecord) (date : Int) (days : Nat)
      (identified : identify env input .request = .ok key) (fresh : s.operationResults.get key = none)
      (confirmed : (input.get "confirmation").isString (confirmationFor key.scope.userId))
      (dated : (dateOf cfg env input "requestedAt" s).1 = .ok date)
      (period : assertRecoveryDays ((input.get "recoveryDays").orElse (.number cfg.defaultRecoveryDays)) = .ok days)
      (present : s.accounts.get key.scope = some a) (state : a.state = .active) (free : a.holds.size = 0)
      (scope : a'.toAccountScope = a.toAccountScope) (state' : a'.state = .deletionRequested)
      (holds : a'.holds = a.holds)
      (recoveryUntil : a'.recoveryUntil = a.recoveryUntil ∨ a'.recoveryUntil = some (date + days * msPerDay))
      (request : a'.deletionRequestId = a.deletionRequestId ∨ a'.deletionRequestId = some key.id) :
      Change .requestDeletion key.scope a'
  | softDeleted (scope : AccountScope) (a : AccountRecord) (date : Int)
      (identified : assertAccountScope input = .ok scope)
      (present : s.accounts.get scope = some a) (state : a.state = .deletionRequested)
      (confirmed : (input.get "confirmation").isString (confirmationFor scope.userId))
      (request : input.get "requestId" = .undefined ∨ isPending a.deletionRequestId (input.get "requestId")) :
      Change .softDeleteAccount scope { a with state := .softDeleted, softDeletedAt := some date }
  | restored (key : OperationKey) (a : AccountRecord) (date : Int)
      (identified : identify env input .restore = .ok key) (fresh : s.operationResults.get key = none)
      (present : s.accounts.get key.scope = some a) (state : recoverable a)
      (dated : (dateOf cfg env input "restoredAt" s).1 = .ok date)
      (inTime : ∀ r, a.recoveryUntil = some r → date ≤ r) :
      Change .restoreAccount key.scope { a with
        state := .active, recoveryUntil := none, purgeQueuedAt := none, deletionRequestedAt := none
        softDeletedAt := none, deletionRequestId := none }
  | held (scope : AccountScope) (a : AccountRecord) (holdId : JsString) (hold : AccountHold)
      (identified : assertAccountScope input = .ok scope)
      (present : s.accounts.get scope = some a) (fresh : a.holds.get holdId = none) :
      Change .addAccountHold scope { a with holds := a.holds.set holdId hold }
  | released (scope : AccountScope) (a : AccountRecord) (holdId : JsString)
      (identified : assertAccountScope input = .ok scope)
      (present : s.accounts.get scope = some a) (held : (a.holds.get holdId).isSome) :
      Change .releaseAccountHold scope { a with holds := a.holds.delete holdId }
  | queued (key : OperationKey) (a : AccountRecord) (date r : Int)
      (identified : identify env input .queue = .ok key) (fresh : s.operationResults.get key = none)
      (present : s.accounts.get key.scope = some a) (state : a.state = .softDeleted)
      (dated : (dateOf cfg env input "queuedAt" s).1 = .ok date) (recoveryUntil : a.recoveryUntil = some r)
      (elapsed : r ≤ date) (free : a.holds.size = 0) :
      Change .queuePurge key.scope { a with state := .purgePending, purgeQueuedAt := some date }
  | purged (key : OperationKey) (a : AccountRecord) (date : Int)
      (identified : identify env input .complete = .ok key) (fresh : s.operationResults.get key = none)
      (present : s.accounts.get key.scope = some a) (state : a.state = .purgePending)
      (confirmed : (input.get "confirmation").isString (purgeConfirmationFor key.scope.userId))
      (free : a.holds.size = 0)
      (complete : ∀ t ∈ a.cleanupPlan,
        (((input.get "resourceResults").orElse (.object [])).get t.name).isString (js "purged")) :
      Change .completePurge key.scope { a with state := .purged, purgedAt := some date }

/-- What is validated only after the first assignment: it passes, if it comes to that. -/
def LateChecksPass : AccountMethod → Prop
  | .registerAccount => ∀ a, (checkRegistration cfg env input s).1 = .ok a →
      (normalizeActor (input.get "actor") (some a.userId)).isOk ∧
        (occurredAt cfg env input "createdAt" 1).isOk
  | .requestDeletion => ∀ key, identify env input .request = .ok key → s.operationResults.get key = none →
      ∀ q, (checkDeletionRequest cfg env input key.scope s).1 = .ok q →
        (recoveryEnd q.date q.days).isOk ∧ (requestedPlan input q.account).isOk
  | .softDeleteAccount => ∀ scope a date, (checkSoftDeletion cfg env input s).1 = .ok (scope, a, date) →
      (normalizeActor (input.get "actor") (some scope.userId)).isOk
  | .restoreAccount => ∀ key, identify env input .restore = .ok key → s.operationResults.get key = none →
      ∀ x, (checkRestoration cfg env input key.scope s).1 = .ok x →
        (normalizeActor (input.get "actor") (some key.scope.userId)).isOk ∧
          (assertReason ((input.get "reason").orElse (.string (js "account_recovery"))) "reason").isOk
  | .addAccountHold => ∀ q, (checkHold input s).1 = .ok q → q.account.holds.get q.holdId = none →
      (dateOf cfg env input "addedAt" s).1.isOk →
        (normalizeActor (input.get "actor") none).isOk ∧ (occurredAt cfg env input "addedAt" 1).isOk
  | .releaseAccountHold => ∀ scope holdId a, (checkHoldRelease input s).1 = .ok (scope, holdId, a) →
      (a.holds.get holdId).isSome →
        (normalizeActor (input.get "actor") none).isOk ∧ (occurredAt cfg env input "releasedAt" 0).isOk
  | .queuePurge => ∀ key, identify env input .queue = .ok key → s.operationResults.get key = none →
      ∀ x, (checkPurgeQueue cfg env input key.scope s).1 = .ok x →
        (normalizeActor (input.get "actor") none).isOk
  | .completePurge => ∀ key, identify env input .complete = .ok key → s.operationResults.get key = none →
      ∀ x, (checkPurgeCompletion cfg env input key.scope s).1 = .ok x →
        (normalizeActor (input.get "actor") none).isOk

/-- The method of a remembered operation. -/
def Remembered.method : Remembered → AccountMethod
  | .request => .requestDeletion
  | .restore => .restoreAccount
  | .queue => .queuePurge
  | .complete => .completePurge

/-- The audit event a method appends. -/
def AccountMethod.event : AccountMethod → JsString
  | .registerAccount => js "account.registered"
  | .requestDeletion => js "account.deletion_requested"
  | .softDeleteAccount => js "account.soft_deleted"
  | .restoreAccount => js "account.restored"
  | .addAccountHold => js "account.hold_added"
  | .releaseAccountHold => js "account.hold_released"
  | .queuePurge => js "account.purge_queued"
  | .completePurge => js "account.purged"

/-- How a call ends: it has changed nothing, or it has assigned and then
thrown, or it has recorded what it assigned. -/
inductive Outcome (method : AccountMethod) :
    Except (Thrown AccountError) AccountOperation → AccountLifecycleStore → Prop where
  | refused (e : Thrown AccountError) (late : LateChecksPass cfg env input s method) :
      Outcome method (.error e) s
  | replayed (key : OperationKey) (output : AccountOperation) (replays : key.operation.method = method)
      (identified : identify env input key.operation = .ok key)
      (stored : s.operationResults.get key = some output) (late : LateChecksPass cfg env input s method) :
      Outcome method (.ok output) s
  | idempotent (output : AccountOperation) (hold : method = .addAccountHold ∨ method = .releaseAccountHold)
      (late : LateChecksPass cfg env input s method) : Outcome method (.ok output) s
  | interrupted (scope : AccountScope) (a : AccountRecord) (e : Thrown AccountError)
      (change : Change cfg env input s method scope a) (late : ¬ LateChecksPass cfg env input s method) :
      Outcome method (.error e) (s.assigned scope a)
  | recorded (scope : AccountScope) (a : AccountRecord) (entry : AccountAuditEvent) (output : AccountOperation)
      (change : Change cfg env input s method scope a) (named : entry.toAccountScope = a.toAccountScope)
      (event : entry.event.name = method.event) (result : output.account = publicAccount a)
      (late : LateChecksPass cfg env input s method) :
      Outcome method (.ok output) ((s.assigned scope a).recorded entry)
  | remembered (key : OperationKey) (a : AccountRecord) (entry : AccountAuditEvent)
      (output : AccountOperation) (replays : key.operation.method = method)
      (identified : identify env input key.operation = .ok key) (fresh : s.operationResults.get key = none)
      (change : Change cfg env input s method key.scope a) (named : entry.toAccountScope = a.toAccountScope)
      (event : entry.event.name = method.event) (result : output.account = publicAccount a)
      (late : LateChecksPass cfg env input s method) :
      Outcome method (.ok output) (((s.assigned key.scope a).recorded entry).remembered key output)

end

/-! ## The checks -/

section
variable {cfg : LifecycleConfig} {env : Ambient} {input : JsValue} {s : AccountLifecycleStore}

theorem failIf_eq_ok {c : Bool} {message : String} {code : AccountCode} {u : Unit} :
    failIf c message code = .ok u ↔ c = false :=
  throwIf_eq_ok

theorem requireAccount_eq_ok {scope : AccountScope} {a : AccountRecord} :
    requireAccount s scope = .ok a ↔ s.accounts.get scope = some a := by
  unfold requireAccount
  cases s.accounts.get scope <;> simp

theorem requireState_eq_ok {a : AccountRecord} {expected : AccountState} {u : Unit} :
    requireState a expected = .ok u ↔ a.state = expected := by
  unfold requireState
  rw [throwIf_eq_ok, bne_eq_false_iff_eq]

theorem requireNoHold_eq_ok {a : AccountRecord} {u : Unit} : requireNoHold a = .ok u ↔ a.holds.size = 0 := by
  unfold requireNoHold
  rw [failIf_eq_ok, bne_eq_false_iff_eq]

theorem dateOf_readOnly (field : String) : ReadOnly (dateOf cfg env input field) :=
  Eff.readOnly_bind (Eff.readOnly_lift _) fun _ => Eff.readOnly_check _

theorem checkRegistration_readOnly : ReadOnly (checkRegistration cfg env input) :=
  Eff.readOnly_bind (Eff.readOnly_check _) fun _ => Eff.readOnly_bind (Eff.readOnly_check _) fun _ =>
    Eff.readOnly_bind Eff.readOnly_get fun _ => Eff.readOnly_bind (Eff.readOnly_check _) fun _ =>
      Eff.readOnly_bind (dateOf_readOnly _) fun _ => Eff.readOnly_bind (Eff.readOnly_check _) fun _ =>
        Eff.readOnly_pure _

theorem checkRegistration_ok {a : AccountRecord} (h : (checkRegistration cfg env input s).1 = .ok a) :
    s.accounts.get a.toAccountScope = none ∧ a.state = .active ∧ a.recoveryUntil = none ∧
      a.holds = Table.empty ∧ a.deletionRequestId = none := by
  obtain ⟨scope, _, h⟩ := Eff.check_bind_eq_ok h
  obtain ⟨accountType, _, h⟩ := Eff.check_bind_eq_ok h
  obtain ⟨t, ht, h⟩ := Eff.readOnly_bind_eq_ok Eff.readOnly_get h
  cases ht
  obtain ⟨_, hfree, h⟩ := Eff.check_bind_eq_ok h
  obtain ⟨createdAt, _, h⟩ := Eff.readOnly_bind_eq_ok (dateOf_readOnly _) h
  obtain ⟨plan, _, h⟩ := Eff.check_bind_eq_ok h
  cases h
  refine ⟨?_, rfl, rfl, rfl, rfl⟩
  simpa using failIf_eq_ok.mp hfree

theorem checkDeletionRequest_readOnly {scope : AccountScope} :
    ReadOnly (checkDeletionRequest cfg env input scope) :=
  Eff.readOnly_bind (Eff.readOnly_check _) fun _ => Eff.readOnly_bind (Eff.readOnly_check _) fun _ =>
    Eff.readOnly_bind (Eff.readOnly_check _) fun _ => Eff.readOnly_bind (Eff.readOnly_check _) fun _ =>
      Eff.readOnly_bind (dateOf_readOnly _) fun _ => Eff.readOnly_bind Eff.readOnly_get fun _ =>
        Eff.readOnly_bind (Eff.readOnly_check _) fun _ => Eff.readOnly_bind (Eff.readOnly_check _) fun _ =>
          Eff.readOnly_bind (Eff.readOnly_check _) fun _ => Eff.readOnly_pure _

theorem checkDeletionRequest_ok {scope : AccountScope} {q : DeletionRequest}
    (h : (checkDeletionRequest cfg env input scope s).1 = .ok q) :
    (input.get "confirmation").isString (confirmationFor scope.userId) ∧
      assertRecoveryDays ((input.get "recoveryDays").orElse (.number cfg.defaultRecoveryDays)) = .ok q.days ∧
      (dateOf cfg env input "requestedAt" s).1 = .ok q.date ∧
      s.accounts.get scope = some q.account ∧ q.account.state = .active ∧ q.account.holds.size = 0 := by
  obtain ⟨_, hconfirmed, h⟩ := Eff.check_bind_eq_ok h
  obtain ⟨actor, _, h⟩ := Eff.check_bind_eq_ok h
  obtain ⟨reason, _, h⟩ := Eff.check_bind_eq_ok h
  obtain ⟨days, hdays, h⟩ := Eff.check_bind_eq_ok h
  obtain ⟨date, hdate, h⟩ := Eff.readOnly_bind_eq_ok (dateOf_readOnly _) h
  obtain ⟨t, ht, h⟩ := Eff.readOnly_bind_eq_ok Eff.readOnly_get h
  cases ht
  obtain ⟨account, hpresent, h⟩ := Eff.check_bind_eq_ok h
  obtain ⟨_, hstate, h⟩ := Eff.check_bind_eq_ok h
  obtain ⟨_, hfree, h⟩ := Eff.check_bind_eq_ok h
  cases h
  refine ⟨?_, hdays, hdate, requireAccount_eq_ok.mp hpresent, requireState_eq_ok.mp hstate,
    requireNoHold_eq_ok.mp hfree⟩
  simpa using failIf_eq_ok.mp hconfirmed

theorem checkSoftDeletion_readOnly : ReadOnly (checkSoftDeletion cfg env input) :=
  Eff.readOnly_bind (Eff.readOnly_check _) fun _ => Eff.readOnly_bind Eff.readOnly_get fun _ =>
    Eff.readOnly_bind (Eff.readOnly_check _) fun _ => Eff.readOnly_bind (Eff.readOnly_check _) fun _ =>
      Eff.readOnly_bind (Eff.readOnly_check _) fun _ => Eff.readOnly_bind (Eff.readOnly_check _) fun _ =>
        Eff.readOnly_bind (dateOf_readOnly _) fun _ => Eff.readOnly_pure _

theorem isUndefined_eq {v : JsValue} (h : v.isUndefined) : v = .undefined := by
  cases v with
  | undefined => rfl
  | _ => cases h

theorem checkSoftDeletion_ok {scope : AccountScope} {a : AccountRecord} {date : Int}
    (h : (checkSoftDeletion cfg env input s).1 = .ok (scope, a, date)) :
    assertAccountScope input = .ok scope ∧ s.accounts.get scope = some a ∧ a.state = .deletionRequested ∧
      (input.get "confirmation").isString (confirmationFor scope.userId) ∧
      (input.get "requestId" = .undefined ∨ isPending a.deletionRequestId (input.get "requestId")) := by
  obtain ⟨_, hscope, h⟩ := Eff.check_bind_eq_ok h
  obtain ⟨t, ht, h⟩ := Eff.readOnly_bind_eq_ok Eff.readOnly_get h
  cases ht
  obtain ⟨_, hpresent, h⟩ := Eff.check_bind_eq_ok h
  obtain ⟨_, hstate, h⟩ := Eff.check_bind_eq_ok h
  obtain ⟨_, hconfirmed, h⟩ := Eff.check_bind_eq_ok h
  obtain ⟨_, hrequest, h⟩ := Eff.check_bind_eq_ok h
  obtain ⟨_, _, h⟩ := Eff.readOnly_bind_eq_ok (dateOf_readOnly _) h
  cases h
  refine ⟨hscope, requireAccount_eq_ok.mp hpresent, requireState_eq_ok.mp hstate, ?_, ?_⟩
  · simpa using failIf_eq_ok.mp hconfirmed
  · have hrequest := failIf_eq_ok.mp hrequest
    simp only [Bool.and_eq_false_iff, Bool.not_eq_false'] at hrequest
    exact hrequest.imp_left isUndefined_eq

theorem checkRestoration_readOnly {scope : AccountScope} : ReadOnly (checkRestoration cfg env input scope) :=
  Eff.readOnly_bind Eff.readOnly_get fun _ => Eff.readOnly_bind (Eff.readOnly_check _) fun _ =>
    Eff.readOnly_bind (Eff.readOnly_check _) fun _ => Eff.readOnly_bind (dateOf_readOnly _) fun _ =>
      Eff.readOnly_bind (Eff.readOnly_check _) fun _ => Eff.readOnly_pure _

theorem checkRestoration_ok {scope : AccountScope} {a : AccountRecord} {date : Int}
    (h : (checkRestoration cfg env input scope s).1 = .ok (a, date)) :
    s.accounts.get scope = some a ∧ recoverable a ∧ (dateOf cfg env input "restoredAt" s).1 = .ok date ∧
      ∀ r, a.recoveryUntil = some r → date ≤ r := by
  obtain ⟨t, ht, h⟩ := Eff.readOnly_bind_eq_ok Eff.readOnly_get h
  cases ht
  obtain ⟨_, hpresent, h⟩ := Eff.check_bind_eq_ok h
  obtain ⟨_, hrecoverable, h⟩ := Eff.check_bind_eq_ok h
  obtain ⟨_, hdate, h⟩ := Eff.readOnly_bind_eq_ok (dateOf_readOnly _) h
  obtain ⟨_, hwindow, h⟩ := Eff.check_bind_eq_ok h
  cases h
  refine ⟨requireAccount_eq_ok.mp hpresent, ?_, hdate, ?_⟩
  · simpa using failIf_eq_ok.mp hrecoverable
  · intro r hr
    have hwindow := failIf_eq_ok.mp hwindow
    rw [hr] at hwindow
    simpa using hwindow

theorem checkHold_readOnly : ReadOnly (checkHold input) :=
  Eff.readOnly_bind (Eff.readOnly_check _) fun _ => Eff.readOnly_bind (Eff.readOnly_check _) fun _ =>
    Eff.readOnly_bind (Eff.readOnly_check _) fun _ => Eff.readOnly_bind Eff.readOnly_get fun _ =>
      Eff.readOnly_bind (Eff.readOnly_check _) fun _ => Eff.readOnly_pure _

theorem checkHold_ok {q : HoldRequest} (h : (checkHold input s).1 = .ok q) :
    assertAccountScope input = .ok q.scope ∧ s.accounts.get q.scope = some q.account := by
  obtain ⟨_, hscope, h⟩ := Eff.check_bind_eq_ok h
  obtain ⟨_, _, h⟩ := Eff.check_bind_eq_ok h
  obtain ⟨_, _, h⟩ := Eff.check_bind_eq_ok h
  obtain ⟨t, ht, h⟩ := Eff.readOnly_bind_eq_ok Eff.readOnly_get h
  cases ht
  obtain ⟨_, hpresent, h⟩ := Eff.check_bind_eq_ok h
  cases h
  exact ⟨hscope, requireAccount_eq_ok.mp hpresent⟩

theorem checkHoldRelease_readOnly : ReadOnly (checkHoldRelease input) :=
  Eff.readOnly_bind (Eff.readOnly_check _) fun _ => Eff.readOnly_bind (Eff.readOnly_check _) fun _ =>
    Eff.readOnly_bind Eff.readOnly_get fun _ => Eff.readOnly_bind (Eff.readOnly_check _) fun _ =>
      Eff.readOnly_pure _

theorem checkHoldRelease_ok {scope : AccountScope} {holdId : JsString} {a : AccountRecord}
    (h : (checkHoldRelease input s).1 = .ok (scope, holdId, a)) :
    assertAccountScope input = .ok scope ∧ s.accounts.get scope = some a := by
  obtain ⟨_, hscope, h⟩ := Eff.check_bind_eq_ok h
  obtain ⟨_, _, h⟩ := Eff.check_bind_eq_ok h
  obtain ⟨t, ht, h⟩ := Eff.readOnly_bind_eq_ok Eff.readOnly_get h
  cases ht
  obtain ⟨_, hpresent, h⟩ := Eff.check_bind_eq_ok h
  cases h
  exact ⟨hscope, requireAccount_eq_ok.mp hpresent⟩

theorem checkPurgeQueue_readOnly {scope : AccountScope} : ReadOnly (checkPurgeQueue cfg env input scope) :=
  Eff.readOnly_bind Eff.readOnly_get fun _ => Eff.readOnly_bind (Eff.readOnly_check _) fun _ =>
    Eff.readOnly_bind (Eff.readOnly_check _) fun _ => Eff.readOnly_bind (dateOf_readOnly _) fun _ =>
      Eff.readOnly_bind (Eff.readOnly_check _) fun _ => Eff.readOnly_bind (Eff.readOnly_check _) fun _ =>
        Eff.readOnly_pure _

theorem checkPurgeQueue_ok {scope : AccountScope} {a : AccountRecord} {date : Int}
    (h : (checkPurgeQueue cfg env input scope s).1 = .ok (a, date)) :
    s.accounts.get scope = some a ∧ a.state = .softDeleted ∧ (dateOf cfg env input "queuedAt" s).1 = .ok date ∧
      (∃ r, a.recoveryUntil = some r ∧ r ≤ date) ∧ a.holds.size = 0 := by
  obtain ⟨t, ht, h⟩ := Eff.readOnly_bind_eq_ok Eff.readOnly_get h
  cases ht
  obtain ⟨_, hpresent, h⟩ := Eff.check_bind_eq_ok h
  obtain ⟨_, hstate, h⟩ := Eff.check_bind_eq_ok h
  obtain ⟨_, hdate, h⟩ := Eff.readOnly_bind_eq_ok (dateOf_readOnly _) h
  obtain ⟨_, hwindow, h⟩ := Eff.check_bind_eq_ok h
  obtain ⟨_, hfree, h⟩ := Eff.check_bind_eq_ok h
  cases h
  refine ⟨requireAccount_eq_ok.mp hpresent, requireState_eq_ok.mp hstate, hdate, ?_,
    requireNoHold_eq_ok.mp hfree⟩
  simpa [Option.any_eq_true] using failIf_eq_ok.mp hwindow

theorem normalizeResourceResults_ok {a : AccountRecord} {value : JsValue} {results : List AccountResourceType}
    (h : normalizeResourceResults a value = .ok results) :
    ∀ t ∈ a.cleanupPlan, (value.get t.name).isString (js "purged") := by
  obtain ⟨_, _, h⟩ := bind_eq_ok.mp h
  split at h
  · cases h
  · rename_i hnone
    intro t ht
    simpa using List.find?_eq_none.mp hnone t ht

theorem checkPurgeCompletion_readOnly {scope : AccountScope} :
    ReadOnly (checkPurgeCompletion cfg env input scope) :=
  Eff.readOnly_bind Eff.readOnly_get fun _ => Eff.readOnly_bind (Eff.readOnly_check _) fun _ =>
    Eff.readOnly_bind (Eff.readOnly_check _) fun _ => Eff.readOnly_bind (Eff.readOnly_check _) fun _ =>
      Eff.readOnly_bind (Eff.readOnly_check _) fun _ => Eff.readOnly_bind (Eff.readOnly_check _) fun _ =>
        Eff.readOnly_bind (dateOf_readOnly _) fun _ => Eff.readOnly_pure _

theorem checkPurgeCompletion_ok {scope : AccountScope} {c : PurgeCompletion}
    (h : (checkPurgeCompletion cfg env input scope s).1 = .ok c) :
    s.accounts.get scope = some c.account ∧ c.account.state = .purgePending ∧
      (input.get "confirmation").isString (purgeConfirmationFor scope.userId) ∧ c.account.holds.size = 0 ∧
      ∀ t ∈ c.account.cleanupPlan,
        (((input.get "resourceResults").orElse (.object [])).get t.name).isString (js "purged") := by
  obtain ⟨t, ht, h⟩ := Eff.readOnly_bind_eq_ok Eff.readOnly_get h
  cases ht
  obtain ⟨_, hpresent, h⟩ := Eff.check_bind_eq_ok h
  obtain ⟨_, hstate, h⟩ := Eff.check_bind_eq_ok h
  obtain ⟨_, hconfirmed, h⟩ := Eff.check_bind_eq_ok h
  obtain ⟨_, hfree, h⟩ := Eff.check_bind_eq_ok h
  obtain ⟨_, hresults, h⟩ := Eff.check_bind_eq_ok h
  obtain ⟨_, _, h⟩ := Eff.readOnly_bind_eq_ok (dateOf_readOnly _) h
  cases h
  refine ⟨requireAccount_eq_ok.mp hpresent, requireState_eq_ok.mp hstate, ?_, requireNoHold_eq_ok.mp hfree,
    normalizeResourceResults_ok hresults⟩
  simpa using failIf_eq_ok.mp hconfirmed

/-! ## How a call ends -/

theorem identify_eq_ok {operation : Remembered} {key : OperationKey} (h : identify env input operation = .ok key) :
    key.operation = operation ∧ assertAccountScope input = .ok key.scope := by
  obtain ⟨scope, hscope, h⟩ := bind_eq_ok.mp h
  obtain ⟨id, _, h⟩ := bind_eq_ok.mp h
  cases h
  exact ⟨rfl, hscope⟩

theorem late_of_no_first {operation : Remembered}
    (h : ∀ key, identify env input operation = .ok key → s.operationResults.get key = none → False) :
    LateChecksPass cfg env input s operation.method := by
  cases operation with
  | request | restore | queue | complete => exact fun key hkey hfresh => (h key hkey hfresh).elim

/-- A remembered operation: it is replayed, or it runs for the first time. -/
theorem remembered_outcome (operation : Remembered) {body : OperationKey → LifecycleOp AccountOperation}
    (first : ∀ key, identify env input operation = .ok key → s.operationResults.get key = none →
      wp (body key) s (Outcome cfg env input s operation.method)) :
    wp (do
      let key ← check (identify env input operation)
      unlessReplayed key (body key) : LifecycleOp AccountOperation) s
      (Outcome cfg env input s operation.method) := by
  rw [Eff.wp_check_bind]
  constructor
  · intro e he
    refine .refused _ (late_of_no_first ?_)
    intro key hkey
    rw [he] at hkey
    cases hkey
  · intro key hkey
    obtain ⟨rfl, _⟩ := identify_eq_ok hkey
    rw [unlessReplayed, Eff.wp_get_bind]
    cases hstored : s.operationResults.get key with
    | some output =>
      refine .replayed key output rfl hkey hstored (late_of_no_first ?_)
      intro key' hkey' hfresh
      cases hkey.symm.trans hkey'
      rw [hstored] at hfresh
      cases hfresh
    | none => exact first key hkey hstored

theorem wp_assign_bind {scope : AccountScope} {a : AccountRecord} {f : Unit → LifecycleOp AccountOperation}
    {Q : Except (Thrown AccountError) AccountOperation → AccountLifecycleStore → Prop} :
    wp (assign scope a >>= f) s Q ↔ wp (f ()) (s.assigned scope a) Q := Iff.rfl

theorem registerAccount_outcome :
    wp (registerAccount cfg env input) s (Outcome cfg env input s .registerAccount) := by
  refine Eff.wp_readOnly_bind checkRegistration_readOnly ?_ ?_
  · intro e he
    refine .refused _ ?_
    intro a ha
    rw [he] at ha
    cases ha
  · intro a ha
    obtain ⟨absent, state, recoveryUntil, holds, request⟩ := checkRegistration_ok ha
    have change : Change cfg env input s .registerAccount a.toAccountScope a :=
      .registered a absent state recoveryUntil holds request
    rw [wp_assign_bind, Eff.wp_check_bind]
    constructor
    · intro e he
      refine .interrupted _ _ _ change ?_
      intro late
      exact not_isOk_of_eq he (late a ha).1
    · intro actor hactor
      rw [Eff.wp_lift_bind]
      constructor
      · intro e he
        refine .interrupted _ _ _ change ?_
        intro late
        exact not_isOk_of_eq he (late a ha).2
      · intro time htime
        refine .recorded _ a _ _ change rfl rfl rfl ?_
        intro b hb
        cases ha.symm.trans hb
        exact ⟨isOk_of_eq hactor, isOk_of_eq htime⟩

theorem recoveryEnd_eq_ok {date r : Int} {days : Nat} (h : recoveryEnd date days = .ok r) :
    r = date + days * msPerDay := by
  unfold recoveryEnd timeClip at h
  split at h
  · rename_i time htime
    split at htime
    · cases h
      exact (Option.some.inj htime).symm
    · cases htime
  · cases h

theorem requestDeletion_outcome :
    wp (requestDeletion cfg env input) s (Outcome cfg env input s .requestDeletion) := by
  refine remembered_outcome .request fun key hkey hfresh => ?_
  refine Eff.wp_readOnly_bind checkDeletionRequest_readOnly ?_ ?_
  · intro e he
    refine .refused _ ?_
    intro key' hkey' _ q hq
    cases hkey.symm.trans hkey'
    rw [he] at hq
    cases hq
  · intro q hq
    obtain ⟨confirmed, period, dated, present, state, free⟩ := checkDeletionRequest_ok hq
    have change (a : AccountRecord) (scope : a.toAccountScope = q.account.toAccountScope)
        (state' : a.state = .deletionRequested) (holds : a.holds = q.account.holds)
        (recoveryUntil : a.recoveryUntil = q.account.recoveryUntil ∨
          a.recoveryUntil = some (q.date + q.days * msPerDay))
        (request : a.deletionRequestId = q.account.deletionRequestId ∨ a.deletionRequestId = some key.id) :
        Change cfg env input s .requestDeletion key.scope a :=
      .requested key q.account a q.date q.days hkey hfresh confirmed dated period present state free scope state'
        holds recoveryUntil request
    refine wp_assign_bind.mpr (Eff.wp_lift_bind.mpr ⟨?_, ?_⟩)
    · intro e he
      refine .interrupted key.scope _ _ (change _ rfl rfl rfl (.inl rfl) (.inl rfl)) ?_
      intro late
      exact not_isOk_of_eq he (late key hkey hfresh q hq).1
    · intro r hr
      have recovery := recoveryEnd_eq_ok hr
      refine wp_assign_bind.mpr (Eff.wp_check_bind.mpr ⟨?_, ?_⟩)
      · intro e he
        rw [AccountLifecycleStore.assigned_assigned]
        refine .interrupted key.scope _ _
          (change _ rfl rfl rfl (.inr (congrArg some recovery)) (.inl rfl)) ?_
        intro late
        exact not_isOk_of_eq he (late key hkey hfresh q hq).2
      · intro plan hplan
        refine wp_assign_bind.mpr ?_
        rw [AccountLifecycleStore.assigned_assigned, AccountLifecycleStore.assigned_assigned]
        obtain ⟨operation, _⟩ := identify_eq_ok hkey
        refine .remembered key _ _ _ (by rw [operation]) (by rw [operation]; exact hkey) hfresh
          (change _ rfl rfl rfl (.inr (congrArg some recovery)) (.inr rfl)) rfl rfl rfl ?_
        intro key' hkey' _ q' hq'
        cases hkey.symm.trans hkey'
        cases hq.symm.trans hq'
        exact ⟨isOk_of_eq hr, isOk_of_eq hplan⟩

theorem softDeleteAccount_outcome :
    wp (softDeleteAccount cfg env input) s (Outcome cfg env input s .softDeleteAccount) := by
  refine Eff.wp_readOnly_bind checkSoftDeletion_readOnly ?_ ?_
  · intro e he
    refine .refused _ ?_
    intro scope a date ha
    rw [he] at ha
    cases ha
  · rintro ⟨scope, a, date⟩ ha
    obtain ⟨identified, present, state, confirmed, request⟩ := checkSoftDeletion_ok ha
    have change : Change cfg env input s .softDeleteAccount scope _ :=
      .softDeleted scope a date identified present state confirmed request
    refine wp_assign_bind.mpr (Eff.wp_check_bind.mpr ⟨?_, ?_⟩)
    · intro e he
      refine .interrupted _ _ _ change ?_
      intro late
      exact not_isOk_of_eq he (late scope a date ha)
    · intro actor hactor
      refine .recorded _ _ _ _ change rfl rfl rfl ?_
      intro scope' a' date' ha'
      cases ha.symm.trans ha'
      exact isOk_of_eq hactor

theorem restoreAccount_outcome :
    wp (restoreAccount cfg env input) s (Outcome cfg env input s .restoreAccount) := by
  refine remembered_outcome .restore fun key hkey hfresh => ?_
  refine Eff.wp_readOnly_bind checkRestoration_readOnly ?_ ?_
  · intro e he
    refine .refused _ ?_
    intro key' hkey' _ x hx
    cases hkey.symm.trans hkey'
    rw [he] at hx
    cases hx
  · rintro ⟨a, date⟩ hx
    obtain ⟨present, state, dated, inTime⟩ := checkRestoration_ok hx
    have change := Change.restored key a date hkey hfresh present state dated inTime
    refine wp_assign_bind.mpr (Eff.wp_check_bind.mpr ⟨?_, ?_⟩)
    · intro e he
      refine .interrupted _ _ _ change ?_
      intro late
      exact not_isOk_of_eq he (late key hkey hfresh _ hx).1
    · intro actor hactor
      refine Eff.wp_check_bind.mpr ⟨?_, ?_⟩
      · intro e he
        refine .interrupted _ _ _ change ?_
        intro late
        exact not_isOk_of_eq he (late key hkey hfresh _ hx).2
      · intro reason hreason
        obtain ⟨operation, _⟩ := identify_eq_ok hkey
        refine .remembered key _ _ _ (by rw [operation]) (by rw [operation]; exact hkey) hfresh change rfl
          rfl rfl ?_
        intro key' hkey' _ x hx'
        cases hkey.symm.trans hkey'
        exact ⟨isOk_of_eq hactor, isOk_of_eq hreason⟩

theorem addAccountHold_outcome :
    wp (addAccountHold cfg env input) s (Outcome cfg env input s .addAccountHold) := by
  refine Eff.wp_readOnly_bind checkHold_readOnly ?_ ?_
  · intro e he
    refine .refused _ ?_
    intro q hq
    rw [he] at hq
    cases hq
  · intro q hq
    obtain ⟨identified, present⟩ := checkHold_ok hq
    cases hheld : q.account.holds.get q.holdId with
    | some hold =>
      simp only [Option.isSome_some, ↓reduceIte]
      refine .idempotent _ (.inl rfl) ?_
      intro q' hq' fresh
      cases hq.symm.trans hq'
      rw [hheld] at fresh
      cases fresh
    | none =>
      simp only [Option.isSome_none, Bool.false_eq_true, ↓reduceIte]
      refine Eff.wp_readOnly_bind (dateOf_readOnly _) ?_ ?_
      · intro e he
        refine .refused _ ?_
        intro q' _ _ dated
        exact absurd dated (not_isOk_of_eq he)
      · intro addedAt haddedAt
        have change : Change cfg env input s .addAccountHold q.scope _ :=
          .held q.scope q.account q.holdId ⟨q.holdId, q.reason, addedAt⟩ identified present hheld
        refine wp_assign_bind.mpr (Eff.wp_check_bind.mpr ⟨?_, ?_⟩)
        · intro e he
          refine .interrupted _ _ _ change ?_
          intro late
          exact not_isOk_of_eq he (late q hq hheld (isOk_of_eq haddedAt)).1
        · intro actor hactor
          refine Eff.wp_lift_bind.mpr ⟨?_, ?_⟩
          · intro e he
            refine .interrupted _ _ _ change ?_
            intro late
            exact not_isOk_of_eq he (late q hq hheld (isOk_of_eq haddedAt)).2
          · intro time htime
            refine .recorded _ _ _ _ change rfl rfl rfl ?_
            intro q' _ _ _
            exact ⟨isOk_of_eq hactor, isOk_of_eq htime⟩

theorem releaseAccountHold_outcome :
    wp (releaseAccountHold cfg env input) s (Outcome cfg env input s .releaseAccountHold) := by
  refine Eff.wp_readOnly_bind checkHoldRelease_readOnly ?_ ?_
  · intro e he
    refine .refused _ ?_
    intro scope holdId a ha
    rw [he] at ha
    cases ha
  · rintro ⟨scope, holdId, a⟩ ha
    obtain ⟨identified, present⟩ := checkHoldRelease_ok ha
    cases hheld : a.holds.get holdId with
    | none =>
      simp only [hheld, Option.isNone_none, ↓reduceIte]
      refine .idempotent _ (.inr rfl) ?_
      intro scope' holdId' a' ha' held
      cases ha.symm.trans ha'
      rw [hheld] at held
      cases held
    | some hold =>
      simp only [hheld, Option.isNone_some, Bool.false_eq_true, ↓reduceIte]
      have change : Change cfg env input s .releaseAccountHold scope _ :=
        .released scope a holdId identified present (by rw [hheld]; rfl)
      refine wp_assign_bind.mpr (Eff.wp_check_bind.mpr ⟨?_, ?_⟩)
      · intro e he
        refine .interrupted _ _ _ change ?_
        intro late
        exact not_isOk_of_eq he (late scope holdId a ha (by rw [hheld]; rfl)).1
      · intro actor hactor
        refine Eff.wp_lift_bind.mpr ⟨?_, ?_⟩
        · intro e he
          refine .interrupted _ _ _ change ?_
          intro late
          exact not_isOk_of_eq he (late scope holdId a ha (by rw [hheld]; rfl)).2
        · intro time htime
          refine .recorded _ _ _ _ change rfl rfl rfl ?_
          intro scope' holdId' a' _ _
          exact ⟨isOk_of_eq hactor, isOk_of_eq htime⟩

theorem queuePurge_outcome :
    wp (queuePurge cfg env input) s (Outcome cfg env input s .queuePurge) := by
  refine remembered_outcome .queue fun key hkey hfresh => ?_
  refine Eff.wp_readOnly_bind checkPurgeQueue_readOnly ?_ ?_
  · intro e he
    refine .refused _ ?_
    intro key' hkey' _ x hx
    cases hkey.symm.trans hkey'
    rw [he] at hx
    cases hx
  · rintro ⟨a, date⟩ hx
    obtain ⟨present, state, dated, ⟨r, recoveryUntil, elapsed⟩, free⟩ := checkPurgeQueue_ok hx
    have change := Change.queued key a date r hkey hfresh present state dated recoveryUntil elapsed free
    refine wp_assign_bind.mpr (Eff.wp_check_bind.mpr ⟨?_, ?_⟩)
    · intro e he
      refine .interrupted _ _ _ change ?_
      intro late
      exact not_isOk_of_eq he (late key hkey hfresh _ hx)
    · intro actor hactor
      obtain ⟨operation, _⟩ := identify_eq_ok hkey
      refine .remembered key _ _ _ (by rw [operation]) (by rw [operation]; exact hkey) hfresh change rfl
        rfl rfl ?_
      intro key' hkey' _ x hx'
      exact isOk_of_eq hactor

theorem completePurge_outcome :
    wp (completePurge cfg env input) s (Outcome cfg env input s .completePurge) := by
  refine remembered_outcome .complete fun key hkey hfresh => ?_
  refine Eff.wp_readOnly_bind checkPurgeCompletion_readOnly ?_ ?_
  · intro e he
    refine .refused _ ?_
    intro key' hkey' _ x hx
    cases hkey.symm.trans hkey'
    rw [he] at hx
    cases hx
  · intro c hc
    obtain ⟨present, state, confirmed, free, complete⟩ := checkPurgeCompletion_ok hc
    have change : Change cfg env input s .completePurge key.scope _ :=
      .purged key c.account c.date hkey hfresh present state confirmed free complete
    refine wp_assign_bind.mpr (Eff.wp_check_bind.mpr ⟨?_, ?_⟩)
    · intro e he
      refine .interrupted _ _ _ change ?_
      intro late
      exact not_isOk_of_eq he (late key hkey hfresh _ hc)
    · intro actor hactor
      obtain ⟨operation, _⟩ := identify_eq_ok hkey
      refine .remembered key _ _ _ (by rw [operation]) (by rw [operation]; exact hkey) hfresh change rfl
        rfl rfl ?_
      intro key' hkey' _ x hx'
      exact isOk_of_eq hactor

end

theorem run_outcome (cfg : LifecycleConfig) (env : Ambient) (input : JsValue) (s : AccountLifecycleStore)
    (method : AccountMethod) :
    Outcome cfg env input s method (method.run cfg env input s).1 (method.run cfg env input s).2 := by
  cases method with
  | registerAccount => exact registerAccount_outcome
  | requestDeletion => exact requestDeletion_outcome
  | softDeleteAccount => exact softDeleteAccount_outcome
  | restoreAccount => exact restoreAccount_outcome
  | addAccountHold => exact addAccountHold_outcome
  | releaseAccountHold => exact releaseAccountHold_outcome
  | queuePurge => exact queuePurge_outcome
  | completePurge => exact completePurge_outcome

/-! ## Runs -/

def AccountLifecycleStore.empty : AccountLifecycleStore := ⟨Table.empty, Table.empty, []⟩

/-- A call in the state it was made in. -/
structure Made where
  call : AccountCall
  before : AccountLifecycleStore

section
variable (cfg : LifecycleConfig)

def Made.answer (made : Made) : Except (Thrown AccountError) AccountOperation :=
  (made.call.run cfg made.before).1

def Made.after (made : Made) : AccountLifecycleStore := (made.call.run cfg made.before).2

/-- Calls from the creation of a store on, the last one first. -/
inductive Run : List Made → AccountLifecycleStore → Prop where
  | created : Run [] .empty
  | called {calls : List Made} {s : AccountLifecycleStore} (run : Run calls s) (call : AccountCall) :
      Run (⟨call, s⟩ :: calls) (Made.after cfg ⟨call, s⟩)

end

/-- Every account is stored under its own scope. -/
def Keyed (s : AccountLifecycleStore) : Prop :=
  ∀ scope a, s.accounts.get scope = some a → a.toAccountScope = scope

section
variable {cfg : LifecycleConfig} {env : Ambient} {input : JsValue} {s : AccountLifecycleStore}

theorem change_scope {method : AccountMethod} {scope : AccountScope} {a : AccountRecord}
    (change : Change cfg env input s method scope a) (keyed : Keyed s) : a.toAccountScope = scope := by
  cases change with
  | registered => rfl
  | requested key a _ date days identified fresh confirmed dated period present state free scope =>
    exact scope.trans (keyed _ a present)
  | softDeleted _ a date identified present => exact keyed _ a present
  | restored key a date identified fresh present => exact keyed _ a present
  | held _ a holdId hold identified present => exact keyed _ a present
  | released _ a holdId identified present => exact keyed _ a present
  | queued key a date r identified fresh present => exact keyed _ a present
  | purged key a date identified fresh present => exact keyed _ a present

/-- The accounts after a call: as before, but for what it changed. -/
theorem outcome_accounts {method : AccountMethod} {r : Except (Thrown AccountError) AccountOperation}
    {s' : AccountLifecycleStore} (outcome : Outcome cfg env input s method r s') :
    s' = s ∨ ∃ scope a, Change cfg env input s method scope a ∧
      ∀ k, s'.accounts.get k = if k = scope then some a else s.accounts.get k := by
  cases outcome with
  | refused | replayed | idempotent => exact .inl rfl
  | interrupted scope a e change => exact .inr ⟨scope, a, change, fun k => by simp⟩
  | recorded scope a entry output change => exact .inr ⟨scope, a, change, fun k => by simp⟩
  | remembered key a entry output replays identified fresh change =>
    exact .inr ⟨key.scope, a, change, fun k => by simp⟩

theorem run_keyed {calls : List Made} (run : Run cfg calls s) : Keyed s := by
  induction run with
  | created =>
    intro scope a ha
    cases ha
  | called run call ih =>
    intro scope a ha
    rcases outcome_accounts (run_outcome cfg call.env call.input _ call.method) with same | ⟨k, b, change, get⟩
    · exact ih scope a ((congrArg (·.accounts.get scope) same).symm.trans ha)
    · have ha := (get scope).symm.trans ha
      split at ha
      · rename_i hk
        cases ha
        exact (change_scope change ih).trans hk.symm
      · exact ih scope a ha

end

/-! ### Samples -/

def sampleConfig : LifecycleConfig := ⟨asciiHost, 28⟩

def sampleScope : AccountScope := ⟨js "acme", js "alice"⟩

/-- An input for account `alice`, at a time given in days. -/
def sampleCall (day : Int) (method : AccountMethod) (fields : List (String × JsValue)) : AccountCall where
  env := ⟨fun _ => some (.date (some (day * msPerDay))), js "random"⟩
  method := method
  argument :=
    let scope : List (String × JsValue) :=
      [("tenantId", .string (js "acme")), ("userId", .string (js "alice"))]
    .object ((scope ++ fields).map fun f => (js f.1, f.2))

def registerAlice : AccountCall := sampleCall 0 .registerAccount []

def requestAlice (day : Int) (requestId : String) : AccountCall :=
  sampleCall day .requestDeletion
    [("confirmation", .string (js "DELETE:alice")), ("requestId", .string (js requestId))]

def softDeleteAlice (fields : List (String × JsValue)) : AccountCall :=
  sampleCall 0 .softDeleteAccount ([("confirmation", .string (js "DELETE:alice"))] ++ fields)

/-- The store after calls, the first one first, with the calls as they were made. -/
def sampleRun (calls : List AccountCall) : List Made × AccountLifecycleStore :=
  calls.foldl (fun (made, s) call => (⟨call, s⟩ :: made, Made.after sampleConfig ⟨call, s⟩)) ([], .empty)

theorem sampleRun_run (calls : List AccountCall) :
    Run sampleConfig (sampleRun calls).1 (sampleRun calls).2 := by
  have from' (calls : List AccountCall) (made : List Made) (s : AccountLifecycleStore)
      (run : Run sampleConfig made s) :
      Run sampleConfig
        (calls.foldl (fun (made, s) call => (⟨call, s⟩ :: made, Made.after sampleConfig ⟨call, s⟩)) (made, s)).1
        (calls.foldl (fun (made, s) call => (⟨call, s⟩ :: made, Made.after sampleConfig ⟨call, s⟩)) (made, s)).2 := by
    induction calls generalizing made s with
    | nil => exact run
    | cons call calls ih => exact ih _ _ (.called run call)
  exact from' calls [] .empty .created

end GuloGulo.Lifecycle
