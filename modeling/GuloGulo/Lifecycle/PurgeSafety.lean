import GuloGulo.Lifecycle.AccountSteps

/-!
# What comes before a purge

The state of an account is read as a statement about the calls so far: what
must have happened since the account was last active. Calls that throw after
an assignment count for what they assigned.
-/

namespace GuloGulo.Lifecycle
open Js Data

def stateOf (s : AccountLifecycleStore) (scope : AccountScope) : Option AccountState :=
  (s.accounts.get scope).map (·.state)

section
variable (cfg : LifecycleConfig) (scope : AccountScope)

/-- The call brought the account back to `active`. -/
def Restores (made : Made) : Prop :=
  stateOf (made.after cfg) scope = some .active ∧ stateOf made.before scope ≠ some .active

/-- After the calls of `earlier` came the one with `event`, and none since was
a restore. Calls are listed from the last one back. -/
def Since (event : Made → Prop) (earlier : List Made → Prop) (calls : List Made) : Prop :=
  ∃ later made before, calls = later ++ made :: before ∧ event made ∧ earlier before ∧
    ∀ m ∈ later, ¬ Restores cfg scope m

/-- A confirmed deletion request for an active account without holds; the
recovery window it opens ends at `recoveryUntil`. -/
structure Requests (recoveryUntil : Int) (made : Made) : Prop where
  method : made.call.method = .requestDeletion
  identified : ∃ key, identify made.call.env made.call.input .request = .ok key ∧ key.scope = scope
  confirmed : (made.call.input.get "confirmation").isString (confirmationFor scope.userId)
  window : ∃ date days, (dateOf cfg made.call.env made.call.input "requestedAt" made.before).1 = .ok date ∧
    assertRecoveryDays ((made.call.input.get "recoveryDays").orElse (.number cfg.defaultRecoveryDays)) = .ok days ∧
    recoveryUntil = date + days * msPerDay
  account : ∃ a, made.before.accounts.get scope = some a ∧ a.state = .active ∧ a.holds.size = 0

/-- A confirmed soft deletion of an account whose deletion was requested. -/
structure SoftDeletes (made : Made) : Prop where
  method : made.call.method = .softDeleteAccount
  identified : assertAccountScope made.call.input = .ok scope
  confirmed : (made.call.input.get "confirmation").isString (confirmationFor scope.userId)
  state : stateOf made.before scope = some .deletionRequested

/-- The queueing of a purge, not before the end of the recovery window and
without an active hold. -/
structure Queues (recoveryUntil : Int) (made : Made) : Prop where
  method : made.call.method = .queuePurge
  identified : ∃ key, identify made.call.env made.call.input .queue = .ok key ∧ key.scope = scope
  elapsed : ∃ date, (dateOf cfg made.call.env made.call.input "queuedAt" made.before).1 = .ok date ∧
    recoveryUntil ≤ date
  account : ∃ a, made.before.accounts.get scope = some a ∧ a.state = .softDeleted ∧ a.holds.size = 0

/-- The confirmed completion of a purge, without an active hold and with every
resource of the plan reported as purged. -/
structure Completes (made : Made) : Prop where
  method : made.call.method = .completePurge
  identified : ∃ key, identify made.call.env made.call.input .complete = .ok key ∧ key.scope = scope
  confirmed : (made.call.input.get "confirmation").isString (purgeConfirmationFor scope.userId)
  account : ∃ a, made.before.accounts.get scope = some a ∧ a.state = .purgePending ∧ a.holds.size = 0 ∧
    ∀ t ∈ a.cleanupPlan,
      (((made.call.input.get "resourceResults").orElse (.object [])).get t.name).isString (js "purged")

def Requested (recoveryUntil : Int) : List Made → Prop :=
  Since cfg scope (Requests cfg scope recoveryUntil) fun _ => True

def SoftDeleted (recoveryUntil : Int) : List Made → Prop :=
  Since cfg scope (SoftDeletes scope) (Requested cfg scope recoveryUntil)

def Queued (recoveryUntil : Int) : List Made → Prop :=
  Since cfg scope (Queues cfg scope recoveryUntil) (SoftDeleted cfg scope recoveryUntil)

def Purged (recoveryUntil : Int) : List Made → Prop :=
  Since cfg scope (Completes scope) (Queued cfg scope recoveryUntil)

/-- What the state of an account says about the calls so far. A request that
threw half-way leaves no end of the recovery window. -/
def Warranted (calls : List Made) (a : AccountRecord) : Prop :=
  match a.state with
  | .active => a.recoveryUntil = none
  | .deletionRequested => ∃ r, Requested cfg scope r calls ∧ (a.recoveryUntil = none ∨ a.recoveryUntil = some r)
  | .softDeleted => ∃ r, SoftDeleted cfg scope r calls ∧ (a.recoveryUntil = none ∨ a.recoveryUntil = some r)
  | .purgePending => ∃ r, Queued cfg scope r calls
  | .purged => ∃ r, Purged cfg scope r calls

end

section
variable {cfg : LifecycleConfig} {scope : AccountScope} {calls : List Made} {made : Made}

theorem since_now {event : Made → Prop} {earlier : List Made → Prop} (happens : event made)
    (before : earlier calls) : Since cfg scope event earlier (made :: calls) :=
  ⟨[], made, calls, rfl, happens, before, by simp⟩

theorem since_later {event : Made → Prop} {earlier : List Made → Prop} (h : Since cfg scope event earlier calls)
    (kept : ¬ Restores cfg scope made) : Since cfg scope event earlier (made :: calls) := by
  obtain ⟨later, m, before, rfl, happens, hbefore, none⟩ := h
  refine ⟨made :: later, m, before, rfl, happens, hbefore, ?_⟩
  intro x hx
  rcases List.mem_cons.mp hx with rfl | hx
  · exact kept
  · exact none x hx

attribute [local simp] Warranted in
/-- A call that leaves state and recovery window of an account as they are. -/
theorem warranted_later {a b : AccountRecord} (h : Warranted cfg scope calls a)
    (kept : a.state ≠ .active → ¬ Restores cfg scope made)
    (state : b.state = a.state) (recoveryUntil : b.recoveryUntil = a.recoveryUntil) :
    Warranted cfg scope (made :: calls) b := by
  unfold Warranted at h ⊢
  rw [state, recoveryUntil]
  cases hstate : a.state with
  | active =>
    rw [hstate] at h
    exact h
  | deletionRequested | softDeleted =>
    rw [hstate] at h kept
    obtain ⟨r, since, window⟩ := h
    exact ⟨r, since_later since (kept (by decide)), window⟩
  | purgePending | purged =>
    rw [hstate] at h kept
    obtain ⟨r, since⟩ := h
    exact ⟨r, since_later since (kept (by decide))⟩

theorem not_restores {a b : AccountRecord} (before : made.before.accounts.get scope = some a)
    (after : (made.after cfg).accounts.get scope = some b) (state : b.state = a.state) :
    ¬ Restores cfg scope made := by
  rintro ⟨active, notActive⟩
  apply notActive
  rw [stateOf, after, Option.map_some, state] at active
  rw [stateOf, before, Option.map_some, active]

/-- The account a call has changed. -/
theorem change_warranted {s : AccountLifecycleStore} {call : AccountCall} {a : AccountRecord}
    (warranted : ∀ b, s.accounts.get scope = some b → Warranted cfg scope calls b)
    (after : (Made.after cfg ⟨call, s⟩).accounts.get scope = some a)
    (change : Change cfg call.env call.input s call.method scope a) :
    Warranted cfg scope (⟨call, s⟩ :: calls) a := by
  generalize hmethod : call.method = method at change
  cases change with
  | registered _ absent state recoveryUntil =>
    rw [Warranted, state]
    exact recoveryUntil
  | requested key b _ date days identified fresh confirmed dated period present state free _ state' _ window =>
    have hb := warranted b present
    rw [Warranted, state] at hb
    rw [Warranted, state']
    refine ⟨date + days * msPerDay, ?_, ?_⟩
    · refine since_now ?_ trivial
      exact ⟨hmethod, ⟨key, identified, rfl⟩, confirmed, ⟨date, days, dated, period, rfl⟩,
        b, present, state, free⟩
    · rw [hb] at window
      exact window
  | softDeleted _ b date identified present state confirmed =>
    have hb := warranted b present
    rw [Warranted, state] at hb
    obtain ⟨r, requested, window⟩ := hb
    have deletes : SoftDeletes scope ⟨call, s⟩ :=
      ⟨hmethod, identified, confirmed, by rw [stateOf, present, Option.map_some, state]⟩
    exact ⟨r, since_now deletes requested, window⟩
  | restored key b date identified fresh present state => rfl
  | held _ b holdId hold identified present fresh =>
    exact warranted_later (warranted b present) (fun _ => not_restores present after rfl) rfl rfl
  | released _ b holdId identified present held =>
    exact warranted_later (warranted b present) (fun _ => not_restores present after rfl) rfl rfl
  | queued key b date r identified fresh present state dated recoveryUntil elapsed free =>
    have hb := warranted b present
    rw [Warranted, state] at hb
    obtain ⟨r', softDeleted, window⟩ := hb
    obtain rfl : r = r' := by
      rw [recoveryUntil] at window
      simpa using window
    refine ⟨r, since_now ?_ softDeleted⟩
    exact ⟨hmethod, ⟨key, identified, rfl⟩, ⟨date, dated, elapsed⟩, b, present, state, free⟩
  | purged key b date identified fresh present state confirmed free complete =>
    have hb := warranted b present
    rw [Warranted, state] at hb
    obtain ⟨r, queued⟩ := hb
    refine ⟨r, since_now ?_ queued⟩
    exact ⟨hmethod, ⟨key, identified, rfl⟩, confirmed, b, present, state, free, complete⟩

theorem run_warranted {s : AccountLifecycleStore} (run : Run cfg calls s) :
    ∀ scope a, s.accounts.get scope = some a → Warranted cfg scope calls a := by
  induction run with
  | created =>
    intro scope a ha
    cases ha
  | @called calls s run call ih =>
    intro scope a ha
    have kept (same : (Made.after cfg ⟨call, s⟩).accounts.get scope = s.accounts.get scope) :
        Warranted cfg scope (⟨call, s⟩ :: calls) a := by
      have before : s.accounts.get scope = some a := same.symm.trans ha
      exact warranted_later (ih scope a before) (fun _ => not_restores before ha rfl) rfl rfl
    rcases outcome_accounts (run_outcome cfg call.env call.input s call.method) with same | ⟨k, b, change, get⟩
    · exact kept (congrArg (·.accounts.get scope) same)
    · by_cases hk : scope = k
      · subst hk
        obtain rfl : b = a := by
          have hb := (get scope).symm.trans ha
          rw [if_pos rfl] at hb
          exact Option.some.inj hb
        exact change_warranted (fun c hc => ih scope c hc) ha change
      · apply kept
        exact (get scope).trans (if_neg hk)

/-- No call takes an account out of `purged`. -/
theorem purged_stays {s : AccountLifecycleStore} (call : AccountCall)
    (h : stateOf s scope = some .purged) : stateOf (call.run cfg s).2 scope = some .purged := by
  rcases outcome_accounts (run_outcome cfg call.env call.input s call.method) with same | ⟨k, a, change, get⟩
  · exact (congrArg (stateOf · scope) same).trans h
  · have after : (call.run cfg s).2.accounts.get scope = if scope = k then some a else s.accounts.get scope :=
      get scope
    by_cases hk : scope = k
    · subst hk
      rw [stateOf, after, if_pos rfl, Option.map_some]
      have was {b : AccountRecord} (present : s.accounts.get scope = some b) : b.state = .purged := by
        rw [stateOf, present] at h
        simpa using h
      generalize call.method = method at change
      cases change with
      | registered _ absent =>
        rw [stateOf, absent] at h
        cases h
      | requested key b _ date days identified fresh confirmed dated period present state =>
        rw [was present] at state
        cases state
      | softDeleted _ b date identified present state =>
        rw [was present] at state
        cases state
      | restored key b date identified fresh present state =>
        rw [recoverable, was present] at state
        cases state
      | held _ b holdId hold identified present | released _ b holdId identified present =>
        have state := was present
        exact congrArg some state
      | queued key b date r identified fresh present state =>
        rw [was present] at state
        cases state
      | purged => rfl
    · rw [stateOf, after, if_neg hk]
      exact h

/-- A restore that is no replay comes within the recovery window. -/
theorem restore_inTime {s : AccountLifecycleStore} {call : AccountCall} {key : OperationKey}
    {output : AccountOperation} (method : call.method = .restoreAccount)
    (identified : identify call.env call.input .restore = .ok key)
    (fresh : s.operationResults.get key = none) (succeeds : (call.run cfg s).1 = .ok output) :
    ∃ a date, s.accounts.get key.scope = some a ∧
      (dateOf cfg call.env call.input "restoredAt" s).1 = .ok date ∧ ∀ r, a.recoveryUntil = some r → date ≤ r := by
  have change : ∃ scope a, Change cfg call.env call.input s .restoreAccount scope a := by
    have outcome := run_outcome cfg call.env call.input s call.method
    rw [show (call.method.run cfg call.env call.input s).1 = .ok output from succeeds, method] at outcome
    generalize (AccountMethod.run cfg call.env call.input .restoreAccount s).2 = s' at outcome
    cases outcome with
    | replayed k _ replays identified' stored =>
      have operation : k.operation = .restore := by
        cases hk : k.operation <;> rw [hk] at replays <;> first | rfl | cases replays
      rw [operation] at identified'
      cases identified.symm.trans identified'
      rw [fresh] at stored
      cases stored
    | idempotent _ hold => simp at hold
    | recorded k a entry _ change => exact ⟨k, a, change⟩
    | remembered k a entry _ replays identified' _ change => exact ⟨k.scope, a, change⟩
  obtain ⟨scope, a, change⟩ := change
  cases change with
  | restored k b date identified' _ present state dated inTime =>
    cases identified.symm.trans identified'
    exact ⟨b, date, present, dated, inTime⟩

/-- A purged account got there by the steps of the lifecycle, in order, with no
restore between them; it stays purged; and the recovery window is kept by every
restore that is not the replay of an earlier one. -/
theorem purge_safety {s : AccountLifecycleStore} (run : Run cfg calls s) :
    (∀ scope, stateOf s scope = some .purged → ∃ r, Purged cfg scope r calls) ∧
    (∀ (call : AccountCall) scope, stateOf s scope = some .purged → stateOf (call.run cfg s).2 scope = some .purged) ∧
    ∀ (call : AccountCall) (key : OperationKey) (output : AccountOperation),
      call.method = .restoreAccount → identify call.env call.input .restore = .ok key →
      s.operationResults.get key = none → (call.run cfg s).1 = .ok output →
      ∃ a date, s.accounts.get key.scope = some a ∧
        (dateOf cfg call.env call.input "restoredAt" s).1 = .ok date ∧
        ∀ r, a.recoveryUntil = some r → date ≤ r := by
  refine ⟨?_, fun call scope => purged_stays call, fun call key output => restore_inTime⟩
  intro scope purged
  obtain ⟨a, ha, state⟩ := Option.map_eq_some_iff.mp purged
  have warranted := run_warranted run scope a ha
  rw [Warranted, state] at warranted
  exact warranted

end

def restoreAlice (day : Int) : AccountCall :=
  sampleCall day .restoreAccount [("operationId", .string (js "op1"))]

/-- The replay of a restore succeeds after the window of a later request. -/
theorem restoreAccount_replays_late :
    let calls := [registerAlice, requestAlice 0 "r1", restoreAlice 1, requestAlice 2 "r2"]
    Run sampleConfig (sampleRun calls).1 (sampleRun calls).2 ∧
      ∃ output a date r, ((restoreAlice 100).run sampleConfig (sampleRun calls).2).1 = .ok output ∧
        (dateOf sampleConfig (restoreAlice 100).env (restoreAlice 100).input "restoredAt"
          (sampleRun calls).2).1 = .ok date ∧
        (sampleRun calls).2.accounts.get sampleScope = some a ∧ a.recoveryUntil = some r ∧ r < date := by
  intro calls
  refine ⟨sampleRun_run calls, ?_⟩
  have facts : (((restoreAlice 100).run sampleConfig (sampleRun calls).2).1.isOk,
      ((sampleRun calls).2.accounts.get sampleScope).bind (·.recoveryUntil),
      (dateOf sampleConfig (restoreAlice 100).env (restoreAlice 100).input "restoredAt"
        (sampleRun calls).2).1) = (true, some (30 * msPerDay), .ok (100 * msPerDay)) := by
    decide +kernel
  obtain ⟨succeeds, facts⟩ := Prod.mk.inj facts
  obtain ⟨window, dated⟩ := Prod.mk.inj facts
  obtain ⟨a, ha, window⟩ := Option.bind_eq_some_iff.mp window
  cases hr : ((restoreAlice 100).run sampleConfig (sampleRun calls).2).1 with
  | error e =>
    rw [hr] at succeeds
    cases succeeds
  | ok output => exact ⟨output, a, _, _, rfl, dated, ha, window, by decide⟩

/-- An account that went through the lifecycle. -/
theorem purge_safety_alice :
    let calls := [registerAlice, requestAlice 0 "r1", softDeleteAlice [], sampleCall 28 .queuePurge [],
      sampleCall 28 .completePurge [("confirmation", .string (js "PURGE:alice")),
        ("resourceResults", .object (accountResourceTypes.map fun t => (js t.name, .string (js "purged"))))]]
    ∃ r, Purged sampleConfig sampleScope r (sampleRun calls).1 := by
  intro calls
  exact (purge_safety (sampleRun_run calls)).1 sampleScope (by decide +kernel)

end GuloGulo.Lifecycle
