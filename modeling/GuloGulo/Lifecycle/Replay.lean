import GuloGulo.Lifecycle.PurgeSafety

/-!
# Repeated calls

An operation that is repeated under its id returns the result stored for it,
also when the account has moved on since. A soft deletion stores none: it names
the request it carries out, and is refused the second time.
-/

namespace GuloGulo.Lifecycle
open Js Data
open Eff (check wp)

/-- Two calls of one remembered operation, with the same account and id. -/
structure Repeats (key : OperationKey) (made : Made) (call : AccountCall) : Prop where
  first : made.call.method = key.operation.method
  again : call.method = key.operation.method
  identified : identify made.call.env made.call.input key.operation = .ok key
  identifiedAgain : identify call.env call.input key.operation = .ok key

/-- A soft deletion that names its request. -/
structure NamesRequest (scope : AccountScope) (id : JsString) (call : AccountCall) : Prop where
  method : call.method = .softDeleteAccount
  identified : assertAccountScope call.input = .ok scope
  named : call.input.get "requestId" = .string id

/-- What an operation returns is stored under its key. -/
def Stores (key : OperationKey) (operation : LifecycleOp AccountOperation) : Prop :=
  ∀ s output, (operation s).1 = .ok output → (operation s).2.operationResults.get key = some output

section
variable {cfg : LifecycleConfig} {env : Ambient} {input : JsValue} {s : AccountLifecycleStore} {key : OperationKey}

theorem stores_remember (output : AccountOperation) : Stores key (remember key output) := by
  intro s output' h
  cases h
  exact (AccountLifecycleStore.remembered_get s key output key).trans (if_pos rfl)

theorem stores_bind {β : Type} {m : LifecycleOp β} {f : β → LifecycleOp AccountOperation}
    (hf : ∀ b, Stores key (f b)) : Stores key (m >>= f) := by
  intro s output h
  change (Eff.bind m f s).1 = _ at h
  change (Eff.bind m f s).2.operationResults.get key = _
  unfold Eff.bind at h ⊢
  rcases hm : m s with ⟨r, s'⟩
  rw [hm] at h
  cases r with
  | ok b => exact hf b s' output h
  | error e => cases h

theorem unlessReplayed_stored {body : LifecycleOp AccountOperation} {output : AccountOperation}
    (stored : s.operationResults.get key = some output) : unlessReplayed key body s = (.ok output, s) := by
  simp only [unlessReplayed, bind, Eff.bind, Eff.get, stored]
  rfl

theorem unlessReplayed_fresh {body : LifecycleOp AccountOperation}
    (fresh : s.operationResults.get key = none) : unlessReplayed key body s = body s := by
  simp only [unlessReplayed, bind, Eff.bind, Eff.get, fresh]

theorem stores_unlessReplayed {body : LifecycleOp AccountOperation} (hbody : Stores key body) :
    Stores key (unlessReplayed key body) := by
  intro s output h
  cases hstored : s.operationResults.get key with
  | some prior =>
    rw [unlessReplayed_stored hstored] at h ⊢
    cases h
    exact hstored
  | none =>
    rw [unlessReplayed_fresh hstored] at h ⊢
    exact hbody s output h

variable (cfg) in
/-- A remembered operation is one body, behind the look at its stored result. -/
theorem method_body (identified : identify env input key.operation = .ok key) :
    ∃ body, key.operation.method.run cfg env input = unlessReplayed key body ∧ Stores key body := by
  generalize hop : key.operation = operation at identified
  have behind {body : OperationKey → LifecycleOp AccountOperation} :
      (do
        let key ← check (identify env input operation)
        unlessReplayed key (body key) : LifecycleOp AccountOperation) = unlessReplayed key (body key) := by
    rw [identified]
    rfl
  cases operation with
  | request =>
    refine ⟨_, behind, ?_⟩
    iterate 7 refine stores_bind fun _ => ?_
    exact stores_remember _
  | restore =>
    refine ⟨_, behind, ?_⟩
    iterate 5 refine stores_bind fun _ => ?_
    exact stores_remember _
  | queue | complete =>
    refine ⟨_, behind, ?_⟩
    iterate 4 refine stores_bind fun _ => ?_
    exact stores_remember _

/-- Stored results stay. -/
theorem results_persist {output : AccountOperation} (call : AccountCall)
    (stored : s.operationResults.get key = some output) :
    (call.run cfg s).2.operationResults.get key = some output := by
  have outcome := run_outcome cfg call.env call.input s call.method
  change (call.method.run cfg call.env call.input s).2.operationResults.get key = _
  generalize (call.method.run cfg call.env call.input s).1 = r at outcome
  generalize (call.method.run cfg call.env call.input s).2 = s' at outcome
  cases outcome with
  | refused | replayed | idempotent | interrupted | recorded => exact stored
  | remembered k a entry output' replays identified fresh =>
    rw [AccountLifecycleStore.remembered_get]
    by_cases hk : key = k
    · subst hk
      rw [fresh] at stored
      cases stored
    · rw [if_neg hk]
      exact stored

end

section
variable {cfg : LifecycleConfig} {calls : List Made} {s : AccountLifecycleStore}

/-- Every remembered operation that succeeded has its result stored. -/
theorem run_stored (run : Run cfg calls s) {made : Made} (hmade : made ∈ calls) {key : OperationKey}
    (method : made.call.method = key.operation.method)
    (identified : identify made.call.env made.call.input key.operation = .ok key)
    {output : AccountOperation} (answer : made.answer cfg = .ok output) :
    s.operationResults.get key = some output := by
  induction run with
  | created => cases hmade
  | @called calls s run call ih =>
    rcases List.mem_cons.mp hmade with rfl | earlier
    · obtain ⟨body, hbody, stores⟩ := method_body cfg identified
      rw [Made.answer, AccountCall.run, method, hbody] at answer
      rw [Made.after, AccountCall.run, method, hbody]
      exact stores_unlessReplayed stores s output answer
    · exact results_persist call (ih earlier)

/-- A repeated call of a remembered operation. -/
theorem repeat_replays (run : Run cfg calls s) {made : Made} (hmade : made ∈ calls) {key : OperationKey}
    {call : AccountCall} (repeats : Repeats key made call) {output : AccountOperation}
    (answer : made.answer cfg = .ok output) : call.run cfg s = (.ok output, s) := by
  have stored := run_stored run hmade repeats.first repeats.identified answer
  obtain ⟨body, hbody, _⟩ := method_body cfg repeats.identifiedAgain
  rw [AccountCall.run, repeats.again, hbody]
  exact unlessReplayed_stored stored

/-! ## Soft deletions -/

/-- The request that is pending for an account, if any, has a stored result. -/
def PendingStored (s : AccountLifecycleStore) : Prop :=
  ∀ scope a id, s.accounts.get scope = some a → a.deletionRequestId = some id →
    ∃ output, s.operationResults.get ⟨.request, scope, id⟩ = some output

/-- No request is pending for an active account. -/
def ActiveUnrequested (s : AccountLifecycleStore) : Prop :=
  ∀ scope a, s.accounts.get scope = some a → a.state = .active → a.deletionRequestId = none

end

section
variable {cfg : LifecycleConfig} {env : Ambient} {input : JsValue} {s : AccountLifecycleStore}

theorem pendingStored_assigned {scope : AccountScope} {a : AccountRecord} (pending : PendingStored s)
    (unset : ∀ id, a.deletionRequestId = some id →
      ∃ output, s.operationResults.get ⟨.request, scope, id⟩ = some output) : PendingStored (s.assigned scope a) := by
  intro k b id hb hid
  rw [AccountLifecycleStore.assigned_get] at hb
  by_cases hk : k = scope
  · rw [if_pos hk] at hb
    cases hb
    rw [hk]
    exact unset id hid
  · rw [if_neg hk] at hb
    exact pending k b id hb hid

/-- A request sets its id only when it stores its result. -/
theorem requestDeletion_pending (pending : PendingStored s) (unrequested : ActiveUnrequested s) :
    wp (requestDeletion cfg env input) s fun _ s' => PendingStored s' := by
  refine Eff.wp_check_bind.mpr ⟨fun _ _ => pending, ?_⟩
  intro key hkey
  obtain ⟨operation, _⟩ := identify_eq_ok hkey
  cases hstored : s.operationResults.get key with
  | some output =>
    rw [wp, unlessReplayed_stored hstored]
    exact pending
  | none =>
    rw [wp, unlessReplayed_fresh hstored]
    refine Eff.wp_readOnly_bind (Q := fun _ s' => PendingStored s') checkDeletionRequest_readOnly
      (fun _ _ => pending) ?_
    intro q hq
    obtain ⟨_, _, _, present, state, _⟩ := checkDeletionRequest_ok hq
    have unset {a' : AccountRecord} (request : a'.deletionRequestId = q.account.deletionRequestId) :
        PendingStored (s.assigned key.scope a') := by
      refine pendingStored_assigned pending ?_
      intro id hid
      rw [request, unrequested _ _ present state] at hid
      cases hid
    refine wp_assign_bind.mpr (Eff.wp_lift_bind.mpr ⟨fun _ _ => unset rfl, ?_⟩)
    intro recoveryUntil _
    refine wp_assign_bind.mpr (Eff.wp_check_bind.mpr ⟨?_, ?_⟩)
    · intro e _
      rw [AccountLifecycleStore.assigned_assigned]
      exact unset rfl
    · intro plan _
      refine wp_assign_bind.mpr ?_
      rw [AccountLifecycleStore.assigned_assigned, AccountLifecycleStore.assigned_assigned]
      intro k b id hb hid
      have hb := (AccountLifecycleStore.assigned_get s key.scope _ k).symm.trans hb
      show ∃ output, (AccountLifecycleStore.remembered _ key _).operationResults.get _ = some output
      rw [AccountLifecycleStore.remembered_get]
      by_cases hk : k = key.scope
      · rw [if_pos hk] at hb
        cases hb
        cases hid
        rw [if_pos (by rw [hk, ← operation])]
        exact ⟨_, rfl⟩
      · rw [if_neg hk] at hb
        obtain ⟨output, houtput⟩ := pending k b id hb hid
        split
        · exact ⟨_, rfl⟩
        · exact ⟨output, houtput⟩

/-- Other calls set no id. -/
theorem change_request {method : AccountMethod} {scope : AccountScope} {a : AccountRecord} {id : JsString}
    (change : Change cfg env input s method scope a) (other : method ≠ .requestDeletion)
    (hid : a.deletionRequestId = some id) :
    ∃ b, s.accounts.get scope = some b ∧ b.deletionRequestId = some id := by
  cases change with
  | registered _ absent state recoveryUntil holds request =>
    rw [request] at hid
    cases hid
  | requested => exact absurd rfl other
  | restored => cases hid
  | softDeleted _ b date identified present => exact ⟨b, present, hid⟩
  | held _ b holdId hold identified present | released _ b holdId identified present => exact ⟨b, present, hid⟩
  | queued key b date r identified fresh present => exact ⟨b, present, hid⟩
  | purged key b date identified fresh present => exact ⟨b, present, hid⟩

theorem call_pendingStored (call : AccountCall) (pending : PendingStored s) (unrequested : ActiveUnrequested s) :
    PendingStored (call.run cfg s).2 := by
  by_cases hmethod : call.method = .requestDeletion
  · rw [AccountCall.run, hmethod]
    exact requestDeletion_pending pending unrequested
  · intro scope a id ha hid
    have before : ∃ b, s.accounts.get scope = some b ∧ b.deletionRequestId = some id := by
      rcases outcome_accounts (run_outcome cfg call.env call.input s call.method) with same | ⟨k, b, change, get⟩
      · exact ⟨a, (congrArg (·.accounts.get scope) same).symm.trans ha, hid⟩
      · have ha := (get scope).symm.trans ha
        by_cases hk : scope = k
        · rw [if_pos hk] at ha
          cases ha
          rw [hk]
          exact change_request change hmethod hid
        · rw [if_neg hk] at ha
          exact ⟨a, ha, hid⟩
    obtain ⟨b, hb, hid⟩ := before
    obtain ⟨output, stored⟩ := pending scope b id hb hid
    exact ⟨output, results_persist call stored⟩

theorem call_activeUnrequested (call : AccountCall) (unrequested : ActiveUnrequested s) :
    ActiveUnrequested (call.run cfg s).2 := by
  intro scope a ha active
  rcases outcome_accounts (run_outcome cfg call.env call.input s call.method) with same | ⟨k, b, change, get⟩
  · exact unrequested scope a ((congrArg (·.accounts.get scope) same).symm.trans ha) active
  · have ha := (get scope).symm.trans ha
    by_cases hk : scope = k
    · rw [if_pos hk] at ha
      cases ha
      generalize call.method = method at change
      cases change with
      | registered _ absent state recoveryUntil holds request => exact request
      | requested key b _ date days identified fresh confirmed dated period present state free _ state' =>
        rw [state'] at active
        cases active
      | restored => rfl
      | softDeleted | queued | purged => cases active
      | held _ b holdId hold identified present | released _ b holdId identified present =>
        exact unrequested _ b present active
    · rw [if_neg hk] at ha
      exact unrequested scope a ha active

theorem run_pending {calls : List Made} (run : Run cfg calls s) : PendingStored s ∧ ActiveUnrequested s := by
  induction run with
  | created =>
    constructor
    · intro scope a id ha
      cases ha
    · intro scope a ha
      cases ha
  | called run call ih => exact ⟨call_pendingStored call ih.1 ih.2, call_activeUnrequested call ih.2⟩

/-- The request has been carried out: its id will not be pending again. -/
structure CarriedOut (scope : AccountScope) (id : JsString) (s : AccountLifecycleStore) : Prop where
  stored : ∃ output, s.operationResults.get ⟨.request, scope, id⟩ = some output
  done : ∀ a, s.accounts.get scope = some a → a.deletionRequestId = some id → a.state ≠ .deletionRequested

variable {scope : AccountScope} {id : JsString}

theorem call_carriedOut (call : AccountCall) (unrequested : ActiveUnrequested s) (out : CarriedOut scope id s) :
    CarriedOut scope id (call.run cfg s).2 := by
  obtain ⟨output, stored⟩ := out.stored
  refine ⟨⟨output, results_persist call stored⟩, ?_⟩
  intro a ha hid
  rcases outcome_accounts (run_outcome cfg call.env call.input s call.method) with same | ⟨k, b, change, get⟩
  · exact out.done a ((congrArg (·.accounts.get scope) same).symm.trans ha) hid
  · have ha := (get scope).symm.trans ha
    by_cases hk : scope = k
    · rw [if_pos hk] at ha
      cases ha
      subst hk
      generalize call.method = method at change
      cases change with
      | registered _ absent state => rw [state]; decide
      | requested key b _ date days identified fresh confirmed dated period present state free _ state' _ _ request =>
        rcases request with request | request
        · rw [request, unrequested _ b present state] at hid
          cases hid
        · rw [request] at hid
          cases hid
          obtain ⟨operation, _⟩ := identify_eq_ok identified
          rw [← operation, fresh] at stored
          cases stored
      | restored => cases hid
      | softDeleted | queued | purged => simp
      | held _ b holdId hold identified present | released _ b holdId identified present =>
        exact out.done b present hid
    · rw [if_neg hk] at ha
      exact out.done a ha hid

variable (cfg s) in
/-- A soft deletion that names its request is refused, or that request was pending. -/
theorem softDeletion_cases {call : AccountCall} (names : NamesRequest scope id call) :
    (∃ e, call.run cfg s = (.error e, s)) ∨
    ∃ a date, s.accounts.get scope = some a ∧ a.state = .deletionRequested ∧ a.deletionRequestId = some id ∧
      (call.run cfg s).2.accounts.get scope = some { a with state := .softDeleted, softDeletedAt := some date } := by
  have outcome := run_outcome cfg call.env call.input s .softDeleteAccount
  rw [AccountCall.run, names.method]
  generalize AccountMethod.run cfg call.env call.input .softDeleteAccount s = result at outcome ⊢
  obtain ⟨r, s'⟩ := result
  have named {k : AccountScope} {a : AccountRecord} {method : AccountMethod} (hmethod : method = .softDeleteAccount)
      (change : Change cfg call.env call.input s method k a)
      (get : s'.accounts.get k = some a) :
      ∃ a date, s.accounts.get scope = some a ∧ a.state = .deletionRequested ∧ a.deletionRequestId = some id ∧
        s'.accounts.get scope = some { a with state := .softDeleted, softDeletedAt := some date } := by
    subst hmethod
    cases change with
    | softDeleted _ b date identified present state confirmed request =>
      cases names.identified.symm.trans identified
      rw [names.named] at request
      refine ⟨b, date, present, state, ?_, get⟩
      cases hb : b.deletionRequestId with
      | none =>
        rw [hb] at request
        rcases request with undefined | named
        · cases undefined
        · cases named
      | some pending =>
        rw [hb] at request
        rcases request with undefined | named
        · cases undefined
        · rw [eq_of_beq named]
  have assigned {k : AccountScope} {a : AccountRecord} : (s.assigned k a).accounts.get k = some a :=
    (AccountLifecycleStore.assigned_get s k a k).trans (if_pos rfl)
  generalize hm : AccountMethod.softDeleteAccount = method at outcome
  cases outcome with
  | refused e => exact .inl ⟨e, rfl⟩
  | replayed key _ replays =>
    rw [← hm] at replays
    cases hk : key.operation <;> rw [hk] at replays <;> cases replays
  | idempotent _ hold =>
    rw [← hm] at hold
    simp at hold
  | interrupted k a e change => exact .inr (named hm.symm change assigned)
  | recorded k a entry _ change => exact .inr (named hm.symm change assigned)
  | remembered key a entry _ replays identified fresh change => exact .inr (named hm.symm change assigned)

theorem softDeletion_carriesOut {call : AccountCall} (names : NamesRequest scope id call)
    (pending : PendingStored s) {output : AccountOperation} (succeeds : (call.run cfg s).1 = .ok output) :
    CarriedOut scope id (call.run cfg s).2 := by
  rcases softDeletion_cases cfg s names with ⟨e, refused⟩ | ⟨a, date, present, state, hid, after⟩
  · rw [refused] at succeeds
    cases succeeds
  · obtain ⟨output, stored⟩ := pending scope a id present hid
    refine ⟨⟨output, results_persist call stored⟩, ?_⟩
    intro b hb _
    rw [after] at hb
    cases hb
    simp

theorem carriedOut_refused {call : AccountCall} (names : NamesRequest scope id call)
    (out : CarriedOut scope id s) : ∃ e, call.run cfg s = (.error e, s) := by
  rcases softDeletion_cases cfg s names with refused | ⟨a, date, present, state, hid, _⟩
  · exact refused
  · exact absurd state (out.done a present hid)

/-- A soft deletion that succeeded under a request carries it out for good. -/
theorem run_carriedOut {calls : List Made} (run : Run cfg calls s) {made : Made} (hmade : made ∈ calls)
    (names : NamesRequest scope id made.call) {output : AccountOperation}
    (answer : made.answer cfg = .ok output) : CarriedOut scope id s := by
  induction run with
  | created => cases hmade
  | @called calls s run call ih =>
    obtain ⟨pending, unrequested⟩ := run_pending run
    rcases List.mem_cons.mp hmade with rfl | earlier
    · exact softDeletion_carriesOut names pending answer
    · exact call_carriedOut call unrequested (ih earlier)

/-- In every run, an operation repeated under an id with which it succeeded
before changes nothing: a remembered one returns what it returned then, and a
soft deletion is refused. -/
theorem repeat_changes_nothing {calls : List Made} (run : Run cfg calls s) {made : Made} (hmade : made ∈ calls)
    (call : AccountCall) {output : AccountOperation} (answer : made.answer cfg = .ok output) :
    (∀ key, Repeats key made call → call.run cfg s = (.ok output, s)) ∧
    ∀ scope id, NamesRequest scope id made.call → NamesRequest scope id call →
      ∃ e, call.run cfg s = (.error e, s) := by
  constructor
  · intro key repeats
    exact repeat_replays run hmade repeats answer
  · intro scope id first again
    exact carriedOut_refused again (run_carriedOut run hmade first answer)

end

/-! ### Samples -/

/-- The replay of a deletion request after a restore reports an account whose
deletion is requested, while it is active. -/
theorem requestDeletion_replays_stale :
    let s := (sampleRun [registerAlice, requestAlice 0 "r1", restoreAlice 1]).2
    Run sampleConfig (sampleRun [registerAlice, requestAlice 0 "r1", restoreAlice 1]).1 s ∧
      ∃ output, ((requestAlice 0 "r1").run sampleConfig s).1 = .ok output ∧
        output.account.state = .deletionRequested ∧
        stateOf ((requestAlice 0 "r1").run sampleConfig s).2 sampleScope = some .active := by
  intro s
  refine ⟨sampleRun_run _, ?_⟩
  have facts : ((((requestAlice 0 "r1").run sampleConfig s).1.map (·.account.state)).toOption,
      stateOf ((requestAlice 0 "r1").run sampleConfig s).2 sampleScope) =
        (some .deletionRequested, some .active) := by
    decide
  obtain ⟨reported, active⟩ := Prod.mk.inj facts
  cases hr : ((requestAlice 0 "r1").run sampleConfig s).1 with
  | error e =>
    rw [hr] at reported
    cases reported
  | ok output =>
    rw [hr] at reported
    exact ⟨output, rfl, Option.some.inj reported, active⟩

/-- A deletion request, repeated after the restore. -/
theorem repeat_changes_nothing_alice :
    let s := (sampleRun [registerAlice, requestAlice 0 "r1", restoreAlice 1]).2
    ∃ output, (requestAlice 0 "r1").run sampleConfig s = (.ok output, s) := by
  intro s
  let made : Made := ⟨requestAlice 0 "r1", (sampleRun [registerAlice]).2⟩
  have succeeds : (made.answer sampleConfig).isOk := by decide
  cases answer : made.answer sampleConfig with
  | error e =>
    rw [answer] at succeeds
    cases succeeds
  | ok output =>
    have run := sampleRun_run [registerAlice, requestAlice 0 "r1", restoreAlice 1]
    have repeated := (repeat_changes_nothing run (.tail _ (.head _)) made.call answer).1
      ⟨.request, sampleScope, js "r1"⟩ ⟨rfl, rfl, by decide, by decide⟩
    exact ⟨output, repeated⟩

end GuloGulo.Lifecycle
