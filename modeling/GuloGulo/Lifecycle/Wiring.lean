import Mathlib.Logic.Function.Basic
import GuloGulo.Lifecycle.Atomicity

/-!
# The wiring of a purge

`createAccountLifecycleWiring` of `account-lifecycle-wiring.ts`. A purge awaits
one adapter after the other; between two of them, any operation of the store
and any other purge may run. What runs between two awaits is one step.
-/

namespace GuloGulo.Lifecycle
open Js Data

/-- The store's configuration, and which of the optional parts were injected. -/
structure WiringConfig extends LifecycleConfig where
  backupAdapter : Bool
  retentionStore : Bool

/-- The adapter calls of a purge. -/
inductive Adapter where
  | deleteAccountArchives
  | purgeResource (resource : AccountResourceType)
  deriving DecidableEq

def WiringConfig.adapter (cfg : WiringConfig) (resource : AccountResourceType) : Adapter :=
  if resource = .backups ∧ cfg.backupAdapter then .deleteAccountArchives else .purgeResource resource

/-- Whether an adapter has purged, by the value its promise was fulfilled with. -/
def Adapter.purged : Adapter → JsValue → Bool
  | .deleteAccountArchives, _ => true
  | .purgeResource _, outcome => outcome.isString (js "purged")

/-- Reading a property of `null` throws a `TypeError`. -/
def scopeOf (input : JsValue) : Except (Thrown AccountError) AccountScope :=
  if input.isNullish then .error .foreign
  else match input.get "tenantId", input.get "userId" with
    | .string tenantId, .string userId => .ok ⟨tenantId, userId⟩
    | _, _ => .error (.contract (accountError (js "tenantId and userId are required") .invalidInput))

def AccountScope.value (scope : AccountScope) : JsValue :=
  .object [(js "tenantId", .string scope.tenantId), (js "userId", .string scope.userId)]

/-- What `completePurge` checks before it touches an adapter. -/
def checkPurge (s : AccountLifecycleStore) (input : JsValue) :
    Except (Thrown AccountError) (AccountScope × PublicAccount) := do
  let scope ← scopeOf input
  let account ← (getAccount s scope.value).mapError .contract
  throwIf (account.state != .purgePending) (.contract (accountError
    (js "account must be purge_pending, not " ++ account.state.text) .invalidStateTransition))
  throwIf (!(input.get "confirmation").isString (purgeConfirmationFor scope.userId))
    (.contract (accountError (js "strong purge confirmation is required") .strongConfirmationRequired))
  throwIf (!account.activeHoldIds.isEmpty)
    (.contract (accountError (js "account has an active hold") .accountOnHold))
  return (scope, account)

/-- A call of the wiring's `completePurge`, with what is left of its loop. -/
structure PurgeTask where
  input : JsValue
  scope : AccountScope
  resourceResults : List AccountResourceType
  remaining : List AccountResourceType

/-- `{ ...input, resourceResults }`. -/
def PurgeTask.completion (task : PurgeTask) : JsValue :=
  let own := match task.input with
    | .object fields => fields.filter fun f => f.1 != js "resourceResults"
    | _ => []
  let results := task.resourceResults.map fun t => (js t.name, JsValue.string (js "purged"))
  .object (own ++ [(js "resourceResults", .object results)])

/-- What a purge in flight is waiting for. The retention batch is not awaited,
but it calls out, and so does the logger after it. -/
inductive PurgeStage where
  | adapter (resource : AccountResourceType)
  | retention

structure Purge extends PurgeTask where
  stage : PurgeStage

/-- An adapter call, with the account at that moment. -/
structure Invocation (ι : Type) where
  purge : ι
  adapter : Adapter
  scope : AccountScope
  account : Option AccountRecord

/-- The store, the purges in flight, and the adapter calls made, the last one first. -/
structure World (ι : Type) where
  store : AccountLifecycleStore
  purges : ι → Option Purge
  invoked : List (Invocation ι)

def World.created (ι : Type) : World ι := ⟨.empty, fun _ => none, []⟩

inductive WiringEvent (ι : Type) where
  /-- An operation of the store, called from anywhere. -/
  | call (call : AccountCall)
  | start (i : ι) (env : Ambient) (argument : JsValue)
  /-- The awaited adapter call is fulfilled with a value, or rejected. -/
  | settled (i : ι) (env : Ambient) (outcome : Option JsValue)
  /-- The retention batch returns, or throws. -/
  | retained (i : ι) (env : Ambient) (returns : Bool)

/-- What a step does. -/
inductive Turn (ι : Type) where
  | call (call : AccountCall)
  | refuse
  | invoke (i : ι) (resource : AccountResourceType) (task : PurgeTask)
  | retain (i : ι) (task : PurgeTask)
  | complete (i : ι) (env : Ambient) (task : PurgeTask)
  | reject (i : ι)

def PurgeTask.complete (env : Ambient) (task : PurgeTask) : AccountCall := ⟨env, .completePurge, task.completion⟩

/-- The operation of the store that a step carries out. -/
def Turn.operation {ι : Type} : Turn ι → Option AccountCall
  | .call c => some c
  | .complete _ env task => some (task.complete env)
  | _ => none

section
variable {ι : Type} (cfg : WiringConfig)

/-- The loop over the plan, up to the next wait. -/
def PurgeTask.loop (i : ι) (env : Ambient) (task : PurgeTask) : Turn ι :=
  match task.remaining with
  | resource :: remaining => .invoke i resource { task with remaining }
  | [] => if cfg.retentionStore then .retain i task else .complete i env task

/-- What an event leads to, if it can happen. -/
def World.turn (w : World ι) : WiringEvent ι → Option (Turn ι)
  | .call call => some (.call call)
  | .start i env argument =>
    let input := argument.orDefault (.object [])
    match w.purges i, checkPurge w.store input with
    | some _, _ => none
    | none, .error _ => some .refuse
    | none, .ok (scope, account) => some (PurgeTask.loop cfg i env ⟨input, scope, [], account.cleanupPlan⟩)
  | .settled i env outcome =>
    match w.purges i with
    | some ⟨task, .adapter resource⟩ =>
      if outcome.any (cfg.adapter resource).purged then
        some (PurgeTask.loop cfg i env { task with resourceResults := task.resourceResults ++ [resource] })
      else some (.reject i)
    | _ => none
  | .retained i env returns =>
    match w.purges i with
    | some ⟨task, .retention⟩ => if returns then some (.complete i env task) else some (.reject i)
    | _ => none

variable [DecidableEq ι]

def World.set (w : World ι) (i : ι) (purge : Option Purge) : World ι :=
  { w with purges := Function.update w.purges i purge }

def World.perform (w : World ι) (call : AccountCall) : World ι :=
  { w with store := (call.run cfg.toLifecycleConfig w.store).2 }

def World.take (w : World ι) : Turn ι → World ι
  | .call call => w.perform cfg call
  | .refuse => w
  | .invoke i resource task =>
    { w.set i (some ⟨task, .adapter resource⟩) with
      invoked := ⟨i, cfg.adapter resource, task.scope, w.store.accounts.get task.scope⟩ :: w.invoked }
  | .retain i task => w.set i (some ⟨task, .retention⟩)
  | .complete i env task => (w.perform cfg (task.complete env)).set i none
  | .reject i => w.set i none

/-- One step, which takes the turn of an event. -/
def World.Step (w : World ι) (turn : Turn ι) (w' : World ι) : Prop :=
  (∃ e, w.turn cfg e = some turn) ∧ w' = w.take cfg turn

/-! ## What a purge destroys -/

/-- The account is pending for its purge, without a hold. -/
def Purgeable (s : AccountLifecycleStore) (scope : AccountScope) : Prop :=
  ∃ holds, standing s scope = some (.purgePending, holds) ∧ holds.size = 0

/-- The operation leaves state and holds of every account alone that has a
purge in flight with adapters still to call. -/
def World.Undisturbed (w : World ι) (call : AccountCall) : Prop :=
  ∀ i purge, w.purges i = some purge → purge.remaining ≠ [] →
    standing (call.run cfg.toLifecycleConfig w.store).2 purge.scope = standing w.store purge.scope

/-- A step whose operation, if it has one, disturbs no purge. -/
def World.Calm (w w' : World ι) : Prop :=
  ∃ turn, w.Step cfg turn w' ∧ ∀ call, turn.operation = some call → w.Undisturbed cfg call

/-- Steps that all are calm. -/
inductive Calmly : World ι → Prop where
  | created : Calmly (.created ι)
  | step {w w' : World ι} (run : Calmly w) (calm : w.Calm cfg w') : Calmly w'

/-- Calm steps, all the while that an account must not be purged. -/
inductive Barred (scope : AccountScope) (w : World ι) : World ι → Prop where
  | now (barred : ¬ Purgeable w.store scope) : Barred scope w w
  | step {w' w'' : World ι} (earlier : Barred scope w w') (calm : w'.Calm cfg w'')
      (barred : ¬ Purgeable w''.store scope) : Barred scope w w''

end

section
variable {ι : Type} [DecidableEq ι] {cfg : WiringConfig} {w w' : World ι}

/-- Whoever has adapters to call has an account that may be purged, and so had
every adapter that was called. -/
structure Guarded (w : World ι) : Prop where
  waiting : ∀ i purge, w.purges i = some purge → purge.remaining ≠ [] → Purgeable w.store purge.scope
  invoked : ∀ x ∈ w.invoked, ∃ a, x.account = some a ∧ a.state = .purgePending ∧ a.holds.size = 0

theorem purgeable_iff {s : AccountLifecycleStore} {scope : AccountScope} :
    Purgeable s scope ↔ ∃ a, s.accounts.get scope = some a ∧ a.state = .purgePending ∧ a.holds.size = 0 := by
  unfold Purgeable standing
  constructor
  · rintro ⟨holds, h, free⟩
    obtain ⟨a, ha, same⟩ := Option.map_eq_some_iff.mp h
    obtain ⟨state, rfl⟩ := Prod.mk.inj same
    exact ⟨a, ha, state, free⟩
  · rintro ⟨a, ha, state, free⟩
    refine ⟨a.holds, ?_, free⟩
    rw [ha, Option.map_some, state]

theorem assertPattern_eq_ok {pattern : JsString → Bool} {value : JsValue} {message : String} {code : AccountCode}
    {text : JsString} (h : assertPattern pattern value message code = .ok text) : value = .string text := by
  unfold assertPattern at h
  split at h
  · split at h
    · cases h
      rfl
    · cases h
  · cases h

theorem assertAccountScope_value {scope scope' : AccountScope}
    (h : assertAccountScope scope.value = .ok scope') : scope' = scope := by
  have tenant : scope.value.get "tenantId" = .string scope.tenantId := rfl
  have user : scope.value.get "userId" = .string scope.userId := rfl
  obtain ⟨_, _, h⟩ := bind_eq_ok.mp h
  obtain ⟨tenantId, htenant, h⟩ := bind_eq_ok.mp h
  obtain ⟨userId, huser, h⟩ := bind_eq_ok.mp h
  cases h
  rw [tenant] at htenant
  rw [user] at huser
  cases assertPattern_eq_ok htenant
  cases assertPattern_eq_ok huser
  rfl

theorem checkPurge_ok {s : AccountLifecycleStore} {input : JsValue} {scope : AccountScope} {account : PublicAccount}
    (h : checkPurge s input = .ok (scope, account)) : Purgeable s scope := by
  obtain ⟨scope', _, h⟩ := bind_eq_ok.mp h
  obtain ⟨public_, hpublic, h⟩ := bind_eq_ok.mp h
  obtain ⟨_, hstate, h⟩ := bind_eq_ok.mp h
  obtain ⟨_, _, h⟩ := bind_eq_ok.mp h
  obtain ⟨_, hfree, h⟩ := bind_eq_ok.mp h
  cases h
  obtain ⟨known, hknown, hpublic⟩ := bind_eq_ok.mp (mapError_eq_ok.mp hpublic)
  obtain ⟨a, ha, hpublic⟩ := bind_eq_ok.mp hpublic
  cases hpublic
  cases assertAccountScope_value hknown
  refine purgeable_iff.mpr ⟨a, requireAccount_eq_ok.mp ha, ?_, ?_⟩
  · simpa [publicAccount] using throwIf_eq_ok.mp hstate
  · simpa [publicAccount, OrderedMap.size] using throwIf_eq_ok.mp hfree

omit [DecidableEq ι] in
theorem guarded_perform {call : AccountCall} (guarded : Guarded w) (undisturbed : w.Undisturbed cfg call) :
    Guarded (w.perform cfg call) := by
  refine ⟨?_, guarded.invoked⟩
  intro i purge hpurge hremaining
  obtain ⟨holds, hstanding, free⟩ := guarded.waiting i purge hpurge hremaining
  exact ⟨holds, (undisturbed i purge hpurge hremaining).trans hstanding, free⟩

theorem guarded_set {i : ι} {purge : Option Purge} (guarded : Guarded w)
    (own : ∀ p, purge = some p → p.remaining ≠ [] → Purgeable w.store p.scope) : Guarded (w.set i purge) := by
  refine ⟨?_, guarded.invoked⟩
  intro j p hp hremaining
  simp only [World.set] at hp
  by_cases hj : j = i
  · subst hj
    rw [Function.update_self] at hp
    exact own p hp hremaining
  · rw [Function.update_of_ne hj] at hp
    exact guarded.waiting j p hp hremaining

/-- The loop goes on for an account that may be purged, if there are adapters to call. -/
theorem guarded_loop {i : ι} {env : Ambient} {task : PurgeTask} (guarded : Guarded w)
    (purgeable : task.remaining ≠ [] → Purgeable w.store task.scope)
    (undisturbed : ∀ call, (task.loop cfg i env).operation = some call → w.Undisturbed cfg call) :
    Guarded (w.take cfg (task.loop cfg i env)) := by
  unfold PurgeTask.loop at undisturbed ⊢
  cases hremaining : task.remaining with
  | cons resource remaining =>
    have now := purgeable (by rw [hremaining]; exact List.cons_ne_nil _ _)
    have kept : Guarded (w.set i (some ⟨{ task with remaining }, .adapter resource⟩)) := by
      apply guarded_set guarded
      rintro _ ⟨⟩ _
      exact now
    refine ⟨kept.waiting, ?_⟩
    intro x hx
    rcases List.mem_cons.mp hx with rfl | hx
    · exact purgeable_iff.mp now
    · exact guarded.invoked x hx
  | nil =>
    rw [hremaining] at undisturbed
    simp only at undisturbed ⊢
    by_cases hretention : cfg.retentionStore
    · rw [if_pos hretention]
      refine guarded_set guarded ?_
      rintro _ ⟨⟩ more
      exact absurd hremaining more
    · rw [if_neg hretention] at undisturbed ⊢
      refine guarded_set (guarded_perform guarded (undisturbed _ rfl)) ?_
      rintro _ ⟨⟩

theorem guarded_step {turn : Turn ι} (guarded : Guarded w) (step : w.Step cfg turn w')
    (undisturbed : ∀ call, turn.operation = some call → w.Undisturbed cfg call) : Guarded w' := by
  obtain ⟨⟨e, happens⟩, rfl⟩ := step
  cases e with
  | call call =>
    cases happens
    exact guarded_perform guarded (undisturbed call rfl)
  | start i env argument =>
    simp only [World.turn] at happens
    split at happens
    · cases happens
    · cases happens
      exact guarded
    · rename_i scope account _ checked
      cases happens
      exact guarded_loop guarded (fun _ => checkPurge_ok checked) undisturbed
  | settled i env outcome =>
    simp only [World.turn] at happens
    split at happens
    · rename_i task resource waits
      split at happens
      · cases happens
        exact guarded_loop guarded (guarded.waiting i _ waits) undisturbed
      · cases happens
        refine guarded_set guarded ?_
        rintro _ ⟨⟩
    · cases happens
  | retained i env returns =>
    simp only [World.turn] at happens
    split at happens
    · split at happens
      · cases happens
        refine guarded_set (guarded_perform guarded (undisturbed _ rfl)) ?_
        rintro _ ⟨⟩
      · cases happens
        refine guarded_set guarded ?_
        rintro _ ⟨⟩
    · cases happens

/-- Without a purge in flight, every step is calm. -/
theorem calmly_idle {turn : Turn ι} (run : Calmly cfg w) (idle : ∀ i, w.purges i = none) (step : w.Step cfg turn w') :
    Calmly cfg w' := by
  refine .step run ⟨turn, step, ?_⟩
  intro call _ i purge hpurge
  rw [idle] at hpurge
  cases hpurge

theorem calmly_guarded (run : Calmly cfg w) : Guarded w := by
  induction run with
  | created =>
    constructor
    · intro i purge hpurge
      cases hpurge
    · intro x hx
      cases hx
  | step run calm ih =>
    obtain ⟨turn, step, undisturbed⟩ := calm
    exact guarded_step ih step undisturbed

omit [DecidableEq ι] in
/-- A registration touches no account that exists. -/
theorem register_undisturbed (guarded : Guarded w) (env : Ambient) (argument : JsValue) :
    w.Undisturbed cfg ⟨env, .registerAccount, argument⟩ := by
  intro i purge hpurge more
  obtain ⟨a, present, _, _⟩ := purgeable_iff.mp (guarded.waiting i purge hpurge more)
  rcases outcome_accounts (run_outcome cfg.toLifecycleConfig env (argument.orDefault (.object [])) w.store .registerAccount)
    with same | ⟨scope, b, change, accounts⟩
  · exact congrArg (standing · purge.scope) same
  · unfold standing
    refine congrArg (Option.map _) ((accounts purge.scope).trans (if_neg ?_))
    cases change with
    | registered b absent =>
      intro same
      rw [← same, present] at absent
      cases absent

variable (cfg) in
/-- A step calls at most one adapter, and changes no account then. -/
theorem take_invoked (w : World ι) (turn : Turn ι) :
    (w.take cfg turn).invoked = w.invoked ∨ ∃ x, (w.take cfg turn).invoked = x :: w.invoked ∧
      x.account = (w.take cfg turn).store.accounts.get x.scope := by
  cases turn with
  | invoke i resource task => exact .inr ⟨_, rfl, rfl⟩
  | call | refuse | retain | complete | reject => exact .inl rfl

/-- While an account must not be purged, none of its adapters is called. -/
theorem barred_invoked {scope : AccountScope} (run : Calmly cfg w) (barred : Barred cfg scope w w') :
    Calmly cfg w' ∧ w'.invoked.filter (·.scope = scope) = w.invoked.filter (·.scope = scope) := by
  induction barred with
  | now => exact ⟨run, rfl⟩
  | @step w' w'' earlier calm barred ih =>
    obtain ⟨run', same⟩ := ih
    have run'' := Calmly.step run' calm
    refine ⟨run'', ?_⟩
    obtain ⟨turn, ⟨_, rfl⟩, _⟩ := calm
    rcases take_invoked cfg w' turn with none | ⟨x, called, account⟩
    · rw [none, same]
    · have guarded := (calmly_guarded run'').invoked x (by rw [called]; exact List.mem_cons_self)
      have other : x.scope ≠ scope := by
        rintro rfl
        obtain ⟨a, ha, standing⟩ := guarded
        exact barred (purgeable_iff.mpr ⟨a, account.symm.trans ha, standing⟩)
      rw [called, List.filter_cons_of_neg (by simpa using other), same]

/-- If no operation of the store changes the state or the holds of an account
while one of its purges still has adapters to call, then every adapter is called
for an account that is pending for its purge and without holds, and none of an
account's adapters from the moment it is not, whether its purges then end by
rejecting or otherwise. -/
theorem purge_protects (run : Calmly cfg w) :
    (∀ x ∈ w.invoked, ∃ a, x.account = some a ∧ a.state = .purgePending ∧ a.holds.size = 0) ∧
    ∀ scope w', Barred cfg scope w w' →
      w'.invoked.filter (·.scope = scope) = w.invoked.filter (·.scope = scope) := by
  constructor
  · exact (calmly_guarded run).invoked
  · intro scope w' barred
    exact (barred_invoked run barred).2

/-- Nothing looks at the account again: a purge with adapters left calls the next
one when the last is fulfilled, whatever has become of the account. -/
theorem purge_goes_on {i : ι} {task : PurgeTask} {resource : AccountResourceType}
    (waits : w.purges i = some ⟨task, .adapter resource⟩) (more : task.remaining ≠ [])
    (disturbed : ¬ Purgeable w.store task.scope) (env : Ambient) :
    ∃ turn, w.turn cfg (.settled i env (some (.string (js "purged")))) = some turn ∧
      ∃ x ∈ (w.take cfg turn).invoked, ¬ ∃ a, x.account = some a ∧ a.state = .purgePending ∧ a.holds.size = 0 := by
  have purged : (cfg.adapter resource).purged (.string (js "purged")) := by
    cases cfg.adapter resource with
    | deleteAccountArchives => rfl
    | purgeResource => exact BEq.refl _
  obtain ⟨next, remaining, hremaining⟩ := List.exists_cons_of_ne_nil more
  let task' := { task with resourceResults := task.resourceResults ++ [resource], remaining }
  refine ⟨.invoke i next task', ?_, ?_⟩
  · simp only [World.turn, waits, Option.any_some, purged, ↓reduceIte, PurgeTask.loop, hremaining]
    rfl
  · refine ⟨_, List.mem_cons_self, ?_⟩
    exact fun protected_ => disturbed (purgeable_iff.mpr protected_)

end

/-! ### Samples -/

/-- The world after events, if they all can happen. -/
def World.after {ι : Type} [DecidableEq ι] (cfg : WiringConfig) (w : World ι) (events : List (WiringEvent ι)) :
    Option (World ι) :=
  events.foldlM (fun w e => (w.turn cfg e).map (w.take cfg)) w

def sampleWiring : WiringConfig := ⟨sampleConfig, false, false⟩

/-- The calls that lead account `alice` to its purge. -/
def towardsPurge : List AccountCall :=
  [registerAlice, requestAlice 0 "r1", softDeleteAlice [], sampleCall 28 .queuePurge []]

def startPurge : WiringEvent Unit :=
  .start () ⟨fun _ => none, []⟩ (.object [(js "tenantId", .string (js "acme")),
    (js "userId", .string (js "alice")), (js "confirmation", .string (js "PURGE:alice"))])

/-- The purge, with a hold that comes while the first adapter is awaited. -/
def holdMidway : List (WiringEvent Unit) :=
  towardsPurge.map WiringEvent.call ++ [startPurge,
    .call (sampleCall 28 .addAccountHold [("holdId", .string (js "h1"))]),
    .settled () ⟨fun _ => none, []⟩ (some (.string (js "purged")))]

/-- The hold does not keep the second adapter from being called. -/
theorem completePurge_ignores_hold :
    ∃ w, (World.created Unit).after sampleWiring holdMidway = some w ∧
      ∃ x ∈ w.invoked, ∃ a, x.account = some a ∧ a.holds.size = 1 := by
  have held : (((World.created Unit).after sampleWiring holdMidway).bind fun w => w.invoked.head?.bind fun x =>
      x.account.map fun a => a.holds.size) = some 1 := by
    decide
  obtain ⟨w, hw, held⟩ := Option.bind_eq_some_iff.mp held
  obtain ⟨x, last, held⟩ := Option.bind_eq_some_iff.mp held
  obtain ⟨a, ha, size⟩ := Option.map_eq_some_iff.mp held
  exact ⟨w, hw, x, List.mem_of_mem_head? last, a, ha, size⟩

def registerBob : AccountCall where
  env := (sampleCall 28 .registerAccount []).env
  method := .registerAccount
  argument := .object [(js "tenantId", .string (js "acme")), (js "userId", .string (js "bob"))]

def towardsStart : World Unit := towardsPurge.foldl (World.perform sampleWiring) (World.created Unit)

theorem towardsStart_calmly : Calmly sampleWiring towardsStart :=
  have step {w : World Unit} (call : AccountCall) (run : Calmly sampleWiring w)
      (idle : ∀ i, w.purges i = none) : Calmly sampleWiring (w.perform sampleWiring call) :=
    calmly_idle run idle ⟨⟨.call call, rfl⟩, rfl⟩
  step _ (step _ (step _ (step _ .created fun _ => rfl) fun _ => rfl) fun _ => rfl) fun _ => rfl

/-- A purge at its second adapter; while it waited for the first, another account came. -/
theorem purge_protects_midway : ∃ w : World Unit, Calmly sampleWiring w ∧ w.invoked.length = 2 ∧
    (w.store.accounts.get ⟨js "acme", js "bob"⟩).isSome ∧
    ∀ x ∈ w.invoked, ∃ a, x.account = some a ∧ a.state = .purgePending ∧ a.holds.size = 0 := by
  have run : ((do
      let starts ← towardsStart.turn sampleWiring startPurge
      let w := (towardsStart.take sampleWiring starts).perform sampleWiring registerBob
      let settles ← w.turn sampleWiring (.settled () ⟨fun _ => none, []⟩ (some (.string (js "purged"))))
      let w' := w.take sampleWiring settles
      return (settles.operation.isNone, w'.invoked.length, (w'.store.accounts.get ⟨js "acme", js "bob"⟩).isSome)) :
      Option (Bool × Nat × Bool)) = some (true, 2, true) := by decide
  obtain ⟨first, starts, run⟩ := Option.bind_eq_some_iff.mp run
  obtain ⟨second, settles, facts⟩ := Option.bind_eq_some_iff.mp run
  simp only [Option.pure_def, Option.some.injEq, Prod.mk.injEq, Option.isNone_iff_eq_none] at facts
  obtain ⟨calls, length, registered⟩ := facts
  have started := calmly_idle towardsStart_calmly (fun _ => rfl) ⟨⟨startPurge, starts⟩, rfl⟩
  have joined := Calmly.step started ⟨.call registerBob, ⟨⟨.call registerBob, rfl⟩, rfl⟩, fun call same => by
    cases same
    exact register_undisturbed (calmly_guarded started) _ _⟩
  have settled := Calmly.step joined ⟨second, ⟨⟨_, settles⟩, rfl⟩, fun call same => by
    rw [calls] at same
    cases same⟩
  exact ⟨_, settled, length, registered, (purge_protects settled).1⟩

end GuloGulo.Lifecycle
