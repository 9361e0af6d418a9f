import GuloGulo.Lifecycle.AccountSteps

/-!
# Calls that throw

A call is atomic exactly when what it validates after its first assignment
passes, or it does not come that far.
-/

namespace GuloGulo.Lifecycle
open Js Data

/-- The state and the holds of an account. -/
def standing (s : AccountLifecycleStore) (scope : AccountScope) :
    Option (AccountState × OrderedMap JsString AccountHold) :=
  (s.accounts.get scope).map fun a => (a.state, a.holds)

/-- A call that throws changes nothing; one that returns records the change it
has made to an account. -/
structure Atomic (cfg : LifecycleConfig) (call : AccountCall) (s : AccountLifecycleStore) : Prop where
  thrown : ∀ e, (call.run cfg s).1 = .error e → (call.run cfg s).2 = s
  audited : ∀ output, (call.run cfg s).1 = .ok output → ∀ scope,
    standing (call.run cfg s).2 scope ≠ standing s scope →
      ∃ entry, (call.run cfg s).2.auditEvents = s.auditEvents ++ [entry] ∧
        entry.toAccountScope = scope ∧ entry.event.name = call.method.event

section
variable {cfg : LifecycleConfig} {env : Ambient} {input : JsValue} {s : AccountLifecycleStore}

theorem standing_assigned (scope k : AccountScope) (a : AccountRecord) :
    standing (s.assigned scope a) k = if k = scope then some (a.state, a.holds) else standing s k := by
  unfold standing
  rw [AccountLifecycleStore.assigned_get]
  split <;> rfl

/-- Every change is one of the state or of the holds. -/
theorem change_standing {method : AccountMethod} {scope : AccountScope} {a : AccountRecord}
    (change : Change cfg env input s method scope a) : standing s scope ≠ some (a.state, a.holds) := by
  have other {b : AccountRecord} (present : s.accounts.get scope = some b)
      (differs : b.state ≠ a.state ∨ b.holds ≠ a.holds) : standing s scope ≠ some (a.state, a.holds) := by
    rw [standing, present, Option.map_some, Ne, Option.some.injEq, Prod.mk.injEq]
    rintro ⟨state, holds⟩
    exact differs.elim (· state) (· holds)
  cases change with
  | registered _ absent =>
    rw [standing, absent]
    simp
  | requested key b _ date days identified fresh confirmed dated period present state free scope state' =>
    exact other present (.inl (by rw [state, state']; decide))
  | softDeleted _ b date identified present state => exact other present (.inl (by simp [state]))
  | restored key b date identified fresh present state =>
    refine other present (.inl ?_)
    intro active
    rw [recoverable, active] at state
    cases state
  | held _ b holdId hold identified present fresh =>
    refine other present (.inr ?_)
    intro same
    have held := congrArg (OrderedMap.get · holdId) same
    simp [fresh, OrderedMap.get_set] at held
  | released _ b holdId identified present held =>
    refine other present (.inr ?_)
    intro same
    have gone := congrArg (OrderedMap.get · holdId) same
    simp only [OrderedMap.get_delete, ↓reduceIte] at gone
    rw [gone] at held
    cases held
  | queued key b date r identified fresh present state => exact other present (.inl (by simp [state]))
  | purged key b date identified fresh present state => exact other present (.inl (by simp [state]))

/-- In every reachable state, a call is atomic if and only if the validation it
leaves for after its first assignment passes, should it get there. -/
theorem run_atomic_iff {calls : List Made} (run : Run cfg calls s) (call : AccountCall) :
    Atomic cfg call s ↔ LateChecksPass cfg call.env call.input s call.method := by
  have outcome := run_outcome cfg call.env call.input s call.method
  have keyed := run_keyed run
  constructor
  · intro atomic
    have thrown := atomic.thrown
    simp only [AccountCall.run] at thrown
    generalize (call.method.run cfg call.env call.input s).1 = r at outcome thrown
    generalize hs : (call.method.run cfg call.env call.input s).2 = s' at outcome thrown
    cases outcome with
    | interrupted scope a e change late =>
      exfalso
      apply change_standing change
      have same := congrArg (standing · scope) (thrown e rfl)
      simp only [standing_assigned, ↓reduceIte] at same
      exact same.symm
    | refused _ late | replayed _ _ _ _ _ late | idempotent _ _ late | recorded _ _ _ _ _ _ _ _ late
    | remembered _ _ _ _ _ _ _ _ _ _ _ late => exact late
  · intro late
    have named {scope : AccountScope} {a : AccountRecord} {entry : AccountAuditEvent} {s' : AccountLifecycleStore}
        (change : Change cfg call.env call.input s call.method scope a)
        (own : entry.toAccountScope = a.toAccountScope) (accounts : s'.accounts = (s.assigned scope a).accounts)
        {k : AccountScope} (hk : standing s' k ≠ standing s k) : entry.toAccountScope = k := by
      rw [own, change_scope change keyed]
      by_cases hscope : scope = k
      · exact hscope
      · exfalso
        apply hk
        have same : standing s' k = standing (s.assigned scope a) k := by rw [standing, accounts, standing]
        rw [same, standing_assigned, if_neg (Ne.symm hscope)]
    constructor
    · intro e he
      simp only [AccountCall.run] at he ⊢
      rw [he] at outcome
      generalize (call.method.run cfg call.env call.input s).2 = s' at outcome
      cases outcome with
      | refused => rfl
      | interrupted _ _ _ _ fails => exact absurd late fails
    · intro output ho
      simp only [AccountCall.run] at ho ⊢
      rw [ho] at outcome
      generalize (call.method.run cfg call.env call.input s).2 = s' at outcome
      intro k hk
      cases outcome with
      | replayed | idempotent => exact absurd rfl hk
      | recorded scope a entry _ change own event => exact ⟨entry, rfl, named change own rfl hk, event⟩
      | remembered key a entry _ replays identified fresh change own event =>
        exact ⟨entry, rfl, named change own rfl hk, event⟩

end

/-- A soft deletion by an actor that is no object: it throws, and the account
is soft-deleted, without an audit event. -/
theorem softDeleteAccount_not_atomic :
    let s := (sampleRun [registerAlice, requestAlice 0 "r1"]).2
    Run sampleConfig (sampleRun [registerAlice, requestAlice 0 "r1"]).1 s ∧
      ¬ Atomic sampleConfig (softDeleteAlice [("actor", .null)]) s := by
  intro s
  refine ⟨sampleRun_run _, ?_⟩
  have facts : (((softDeleteAlice [("actor", .null)]).run sampleConfig s).1.isOk,
      (standing ((softDeleteAlice [("actor", .null)]).run sampleConfig s).2 sampleScope).map Prod.fst,
      (standing s sampleScope).map Prod.fst) = (false, some .softDeleted, some .deletionRequested) := by
    decide
  obtain ⟨failed, facts⟩ := Prod.mk.inj facts
  obtain ⟨after, before⟩ := Prod.mk.inj facts
  intro atomic
  cases hr : ((softDeleteAlice [("actor", .null)]).run sampleConfig s).1 with
  | ok output =>
    rw [hr] at failed
    cases failed
  | error e =>
    rw [atomic.thrown e hr, before] at after
    cases after

/-- A soft deletion with a valid actor. -/
theorem run_atomic_iff_alice :
    Atomic sampleConfig (softDeleteAlice []) (sampleRun [registerAlice, requestAlice 0 "r1"]).2 := by
  rw [run_atomic_iff (sampleRun_run [registerAlice, requestAlice 0 "r1"]) (softDeleteAlice [])]
  intro scope a date _
  rfl

end GuloGulo.Lifecycle
