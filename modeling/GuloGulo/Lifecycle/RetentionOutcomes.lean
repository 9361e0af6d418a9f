import GuloGulo.Lifecycle.RetentionSteps

/-!
# How a call on an item ends

A call reads first; then it puts one entry and raises a counter, and some of
its input is validated only after that. `Change` says what it puts, and
`call_outcome` how it can end.
-/

namespace GuloGulo.Lifecycle.Retention
open Js Data
open Eff (check wp ReadOnly)

/-- A call of the store that changes something. -/
inductive Operation where
  | item (call : ItemCall)
  | batch (call : BatchCall)

/-- The store the call leaves. -/
def Operation.after (cfg : RetentionConfig) (s : RetentionStore) : Operation → RetentionStore
  | item call => (call.run cfg s).2
  | batch call => (runPurgeBatch cfg call s).2

/-- How often `checkHold` has read the clock. -/
def HoldRequest.readings (q : HoldRequest) : Nat := if q.expiresAt.isSome then 1 else 0

section
variable (cfg : RetentionConfig) (env : Ambient) (input : JsValue) (s : RetentionStore)

/-- The entry a call puts at a scope. -/
inductive Change : ItemMethod → RetentionScope → Entry → Prop where
  | deleted (key : ItemKey) (type : JsString) (deletedAt retentionUntil : Int)
      (checked : checkDeletion cfg env input = .ok (key, type)) :
      Change .markDeleted key.scope
        (trashed (s.records.get key.scope) key.scope type deletedAt retentionUntil)
  | restored (scope : RetentionScope) (e : Entry) (date : Int) (present : s.records.get scope = some e) :
      Change .restoreItem scope { e with
        item := { e.item with state := .restored, restoredAt := some date, retentionUntil := none, lock := none } }
  | held (q : HoldRequest) (createdAt : Int) (checked : (checkHold cfg env input s).1 = .ok q)
      (fresh : q.entry.holds.get q.holdId = none) :
      Change .addHold q.scope { q.entry with
        holds := q.entry.holds.set q.holdId ⟨q.holdId, q.reasonCode, createdAt, q.expiresAt⟩ }
  | released (scope : RetentionScope) (holdId : JsString) (e : Entry)
      (checked : (checkHoldRelease input s).1 = .ok (scope, holdId, e)) :
      Change .releaseHold scope { e with holds := e.holds.delete holdId }
  | locked (scope : RetentionScope) (e : Entry) (lock : Lock) (present : s.records.get scope = some e) :
      Change .acquireLock scope { e with item := { e.item with lock := some lock } }
  | unlocked (scope : RetentionScope) (e : Entry) (present : s.records.get scope = some e) :
      Change .releaseLock scope { e with item := { e.item with lock := none } }

/-- What is validated only after the entry was put: it passes, if it comes to that. -/
def LateChecksPass : ItemMethod → Prop
  | .markDeleted => ∀ key type, checkDeletion cfg env input = .ok (key, type) →
      s.itemResults.get key = none → (deletionDates cfg env input).isOk →
        (normalizeActor (input.get "actor") key.scope.userId).isOk
  | .restoreItem => ∀ scope key, scopeOf input = .ok scope → identifyItem env input false scope = .ok key →
      s.itemResults.get key = none → (checkRestore cfg env input key s).1.isOk →
        (normalizeActor (input.get "actor") key.scope.userId).isOk
  | .addHold => ∀ q, (checkHold cfg env input s).1 = .ok q → q.entry.holds.get q.holdId = none →
      (dateOr cfg env q.readings (input.get "occurredAt") "occurredAt").isOk →
        (normalizeActor (input.get "actor") q.scope.userId).isOk ∧
          (occurredAt cfg env (q.readings + 1) (input.get "occurredAt")).isOk
  | .releaseHold => ∀ scope holdId e, (checkHoldRelease input s).1 = .ok (scope, holdId, e) →
      (e.holds.get holdId).isSome →
        (normalizeActor (input.get "actor") scope.userId).isOk ∧
          (occurredAt cfg env 0 (input.get "occurredAt")).isOk
  | .acquireLock | .releaseLock => True

/-- The store with an entry put, and no counter lower than before. -/
structure Puts (scope : RetentionScope) (e : Entry) (s' : RetentionStore) : Prop where
  records : s'.records = (s.put scope e).records
  grows : ∀ m, s.metrics m ≤ s'.metrics m

/-- How a call ends: it has changed nothing, or it has put an entry and then
thrown, or it has put an entry and returned. -/
inductive Outcome (method : ItemMethod) :
    Except (Thrown RetentionError) RetentionItemOperation → RetentionStore → Prop where
  | refused (e : Thrown RetentionError) (late : LateChecksPass cfg env input s method) :
      Outcome method (.error e) s
  | answered (output : RetentionItemOperation) (late : LateChecksPass cfg env input s method) :
      Outcome method (.ok output) s
  | interrupted (scope : RetentionScope) (entry : Entry) (e : Thrown RetentionError) (s' : RetentionStore)
      (change : Change cfg env input s method scope entry) (puts : Puts s scope entry s')
      (counts : ∃ m, s.metrics m < s'.metrics m) (late : ¬ LateChecksPass cfg env input s method) :
      Outcome method (.error e) s'
  | done (scope : RetentionScope) (entry : Entry) (output : RetentionItemOperation) (s' : RetentionStore)
      (change : Change cfg env input s method scope entry) (puts : Puts s scope entry s')
      (late : LateChecksPass cfg env input s method) : Outcome method (.ok output) s'

end

section
variable {cfg : RetentionConfig} {env : Ambient} {input : JsValue} {s s' : RetentionStore}

theorem increment_grows (s : RetentionStore) (name m : MetricName) : s.metrics m ≤ (s.increment name 1).metrics m := by
  show s.metrics m ≤ if m = name then s.metrics m + 1 else s.metrics m
  split <;> omega

theorem increment_counts (s : RetentionStore) (name : MetricName) :
    s.metrics name < (s.increment name 1).metrics name := by
  show s.metrics name < if name = name then s.metrics name + 1 else s.metrics name
  rw [if_pos rfl]
  omega

theorem puts_put (s : RetentionStore) (scope : RetentionScope) (e : Entry) : Puts s scope e (s.put scope e) :=
  ⟨rfl, fun _ => Nat.le_refl _⟩

theorem puts_increment {scope : RetentionScope} {e : Entry} (puts : Puts s scope e s') (name : MetricName) :
    Puts s scope e (s'.increment name 1) :=
  ⟨puts.records, fun m => Nat.le_trans (puts.grows m) (increment_grows s' name m)⟩

/-- A counter raised after the entry was put. -/
theorem puts_counts {scope : RetentionScope} {e : Entry} (puts : Puts s scope e s') (name : MetricName) :
    ∃ m, s.metrics m < (s'.increment name 1).metrics m :=
  ⟨name, Nat.lt_of_le_of_lt (puts.grows name) (increment_counts s' name)⟩

variable {α : Type} {Q : Except (Thrown RetentionError) α → RetentionStore → Prop}

theorem wp_increment_bind {name : MetricName} {f : Unit → RetentionOp α} :
    wp (increment name >>= f) s Q ↔ wp (f ()) (s.increment name 1) Q := Iff.rfl

theorem markDeleted_outcome : wp (markDeleted cfg env input) s (Outcome cfg env input s .markDeleted) := by
  refine Eff.wp_check_bind.mpr ⟨?_, ?_⟩
  · intro e he
    apply Outcome.refused
    intro key type checked
    rw [he] at checked
    cases checked
  · rintro ⟨key, type⟩ checked
    show wp (unlessReplayed key _) s _
    rw [unlessReplayed, Eff.wp_get_bind]
    have late (h : s.itemResults.get key = none → (deletionDates cfg env input).isOk →
        (normalizeActor (input.get "actor") key.scope.userId).isOk) :
        LateChecksPass cfg env input s .markDeleted := by
      intro key' type' checked'
      cases checked.symm.trans checked'
      exact h
    cases stored : s.itemResults.get key with
    | some prior =>
      apply Outcome.answered
      apply late
      intro fresh
      rw [stored] at fresh
      cases fresh
    | none =>
      refine Eff.wp_lift_bind.mpr ⟨?_, ?_⟩
      · intro e he
        apply Outcome.refused
        apply late
        intro _ dated
        exact absurd dated (not_isOk_of_eq he)
      · rintro ⟨deletedAt, retentionUntil⟩ dated
        dsimp only
        rw [Eff.wp_get_bind]
        have change := Change.deleted (s := s) key type deletedAt retentionUntil checked
        have puts := puts_put s key.scope (trashed (s.records.get key.scope) key.scope type deletedAt retentionUntil)
        refine wp_put_bind.mpr (wp_increment_bind.mpr (Eff.wp_check_bind.mpr ⟨?_, ?_⟩))
        · intro e he
          refine .interrupted _ _ _ _ change (puts_increment puts _) (puts_counts puts _) ?_
          intro passes
          exact not_isOk_of_eq he (passes key type checked stored (isOk_of_eq dated))
        · intro actor hactor
          have counted := puts_increment puts .itemsTrashed
          refine .done _ _ _ _ change ⟨counted.records, counted.grows⟩ ?_
          exact late fun _ _ => isOk_of_eq hactor

theorem restoreItem_outcome : wp (restoreItem cfg env input) s (Outcome cfg env input s .restoreItem) := by
  refine Eff.wp_check_bind.mpr ⟨?_, ?_⟩
  · intro e he
    apply Outcome.refused
    intro scope key checked
    rw [he] at checked
    cases checked
  intro scope hscope
  refine Eff.wp_check_bind.mpr ⟨?_, ?_⟩
  · intro e he
    apply Outcome.refused
    intro scope' key hscope' identified
    cases hscope.symm.trans hscope'
    rw [he] at identified
    cases identified
  intro key identified
  have late (h : s.itemResults.get key = none → (checkRestore cfg env input key s).1.isOk →
      (normalizeActor (input.get "actor") key.scope.userId).isOk) :
      LateChecksPass cfg env input s .restoreItem := by
    intro scope' key' hscope' identified'
    cases hscope.symm.trans hscope'
    cases identified.symm.trans identified'
    exact h
  rw [unlessReplayed, Eff.wp_get_bind]
  cases stored : s.itemResults.get key with
  | some prior =>
    apply Outcome.answered
    apply late
    intro fresh
    rw [stored] at fresh
    cases fresh
  | none =>
    refine Eff.wp_readOnly_bind checkRestore_readOnly ?_ ?_
    · intro e he
      apply Outcome.refused
      apply late
      intro _ checked
      exact absurd checked (not_isOk_of_eq he)
    · rintro ⟨e, date⟩ checked
      obtain ⟨present, _⟩ := checkRestore_ok checked
      have change : Change cfg env input s .restoreItem key.scope _ := .restored key.scope e date present
      have puts := puts_put s key.scope { e with
        item := { e.item with state := .restored, restoredAt := some date, retentionUntil := none, lock := none } }
      refine wp_put_bind.mpr (wp_increment_bind.mpr (Eff.wp_check_bind.mpr ⟨?_, ?_⟩))
      · intro e he
        refine .interrupted _ _ _ _ change (puts_increment puts _) (puts_counts puts _) ?_
        intro passes
        exact not_isOk_of_eq he (passes scope key hscope identified stored (isOk_of_eq checked))
      · intro actor hactor
        have counted := puts_increment puts .itemsRestored
        refine .done _ _ _ _ change ⟨counted.records, counted.grows⟩ ?_
        exact late fun _ _ => isOk_of_eq hactor

theorem addHold_outcome : wp (addHold cfg env input) s (Outcome cfg env input s .addHold) := by
  refine Eff.wp_readOnly_bind checkHold_readOnly ?_ ?_
  · intro e he
    apply Outcome.refused
    intro q checked
    rw [he] at checked
    cases checked
  intro q checked
  have late (h : q.entry.holds.get q.holdId = none →
      (dateOr cfg env q.readings (input.get "occurredAt") "occurredAt").isOk →
        (normalizeActor (input.get "actor") q.scope.userId).isOk ∧
          (occurredAt cfg env (q.readings + 1) (input.get "occurredAt")).isOk) :
      LateChecksPass cfg env input s .addHold := by
    intro q' checked'
    cases checked.symm.trans checked'
    exact h
  dsimp only
  by_cases held : (q.entry.holds.get q.holdId).isSome
  · rw [if_pos held]
    apply Outcome.answered
    apply late
    intro fresh
    rw [fresh] at held
    cases held
  · rw [if_neg held]
    have fresh : q.entry.holds.get q.holdId = none := by simpa using held
    refine Eff.wp_lift_bind.mpr ⟨?_, ?_⟩
    · intro e he
      apply Outcome.refused
      apply late
      intro _ dated
      exact absurd dated (not_isOk_of_eq he)
    intro createdAt dated
    have change := Change.held q createdAt checked fresh
    have puts := puts_increment (puts_put s q.scope { q.entry with
      holds := q.entry.holds.set q.holdId ⟨q.holdId, q.reasonCode, createdAt, q.expiresAt⟩ }) .itemsHeld
    refine wp_put_bind.mpr (wp_increment_bind.mpr (wp_increment_bind.mpr (Eff.wp_check_bind.mpr ⟨?_, ?_⟩)))
    · intro e he
      refine .interrupted _ _ _ _ change (puts_increment puts _) (puts_counts puts _) ?_
      intro passes
      exact not_isOk_of_eq he (passes q checked fresh (isOk_of_eq dated)).1
    intro actor hactor
    refine Eff.wp_lift_bind.mpr ⟨?_, ?_⟩
    · intro e he
      refine .interrupted _ _ _ _ change (puts_increment puts _) (puts_counts puts _) ?_
      intro passes
      exact not_isOk_of_eq he (passes q checked fresh (isOk_of_eq dated)).2
    · intro time htime
      have counted := puts_increment puts .holdsAdded
      refine .done _ _ _ _ change ⟨counted.records, counted.grows⟩ ?_
      exact late fun _ _ => ⟨isOk_of_eq hactor, isOk_of_eq htime⟩

theorem releaseHold_outcome : wp (releaseHold cfg env input) s (Outcome cfg env input s .releaseHold) := by
  refine Eff.wp_readOnly_bind checkHoldRelease_readOnly ?_ ?_
  · intro e he
    apply Outcome.refused
    intro scope holdId entry checked
    rw [he] at checked
    cases checked
  rintro ⟨scope, holdId, e⟩ checked
  have late (h : (e.holds.get holdId).isSome →
        (normalizeActor (input.get "actor") scope.userId).isOk ∧
          (occurredAt cfg env 0 (input.get "occurredAt")).isOk) :
      LateChecksPass cfg env input s .releaseHold := by
    intro scope' holdId' e' checked'
    cases checked.symm.trans checked'
    exact h
  dsimp only
  by_cases free : (e.holds.get holdId).isNone
  · rw [if_pos free]
    apply Outcome.answered
    apply late
    intro held
    rw [Option.isNone_iff_eq_none] at free
    rw [free] at held
    cases held
  · rw [if_neg free]
    have held : (e.holds.get holdId).isSome := by simpa [Option.isSome_iff_ne_none] using free
    have change : Change cfg env input s .releaseHold scope _ := .released scope holdId e checked
    have puts := puts_put s scope { e with holds := e.holds.delete holdId }
    refine wp_put_bind.mpr (wp_increment_bind.mpr (Eff.wp_check_bind.mpr ⟨?_, ?_⟩))
    · intro e' he
      refine .interrupted _ _ _ _ change (puts_increment puts _) (puts_counts puts _) ?_
      intro passes
      exact not_isOk_of_eq he (passes scope holdId e checked held).1
    intro actor hactor
    refine Eff.wp_lift_bind.mpr ⟨?_, ?_⟩
    · intro e' he
      refine .interrupted _ _ _ _ change (puts_increment puts _) (puts_counts puts _) ?_
      intro passes
      exact not_isOk_of_eq he (passes scope holdId e checked held).2
    · intro time htime
      have counted := puts_increment puts .holdsReleased
      refine .done _ _ _ _ change ⟨counted.records, counted.grows⟩ ?_
      exact late fun _ => ⟨isOk_of_eq hactor, isOk_of_eq htime⟩

theorem acquireLock_outcome : wp (acquireLock cfg env input) s (Outcome cfg env input s .acquireLock) := by
  refine Eff.wp_readOnly_bind checkLock_readOnly (fun _ _ => .refused _ trivial) ?_
  rintro ⟨scope, e, lock⟩ checked
  have present : s.records.get scope = some e := checkLock_ok checked
  exact .done _ _ _ _ (.locked scope e lock present) (puts_increment (puts_put s scope _) .itemsLocked) trivial

theorem releaseLock_outcome : wp (releaseLock input) s (Outcome cfg env input s .releaseLock) := by
  refine Eff.wp_readOnly_bind checkUnlock_readOnly (fun _ _ => .refused _ trivial) ?_
  rintro ⟨scope, e⟩ checked
  exact .done _ _ _ _ (.unlocked scope e (checkUnlock_ok checked)) (puts_put s scope _) trivial

theorem call_outcome (cfg : RetentionConfig) (call : ItemCall) (s : RetentionStore) :
    Outcome cfg call.env call.input s call.method (call.run cfg s).1 (call.run cfg s).2 := by
  rw [ItemCall.run]
  cases call.method with
  | markDeleted => exact markDeleted_outcome
  | restoreItem => exact restoreItem_outcome
  | addHold => exact addHold_outcome
  | releaseHold => exact releaseHold_outcome
  | acquireLock => exact acquireLock_outcome
  | releaseLock => exact releaseLock_outcome

/-- No call lowers a counter. -/
theorem call_grows (cfg : RetentionConfig) (call : ItemCall) (s : RetentionStore) (m : MetricName) :
    s.metrics m ≤ (call.run cfg s).2.metrics m := by
  have outcome := call_outcome cfg call s
  generalize (call.run cfg s).1 = r at outcome
  generalize (call.run cfg s).2 = s' at outcome
  cases outcome with
  | refused | answered => exact Nat.le_refl _
  | interrupted _ _ _ _ _ puts | done _ _ _ _ _ puts => exact puts.grows m

theorem runCalls_grows (cfg : RetentionConfig) (calls : List ItemCall) (s : RetentionStore) (m : MetricName) :
    s.metrics m ≤ (runCalls cfg calls s).metrics m := by
  induction calls generalizing s with
  | nil => exact Nat.le_refl _
  | cons call calls ih => exact Nat.le_trans (call_grows cfg call s m) (ih _)

end

end GuloGulo.Lifecycle.Retention
