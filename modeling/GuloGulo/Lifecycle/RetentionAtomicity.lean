import GuloGulo.Lifecycle.PurgeBatch
import GuloGulo.Lifecycle.RetentionOutcomes

/-!
# Retention calls that throw

A call on an item is atomic exactly when what it validates after its first
change passes. A batch has raised a counter before its loop, so it is atomic
exactly when nothing throws from there on: the date of a lease, or the clock.
-/

namespace GuloGulo.Lifecycle.Retention
open Js Data
open Eff (check wp ReadOnly)

namespace Operation
variable (cfg : RetentionConfig) (s : RetentionStore)

def Throws : Operation → Prop
  | item call => ∃ e, (call.run cfg s).1 = .error e
  | batch call => ∃ e, (runPurgeBatch cfg call s).1 = .error e

/-- Should the call throw, the store is what it was. -/
def Atomic (operation : Operation) : Prop := operation.Throws cfg s → operation.after cfg s = s

/-- What can throw after a change: it does not, if it comes to that. -/
def LateChecksPass : Operation → Prop
  | item call => Retention.LateChecksPass cfg call.env call.input s call.method
  | batch call => ∀ key limit startedAt, identifyBatch cfg call.env call.input = .ok (key, limit) →
      s.batchResults.get key = none → checkBatch cfg call = .ok startedAt →
        (candidates cfg s key.tenant key.user startedAt limit = [] ∨ (dateAt (startedAt + 30000)).isOk) ∧
          (current cfg call.env 2).isOk ∧ (current cfg call.env 3).isOk

end Operation

section
variable {cfg : RetentionConfig} {s : RetentionStore} {ctx : BatchContext} {c : RetentionItem} {b : Batch}

theorem turn_grows (m : MetricName) : s.metrics m ≤ (turn ctx c b s).2.metrics m := by
  have outcome : Turn ctx c b s (turn ctx c b s).1 (turn ctx c b s).2 := turn_outcome
  have called (e : Entry) (lease : Int) : s.metrics m ≤ (ctx.called b s e lease).metrics m :=
    runCalls_grows ctx.cfg _ (ctx.lockStore s e lease) m
  generalize (turn ctx c b s).1 = r at outcome
  generalize (turn ctx c b s).2 = s' at outcome
  cases outcome with
  | passed | thrown => exact Nat.le_refl _
  | failed e lease => exact Nat.le_trans (called e lease) (increment_grows _ .purgeFailures m)
  | changed e lease => exact called e lease
  | purged e lease =>
    have updated : s.metrics m ≤
        ((ctx.called b s e lease).update (ctx.lockItem e lease) (purgeAt ctx.startedAt)).metrics m := called e lease
    exact Nat.le_trans updated (increment_grows _ .itemsPurged m)

theorem loop_returns (cs : List RetentionItem) (lease : (dateAt (ctx.startedAt + 30000)).isOk) :
    ∃ b', (purgeLoop ctx cs b s).1 = .ok b' := by
  induction cs generalizing b s with
  | nil => exact ⟨b, rfl⟩
  | cons c cs ih =>
    have returns : ∃ b₁, (turn ctx c b s).1 = .ok b₁ := turn_returns lease
    obtain ⟨b₁, first⟩ := returns
    change ∃ b', (Eff.bind (turn ctx c b) (purgeLoop ctx cs) s).1 = .ok b'
    unfold Eff.bind
    rcases hturn : turn ctx c b s with ⟨r, s₁⟩
    rw [hturn] at first
    cases first
    exact ih

theorem loop_throws (cs : List RetentionItem) {e : Entry} {thrown : Thrown RetentionError}
    (ready : ctx.ready s c = some e) (lease : dateAt (ctx.startedAt + 30000) = .error thrown) :
    (purgeLoop ctx (c :: cs) b s).1 = .error thrown := by
  have first := turn_throws (b := b) ready lease
  change (Eff.bind (turn ctx c b) (purgeLoop ctx cs) s).1 = .error thrown
  unfold Eff.bind
  rcases hturn : turn ctx c b s with ⟨r, s₁⟩
  rw [hturn] at first
  cases first
  rfl

theorem loop_grows (cs : List RetentionItem) (m : MetricName) :
    s.metrics m ≤ (purgeLoop ctx cs b s).2.metrics m := by
  induction cs generalizing b s with
  | nil => exact Nat.le_refl _
  | cons c cs ih =>
    have first : s.metrics m ≤ (turn ctx c b s).2.metrics m := turn_grows m
    change _ ≤ (Eff.bind (turn ctx c b) (purgeLoop ctx cs) s).2.metrics m
    unfold Eff.bind
    rcases hturn : turn ctx c b s with ⟨r, s₁⟩
    rw [hturn] at first
    cases r with
    | error e => exact first
    | ok b₁ => exact Nat.le_trans first ih

theorem batchLoop_grows (cfg : RetentionConfig) (s : RetentionStore) (call : BatchCall) (key : BatchKey) (limit : Nat) (startedAt : Int) :
    s.metrics .purgeBatches < (batchLoop cfg call s key limit startedAt).2.metrics .purgeBatches := by
  have begun : s.metrics .purgeBatches <
      (batchStore s (candidates cfg s key.tenant key.user startedAt limit).length).metrics .purgeBatches :=
    Nat.lt_succ_self _
  exact Nat.lt_of_lt_of_le begun (loop_grows _ .purgeBatches)

/-- If nothing throws from the loop on, a call that throws has not begun. -/
theorem batch_atomic_of_late (call : BatchCall) (late : (Operation.batch call).LateChecksPass cfg s) :
    (Operation.batch call).Atomic cfg s := by
  rintro ⟨e, throws⟩
  have outcome : BatchOutcome cfg call s (runPurgeBatch cfg call s).1 (runPurgeBatch cfg call s).2 :=
    batch_outcome call
  change (runPurgeBatch cfg call s).2 = s
  rw [throws] at outcome
  generalize (runPurgeBatch cfg call s).2 = s' at outcome
  cases outcome with
  | refused => rfl
  | loopThrew key limit startedAt _ s₁ begins loop =>
    exfalso
    obtain ⟨none | lease, _⟩ := late key limit startedAt begins.identified begins.fresh begins.checked
    · rw [batchLoop, none] at loop
      cases loop
    · have completes : ∃ b, (batchLoop cfg call s key limit startedAt).1 = .ok b := loop_returns _ lease
      obtain ⟨b, returns⟩ := completes
      have thrown : (batchLoop cfg call s key limit startedAt).1 = .error e := by rw [loop]
      cases returns.symm.trans thrown
  | clockThrew key limit startedAt _ b s₁ begins loop clock =>
    exact absurd (late key limit startedAt begins.identified begins.fresh begins.checked).2 clock

/-- A batch that has begun has raised a counter when it throws. -/
theorem batch_late_of_atomic (keyed : Keyed s) (call : BatchCall) (atomic : (Operation.batch call).Atomic cfg s) :
    (Operation.batch call).LateChecksPass cfg s := by
  intro key limit startedAt identified fresh checked
  have outcome : BatchOutcome cfg call s (runPurgeBatch cfg call s).1 (runPurgeBatch cfg call s).2 :=
    batch_outcome call
  have same : ∀ e, (runPurgeBatch cfg call s).1 = .error e → (runPurgeBatch cfg call s).2 = s :=
    fun e he => atomic ⟨e, he⟩
  have grows := batchLoop_grows cfg s call key limit startedAt
  generalize (runPurgeBatch cfg call s).1 = r at outcome same
  generalize (runPurgeBatch cfg call s).2 = s' at outcome same
  have begins : Begins cfg call s key limit startedAt := ⟨identified, fresh, checked⟩
  have only {key' : BatchKey} {limit' : Nat} {startedAt' : Int} (begins' : Begins cfg call s key' limit' startedAt') :
      key' = key ∧ limit' = limit ∧ startedAt' = startedAt := by
    cases begins'.identified.symm.trans identified
    cases begins'.checked.symm.trans checked
    exact ⟨rfl, rfl, rfl⟩
  cases outcome with
  | refused _ never => exact absurd begins (never key limit startedAt)
  | replayed key' limit' prior identified' stored =>
    cases identified'.symm.trans identified
    rw [fresh] at stored
    cases stored
  | loopThrew key' limit' startedAt' e s₁ begins' loop =>
    obtain ⟨rfl, rfl, rfl⟩ := only begins'
    exfalso
    rw [loop, same e rfl] at grows
    exact Nat.lt_irrefl _ grows
  | clockThrew key' limit' startedAt' e b s₁ begins' loop =>
    obtain ⟨rfl, rfl, rfl⟩ := only begins'
    exfalso
    have kept : (s₁.increment .itemsSkipped b.skippedItems.length).metrics .purgeBatches = s₁.metrics .purgeBatches :=
      rfl
    rw [loop, ← kept, same e rfl] at grows
    exact Nat.lt_irrefl _ grows
  | completed key' limit' startedAt' b s₁ output _ begins' loop clock =>
    obtain ⟨rfl, rfl, rfl⟩ := only begins'
    refine ⟨?_, clock⟩
    cases listed : candidates cfg s key'.tenant key'.user startedAt' limit' with
    | nil => exact .inl rfl
    | cons c cs =>
      right
      cases lease : dateAt (startedAt' + 30000) with
      | ok t => rfl
      | error e =>
        exfalso
        have first : c ∈ candidates cfg s key'.tenant key'.user startedAt' limit' := by
          rw [listed]
          exact List.mem_cons_self
        have at_ : (batchContext cfg call key' startedAt').startedAt = startedAt' := rfl
        obtain ⟨entry, ready⟩ := candidates_ready (n := (c :: cs).length) keyed at_ first
        have throws := loop_throws (b := .empty) cs ready lease
        rw [batchLoop, listed] at loop
        rw [loop] at throws
        cases throws

theorem item_atomic_iff (call : ItemCall) :
    (Operation.item call).Atomic cfg s ↔ (Operation.item call).LateChecksPass cfg s := by
  have outcome := call_outcome cfg call s
  change ((∃ e, (call.run cfg s).1 = .error e) → (call.run cfg s).2 = s) ↔
    LateChecksPass cfg call.env call.input s call.method
  generalize (call.run cfg s).1 = r at outcome
  generalize (call.run cfg s).2 = s' at outcome
  cases outcome with
  | refused e late => exact ⟨fun _ => late, fun _ _ => rfl⟩
  | answered output late => exact ⟨fun _ => late, fun _ _ => rfl⟩
  | done scope entry output _ change puts late =>
    refine ⟨fun _ => late, ?_⟩
    rintro _ ⟨e, he⟩
    cases he
  | interrupted scope entry e _ change puts counts late =>
    refine ⟨?_, fun passes => absurd passes late⟩
    intro atomic
    exfalso
    obtain ⟨m, counted⟩ := counts
    rw [atomic ⟨e, rfl⟩] at counted
    omega

/-- In every reachable store, a call that throws leaves the store as it was, if
and only if what can throw after its first change does not, should it get there. -/
theorem operation_atomic_iff (run : Reachable cfg s) (operation : Operation) :
    operation.Atomic cfg s ↔ operation.LateChecksPass cfg s := by
  cases operation with
  | item call => exact item_atomic_iff call
  | batch call =>
    constructor
    · exact batch_late_of_atomic (reachable_keyed run) call
    · exact batch_atomic_of_late call

end

/-- A deletion by an actor that is no object. -/
def deleteByNobody : ItemCall where
  env := sampleEnv 1
  method := .markDeleted
  argument := .object ([("tenantId", "acme"), ("userId", "alice"), ("itemId", "m1"), ("resourceType", "mail"),
    ("idempotencyKey", "d2")].map (fun f => (js f.1, JsValue.string (js f.2))) ++ [(js "actor", .null)])

/-- It throws, and the item is in its second generation. -/
theorem markDeleted_not_atomic :
    Reachable sampleRetention sampleStore ∧ ¬ (Operation.item deleteByNobody).Atomic sampleRetention sampleStore := by
  refine ⟨sampleStore_reachable, ?_⟩
  have facts : ((deleteByNobody.run sampleRetention sampleStore).1.isOk,
      (deleteByNobody.run sampleRetention sampleStore).2.generation sampleMessage,
      sampleStore.generation sampleMessage) = (false, 2, 1) := by
    decide
  obtain ⟨failed, facts⟩ := Prod.mk.inj facts
  obtain ⟨after, before⟩ := Prod.mk.inj facts
  intro atomic
  cases hr : (deleteByNobody.run sampleRetention sampleStore).1 with
  | ok output =>
    rw [hr] at failed
    cases failed
  | error e =>
    have same : (deleteByNobody.run sampleRetention sampleStore).2 = sampleStore := atomic ⟨e, hr⟩
    rw [same, before] at after
    cases after

/-- A deletion by the same actor, of a type of resources that is not enabled. -/
def deleteContact : ItemCall where
  env := sampleEnv 1
  method := .markDeleted
  argument := .object ([("tenantId", "acme"), ("userId", "alice"), ("itemId", "m1"), ("resourceType", "contact"),
    ("idempotencyKey", "d2")].map (fun f => (js f.1, JsValue.string (js f.2))) ++ [(js "actor", .null)])

/-- It throws before the item is touched. -/
theorem operation_atomic_iff_contact : ∃ e, (deleteContact.run sampleRetention sampleStore).1 = .error e ∧
    (deleteContact.run sampleRetention sampleStore).2 = sampleStore := by
  have failed : (deleteContact.run sampleRetention sampleStore).1.isOk = false := by decide
  have atomic : (Operation.item deleteContact).Atomic sampleRetention sampleStore := by
    rw [operation_atomic_iff sampleStore_reachable (.item deleteContact)]
    intro key type checked
    have disabled : (checkDeletion sampleRetention deleteContact.env deleteContact.input).isOk = false := by decide
    rw [checked] at disabled
    cases disabled
  cases hr : (deleteContact.run sampleRetention sampleStore).1 with
  | ok output =>
    rw [hr] at failed
    cases failed
  | error e => exact ⟨e, rfl, atomic ⟨e, hr⟩⟩

end GuloGulo.Lifecycle.Retention
