import GuloGulo.Js.Sha256
import GuloGulo.Lifecycle.RetentionSteps

/-!
# Purge batches

What a batch reports against what it has done, while its callback works on the
same store. A batch goes by a reference to the record it has handed out: when
the callback deletes the item anew, the reference is to a record that is no
longer stored.
-/

namespace GuloGulo.Lifecycle.Retention
open Js Data
open Eff (check wp ReadOnly)

namespace BatchContext
variable (ctx : BatchContext)

/-- The item the callback gets. -/
def handed (e : Entry) (lease : Int) : RetentionItem := publicItem (ctx.lockItem e lease) e.holds

/-- The calls of the callback, and its answer. -/
def answered (b : Batch) (s : RetentionStore) (e : Entry) (lease : Int) : List ItemCall × AdapterAnswer :=
  ctx.answer b (ctx.handed e lease) (ctx.lockStore s e lease)

/-- The store the callback leaves. -/
def called (b : Batch) (s : RetentionStore) (e : Entry) (lease : Int) : RetentionStore :=
  runCalls ctx.cfg (ctx.answered b s e lease).1 (ctx.lockStore s e lease)

/-- The record and holds the second look finds. -/
def found (b : Batch) (s : RetentionStore) (e : Entry) (lease : Int) : RecordItem × Holds :=
  (ctx.called b s e lease).referred (ctx.lockItem e lease)

/-- A round in which the callback is called. -/
structure Hands (candidate : RetentionItem) (s : RetentionStore) (e : Entry) (lease : Int) : Prop where
  ready : ctx.ready s candidate = some e
  lease : dateAt (ctx.startedAt + 30000) = .ok lease

end BatchContext

/-- How a round of the loop ends. -/
inductive Turn (ctx : BatchContext) (candidate : RetentionItem) (b : Batch) (s : RetentionStore) :
    Except (Thrown RetentionError) Batch → RetentionStore → Prop where
  | passed (ready : ctx.ready s candidate = none) :
      Turn ctx candidate b s
        (.ok { b with skippedItems := b.skippedItems ++ [(candidate.itemId, .stateChanged)] }) s
  | thrown (e : Thrown RetentionError) : Turn ctx candidate b s (.error e) s
  | failed (e : Entry) (lease : Int) (code : JsString) (event : RetentionAuditEvent)
      (hands : ctx.Hands candidate s e lease) (fails : (ctx.answered b s e lease).2.failure = some code)
      (isFailure : event.event.isPurgeFailed) :
      Turn ctx candidate b s (.ok { b with
        handed := b.handed ++ [ctx.handed e lease], failures := b.failures ++ [(e.item.itemId, code)]
        events := b.events ++ [event], skippedItems := b.skippedItems ++ [(e.item.itemId, .purgeFailed)] })
        ((((ctx.called b s e lease).increment .purgeFailures 1).record event).update (ctx.lockItem e lease) unlock)
  | changed (e : Entry) (lease : Int) (hands : ctx.Hands candidate s e lease)
      (accepts : (ctx.answered b s e lease).2.failure = none)
      (notDue : isDue (ctx.found b s e lease).1 (ctx.found b s e lease).2 ctx.startedAt = false) :
      Turn ctx candidate b s (.ok { b with
        handed := b.handed ++ [ctx.handed e lease]
        skippedItems := b.skippedItems ++ [(e.item.itemId, .stateChanged)] })
        ((ctx.called b s e lease).update (ctx.lockItem e lease) unlock)
  | purged (e : Entry) (lease : Int) (event : RetentionAuditEvent) (hands : ctx.Hands candidate s e lease)
      (accepts : (ctx.answered b s e lease).2.failure = none)
      (due : isDue (ctx.found b s e lease).1 (ctx.found b s e lease).2 ctx.startedAt)
      (isPurge : event.event.isPurge) :
      Turn ctx candidate b s (.ok { b with
        handed := b.handed ++ [ctx.handed e lease], events := b.events ++ [event]
        items := b.items ++
          [publicItem (purgeAt ctx.startedAt (ctx.found b s e lease).1) (ctx.found b s e lease).2] })
        ((((ctx.called b s e lease).update (ctx.lockItem e lease) (purgeAt ctx.startedAt)).increment
          .itemsPurged 1).record event)

section
variable {ctx : BatchContext} {candidate : RetentionItem} {b : Batch} {s : RetentionStore}

theorem turn_outcome : wp (turn ctx candidate b) s (Turn ctx candidate b s) := by
  rw [turn, Eff.wp_get_bind]
  cases ready : ctx.ready s candidate with
  | none => exact .passed ready
  | some e =>
    refine Eff.wp_lift_bind.mpr ⟨fun e _ => .thrown e, ?_⟩
    intro lease hlease
    have hands : ctx.Hands candidate s e lease := ⟨ready, hlease⟩
    rw [Eff.wp_modify_bind]
    cases fails : (ctx.answered b s e lease).2.failure with
    | some code =>
      rw [BatchContext.answered, BatchContext.handed] at fails
      simp only [fails]
      exact .failed e lease code _ hands fails rfl
    | none =>
      have accepts := fails
      rw [BatchContext.answered, BatchContext.handed] at fails
      simp only [fails]
      rw [Eff.wp_get_bind]
      by_cases due : isDue (ctx.found b s e lease).1 (ctx.found b s e lease).2 ctx.startedAt
      · show wp (if isDue (ctx.found b s e lease).1 (ctx.found b s e lease).2 ctx.startedAt then _ else _) _ _
        rw [if_pos due]
        exact .purged e lease _ hands accepts due rfl
      · show wp (if isDue (ctx.found b s e lease).1 (ctx.found b s e lease).2 ctx.startedAt then _ else _) _ _
        rw [if_neg due]
        exact .changed e lease hands accepts (by simpa using due)

theorem turn_returns (lease : (dateAt (ctx.startedAt + 30000)).isOk) :
    ∃ b', (turn ctx candidate b s).1 = .ok b' := by
  have outcome : wp (turn ctx candidate b) s fun r _ => ∃ b', r = .ok b' := by
    rw [turn, Eff.wp_get_bind]
    cases ctx.ready s candidate with
    | none => exact ⟨_, rfl⟩
    | some e =>
      refine Eff.wp_lift_bind.mpr ⟨?_, ?_⟩
      · intro e' he'
        exact absurd lease (not_isOk_of_eq he')
      · intro time _
        rw [Eff.wp_modify_bind]
        dsimp only
        cases AdapterAnswer.failure _ with
        | some code => exact ⟨_, rfl⟩
        | none =>
          dsimp only
          rw [Eff.wp_get_bind]
          split <;> exact ⟨_, rfl⟩
  exact outcome

theorem turn_throws {e : Entry} {thrown : Thrown RetentionError} (ready : ctx.ready s candidate = some e)
    (lease : dateAt (ctx.startedAt + 30000) = .error thrown) : (turn ctx candidate b s).1 = .error thrown := by
  have outcome : wp (turn ctx candidate b) s fun r _ => r = .error thrown := by
    rw [turn, Eff.wp_get_bind, ready]
    refine Eff.wp_lift_bind.mpr ⟨?_, ?_⟩
    · intro e' he'
      cases lease.symm.trans he'
      rfl
    · intro time htime
      cases lease.symm.trans htime
  exact outcome

end

/-! ## What a round leaves of the items -/

section
variable {s s' s'' : RetentionStore}

theorem called_trans (first : Called s s') (second : Called s' s'') : Called s s'' where
  keyed h := second.keyed (first.keyed h)
  later scope := later_trans (first.later scope) (second.later scope)
  purged := second.purged.trans first.purged
  failures := second.failures.trans first.failures
  events := second.events.trans first.events

/-- Changes of a record that leave its identity, and purged as final. -/
structure Mild (f : RecordItem → RecordItem) : Prop where
  generation : ∀ r, (f r).generation = r.generation
  scope : ∀ r, (f r).toRetentionScope = r.toRetentionScope
  state : ∀ r, r.state = .purged → (f r).state = .purged

theorem unlock_mild : Mild unlock := ⟨fun _ => rfl, fun _ => rfl, fun _ => id⟩

theorem purgeAt_mild (at_ : Int) : Mild (purgeAt at_) := ⟨fun _ => rfl, fun _ => rfl, fun _ _ => rfl⟩

variable {f : RecordItem → RecordItem}

theorem update_item (e : Entry) (generation : Nat) :
    (e.update generation f).item = if e.item.generation = generation then f e.item else e.item := by
  unfold Entry.update RecordItem.isGeneration
  by_cases h : e.item.generation = generation <;> simp [h]

theorem update_generation (mild : Mild f) (e : Entry) (generation : Nat) :
    (e.update generation f).item.generation = e.item.generation := by
  rw [update_item]
  split
  · exact mild.generation e.item
  · rfl

theorem update_get (s : RetentionStore) (item : RecordItem) (f : RecordItem → RecordItem) (k : RetentionScope) :
    (s.update item f).records.get k =
      if k = item.toRetentionScope then (s.records.get k).map (·.update item.generation f) else s.records.get k := by
  simp only [RetentionStore.update, OrderedMap.get_adjust]

theorem under_update (mild : Mild f) {scope : RetentionScope} {e : Entry} (under : e.Under scope)
    (generation : Nat) : (e.update generation f).Under scope := by
  obtain ⟨own, replaced⟩ := under
  constructor
  · rw [update_item]
    split
    · exact (mild.scope e.item).trans own
    · exact own
  · intro r hr
    obtain ⟨r', hr', rfl⟩ := List.mem_map.mp hr
    by_cases h : r'.isGeneration generation
    · rw [if_pos h]
      exact (mild.scope r').trans (replaced r' hr')
    · rw [if_neg h]
      exact replaced r' hr'

theorem update_called (mild : Mild f) (s : RetentionStore) (item : RecordItem) : Called s (s.update item f) := by
  refine ⟨?_, ?_, rfl, rfl, rfl⟩
  · intro keyed k e he
    rw [update_get] at he
    split at he
    · obtain ⟨e₀, he₀, rfl⟩ := Option.map_eq_some_iff.mp he
      exact under_update mild (keyed k e₀ he₀) _
    · exact keyed k e he
  · intro k e he
    rw [update_get]
    split
    · refine ⟨e.update item.generation f, by rw [he]; rfl, ?_, ?_⟩
      · rw [update_generation mild]
      · intro _ purged
        rw [update_item]
        split
        · exact mild.state e.item purged
        · exact purged
    · exact later_refl _ e he

theorem update_storeGeneration (mild : Mild f) (s : RetentionStore) (item : RecordItem) (k : RetentionScope) :
    (s.update item f).generation k = s.generation k := by
  unfold RetentionStore.generation
  rw [update_get]
  split
  · cases s.records.get k with
    | none => rfl
    | some e => exact update_generation mild e item.generation
  · rfl

theorem referred_identity (keyed : Keyed s) (item : RecordItem) :
    (s.referred item).1.toRetentionScope = item.toRetentionScope ∧
      (s.referred item).1.generation = item.generation := by
  unfold RetentionStore.referred
  cases he : s.records.get item.toRetentionScope with
  | none => exact ⟨rfl, rfl⟩
  | some e =>
    obtain ⟨own, replaced⟩ := keyed _ e he
    show (e.referred item).toRetentionScope = _ ∧ (e.referred item).generation = _
    unfold Entry.referred
    cases hr : (e.item :: e.replaced).find? (RecordItem.isGeneration item.generation) with
    | none => exact ⟨rfl, rfl⟩
    | some r =>
      have found := List.find?_some hr
      refine ⟨?_, by simpa [RecordItem.isGeneration] using found⟩
      rcases List.mem_cons.mp (List.mem_of_find?_eq_some hr) with rfl | member
      · exact own
      · exact replaced r member

end

section
variable {ctx : BatchContext} {candidate : RetentionItem} {b : Batch} {s : RetentionStore} {e : Entry} {lease : Int}

theorem ready_present (h : ctx.ready s candidate = some e) :
    s.records.get candidate.toRetentionScope = some e ∧ isDue e.item e.holds ctx.startedAt ∧
      locked e.item ctx.startedAt = false := by
  obtain ⟨present, due⟩ := Option.filter_eq_some_iff.mp h
  simp only [Bool.and_eq_true, Bool.not_eq_true'] at due
  exact ⟨present, due⟩

theorem lockStore_get (keyed : Keyed s) (hands : ctx.Hands candidate s e lease) (k : RetentionScope) :
    (ctx.lockStore s e lease).records.get k =
      if k = candidate.toRetentionScope then some { e with item := ctx.lockItem e lease } else s.records.get k := by
  obtain ⟨present, _⟩ := ready_present hands.ready
  rw [BatchContext.lockStore, put_get, (keyed _ e present).1]

theorem lockStore_called (keyed : Keyed s) (hands : ctx.Hands candidate s e lease) :
    Called s (ctx.lockStore s e lease) := by
  obtain ⟨present, _⟩ := ready_present hands.ready
  refine ⟨?_, ?_, rfl, rfl, rfl⟩
  · intro _ k e' he'
    rw [lockStore_get keyed hands] at he'
    split at he'
    · rename_i hk
      cases he'
      rw [hk]
      exact keyed _ e present
    · exact keyed k e' he'
  · intro k e' he'
    rw [lockStore_get keyed hands]
    split
    · rename_i hk
      rw [hk, present] at he'
      cases he'
      exact ⟨_, rfl, Nat.le_refl _, fun _ => id⟩
    · exact later_refl _ e' he'

theorem called_called (keyed : Keyed s) (hands : ctx.Hands candidate s e lease) (b : Batch) :
    Called s (ctx.called b s e lease) :=
  called_trans (lockStore_called keyed hands) (runCalls_called _ _ _)

theorem lockStore_generation (keyed : Keyed s) (hands : ctx.Hands candidate s e lease) (k : RetentionScope) :
    (ctx.lockStore s e lease).generation k = s.generation k := by
  unfold RetentionStore.generation
  rw [lockStore_get keyed hands]
  split
  · rename_i hk
    rw [hk, (ready_present hands.ready).1]
    rfl
  · rfl

/-- In a round, the callback renews an item. -/
def RemarksNow (ctx : BatchContext) (scope : RetentionScope) (candidate : RetentionItem) (b : Batch)
    (s : RetentionStore) : Prop :=
  ∃ e lease, ctx.Hands candidate s e lease ∧
    Remarks ctx.cfg scope (ctx.answered b s e lease).1 (ctx.lockStore s e lease)

theorem called_generation (keyed : Keyed s) (hands : ctx.Hands candidate s e lease) (b : Batch)
    (k : RetentionScope) : s.generation k ≤ (ctx.called b s e lease).generation k ∧
      ((ctx.called b s e lease).generation k = s.generation k ↔ ¬ RemarksNow ctx k candidate b s) := by
  have generation := runCalls_generation ctx.cfg k (ctx.answered b s e lease).1 (ctx.lockStore s e lease)
  rw [lockStore_generation keyed hands] at generation
  refine ⟨generation.1, generation.2.trans (not_congr ?_)⟩
  constructor
  · exact fun h => ⟨e, lease, hands, h⟩
  · rintro ⟨e', lease', hands', h⟩
    cases hands.ready.symm.trans hands'.ready
    cases hands.lease.symm.trans hands'.lease
    exact h

/-- A round raises the generation of an item exactly when its callback renews the item. -/
theorem turn_generation {b' : Batch} {s' : RetentionStore} (keyed : Keyed s)
    (turn : Turn ctx candidate b s (.ok b') s') (k : RetentionScope) :
    s.generation k ≤ s'.generation k ∧
      (s'.generation k = s.generation k ↔ ¬ RemarksNow ctx k candidate b s) := by
  cases turn with
  | passed ready =>
    refine ⟨Nat.le_refl _, fun _ => ?_, fun _ => rfl⟩
    rintro ⟨e, lease, hands, _⟩
    cases ready.symm.trans hands.ready
  | failed e lease code event hands =>
    rw [update_storeGeneration unlock_mild]
    exact called_generation keyed hands b k
  | changed e lease hands =>
    rw [update_storeGeneration unlock_mild]
    exact called_generation keyed hands b k
  | purged e lease event hands =>
    have same : ∀ t : RetentionStore, ((t.increment .itemsPurged 1).record event).generation k = t.generation k :=
      fun _ => rfl
    rw [same, update_storeGeneration (purgeAt_mild _)]
    exact called_generation keyed hands b k

end

/-! ## The accounts of a batch -/

/-- The item is stored as purged, unless a later record has replaced it. -/
def StaysPurged (s : RetentionStore) (x : RetentionItem) : Prop :=
  ∃ e, s.records.get x.toRetentionScope = some e ∧ x.generation ≤ e.item.generation ∧
    (e.item.generation = x.generation → e.item.state = .purged)

theorem staysPurged_called {s s' : RetentionStore} {x : RetentionItem} (called : Called s s')
    (stays : StaysPurged s x) : StaysPurged s' x := by
  obtain ⟨e, he, le, purged⟩ := stays
  obtain ⟨e', he', le', purged'⟩ := called.later _ e he
  refine ⟨e', he', Nat.le_trans le le', ?_⟩
  intro same
  exact purged' (by omega) (purged (by omega))

/-- What the batch has noted, after the candidates `done`, against the store. -/
structure Accounted (startedAt : Int) (s₀ : RetentionStore) (done : List RetentionItem) (b : Batch)
    (s : RetentionStore) : Prop where
  keyed : Keyed s
  purged : s.metrics .itemsPurged = s₀.metrics .itemsPurged + b.items.length
  failures : s.metrics .purgeFailures = s₀.metrics .purgeFailures + b.failures.length
  events : s.events.filter (·.ofBatch) = s₀.events.filter (·.ofBatch) ++ b.events
  purgeEvents : (b.events.filter (·.event.isPurge)).length = b.items.length
  failureEvents : (b.events.filter (·.event.isPurgeFailed)).length = b.failures.length
  fates : ∃ taken passed : List RetentionItem, (taken ++ passed).Perm done ∧
    b.items.map (·.toRetentionScope) = taken.map (·.toRetentionScope) ∧
    b.skippedItems.map Prod.fst = passed.map (·.itemId)
  failed : b.failures.map Prod.fst = (b.skippedItems.filter (·.2 = .purgeFailed)).map Prod.fst
  handed : ∀ x ∈ b.items, ∃ h ∈ b.handed, h.toRetentionScope = x.toRetentionScope ∧ h.generation = x.generation
  trashed : ∀ h ∈ b.handed, h.state = .trashed ∧ ∃ r, h.retentionUntil = some r ∧ r ≤ startedAt
  stays : ∀ x ∈ b.items, StaysPurged s x

theorem accounted_empty {s : RetentionStore} (keyed : Keyed s) (startedAt : Int) :
    Accounted startedAt s [] .empty s where
  keyed := keyed
  purged := rfl
  failures := rfl
  events := (List.append_nil _).symm
  purgeEvents := rfl
  failureEvents := rfl
  fates := ⟨[], [], List.Perm.refl _, rfl, rfl⟩
  failed := rfl
  handed := by simp [Batch.empty]
  trashed := by simp [Batch.empty]
  stays := by simp [Batch.empty]

theorem isPurge_not_failed {event : RetentionEvent} (h : event.isPurge) : event.isPurgeFailed = false := by
  cases event <;> first | rfl | cases h

theorem isPurgeFailed_not_purge {event : RetentionEvent} (h : event.isPurgeFailed) : event.isPurge = false := by
  cases event <;> first | rfl | cases h

section
variable {ctx : BatchContext} {s₀ s s' : RetentionStore} {done : List RetentionItem} {candidate : RetentionItem}
  {b b' : Batch}

theorem handed_trashed {e : Entry} {lease : Int} (hands : ctx.Hands candidate s e lease) :
    ∀ h ∈ [ctx.handed e lease], h.state = .trashed ∧ ∃ r, h.retentionUntil = some r ∧ r ≤ ctx.startedAt := by
  obtain ⟨_, due, _⟩ := ready_present hands.ready
  simp only [isDue, Bool.and_eq_true, beq_iff_eq, Option.any_eq_true, decide_eq_true_eq] at due
  intro h hh
  cases List.mem_singleton.mp hh
  exact due.1

/-- A candidate that is skipped. -/
theorem accounted_skip (candidate : RetentionItem) {s₂ : RetentionStore} (accounted : Accounted ctx.startedAt s₀ done b s) (called : Called s s₂)
    (h : List RetentionItem) (trashed : ∀ x ∈ h, x.state = .trashed ∧ ∃ r, x.retentionUntil = some r ∧ r ≤ ctx.startedAt) :
    Accounted ctx.startedAt s₀ (done ++ [candidate]) { b with
      handed := b.handed ++ h, skippedItems := b.skippedItems ++ [(candidate.itemId, .stateChanged)] } s₂ := by
  obtain ⟨taken, passed, perm, items, skipped⟩ := accounted.fates
  exact {
    keyed := called.keyed accounted.keyed
    purged := called.purged.trans accounted.purged
    failures := called.failures.trans accounted.failures
    events := called.events.trans accounted.events
    purgeEvents := accounted.purgeEvents
    failureEvents := accounted.failureEvents
    fates := by
      refine ⟨taken, passed ++ [candidate], ?_, items, ?_⟩
      · rw [← List.append_assoc]
        exact perm.append_right [candidate]
      · rw [List.map_append, List.map_append, skipped]
        rfl
    failed := by
      rw [List.filter_append, List.map_append, accounted.failed]
      simp
    handed := by
      intro x hx
      obtain ⟨y, hy, same⟩ := accounted.handed x hx
      exact ⟨y, List.mem_append_left _ hy, same⟩
    trashed := List.forall_mem_append.mpr ⟨accounted.trashed, trashed⟩
    stays := fun x hx => staysPurged_called called (accounted.stays x hx) }

/-- The record handed out is purged; it is the stored one, unless the callback renewed it. -/
theorem purged_stays {e : Entry} {lease : Int} (keyed : Keyed s) (hands : ctx.Hands candidate s e lease) (b : Batch)
    {x : RetentionItem} (scope : x.toRetentionScope = candidate.toRetentionScope)
    (generation : x.generation = e.item.generation) :
    StaysPurged ((ctx.called b s e lease).update (ctx.lockItem e lease) (purgeAt ctx.startedAt)) x := by
  obtain ⟨present, _⟩ := ready_present hands.ready
  obtain ⟨e', he', le, _⟩ := (called_called keyed hands b).later _ e present
  have own : candidate.toRetentionScope = (ctx.lockItem e lease).toRetentionScope := (keyed _ e present).1.symm
  refine ⟨e'.update e.item.generation (purgeAt ctx.startedAt), ?_, ?_, ?_⟩
  · rw [scope, update_get, if_pos own, he']
    rfl
  · rw [update_generation (purgeAt_mild _), generation]
    exact le
  · intro same
    rw [update_generation (purgeAt_mild _), generation] at same
    rw [update_item, if_pos same]
    rfl

theorem turn_accounted (accounted : Accounted ctx.startedAt s₀ done b s) (turn : Turn ctx candidate b s (.ok b') s') :
    Accounted ctx.startedAt s₀ (done ++ [candidate]) b' s' := by
  have keyed := accounted.keyed
  obtain ⟨taken, passed, perm, items, skipped⟩ := accounted.fates
  cases turn with
  | passed ready =>
    have same := accounted_skip candidate accounted ⟨id, fun _ => later_refl _, rfl, rfl, rfl⟩ [] (by simp)
    rwa [List.append_nil] at same
  | changed e lease hands =>
    have own : e.item.itemId = candidate.itemId :=
      congrArg RetentionScope.itemId (keyed _ e (ready_present hands.ready).1).1
    rw [own]
    exact accounted_skip candidate accounted (called_trans (called_called keyed hands b) (update_called unlock_mild _ _)) _
      (handed_trashed hands)
  | failed e lease code event hands fails isFailure =>
    have own : e.item.itemId = candidate.itemId :=
      congrArg RetentionScope.itemId (keyed _ e (ready_present hands.ready).1).1
    have called := called_called keyed hands b
    have ofBatch : event.ofBatch = true := by simp [RetentionAuditEvent.ofBatch, isFailure]
    have updated := update_called unlock_mild
      (((ctx.called b s e lease).increment .purgeFailures 1).record event) (ctx.lockItem e lease)
    exact {
      keyed := updated.keyed (called.keyed keyed)
      purged := called.purged.trans accounted.purged
      failures := by
        show (ctx.called b s e lease).metrics .purgeFailures + 1 = _
        rw [called.failures, accounted.failures, List.length_append, List.length_singleton, Nat.add_assoc]
      events := by
        show ((ctx.called b s e lease).events ++ [event]).filter (·.ofBatch) = _
        rw [List.filter_append, called.events, accounted.events, List.filter_cons_of_pos ofBatch, List.filter_nil,
          List.append_assoc]
      purgeEvents := by
        rw [List.filter_append, List.filter_cons_of_neg (by simp [isPurgeFailed_not_purge isFailure]),
          List.filter_nil, List.append_nil, accounted.purgeEvents]
      failureEvents := by
        simp [List.filter_append, isFailure, accounted.failureEvents]
      fates := by
        refine ⟨taken, passed ++ [candidate], ?_, items, ?_⟩
        · rw [← List.append_assoc]
          exact perm.append_right [candidate]
        · rw [List.map_append, List.map_append, skipped, List.map_singleton, List.map_singleton, own]
      failed := by
        rw [List.filter_append, List.map_append, List.map_append, accounted.failed]
        rfl
      handed := by
        intro x hx
        obtain ⟨y, hy, same⟩ := accounted.handed x hx
        exact ⟨y, List.mem_append_left _ hy, same⟩
      trashed := List.forall_mem_append.mpr ⟨accounted.trashed, handed_trashed hands⟩
      stays := by
        intro x hx
        have stays := staysPurged_called called (accounted.stays x hx)
        exact staysPurged_called updated stays }
  | purged e lease event hands accepts due isPurge =>
    obtain ⟨present, _⟩ := ready_present hands.ready
    have own := (keyed _ e present).1
    have called := called_called keyed hands b
    have ofBatch : event.ofBatch = true := by simp [RetentionAuditEvent.ofBatch, isPurge]
    have updated := update_called (purgeAt_mild ctx.startedAt) (ctx.called b s e lease) (ctx.lockItem e lease)
    obtain ⟨scope, generation⟩ := referred_identity (called.keyed keyed) (ctx.lockItem e lease)
    exact {
      keyed := updated.keyed (called.keyed keyed)
      purged := by
        show (ctx.called b s e lease).metrics .itemsPurged + 1 = _
        rw [called.purged, accounted.purged, List.length_append, List.length_singleton, Nat.add_assoc]
      failures := called.failures.trans accounted.failures
      events := by
        show ((ctx.called b s e lease).events ++ [event]).filter (·.ofBatch) = _
        rw [List.filter_append, called.events, accounted.events, List.filter_cons_of_pos ofBatch, List.filter_nil,
          List.append_assoc]
      purgeEvents := by
        simp [List.filter_append, isPurge, accounted.purgeEvents]
      failureEvents := by
        rw [List.filter_append, List.filter_cons_of_neg (by simp [isPurge_not_failed isPurge]), List.filter_nil,
          List.append_nil, accounted.failureEvents]
      fates := by
        refine ⟨taken ++ [candidate], passed, ?_, ?_, skipped⟩
        · have swap : (taken ++ [candidate] ++ passed).Perm (taken ++ passed ++ [candidate]) := by
            rw [List.append_assoc, List.append_assoc]
            exact List.perm_append_comm.append_left taken
          exact swap.trans (perm.append_right [candidate])
        · rw [List.map_append, List.map_append, items, List.map_singleton, List.map_singleton]
          exact congrArg (fun k => taken.map (·.toRetentionScope) ++ [k]) (scope.trans own)
      failed := accounted.failed
      handed := by
        intro x hx
        rcases List.mem_append.mp hx with hx | hx
        · obtain ⟨y, hy, same⟩ := accounted.handed x hx
          exact ⟨y, List.mem_append_left _ hy, same⟩
        · cases List.mem_singleton.mp hx
          exact ⟨_, List.mem_append_right _ (List.mem_singleton_self _), scope.symm, generation.symm⟩
      trashed := List.forall_mem_append.mpr ⟨accounted.trashed, handed_trashed hands⟩
      stays := by
        intro x hx
        rcases List.mem_append.mp hx with hx | hx
        · have stays := staysPurged_called updated (staysPurged_called called (accounted.stays x hx))
          exact stays
        · cases List.mem_singleton.mp hx
          have stays := purged_stays keyed hands b (x := publicItem (purgeAt ctx.startedAt (ctx.found b s e lease).1)
            (ctx.found b s e lease).2) (scope.trans own) generation
          exact stays }

theorem loop_accounted (cs : List RetentionItem) (accounted : Accounted ctx.startedAt s₀ done b s)
    (loop : purgeLoop ctx cs b s = (.ok b', s')) : Accounted ctx.startedAt s₀ (done ++ cs) b' s' := by
  induction cs generalizing done b s with
  | nil =>
    cases loop
    rw [List.append_nil]
    exact accounted
  | cons c cs ih =>
    change Eff.bind (turn ctx c b) (purgeLoop ctx cs) s = _ at loop
    have outcome : Turn ctx c b s (turn ctx c b s).1 (turn ctx c b s).2 := turn_outcome
    unfold Eff.bind at loop
    rcases hturn : turn ctx c b s with ⟨r, s₁⟩
    rw [hturn] at loop outcome
    cases r with
    | error e => cases loop
    | ok b₁ =>
      have rest := ih (turn_accounted accounted outcome) loop
      rwa [List.append_assoc] at rest

end

/-! ## When everything reported stays purged -/

section
variable (ctx : BatchContext)

/-- In one of the rounds for the candidates, the callback renews the item. -/
def RemarksIn (scope : RetentionScope) : List RetentionItem → Batch → RetentionStore → Prop
  | [], _, _ => False
  | c :: cs, b, s => RemarksNow ctx scope c b s ∨
    ∃ b' s', turn ctx c b s = (.ok b', s') ∧ RemarksIn scope cs b' s'

/-- In a round, the adapter accepts the item and the record handed out is due after the callback. -/
def Purges (candidate : RetentionItem) (b : Batch) (s : RetentionStore) : Prop :=
  ∃ e lease, ctx.Hands candidate s e lease ∧ (ctx.answered b s e lease).2.failure = none ∧
    isDue (ctx.found b s e lease).1 (ctx.found b s e lease).2 ctx.startedAt

/-- Once the callback got an item that it accepts and that is due then, it does
not renew it, in this round or a later one. -/
def LeavesPurged : List RetentionItem → Batch → RetentionStore → Prop
  | [], _, _ => True
  | c :: cs, b, s => (Purges ctx c b s → ¬ RemarksIn ctx c.toRetentionScope (c :: cs) b s) ∧
    ∀ b' s', turn ctx c b s = (.ok b', s') → LeavesPurged cs b' s'

end

/-- The item is stored in the generation it was reported in. -/
def Intact (s : RetentionStore) (x : RetentionItem) : Prop := s.generation x.toRetentionScope = x.generation

section
variable {ctx : BatchContext} {s₀ s s' : RetentionStore} {done : List RetentionItem} {c : RetentionItem}
  {b b' : Batch}

theorem purges_of_hands {e : Entry} {lease : Int} (hands : ctx.Hands c s e lease) :
    Purges ctx c b s ↔ (ctx.answered b s e lease).2.failure = none ∧
      isDue (ctx.found b s e lease).1 (ctx.found b s e lease).2 ctx.startedAt := by
  constructor
  · rintro ⟨e', lease', hands', h⟩
    cases hands.ready.symm.trans hands'.ready
    cases hands.lease.symm.trans hands'.lease
    exact h
  · exact fun h => ⟨e, lease, hands, h⟩

/-- The items a round adds. -/
theorem turn_items (keyed : Keyed s) (turn : Turn ctx c b s (.ok b') s') :
    (¬ Purges ctx c b s ∧ b'.items = b.items) ∨
    (Purges ctx c b s ∧ ∃ x, b'.items = b.items ++ [x] ∧ x.toRetentionScope = c.toRetentionScope ∧
      x.generation = s.generation c.toRetentionScope) := by
  cases turn with
  | passed ready =>
    refine .inl ⟨?_, rfl⟩
    rintro ⟨e, lease, hands, _⟩
    cases ready.symm.trans hands.ready
  | failed e lease code event hands fails =>
    refine .inl ⟨?_, rfl⟩
    rw [purges_of_hands hands, fails]
    simp
  | changed e lease hands accepts notDue =>
    refine .inl ⟨?_, rfl⟩
    rw [purges_of_hands hands, notDue]
    simp
  | purged e lease event hands accepts due =>
    obtain ⟨present, _⟩ := ready_present hands.ready
    obtain ⟨scope, generation⟩ := referred_identity ((called_called keyed hands b).keyed keyed) (ctx.lockItem e lease)
    refine .inr ⟨(purges_of_hands hands).mpr ⟨accepts, due⟩, _, rfl, scope.trans (keyed _ e present).1, ?_⟩
    rw [RetentionStore.generation, present]
    exact generation

theorem stays_le {x : RetentionItem} (stays : StaysPurged s x) : x.generation ≤ s.generation x.toRetentionScope := by
  obtain ⟨e, he, le, _⟩ := stays
  rw [RetentionStore.generation, he]
  exact le

/-- An item of a round is intact after it if it was, and is not renewed. -/
theorem turn_intact (keyed : Keyed s) (turn : Turn ctx c b s (.ok b') s') {x : RetentionItem}
    (le : x.generation ≤ s.generation x.toRetentionScope) :
    Intact s' x ↔ Intact s x ∧ ¬ RemarksNow ctx x.toRetentionScope c b s := by
  obtain ⟨up, same⟩ := turn_generation keyed turn x.toRetentionScope
  rw [← same, Intact, Intact]
  omega

theorem loop_intact (cs : List RetentionItem) (accounted : Accounted ctx.startedAt s₀ done b s)
    (loop : purgeLoop ctx cs b s = (.ok b', s')) :
    (∀ x ∈ b'.items, Intact s' x) ↔
      (∀ x ∈ b.items, Intact s x ∧ ¬ RemarksIn ctx x.toRetentionScope cs b s) ∧ LeavesPurged ctx cs b s := by
  induction cs generalizing done b s with
  | nil =>
    cases loop
    simp [RemarksIn, LeavesPurged]
  | cons c cs ih =>
    change Eff.bind (turn ctx c b) (purgeLoop ctx cs) s = _ at loop
    have outcome : Turn ctx c b s (turn ctx c b s).1 (turn ctx c b s).2 := turn_outcome
    unfold Eff.bind at loop
    rcases hturn : turn ctx c b s with ⟨r, s₁⟩
    rw [hturn] at loop outcome
    cases r with
    | error e => cases loop
    | ok b₁ =>
      have keyed := accounted.keyed
      rw [ih (turn_accounted accounted outcome) loop]
      have remarks (k : RetentionScope) : RemarksIn ctx k (c :: cs) b s ↔
          RemarksNow ctx k c b s ∨ RemarksIn ctx k cs b₁ s₁ := by
        rw [RemarksIn, hturn]
        simp
      have leaves : LeavesPurged ctx (c :: cs) b s ↔
          (Purges ctx c b s → ¬ (RemarksNow ctx c.toRetentionScope c b s ∨
            RemarksIn ctx c.toRetentionScope cs b₁ s₁)) ∧ LeavesPurged ctx cs b₁ s₁ := by
        rw [LeavesPurged, remarks, hturn]
        simp
      have earlier : (∀ x ∈ b.items, Intact s₁ x ∧ ¬ RemarksIn ctx x.toRetentionScope cs b₁ s₁) ↔
          ∀ x ∈ b.items, Intact s x ∧ ¬ (RemarksNow ctx x.toRetentionScope c b s ∨
            RemarksIn ctx x.toRetentionScope cs b₁ s₁) := by
        refine forall₂_congr fun x hx => ?_
        rw [turn_intact keyed outcome (stays_le (accounted.stays x hx)), not_or, and_assoc]
      rw [leaves]
      simp only [remarks]
      rcases turn_items keyed outcome with ⟨none, items⟩ | ⟨purges, x, items, scope, generation⟩
      · rw [items, earlier]
        simp only [none, false_implies, true_and]
      · have now : Intact s x := by rw [Intact, scope, generation]
        have added : Intact s₁ x ↔ ¬ RemarksNow ctx c.toRetentionScope c b s := by
          rw [turn_intact keyed outcome (Nat.le_of_eq now.symm), scope]
          exact and_iff_right now
        rw [items, List.forall_mem_append, List.forall_mem_singleton, earlier, added, scope, not_or, and_assoc]
        simp only [purges, true_implies]

end

/-! ## Candidates -/

section
variable {cfg : RetentionConfig} {s : RetentionStore} {tenant user : Option JsString} {asOf : Int} {limit : Nat}

/-- The entries that are listed, before they are made public. -/
theorem candidates_eq (cfg : RetentionConfig) (s : RetentionStore) (tenant user : Option JsString) (asOf : Int)
    (limit : Nat) : ∃ entries : List Entry,
      candidates cfg s tenant user asOf limit = entries.map (fun e => publicItem e.item e.holds) ∧
        entries.Subperm (s.records.values.filter (isCandidate tenant user asOf)) :=
  ⟨_, rfl, (List.take_sublist _ _).subperm.trans (List.perm_insertionSort _ _).subperm⟩

theorem candidates_due (keyed : Keyed s) {c : RetentionItem} (hc : c ∈ candidates cfg s tenant user asOf limit) :
    ∃ e, s.records.get c.toRetentionScope = some e ∧ isDue e.item e.holds asOf ∧ locked e.item asOf = false := by
  obtain ⟨entries, listed, sub⟩ := candidates_eq cfg s tenant user asOf limit
  rw [listed] at hc
  obtain ⟨e, he, rfl⟩ := List.mem_map.mp hc
  obtain ⟨member, candidate⟩ := List.mem_filter.mp (sub.subset he)
  obtain ⟨scope, stored⟩ := OrderedMap.mem_values.mp member
  simp only [isCandidate, Bool.and_eq_true, Bool.not_eq_true'] at candidate
  refine ⟨e, ?_, candidate.1.2, candidate.2⟩
  have own : e.item.toRetentionScope = scope := (keyed scope e stored).1
  rw [← own] at stored
  exact stored

/-- Every candidate is ready when the loop begins. -/
theorem candidates_ready {ctx : BatchContext} {n : Nat} {c : RetentionItem} (keyed : Keyed s)
    (at_ : ctx.startedAt = asOf) (hc : c ∈ candidates cfg s tenant user asOf limit) :
    ∃ e, ctx.ready (batchStore s n) c = some e := by
  obtain ⟨e, present, due, free⟩ := candidates_due keyed hc
  refine ⟨e, Option.filter_eq_some_iff.mpr ⟨present, ?_⟩⟩
  rw [at_, due, free]
  rfl

/-- No item is listed twice. -/
theorem candidates_nodup (keyed : Keyed s) :
    ((candidates cfg s tenant user asOf limit).map (·.toRetentionScope)).Nodup := by
  obtain ⟨entries, listed, sub⟩ := candidates_eq cfg s tenant user asOf limit
  have scopes : s.records.values.map (fun e => e.item.toRetentionScope) = s.records.rows.map Prod.fst := by
    rw [OrderedMap.values, List.map_map]
    refine List.map_congr_left ?_
    rintro ⟨scope, e⟩ h
    exact (keyed scope e (OrderedMap.mem_rows.mp h)).1
  have nodup : (s.records.values.map fun e => e.item.toRetentionScope).Nodup := by
    rw [scopes]
    exact s.records.nodup
  obtain ⟨some_, perm, sublist⟩ := sub
  rw [listed, List.map_map]
  have selected := nodup.sublist ((sublist.trans List.filter_sublist).map fun e : Entry => e.item.toRetentionScope)
  exact (perm.map _).nodup_iff.mp selected

end

/-! ## Whole batches -/

/-- The stores that calls lead to. -/
inductive Reachable (cfg : RetentionConfig) : RetentionStore → Prop where
  | created : Reachable cfg .empty
  | item {s : RetentionStore} (run : Reachable cfg s) (call : ItemCall) : Reachable cfg (call.run cfg s).2
  | batch {s : RetentionStore} (run : Reachable cfg s) (call : BatchCall) :
      Reachable cfg (runPurgeBatch cfg call s).2

/-- What the callback of a batch was called with. -/
def handedItems (cfg : RetentionConfig) (s : RetentionStore) (call : BatchCall) (key : BatchKey) (limit : Nat)
    (startedAt : Int) : List RetentionItem :=
  let listed := candidates cfg s key.tenant key.user startedAt limit
  match (purgeLoop (batchContext cfg call key startedAt) listed .empty (batchStore s listed.length)).1 with
  | .ok b => b.handed
  | .error _ => []

/-- The report of a batch that has run from `s` to `s'` is true. -/
structure Accounts (cfg : RetentionConfig) (s : RetentionStore) (call : BatchCall) (key : BatchKey) (limit : Nat)
    (output : PurgeBatchResult) (s' : RetentionStore) : Prop where
  /-- What is reported as purged is stored as purged, in the generation the adapter got. -/
  purged : ∀ x ∈ output.items, ∃ h ∈ handedItems cfg s call key limit output.startedAt,
    h.toRetentionScope = x.toRetentionScope ∧ h.generation = x.generation ∧
      ∃ e, s'.records.get x.toRetentionScope = some e ∧ e.item.state = .purged ∧ e.item.generation = h.generation
  /-- It was due when the batch began, and so was what the adapter got. -/
  due : ∀ x ∈ output.items, ∃ e, s.records.get x.toRetentionScope = some e ∧
    isDue e.item e.holds output.startedAt ∧ locked e.item output.startedAt = false
  trashed : ∀ h ∈ handedItems cfg s call key limit output.startedAt,
    h.state = .trashed ∧ ∃ r, h.retentionUntil = some r ∧ r ≤ output.startedAt
  /-- Every candidate is in one of the two lists, once. -/
  fates : ∃ taken passed : List RetentionItem,
    (taken ++ passed).Perm (candidates cfg s key.tenant key.user output.startedAt limit) ∧
      output.items.map (·.toRetentionScope) = taken.map (·.toRetentionScope) ∧
      output.skippedItems.map Prod.fst = passed.map (·.itemId)
  distinct : ((candidates cfg s key.tenant key.user output.startedAt limit).map (·.toRetentionScope)).Nodup
  failures : output.failures.map Prod.fst = (output.skippedItems.filter (·.2 = .purgeFailed)).map Prod.fst
  counts : output.purged = output.items.length ∧ output.skipped = output.skippedItems.length ∧
    output.failed = output.failures.length ∧ output.scanned = output.purged + output.skipped
  purgedMetric : s'.metrics .itemsPurged = s.metrics .itemsPurged + output.purged
  failureMetric : s'.metrics .purgeFailures = s.metrics .purgeFailures + output.failed
  events : s'.events.filter (·.ofBatch) = s.events.filter (·.ofBatch) ++ output.auditEvents
  purgeEvents : (output.auditEvents.filter (·.event.isPurge)).length = output.purged
  failureEvents : (output.auditEvents.filter (·.event.isPurgeFailed)).length = output.failed

section
variable {cfg : RetentionConfig} {s s' : RetentionStore} {call : BatchCall}

/-- The loop of a batch, from the store it begins with. -/
def batchLoop (cfg : RetentionConfig) (call : BatchCall) (s : RetentionStore) (key : BatchKey) (limit : Nat)
    (startedAt : Int) : Except (Thrown RetentionError) Batch × RetentionStore :=
  let listed := candidates cfg s key.tenant key.user startedAt limit
  purgeLoop (batchContext cfg call key startedAt) listed .empty (batchStore s listed.length)

/-- A batch that gets past its checks and is no replay. -/
structure Begins (cfg : RetentionConfig) (call : BatchCall) (s : RetentionStore) (key : BatchKey) (limit : Nat)
    (startedAt : Int) : Prop where
  identified : identifyBatch cfg call.env call.input = .ok (key, limit)
  fresh : s.batchResults.get key = none
  checked : checkBatch cfg call = .ok startedAt

/-- The clock at the end of a batch, which is read twice. -/
def ClockEnds (cfg : RetentionConfig) (call : BatchCall) : Prop :=
  (current cfg call.env 2).isOk ∧ (current cfg call.env 3).isOk

/-- How a batch ends: it does not begin, its loop throws, the clock throws, or
it completes. -/
inductive BatchOutcome (cfg : RetentionConfig) (call : BatchCall) (s : RetentionStore) :
    Except (Thrown RetentionError) PurgeBatchResult → RetentionStore → Prop where
  | refused (e : Thrown RetentionError) (never : ∀ key limit startedAt, ¬ Begins cfg call s key limit startedAt) :
      BatchOutcome cfg call s (.error e) s
  | replayed (key : BatchKey) (limit : Nat) (prior : PurgeBatchResult)
      (identified : identifyBatch cfg call.env call.input = .ok (key, limit))
      (stored : s.batchResults.get key = some prior) : BatchOutcome cfg call s (.ok prior) s
  | loopThrew (key : BatchKey) (limit : Nat) (startedAt : Int) (e : Thrown RetentionError) (s₁ : RetentionStore)
      (begins : Begins cfg call s key limit startedAt)
      (loop : batchLoop cfg call s key limit startedAt = (.error e, s₁)) : BatchOutcome cfg call s (.error e) s₁
  | clockThrew (key : BatchKey) (limit : Nat) (startedAt : Int) (e : Thrown RetentionError) (b : Batch)
      (s₁ : RetentionStore) (begins : Begins cfg call s key limit startedAt)
      (loop : batchLoop cfg call s key limit startedAt = (.ok b, s₁)) (clock : ¬ ClockEnds cfg call) :
      BatchOutcome cfg call s (.error e) (s₁.increment .itemsSkipped b.skippedItems.length)
  | completed (key : BatchKey) (limit : Nat) (startedAt : Int) (b : Batch) (s₁ : RetentionStore)
      (output : PurgeBatchResult) (s' : RetentionStore) (begins : Begins cfg call s key limit startedAt)
      (loop : batchLoop cfg call s key limit startedAt = (.ok b, s₁)) (clock : ClockEnds cfg call)
      (started : output.startedAt = startedAt)
      (noted : output.items = b.items ∧ output.skippedItems = b.skippedItems ∧ output.failures = b.failures ∧
        output.auditEvents = b.events)
      (counts : output.purged = output.items.length ∧ output.skipped = output.skippedItems.length ∧
        output.failed = output.failures.length ∧
        output.scanned = (candidates cfg s key.tenant key.user output.startedAt limit).length)
      (quiet : Quiet s₁ s') : BatchOutcome cfg call s (.ok output) s'

theorem batch_outcome (call : BatchCall) : wp (runPurgeBatch cfg call) s (BatchOutcome cfg call s) := by
  refine Eff.wp_check_bind.mpr ⟨?_, ?_⟩
  · intro e he
    apply BatchOutcome.refused
    intro key limit startedAt begins
    cases he.symm.trans begins.identified
  rintro ⟨key, limit⟩ identified
  dsimp only
  rw [Eff.wp_get_bind]
  cases stored : s.batchResults.get key with
  | some prior => exact .replayed key limit prior identified stored
  | none =>
    refine Eff.wp_lift_bind.mpr ⟨?_, ?_⟩
    · intro e he
      apply BatchOutcome.refused
      intro key' limit' startedAt begins
      cases he.symm.trans begins.checked
    intro startedAt checked
    have begins : Begins cfg call s key limit startedAt := ⟨identified, stored, checked⟩
    rw [Eff.wp_modify_bind]
    rcases loop : batchLoop cfg call s key limit startedAt with ⟨r, s₁⟩
    refine (Eff.wp_bind_eq loop).mpr ?_
    cases r with
    | error e => exact .loopThrew key limit startedAt e s₁ begins loop
    | ok b =>
      refine Eff.wp_modify_bind.mpr (Eff.wp_lift_bind.mpr ⟨?_, ?_⟩)
      · intro e he
        apply BatchOutcome.clockThrew key limit startedAt e b s₁ begins loop
        intro clock
        exact not_isOk_of_eq he clock.1
      intro completedAt hcompleted
      refine Eff.wp_lift_bind.mpr ⟨?_, ?_⟩
      · intro e he
        apply BatchOutcome.clockThrew key limit startedAt e b s₁ begins loop
        intro clock
        exact not_isOk_of_eq he clock.2
      · intro asOf hasOf
        exact .completed key limit startedAt b s₁ _ _ begins loop ⟨isOk_of_eq hcompleted, isOk_of_eq hasOf⟩ rfl
          ⟨rfl, rfl, rfl, rfl⟩ ⟨rfl, rfl, rfl, rfl⟩ ⟨rfl, rfl, rfl, rfl⟩

/-- A batch that has run: its loop, and what it makes of it. -/
structure Ran (cfg : RetentionConfig) (call : BatchCall) (s : RetentionStore) (key : BatchKey) (limit : Nat)
    (output : PurgeBatchResult) (s' : RetentionStore) : Prop where
  fresh : s.batchResults.get key = none
  loop : ∃ b s₁, purgeLoop (batchContext cfg call key output.startedAt)
      (candidates cfg s key.tenant key.user output.startedAt limit) .empty
      (batchStore s (candidates cfg s key.tenant key.user output.startedAt limit).length) = (.ok b, s₁) ∧
    output.items = b.items ∧ output.skippedItems = b.skippedItems ∧ output.failures = b.failures ∧
    output.auditEvents = b.events ∧ Quiet s₁ s'
  counts : output.purged = output.items.length ∧ output.skipped = output.skippedItems.length ∧
    output.failed = output.failures.length ∧
    output.scanned = (candidates cfg s key.tenant key.user output.startedAt limit).length

theorem runPurgeBatch_returns {output : PurgeBatchResult} (returns : (runPurgeBatch cfg call s).1 = .ok output) :
    ∃ key limit, identifyBatch cfg call.env call.input = .ok (key, limit) ∧
      ((s.batchResults.get key = some output ∧ (runPurgeBatch cfg call s).2 = s) ∨
        Ran cfg call s key limit output (runPurgeBatch cfg call s).2) := by
  have outcome : BatchOutcome cfg call s (runPurgeBatch cfg call s).1 (runPurgeBatch cfg call s).2 :=
    batch_outcome call
  rw [returns] at outcome
  generalize (runPurgeBatch cfg call s).2 = s' at outcome
  cases outcome with
  | replayed key limit prior identified stored => exact ⟨key, limit, identified, .inl ⟨stored, rfl⟩⟩
  | completed key limit startedAt b s₁ _ _ begins loop clock started noted counts quiet =>
    subst started
    obtain ⟨items, skipped, failures, events⟩ := noted
    exact ⟨key, limit, begins.identified, .inr ⟨begins.fresh,
      ⟨b, s₁, loop, items, skipped, failures, events, quiet⟩, counts⟩⟩

/-! ### Reachable stores are keyed -/

theorem turn_keyed {ctx : BatchContext} {c : RetentionItem} {b : Batch} {r : Except (Thrown RetentionError) Batch}
    (keyed : Keyed s) (turn : Turn ctx c b s r s') : Keyed s' := by
  cases turn with
  | passed => exact keyed
  | thrown => exact keyed
  | failed e lease code event hands =>
    exact (update_called unlock_mild _ _).keyed ((called_called keyed hands b).keyed keyed)
  | changed e lease hands => exact (update_called unlock_mild _ _).keyed ((called_called keyed hands b).keyed keyed)
  | purged e lease event hands =>
    exact (update_called (purgeAt_mild ctx.startedAt) _ _).keyed ((called_called keyed hands b).keyed keyed)

theorem loop_keyed (ctx : BatchContext) (cs : List RetentionItem) (b : Batch) (keyed : Keyed s) :
    Keyed (purgeLoop ctx cs b s).2 := by
  induction cs generalizing b s with
  | nil => exact keyed
  | cons c cs ih =>
    have outcome : Turn ctx c b s (turn ctx c b s).1 (turn ctx c b s).2 := turn_outcome
    change Keyed (Eff.bind (turn ctx c b) (purgeLoop ctx cs) s).2
    unfold Eff.bind
    rcases hturn : turn ctx c b s with ⟨r, s₁⟩
    rw [hturn] at outcome
    have keyed₁ := turn_keyed keyed outcome
    cases r with
    | error e => exact keyed₁
    | ok b₁ => exact ih b₁ keyed₁

theorem batchLoop_keyed {key : BatchKey} {limit : Nat} {startedAt : Int} {r : Except (Thrown RetentionError) Batch}
    {s₁ : RetentionStore} (keyed : Keyed s) (loop : batchLoop cfg call s key limit startedAt = (r, s₁)) : Keyed s₁ := by
  have begins : Keyed (batchStore s (candidates cfg s key.tenant key.user startedAt limit).length) := keyed
  have looped : Keyed (batchLoop cfg call s key limit startedAt).2 := loop_keyed _ _ _ begins
  rwa [loop] at looped

theorem runPurgeBatch_keyed (call : BatchCall) (keyed : Keyed s) : Keyed (runPurgeBatch cfg call s).2 := by
  have outcome : BatchOutcome cfg call s (runPurgeBatch cfg call s).1 (runPurgeBatch cfg call s).2 :=
    batch_outcome call
  generalize (runPurgeBatch cfg call s).1 = r at outcome
  generalize (runPurgeBatch cfg call s).2 = s' at outcome
  cases outcome with
  | refused | replayed => exact keyed
  | loopThrew key limit startedAt e s₁ begins loop => exact batchLoop_keyed keyed loop
  | clockThrew key limit startedAt e b s₁ begins loop =>
    have looped : Keyed s₁ := batchLoop_keyed keyed loop
    exact looped
  | completed key limit startedAt b s₁ output s' begins loop clock started noted counts quiet =>
    intro scope e he
    rw [quiet.records] at he
    exact batchLoop_keyed keyed loop scope e he

theorem reachable_keyed (run : Reachable cfg s) : Keyed s := by
  induction run with
  | created =>
    intro scope e he
    cases he
  | item run call ih => exact call_keyed cfg call ih
  | batch run call ih => exact runPurgeBatch_keyed call ih

/-! ### The report -/

section
variable {key : BatchKey} {limit : Nat} {output : PurgeBatchResult}

/-- What a batch has noted at the end of its loop. -/
theorem ran_accounted (keyed : Keyed s) (ran : Ran cfg call s key limit output s') :
    ∃ b s₁, Accounted output.startedAt (batchStore s (candidates cfg s key.tenant key.user output.startedAt limit).length)
        (candidates cfg s key.tenant key.user output.startedAt limit) b s₁ ∧
      handedItems cfg s call key limit output.startedAt = b.handed ∧
      output.items = b.items ∧ output.skippedItems = b.skippedItems ∧ output.failures = b.failures ∧
      output.auditEvents = b.events ∧ Quiet s₁ s' := by
  obtain ⟨b, s₁, loop, same⟩ := ran.loop
  refine ⟨b, s₁, ?_, ?_, same⟩
  · have begins : Keyed (batchStore s (candidates cfg s key.tenant key.user output.startedAt limit).length) := keyed
    have accounted := loop_accounted _ (accounted_empty begins output.startedAt) loop
    rwa [List.nil_append] at accounted
  · rw [handedItems]
    simp only [loop]

theorem ran_stays (keyed : Keyed s) (ran : Ran cfg call s key limit output s') :
    ∀ x ∈ output.items, StaysPurged s' x := by
  obtain ⟨b, s₁, accounted, _, items, _, _, _, quiet⟩ := ran_accounted keyed ran
  intro x hx
  rw [items] at hx
  rw [StaysPurged, quiet.records]
  exact accounted.stays x hx

theorem ran_intact_iff (keyed : Keyed s) (ran : Ran cfg call s key limit output s') :
    (∀ x ∈ output.items, Intact s' x) ↔ LeavesPurged (batchContext cfg call key output.startedAt)
      (candidates cfg s key.tenant key.user output.startedAt limit) .empty
      (batchStore s (candidates cfg s key.tenant key.user output.startedAt limit).length) := by
  obtain ⟨b, s₁, loop, items, _, _, _, quiet⟩ := ran.loop
  have begins : Keyed (batchStore s (candidates cfg s key.tenant key.user output.startedAt limit).length) := keyed
  have intact := loop_intact _ (accounted_empty begins output.startedAt) loop
  have same : ∀ x, Intact s' x ↔ Intact s₁ x := by
    intro x
    rw [Intact, Intact, RetentionStore.generation, RetentionStore.generation, quiet.records]
  simp only [items, same]
  rw [intact]
  simp [Batch.empty]

/-- The report is true, if what it reports is stored in the generation reported. -/
theorem ran_accounts (keyed : Keyed s) (ran : Ran cfg call s key limit output s')
    (intact : ∀ x ∈ output.items, Intact s' x) : Accounts cfg s call key limit output s' := by
  have stays := ran_stays keyed ran
  obtain ⟨purgedCount, skippedCount, failedCount, scannedCount⟩ := ran.counts
  obtain ⟨b, s₁, accounted, handed, items, skipped, failures, events, quiet⟩ := ran_accounted keyed ran
  obtain ⟨taken, passed, perm, takenItems, passedItems⟩ := accounted.fates
  exact {
    purged := by
      intro x hx
      obtain ⟨e, he, _, purged⟩ := stays x hx
      have generation := intact x hx
      rw [Intact, RetentionStore.generation, he, Option.elim_some] at generation
      rw [items] at hx
      obtain ⟨h, hh, scope, same⟩ := accounted.handed x hx
      rw [handed]
      exact ⟨h, hh, scope, same, e, he, purged generation, generation.trans same.symm⟩
    due := by
      intro x hx
      rw [items] at hx
      have member : x.toRetentionScope ∈ taken.map (·.toRetentionScope) := by
        rw [← takenItems]
        exact List.mem_map_of_mem hx
      obtain ⟨c, hc, scope⟩ := List.mem_map.mp member
      rw [← scope]
      exact candidates_due keyed (perm.subset (List.mem_append_left _ hc))
    trashed := by
      rw [handed]
      exact accounted.trashed
    fates := by
      rw [items, skipped]
      exact ⟨taken, passed, perm, takenItems, passedItems⟩
    distinct := candidates_nodup keyed
    failures := by
      rw [failures, skipped]
      exact accounted.failed
    counts := by
      refine ⟨purgedCount, skippedCount, failedCount, ?_⟩
      have total := perm.length_eq
      have purgedTotal := congrArg List.length takenItems
      have skippedTotal := congrArg List.length passedItems
      simp only [List.length_append, List.length_map] at total purgedTotal skippedTotal
      rw [scannedCount, purgedCount, skippedCount, items, skipped]
      omega
    purgedMetric := by
      rw [quiet.purged, accounted.purged, purgedCount, items]
      rfl
    failureMetric := by
      rw [quiet.failures, accounted.failures, failedCount, failures]
      rfl
    events := by
      rw [quiet.events, accounted.events, events]
      rfl
    purgeEvents := by
      rw [events, purgedCount, items]
      exact accounted.purgeEvents
    failureEvents := by
      rw [events, failedCount, failures]
      exact accounted.failureEvents }

end

/-- A call of `runPurgeBatch` that returns replays a stored result, or runs a
batch, whose report is true if and only if the callback does not renew an item
that it got, accepts and leaves due. -/
theorem runPurgeBatch_accounts_iff (run : Reachable cfg s) (call : BatchCall) {output : PurgeBatchResult}
    (returns : (runPurgeBatch cfg call s).1 = .ok output) :
    ∃ key limit, identifyBatch cfg call.env call.input = .ok (key, limit) ∧
      ((s.batchResults.get key = some output ∧ (runPurgeBatch cfg call s).2 = s) ∨
        (s.batchResults.get key = none ∧
          (Accounts cfg s call key limit output (runPurgeBatch cfg call s).2 ↔
            LeavesPurged (batchContext cfg call key output.startedAt)
              (candidates cfg s key.tenant key.user output.startedAt limit) .empty
              (batchStore s (candidates cfg s key.tenant key.user output.startedAt limit).length)))) := by
  obtain ⟨key, limit, identified, replayed | ran⟩ := runPurgeBatch_returns returns
  · exact ⟨key, limit, identified, .inl replayed⟩
  · refine ⟨key, limit, identified, .inr ⟨ran.fresh, ?_⟩⟩
    rw [← ran_intact_iff (reachable_keyed run) ran]
    constructor
    · intro h x hx
      obtain ⟨y, _, _, generation, e, he, _, same⟩ := h.purged x hx
      rw [Intact, RetentionStore.generation, he]
      exact same.trans generation
    · exact ran_accounts (reachable_keyed run) ran

end

/-! ### Samples -/

def sampleRetention : RetentionConfig := ⟨asciiHost, 28, 100, [js "mail"]⟩

def sampleEnv (day : Int) : Ambient := ⟨fun _ => some (.date (some (day * msPerDay))), js "random"⟩

/-- A message of `alice` is deleted. -/
def deleteItem (itemId : String) (day : Int) (key : String) : ItemCall where
  env := sampleEnv day
  method := .markDeleted
  argument := .object ([("tenantId", "acme"), ("userId", "alice"), ("itemId", itemId), ("resourceType", "mail"),
    ("idempotencyKey", key)].map fun f => (js f.1, .string (js f.2)))

def deleteMessage : Int → String → ItemCall := deleteItem "m1"

/-- A batch on day 28, with a callback that makes some calls and accepts every item. -/
def purgeMessages (calls : List ItemCall) : BatchCall where
  env := sampleEnv 28
  argument := .object [(js "workerId", .string (js "w1")), (js "operationId", .string (js "b1"))]
  given := .callable
  configured := false
  behaviour := fun _ _ _ => (calls, .accepts)

def sampleStore : RetentionStore := ((deleteMessage 0 "d1").run sampleRetention .empty).2

def sampleMessage : RetentionScope := ⟨js "acme", js "alice", js "m1"⟩

def otherMessage : RetentionScope := ⟨js "acme", js "alice", js "m2"⟩

theorem sampleStore_reachable : Reachable sampleRetention sampleStore := .item .created _

/-- A callback that deletes the message anew: the message is reported as purged,
and stored as trashed. -/
theorem runPurgeBatch_reports_stale :
    ∃ output key limit, (runPurgeBatch sampleRetention (purgeMessages [deleteMessage 28 "d2"]) sampleStore).1 = .ok output ∧
      identifyBatch sampleRetention (purgeMessages [deleteMessage 28 "d2"]).env
        (purgeMessages [deleteMessage 28 "d2"]).input = .ok (key, limit) ∧
      sampleStore.batchResults.get key = none ∧
      ¬ Accounts sampleRetention sampleStore (purgeMessages [deleteMessage 28 "d2"]) key limit output
        (runPurgeBatch sampleRetention (purgeMessages [deleteMessage 28 "d2"]) sampleStore).2 := by
  have facts : (((runPurgeBatch sampleRetention (purgeMessages [deleteMessage 28 "d2"]) sampleStore).1.toOption.map
        fun output => output.items.map fun x => (x.toRetentionScope, x.generation)),
      ((runPurgeBatch sampleRetention (purgeMessages [deleteMessage 28 "d2"]) sampleStore).2.records.get
        sampleMessage).map fun e => e.item.state) = (some [(sampleMessage, 1)], some .trashed) := by
    decide
  obtain ⟨reported, stored⟩ := Prod.mk.inj facts
  cases hr : (runPurgeBatch sampleRetention (purgeMessages [deleteMessage 28 "d2"]) sampleStore).1 with
  | error e =>
    rw [hr] at reported
    cases reported
  | ok output =>
    rw [hr] at reported
    obtain ⟨key, limit, identified, _⟩ := runPurgeBatch_returns hr
    refine ⟨output, key, limit, rfl, identified, rfl, ?_⟩
    intro accounts
    have items : output.items.map (fun x => (x.toRetentionScope, x.generation)) = [(sampleMessage, 1)] :=
      Option.some.inj reported
    obtain ⟨x, hx, same⟩ := List.mem_map.mp (items ▸ List.mem_singleton_self (sampleMessage, 1))
    obtain ⟨scope, _⟩ := Prod.mk.inj same
    obtain ⟨h, _, _, _, e, he, purged, _⟩ := accounts.purged x hx
    rw [scope] at he
    rw [he, Option.map_some, purged] at stored
    cases stored

/-- A callback that deletes another message. -/
def deletesOther : BatchCall := purgeMessages [deleteItem "m2" 28 "d2"]

theorem deletesOther_remarks {key : BatchKey} {startedAt : Int} {k : RetentionScope} (other : k ≠ otherMessage)
    (cs : List RetentionItem) (b : Batch) (s : RetentionStore) :
    ¬ RemarksIn (batchContext sampleRetention deletesOther key startedAt) k cs b s := by
  have now (c : RetentionItem) (b : Batch) (s : RetentionStore) :
      ¬ RemarksNow (batchContext sampleRetention deletesOther key startedAt) k c b s := by
    rintro ⟨_, _, _, ⟨_, id, type, checked, rfl, _⟩ | none⟩
    · replace checked : checkDeletion sampleRetention (deleteItem "m2" 28 "d2").env (deleteItem "m2" 28 "d2").input =
          .ok (id, type) := checked
      have deleted : (checkDeletion sampleRetention (deleteItem "m2" 28 "d2").env (deleteItem "m2" 28 "d2").input).map
          (fun checked => checked.1.scope) = .ok otherMessage := by decide
      rw [checked] at deleted
      exact other (Except.ok.inj deleted)
    · exact none
  induction cs generalizing b s with
  | nil => exact id
  | cons c cs ih =>
    rintro (here | ⟨b', s', _, later⟩)
    · exact now c b s here
    · exact ih b' s' later

/-- The callback's own call stands beside the report, which is true. -/
theorem runPurgeBatch_accounts_iff_other :
    ∃ output key limit, (runPurgeBatch sampleRetention deletesOther sampleStore).1 = .ok output ∧ output.purged = 1 ∧
      ((runPurgeBatch sampleRetention deletesOther sampleStore).2.records.get otherMessage).map (·.item.state) =
        some .trashed ∧
      Accounts sampleRetention sampleStore deletesOther key limit output
        (runPurgeBatch sampleRetention deletesOther sampleStore).2 := by
  have facts : ((runPurgeBatch sampleRetention deletesOther sampleStore).1.toOption.map (·.purged),
      ((runPurgeBatch sampleRetention deletesOther sampleStore).2.records.get otherMessage).map (·.item.state)) =
      (some 1, some .trashed) := by
    decide
  obtain ⟨purged, trashed⟩ := Prod.mk.inj facts
  cases hr : (runPurgeBatch sampleRetention deletesOther sampleStore).1 with
  | error e =>
    rw [hr] at purged
    cases purged
  | ok output =>
    rw [hr] at purged
    obtain ⟨key, limit, _, ⟨stored, _⟩ | ⟨_, accounts⟩⟩ := runPurgeBatch_accounts_iff sampleStore_reachable deletesOther hr
    · cases stored
    · refine ⟨output, key, limit, rfl, Option.some.inj purged, trashed, accounts.mpr ?_⟩
      have others : ∀ c ∈ candidates sampleRetention sampleStore key.tenant key.user output.startedAt limit,
          c.toRetentionScope ≠ otherMessage := by
        intro c hc same
        obtain ⟨e, present, _⟩ := candidates_due (reachable_keyed sampleStore_reachable) hc
        rw [same] at present
        cases present
      generalize candidates sampleRetention sampleStore key.tenant key.user output.startedAt limit = cs at others
      generalize batchStore sampleStore cs.length = s
      generalize Batch.empty = b
      induction cs generalizing b s with
      | nil => trivial
      | cons c cs ih =>
        obtain ⟨first, rest⟩ := List.forall_mem_cons.mp others
        exact ⟨fun _ => deletesOther_remarks first _ b s, fun b' s' _ => ih rest s' b'⟩

end GuloGulo.Lifecycle.Retention
