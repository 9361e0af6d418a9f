import GuloGulo.Lifecycle.Retention

/-!
# What a call does to an item

A call leaves the record of an item in place, or renews it with the next
generation. A record that is in place and purged stays purged, and the metrics
and events of purges are left to the batches.
-/

namespace GuloGulo.Lifecycle.Retention
open Js Data
open Eff (check wp ReadOnly)

def RetentionAuditEvent.ofBatch (entry : RetentionAuditEvent) : Bool :=
  entry.event.isPurge || entry.event.isPurgeFailed

/-- The generation of the stored record; that of an item without one is 0. -/
def RetentionStore.generation (s : RetentionStore) (scope : RetentionScope) : Nat :=
  (s.records.get scope).elim 0 (·.item.generation)

/-- Records are stored under their own scope. -/
def Entry.Under (scope : RetentionScope) (e : Entry) : Prop :=
  e.item.toRetentionScope = scope ∧ ∀ r ∈ e.replaced, r.toRetentionScope = scope

def Keyed (s : RetentionStore) : Prop := ∀ scope e, s.records.get scope = some e → e.Under scope

/-- The record is still the one it was, if it was one; purged is final for it. -/
def Kept (before after : Option Entry) : Prop :=
  after = before ∨ ∃ e e', before = some e ∧ after = some e' ∧ e'.item.generation = e.item.generation ∧
    e'.item.toRetentionScope = e.item.toRetentionScope ∧ e'.replaced = e.replaced ∧
    (e.item.state = .purged → e'.item.state = .purged)

/-- The record is the next one. -/
def Renewed (scope : RetentionScope) (before after : Option Entry) : Prop :=
  ∃ e', after = some e' ∧ e'.item.toRetentionScope = scope ∧
    e'.replaced = before.elim [] (fun e => e.item :: e.replaced) ∧
    e'.item.generation = before.elim 1 fun e => e.item.generation + 1

/-- A deletion that gets past its checks and is no replay puts a new record. -/
def Deletes (cfg : RetentionConfig) (env : Ambient) (input : JsValue) (s : RetentionStore)
    (scope : RetentionScope) : Prop :=
  ∃ key type, checkDeletion cfg env input = .ok (key, type) ∧ key.scope = scope ∧
    s.itemResults.get key = none ∧ ∃ dates, deletionDates cfg env input = .ok dates

def Renews (cfg : RetentionConfig) (s : RetentionStore) (call : ItemCall) (scope : RetentionScope) : Prop :=
  call.method = .markDeleted ∧ Deletes cfg call.env call.input s scope

/-- Nothing of what concerns purges, nor a record, has changed. -/
structure Quiet (s s' : RetentionStore) : Prop where
  records : s'.records = s.records
  purged : s'.metrics .itemsPurged = s.metrics .itemsPurged
  failures : s'.metrics .purgeFailures = s.metrics .purgeFailures
  events : s'.events.filter (·.ofBatch) = s.events.filter (·.ofBatch)

/-- What an operation on items may do, given the items it renews. -/
structure Effect (renews : RetentionScope → Prop) (s s' : RetentionStore) : Prop where
  renewed : ∀ scope, renews scope → Renewed scope (s.records.get scope) (s'.records.get scope)
  kept : ∀ scope, ¬ renews scope → Kept (s.records.get scope) (s'.records.get scope)
  purged : s'.metrics .itemsPurged = s.metrics .itemsPurged
  failures : s'.metrics .purgeFailures = s.metrics .purgeFailures
  events : s'.events.filter (·.ofBatch) = s.events.filter (·.ofBatch)

section
variable {s s' s'' : RetentionStore} {renews : RetentionScope → Prop}

@[simp] theorem put_get (s : RetentionStore) (scope : RetentionScope) (entry : Entry) (k : RetentionScope) :
    (s.put scope entry).records.get k = if k = scope then some entry else s.records.get k := by
  simp only [RetentionStore.put, OrderedMap.get_set, eq_comm]

theorem kept_refl (o : Option Entry) : Kept o o := .inl rfl

theorem effect_none (s : RetentionStore) (none : ∀ scope, ¬ renews scope) : Effect renews s s :=
  ⟨fun scope h => absurd h (none scope), fun _ _ => kept_refl _, rfl, rfl, rfl⟩

theorem effect_quiet (effect : Effect renews s s') (quiet : Quiet s' s'') : Effect renews s s'' where
  renewed scope h := by
    rw [quiet.records]
    exact effect.renewed scope h
  kept scope h := by
    rw [quiet.records]
    exact effect.kept scope h
  purged := quiet.purged.trans effect.purged
  failures := quiet.failures.trans effect.failures
  events := quiet.events.trans effect.events

/-- A changed entry of an item that is not renewed. -/
theorem effect_put {scope : RetentionScope} {e e' : Entry} (none : ∀ k, ¬ renews k)
    (present : s.records.get scope = some e) (generation : e'.item.generation = e.item.generation)
    (own : e'.item.toRetentionScope = e.item.toRetentionScope) (replaced : e'.replaced = e.replaced)
    (state : e.item.state = .purged → e'.item.state = .purged) : Effect renews s (s.put scope e') := by
  refine ⟨fun k h => absurd h (none k), ?_, rfl, rfl, rfl⟩
  intro k _
  rw [put_get]
  by_cases hk : k = scope
  · rw [if_pos hk, hk]
    exact .inr ⟨e, e', present, rfl, generation, own, replaced, state⟩
  · rw [if_neg hk]
    exact kept_refl _

/-! ## Quiet computations -/

theorem quiet_refl (s : RetentionStore) : Quiet s s := ⟨rfl, rfl, rfl, rfl⟩

theorem quiet_trans (first : Quiet s s') (second : Quiet s' s'') : Quiet s s'' :=
  ⟨second.records.trans first.records, second.purged.trans first.purged, second.failures.trans first.failures,
    second.events.trans first.events⟩

def QuietOp {α : Type} (m : RetentionOp α) : Prop := ∀ s, Quiet s (m s).2

variable {α β : Type}

theorem quiet_bind {m : RetentionOp β} {f : β → RetentionOp α} (hm : QuietOp m) (hf : ∀ b, QuietOp (f b)) :
    QuietOp (m >>= f) := by
  intro s
  show Quiet s (Eff.bind m f s).2
  have first := hm s
  unfold Eff.bind
  rcases h : m s with ⟨r, s'⟩
  rw [h] at first
  cases r with
  | ok b => exact quiet_trans first (hf b s')
  | error e => exact first

theorem quiet_readOnly {m : RetentionOp α} (hm : ReadOnly m) : QuietOp m := by
  intro s
  rw [hm]
  exact quiet_refl s

theorem quiet_increment {name : MetricName} (purged : name ≠ .itemsPurged) (failures : name ≠ .purgeFailures) :
    QuietOp (increment name) := by
  intro s
  refine ⟨rfl, ?_, ?_, rfl⟩
  · exact if_neg purged.symm
  · exact if_neg failures.symm

theorem quiet_appendEvent {entry : RetentionAuditEvent} (other : entry.ofBatch = false) :
    QuietOp (appendEvent entry) := by
  intro s
  refine ⟨rfl, rfl, rfl, ?_⟩
  show (s.events ++ [entry]).filter (·.ofBatch) = _
  rw [List.filter_append, List.filter_cons_of_neg (by simp [other]), List.filter_nil, List.append_nil]

theorem quiet_remember (key : ItemKey) (output : RetentionItemOperation) : QuietOp (remember key output) :=
  fun _ => ⟨rfl, rfl, rfl, rfl⟩

/-- What follows the change of an entry. -/
theorem wp_quiet {m : RetentionOp α} (hm : QuietOp m) (effect : Effect renews s s') :
    wp m s' fun _ s'' => Effect renews s s'' :=
  effect_quiet effect (hm s')

theorem wp_put_bind {scope : RetentionScope} {e : Entry} {f : Unit → RetentionOp α}
    {Q : Except (Thrown RetentionError) α → RetentionStore → Prop} :
    wp (put scope e >>= f) s Q ↔ wp (f ()) (s.put scope e) Q := Iff.rfl

end

section
variable {cfg : RetentionConfig} {env : Ambient} {input : JsValue} {s : RetentionStore}

theorem requireItem_eq_ok {scope : RetentionScope} {e : Entry} :
    requireItem s scope = .ok e ↔ s.records.get scope = some e := by
  unfold requireItem
  cases s.records.get scope <;> simp

/-! ## The operations -/

theorem markDeleted_effect :
    wp (markDeleted cfg env input) s fun _ s' => Effect (Deletes cfg env input s) s s' := by
  refine Eff.wp_check_bind.mpr ⟨?_, ?_⟩
  · intro e he
    refine effect_none s ?_
    rintro scope ⟨key, type, checked, _⟩
    rw [he] at checked
    cases checked
  · rintro ⟨key, type⟩ checked
    show wp (unlessReplayed key _) s _
    rw [unlessReplayed, Eff.wp_get_bind]
    cases stored : s.itemResults.get key with
    | some prior =>
      refine effect_none s ?_
      rintro scope ⟨key', type', checked', _, fresh, _⟩
      cases checked.symm.trans checked'
      rw [stored] at fresh
      cases fresh
    | none =>
      refine Eff.wp_lift_bind.mpr ⟨?_, ?_⟩
      · intro e he
        refine effect_none s ?_
        rintro scope ⟨_, _, _, _, _, dates, hdates⟩
        rw [he] at hdates
        cases hdates
      · rintro ⟨deletedAt, retentionUntil⟩ hdates
        have deletes : Deletes cfg env input s key.scope := ⟨key, type, checked, rfl, stored, _, hdates⟩
        dsimp only
        rw [Eff.wp_get_bind]
        refine wp_put_bind.mpr (wp_quiet ?_ ?_)
        · refine quiet_bind (quiet_increment (by decide) (by decide)) fun _ => ?_
          refine quiet_bind (quiet_readOnly (Eff.readOnly_check _)) fun _ => ?_
          exact quiet_bind (quiet_appendEvent rfl) fun _ => quiet_remember _ _
        · refine ⟨?_, ?_, rfl, rfl, rfl⟩
          · rintro scope ⟨key', type', checked', rfl, _⟩
            cases checked.symm.trans checked'
            exact ⟨_, (put_get ..).trans (if_pos rfl), rfl, rfl, rfl⟩
          · intro scope keeps
            have other : scope ≠ key.scope := by
              rintro rfl
              exact keeps deletes
            rw [put_get, if_neg other]
            exact kept_refl _

theorem no_renewal (scope : RetentionScope) : ¬ (fun _ : RetentionScope => False) scope := id

theorem checkRestore_readOnly {key : ItemKey} : ReadOnly (checkRestore cfg env input key) :=
  Eff.readOnly_bind Eff.readOnly_get fun _ => Eff.readOnly_bind (Eff.readOnly_check _) fun _ =>
    Eff.readOnly_bind (Eff.readOnly_check _) fun _ => Eff.readOnly_bind (Eff.readOnly_lift _) fun _ =>
      Eff.readOnly_pure _

theorem checkRestore_ok {key : ItemKey} {e : Entry} {date : Int}
    (h : (checkRestore cfg env input key s).1 = .ok (e, date)) :
    s.records.get key.scope = some e ∧ e.item.state ≠ .purged := by
  obtain ⟨t, ht, h⟩ := Eff.readOnly_bind_eq_ok Eff.readOnly_get h
  cases ht
  obtain ⟨_, hpresent, h⟩ := Eff.check_bind_eq_ok h
  obtain ⟨_, hstate, h⟩ := Eff.check_bind_eq_ok h
  obtain ⟨_, _, h⟩ := Eff.readOnly_bind_eq_ok (Eff.readOnly_lift _) h
  cases h
  refine ⟨requireItem_eq_ok.mp hpresent, ?_⟩
  simpa using throwIf_eq_ok.mp hstate

theorem restoreItem_effect :
    wp (restoreItem cfg env input) s fun _ s' => Effect (fun _ => False) s s' := by
  have same : Effect (fun _ => False) s s := effect_none s no_renewal
  refine Eff.wp_check_bind.mpr ⟨fun _ _ => same, fun scope _ => ?_⟩
  refine Eff.wp_check_bind.mpr ⟨fun _ _ => same, fun key _ => ?_⟩
  rw [unlessReplayed, Eff.wp_get_bind]
  cases s.itemResults.get key with
  | some prior => exact same
  | none =>
    refine Eff.wp_readOnly_bind checkRestore_readOnly (fun _ _ => same) ?_
    rintro ⟨e, date⟩ h
    obtain ⟨present, notPurged⟩ := checkRestore_ok h
    refine wp_put_bind.mpr (wp_quiet ?_ ?_)
    · refine quiet_bind (quiet_increment (by decide) (by decide)) fun _ => ?_
      refine quiet_bind (quiet_readOnly (Eff.readOnly_check _)) fun _ => ?_
      exact quiet_bind (quiet_appendEvent rfl) fun _ => quiet_remember _ _
    · exact effect_put no_renewal present rfl rfl rfl fun purged => absurd purged notPurged

theorem checkHold_readOnly : ReadOnly (checkHold cfg env input) := by
  refine Eff.readOnly_bind (Eff.readOnly_check _) fun _ => Eff.readOnly_bind (Eff.readOnly_check _) fun _ =>
    Eff.readOnly_bind (Eff.readOnly_check _) fun _ => Eff.readOnly_bind Eff.readOnly_get fun _ =>
      Eff.readOnly_bind (Eff.readOnly_check _) fun _ => ?_
  by_cases h : (input.get "expiresAt").isNullish
  · simp only [h, ↓reduceIte]
    exact Eff.readOnly_pure _
  · simp only [h]
    exact Eff.readOnly_bind (Eff.readOnly_check _) fun _ => Eff.readOnly_bind (Eff.readOnly_lift _) fun _ =>
      Eff.readOnly_bind (Eff.readOnly_check _) fun _ => Eff.readOnly_pure _

theorem checkHold_ok {q : HoldRequest} (h : (checkHold cfg env input s).1 = .ok q) :
    s.records.get q.scope = some q.entry := by
  obtain ⟨scope, _, h⟩ := Eff.check_bind_eq_ok h
  obtain ⟨_, _, h⟩ := Eff.check_bind_eq_ok h
  obtain ⟨_, _, h⟩ := Eff.check_bind_eq_ok h
  obtain ⟨t, ht, h⟩ := Eff.readOnly_bind_eq_ok Eff.readOnly_get h
  cases ht
  obtain ⟨e, hpresent, h⟩ := Eff.check_bind_eq_ok h
  have present := requireItem_eq_ok.mp hpresent
  split at h
  · cases h
    exact present
  · obtain ⟨_, _, h⟩ := Eff.check_bind_eq_ok h
    obtain ⟨_, _, h⟩ := Eff.readOnly_bind_eq_ok (Eff.readOnly_lift _) h
    obtain ⟨_, _, h⟩ := Eff.check_bind_eq_ok h
    cases h
    exact present

theorem addHold_effect : wp (addHold cfg env input) s fun _ s' => Effect (fun _ => False) s s' := by
  have same : Effect (fun _ => False) s s := effect_none s no_renewal
  refine Eff.wp_readOnly_bind checkHold_readOnly (fun _ _ => same) ?_
  rintro ⟨scope, holdId, reasonCode, e, expiresAt⟩ h
  have present : s.records.get scope = some e := checkHold_ok h
  dsimp only
  by_cases held : (e.holds.get holdId).isSome
  · rw [if_pos held]
    exact same
  · rw [if_neg held]
    refine Eff.wp_lift_bind.mpr ⟨fun _ _ => same, fun createdAt _ => ?_⟩
    refine wp_put_bind.mpr (wp_quiet ?_ (effect_put no_renewal present rfl rfl rfl id))
    refine quiet_bind (quiet_increment (by decide) (by decide)) fun _ => ?_
    refine quiet_bind (quiet_increment (by decide) (by decide)) fun _ => ?_
    refine quiet_bind (quiet_readOnly (Eff.readOnly_check _)) fun _ => ?_
    refine quiet_bind (quiet_readOnly (Eff.readOnly_lift _)) fun _ => ?_
    exact quiet_bind (quiet_appendEvent rfl) fun _ => quiet_readOnly (Eff.readOnly_pure _)

theorem checkHoldRelease_readOnly : ReadOnly (checkHoldRelease input) :=
  Eff.readOnly_bind (Eff.readOnly_check _) fun _ => Eff.readOnly_bind (Eff.readOnly_check _) fun _ =>
    Eff.readOnly_bind Eff.readOnly_get fun _ => Eff.readOnly_bind (Eff.readOnly_check _) fun _ =>
      Eff.readOnly_pure _

theorem checkHoldRelease_ok {scope : RetentionScope} {holdId : JsString} {e : Entry}
    (h : (checkHoldRelease input s).1 = .ok (scope, holdId, e)) : s.records.get scope = some e := by
  obtain ⟨_, _, h⟩ := Eff.check_bind_eq_ok h
  obtain ⟨_, _, h⟩ := Eff.check_bind_eq_ok h
  obtain ⟨t, ht, h⟩ := Eff.readOnly_bind_eq_ok Eff.readOnly_get h
  cases ht
  obtain ⟨_, hpresent, h⟩ := Eff.check_bind_eq_ok h
  cases h
  exact requireItem_eq_ok.mp hpresent

theorem releaseHold_effect : wp (releaseHold cfg env input) s fun _ s' => Effect (fun _ => False) s s' := by
  have same : Effect (fun _ => False) s s := effect_none s no_renewal
  refine Eff.wp_readOnly_bind checkHoldRelease_readOnly (fun _ _ => same) ?_
  rintro ⟨scope, holdId, e⟩ h
  have present := checkHoldRelease_ok h
  dsimp only
  by_cases free : (e.holds.get holdId).isNone
  · rw [if_pos free]
    exact same
  · rw [if_neg free]
    refine wp_put_bind.mpr (wp_quiet ?_ (effect_put no_renewal present rfl rfl rfl id))
    refine quiet_bind (quiet_increment (by decide) (by decide)) fun _ => ?_
    refine quiet_bind (quiet_readOnly (Eff.readOnly_check _)) fun _ => ?_
    refine quiet_bind (quiet_readOnly (Eff.readOnly_lift _)) fun _ => ?_
    exact quiet_bind (quiet_appendEvent rfl) fun _ => quiet_readOnly (Eff.readOnly_pure _)

theorem checkLock_readOnly : ReadOnly (checkLock cfg env input) :=
  Eff.readOnly_bind (Eff.readOnly_check _) fun _ => Eff.readOnly_bind (Eff.readOnly_check _) fun _ =>
    Eff.readOnly_bind (Eff.readOnly_check _) fun _ => Eff.readOnly_bind (Eff.readOnly_check _) fun _ =>
      Eff.readOnly_bind (Eff.readOnly_lift _) fun _ => Eff.readOnly_bind Eff.readOnly_get fun _ =>
        Eff.readOnly_bind (Eff.readOnly_check _) fun _ => Eff.readOnly_bind (Eff.readOnly_check _) fun _ =>
          Eff.readOnly_bind (Eff.readOnly_lift _) fun _ => Eff.readOnly_pure _

theorem checkLock_ok {q : LockRequest} (h : (checkLock cfg env input s).1 = .ok q) :
    s.records.get q.scope = some q.entry := by
  obtain ⟨_, _, h⟩ := Eff.check_bind_eq_ok h
  obtain ⟨_, _, h⟩ := Eff.check_bind_eq_ok h
  obtain ⟨_, _, h⟩ := Eff.check_bind_eq_ok h
  obtain ⟨_, _, h⟩ := Eff.check_bind_eq_ok h
  obtain ⟨_, _, h⟩ := Eff.readOnly_bind_eq_ok (Eff.readOnly_lift _) h
  obtain ⟨t, ht, h⟩ := Eff.readOnly_bind_eq_ok Eff.readOnly_get h
  cases ht
  obtain ⟨_, hpresent, h⟩ := Eff.check_bind_eq_ok h
  obtain ⟨_, _, h⟩ := Eff.check_bind_eq_ok h
  obtain ⟨_, _, h⟩ := Eff.readOnly_bind_eq_ok (Eff.readOnly_lift _) h
  cases h
  exact requireItem_eq_ok.mp hpresent

theorem acquireLock_effect : wp (acquireLock cfg env input) s fun _ s' => Effect (fun _ => False) s s' := by
  refine Eff.wp_readOnly_bind checkLock_readOnly (fun _ _ => effect_none s no_renewal) ?_
  rintro ⟨scope, e, lock⟩ h
  have present : s.records.get scope = some e := checkLock_ok h
  refine wp_put_bind.mpr (wp_quiet ?_ (effect_put no_renewal present rfl rfl rfl id))
  exact quiet_bind (quiet_increment (by decide) (by decide)) fun _ => quiet_readOnly (Eff.readOnly_pure _)

theorem checkUnlock_readOnly : ReadOnly (checkUnlock input) :=
  Eff.readOnly_bind (Eff.readOnly_check _) fun _ => Eff.readOnly_bind (Eff.readOnly_check _) fun _ =>
    Eff.readOnly_bind (Eff.readOnly_check _) fun _ => Eff.readOnly_bind Eff.readOnly_get fun _ =>
      Eff.readOnly_bind (Eff.readOnly_check _) fun _ => Eff.readOnly_bind (Eff.readOnly_check _) fun _ =>
        Eff.readOnly_pure _

theorem checkUnlock_ok {scope : RetentionScope} {e : Entry} (h : (checkUnlock input s).1 = .ok (scope, e)) :
    s.records.get scope = some e := by
  obtain ⟨_, _, h⟩ := Eff.check_bind_eq_ok h
  obtain ⟨_, _, h⟩ := Eff.check_bind_eq_ok h
  obtain ⟨_, _, h⟩ := Eff.check_bind_eq_ok h
  obtain ⟨t, ht, h⟩ := Eff.readOnly_bind_eq_ok Eff.readOnly_get h
  cases ht
  obtain ⟨_, hpresent, h⟩ := Eff.check_bind_eq_ok h
  obtain ⟨_, _, h⟩ := Eff.check_bind_eq_ok h
  cases h
  exact requireItem_eq_ok.mp hpresent

theorem releaseLock_effect : wp (releaseLock input) s fun _ s' => Effect (fun _ => False) s s' := by
  refine Eff.wp_readOnly_bind checkUnlock_readOnly (fun _ _ => effect_none s no_renewal) ?_
  rintro ⟨scope, e⟩ h
  have present := checkUnlock_ok h
  exact wp_put_bind.mpr (wp_quiet (quiet_readOnly (Eff.readOnly_pure _)) (effect_put no_renewal present rfl rfl rfl id))

/-- What a call does to the items. -/
theorem call_effect (cfg : RetentionConfig) (call : ItemCall) (s : RetentionStore) :
    Effect (Renews cfg s call) s (call.run cfg s).2 := by
  have other (h : call.method ≠ .markDeleted) {s' : RetentionStore} (effect : Effect (fun _ => False) s s') :
      Effect (Renews cfg s call) s s' := by
    have none : ∀ scope, ¬ Renews cfg s call scope := fun scope renews => h renews.1
    exact ⟨fun scope h => absurd h (none scope), fun scope _ => effect.kept scope id, effect.purged, effect.failures,
      effect.events⟩
  rw [ItemCall.run]
  cases hmethod : call.method with
  | markDeleted =>
    have effect : Effect (Deletes cfg call.env call.input s) s _ := markDeleted_effect
    exact ⟨fun scope h => effect.renewed scope h.2, fun scope h => effect.kept scope fun d => h ⟨hmethod, d⟩,
      effect.purged, effect.failures, effect.events⟩
  | restoreItem => exact other (by simp [hmethod]) restoreItem_effect
  | addHold => exact other (by simp [hmethod]) addHold_effect
  | releaseHold => exact other (by simp [hmethod]) releaseHold_effect
  | acquireLock => exact other (by simp [hmethod]) acquireLock_effect
  | releaseLock => exact other (by simp [hmethod]) releaseLock_effect

/-! ## Several calls -/

/-- Later states of an item: the generation goes up or stays, and purged is
final for a record that stays. -/
def Later (before after : Option Entry) : Prop :=
  ∀ e, before = some e → ∃ e', after = some e' ∧ e.item.generation ≤ e'.item.generation ∧
    (e'.item.generation = e.item.generation → e.item.state = .purged → e'.item.state = .purged)

theorem later_refl (o : Option Entry) : Later o o :=
  fun e h => ⟨e, h, Nat.le_refl _, fun _ => id⟩

theorem later_trans {o o' o'' : Option Entry} (first : Later o o') (second : Later o' o'') : Later o o'' := by
  intro e he
  obtain ⟨e', he', le, state⟩ := first e he
  obtain ⟨e'', he'', le', state'⟩ := second e' he'
  refine ⟨e'', he'', Nat.le_trans le le', ?_⟩
  intro same purged
  exact state' (by omega) (state (by omega) purged)

theorem later_of_kept {o o' : Option Entry} (kept : Kept o o') : Later o o' := by
  intro e he
  rcases kept with rfl | ⟨e₀, e', h, h', generation, _, _, state⟩
  · exact later_refl _ e he
  · cases h.symm.trans he
    exact ⟨e', h', by omega, fun _ => state⟩

theorem later_of_renewed {scope : RetentionScope} {o o' : Option Entry} (renewed : Renewed scope o o') :
    Later o o' := by
  rintro e rfl
  obtain ⟨e', h', _, _, generation⟩ := renewed
  simp only [Option.elim_some] at generation
  exact ⟨e', h', by omega, fun same => by omega⟩

theorem call_later (cfg : RetentionConfig) (call : ItemCall) (s : RetentionStore) (scope : RetentionScope) :
    Later (s.records.get scope) ((call.run cfg s).2.records.get scope) := by
  have effect := call_effect cfg call s
  by_cases h : Renews cfg s call scope
  · exact later_of_renewed (effect.renewed scope h)
  · exact later_of_kept (effect.kept scope h)

theorem call_keyed (cfg : RetentionConfig) (call : ItemCall) (keyed : Keyed s) : Keyed (call.run cfg s).2 := by
  intro scope e he
  have effect := call_effect cfg call s
  by_cases h : Renews cfg s call scope
  · obtain ⟨e', he', own, replaced, _⟩ := effect.renewed scope h
    cases he'.symm.trans he
    refine ⟨own, ?_⟩
    intro r hr
    rw [replaced] at hr
    cases hb : s.records.get scope with
    | none =>
      rw [hb] at hr
      cases hr
    | some before =>
      rw [hb] at hr
      rcases List.mem_cons.mp hr with rfl | hr
      · exact (keyed scope before hb).1
      · exact (keyed scope before hb).2 r hr
  · rcases effect.kept scope h with same | ⟨before, e', hb, he', _, own, replaced, _⟩
    · exact keyed scope e (same.symm.trans he)
    · cases he'.symm.trans he
      obtain ⟨own', replaced'⟩ := keyed scope before hb
      exact ⟨own.trans own', by rw [replaced]; exact replaced'⟩

theorem call_generation (cfg : RetentionConfig) (call : ItemCall) (s : RetentionStore) (scope : RetentionScope) :
    (Renews cfg s call scope → (call.run cfg s).2.generation scope = s.generation scope + 1) ∧
    (¬ Renews cfg s call scope → (call.run cfg s).2.generation scope = s.generation scope) := by
  have effect := call_effect cfg call s
  unfold RetentionStore.generation
  constructor
  · intro h
    obtain ⟨e', he', _, _, generation⟩ := effect.renewed scope h
    rw [he', Option.elim_some, generation]
    cases s.records.get scope <;> rfl
  · intro h
    rcases effect.kept scope h with same | ⟨e, e', he, he', generation, _⟩
    · rw [same]
    · rw [he, he', Option.elim_some, Option.elim_some, generation]

/-- One of the calls renews the item. -/
def Remarks (cfg : RetentionConfig) (scope : RetentionScope) : List ItemCall → RetentionStore → Prop
  | [], _ => False
  | call :: calls, s => Renews cfg s call scope ∨ Remarks cfg scope calls (call.run cfg s).2

/-- What calls leave of an item and of the batches' own. -/
structure Called (s s' : RetentionStore) : Prop where
  keyed : Keyed s → Keyed s'
  later : ∀ scope, Later (s.records.get scope) (s'.records.get scope)
  purged : s'.metrics .itemsPurged = s.metrics .itemsPurged
  failures : s'.metrics .purgeFailures = s.metrics .purgeFailures
  events : s'.events.filter (·.ofBatch) = s.events.filter (·.ofBatch)

theorem runCalls_called (cfg : RetentionConfig) (calls : List ItemCall) (s : RetentionStore) :
    Called s (runCalls cfg calls s) := by
  induction calls generalizing s with
  | nil => exact ⟨id, fun _ => later_refl _, rfl, rfl, rfl⟩
  | cons call calls ih =>
    have rest := ih (call.run cfg s).2
    have effect := call_effect cfg call s
    exact ⟨fun keyed => rest.keyed (call_keyed cfg call keyed),
      fun scope => later_trans (call_later cfg call s scope) (rest.later scope),
      rest.purged.trans effect.purged, rest.failures.trans effect.failures, rest.events.trans effect.events⟩

/-- Calls raise the generation of an item exactly when one of them renews it. -/
theorem runCalls_generation (cfg : RetentionConfig) (scope : RetentionScope) (calls : List ItemCall)
    (s : RetentionStore) :
    s.generation scope ≤ (runCalls cfg calls s).generation scope ∧
      ((runCalls cfg calls s).generation scope = s.generation scope ↔ ¬ Remarks cfg scope calls s) := by
  induction calls generalizing s with
  | nil => exact ⟨Nat.le_refl _, fun _ => id, fun _ => rfl⟩
  | cons call calls ih =>
    obtain ⟨le, same⟩ := ih (call.run cfg s).2
    obtain ⟨up, stays⟩ := call_generation cfg call s scope
    have run : runCalls cfg (call :: calls) s = runCalls cfg calls (call.run cfg s).2 := rfl
    rw [run, Remarks]
    by_cases h : Renews cfg s call scope
    · have up := up h
      refine ⟨by omega, ?_⟩
      constructor
      · intro equal
        omega
      · intro none
        exact absurd (.inl h) none
    · have stays := stays h
      rw [stays] at le same
      refine ⟨le, ?_⟩
      rw [same]
      simp [h]

end

end GuloGulo.Lifecycle.Retention
