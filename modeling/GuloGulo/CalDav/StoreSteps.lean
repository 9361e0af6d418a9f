import GuloGulo.CalDav.Store

/-!
# What the in-memory store's operations can do

Every call, whether it returns or throws, takes the store through a sequence
of four kinds of change. The sync results need nothing else of the operations.
-/

namespace GuloGulo.CalDav
open Js Data
open Eff (check wp)

/-- The tenant of the store and identifiers it accepts. -/
structure CalendarCollection.Valid (cfg : CalDavConfig) (c : CalendarCollection) : Prop where
  tenant : c.tenantId = cfg.canonicalTenant
  scope : (c.scope cfg.canonicalTenant).Valid

/-- Nothing that sync reads differs. -/
structure SameContent (c d : CalendarCollection) : Prop where
  tenant : d.tenantId = c.tenantId
  owner : d.ownerUserId = c.ownerUserId
  collection : d.collectionId = c.collectionId
  token : d.syncToken = c.syncToken
  objects : d.objects = c.objects

/-- The objects map after `set` or `delete`. -/
def CalendarCollection.put (id : JsString) (object : Option CalendarObject) (c : CalendarCollection) :
    CalendarCollection :=
  { c with
    objects := match object with
      | some object => c.objects.set id object
      | none => c.objects.delete id }

/-- A write to an object, with the record of it. -/
def afterWrite (cfg : CalDavConfig) (s : CalDavStore) (key id : JsString)
    (object : Option CalendarObject) : CalDavStore where
  revision := s.revision + 1
  changes := s.changes ++ [⟨s.revision + 1, key, id, object, object.isNone⟩]
  collections :=
    (s.collections.adjust key (CalendarCollection.put id object)).adjust key fun c => { c with syncToken := makeToken (c.scope cfg.canonicalTenant) (s.revision + 1) }

inductive Change (cfg : CalDavConfig) (s : CalDavStore) : CalDavStore → Prop where
  | create (c : CalendarCollection) (valid : c.Valid cfg) (fresh : s.collections.get c.key = none)
      (empty : c.objects = Table.empty)
      (token : c.syncToken = makeToken (c.scope cfg.canonicalTenant) s.revision) :
      Change cfg s { s with collections := s.collections.set c.key c }
  | touch (key : JsString) (f : CalendarCollection → CalendarCollection)
      (same : ∀ c, SameContent c (f c)) :
      Change cfg s { s with collections := s.collections.adjust key f }
  | write (c : CalendarCollection) (present : s.collections.get c.key = some c) (id : JsString)
      (object : Option CalendarObject) (named : ∀ o ∈ object, o.objectId = id) :
      Change cfg s (afterWrite cfg s c.key id object)
  | delete (c : CalendarCollection) (present : s.collections.get c.key = some c)
      (empty : ∀ id, c.objects.get id = none) :
      Change cfg s { s with collections := s.collections.delete c.key }

inductive Changes (cfg : CalDavConfig) (s : CalDavStore) : CalDavStore → Prop where
  | refl : Changes cfg s s
  | step {t u : CalDavStore} (before : Changes cfg s t) (change : Change cfg t u) : Changes cfg s u

theorem Changes.single {cfg : CalDavConfig} {s t : CalDavStore} (h : Change cfg s t) : Changes cfg s t :=
  .step .refl h

theorem Changes.trans {cfg : CalDavConfig} {s t u : CalDavStore} (h : Changes cfg s t)
    (h' : Changes cfg t u) : Changes cfg s u := by
  induction h' with
  | refl => exact h
  | step _ change ih => exact .step ih change

/-- The collection's token carries a revision the store has reached. -/
def CalendarCollection.HoldsToken (cfg : CalDavConfig) (revision : Nat) (c : CalendarCollection) : Prop :=
  ∃ r ≤ revision, c.syncToken = makeToken (c.scope cfg.canonicalTenant) r

/-- Collections and objects are stored under their own key. -/
structure Keyed (cfg : CalDavConfig) (s : CalDavStore) : Prop where
  key : ∀ {k c}, s.collections.get k = some c → c.key = k
  valid : ∀ {k c}, s.collections.get k = some c → c.Valid cfg
  object : ∀ {k c}, s.collections.get k = some c → ∀ {id o}, c.objects.get id = some o → o.objectId = id
  token : ∀ {k c}, s.collections.get k = some c → c.HoldsToken cfg s.revision

theorem SameContent.key {c d : CalendarCollection} (h : SameContent c d) : d.key = c.key := by
  rw [CalendarCollection.key, CalendarCollection.key, h.owner, h.collection]

theorem SameContent.scope {c d : CalendarCollection} (h : SameContent c d) (tenantId : JsString) :
    d.scope tenantId = c.scope tenantId := by
  rw [CalendarCollection.scope, CalendarCollection.scope, h.owner, h.collection]

/-- A change carries every collection over, or writes to it, or creates it. -/
inductive Carried (cfg : CalDavConfig) (s t : CalDavStore) (k : JsString) (d : CalendarCollection) :
    Prop where
  | created (key : d.key = k) (valid : d.Valid cfg) (objects : d.objects = Table.empty)
      (token : d.syncToken = makeToken (d.scope cfg.canonicalTenant) s.revision)
  | kept (c : CalendarCollection) (stored : s.collections.get k = some c) (same : SameContent c d)
  | written (c : CalendarCollection) (stored : s.collections.get k = some c)
      (tenant : d.tenantId = c.tenantId) (key : d.key = c.key)
      (scope : d.scope cfg.canonicalTenant = c.scope cfg.canonicalTenant)
      (token : d.syncToken = makeToken (d.scope cfg.canonicalTenant) t.revision)
      (id : JsString) (object : Option CalendarObject) (named : ∀ o ∈ object, o.objectId = id)
      (objects : ∀ i, d.objects.get i = if i = id then object else c.objects.get i)

theorem SameContent.refl (c : CalendarCollection) : SameContent c c := ⟨rfl, rfl, rfl, rfl, rfl⟩

theorem change_carried {cfg : CalDavConfig} {s t : CalDavStore} (h : Change cfg s t) {k : JsString}
    {d : CalendarCollection} (hd : t.collections.get k = some d) : Carried cfg s t k d := by
  cases h with
  | create c valid fresh empty token =>
    rw [OrderedMap.get_set] at hd
    split at hd
    · rename_i hk
      cases hd
      exact .created hk valid empty token
    · exact .kept d hd (.refl d)
  | touch key f same =>
    rw [OrderedMap.get_adjust] at hd
    split at hd
    · rw [Option.map_eq_some_iff] at hd
      obtain ⟨c, hc, rfl⟩ := hd
      exact .kept c hc (same c)
    · exact .kept d hd (.refl d)
  | write c present id object named =>
    simp only [afterWrite, OrderedMap.get_adjust] at hd
    split at hd
    · rename_i hk
      subst hk
      simp only [Option.map_map, Option.map_eq_some_iff, Function.comp_apply] at hd
      obtain ⟨c', hc, rfl⟩ := hd
      refine .written c' hc rfl rfl rfl rfl id object named fun i => ?_
      cases object with
      | none => simp [CalendarCollection.put, OrderedMap.get_delete]
      | some o => simp [CalendarCollection.put, OrderedMap.get_set, eq_comm]
    · exact .kept d hd (.refl d)
  | delete c present empty =>
    rw [OrderedMap.get_delete] at hd
    split at hd
    · cases hd
    · exact .kept d hd (.refl d)

theorem change_revision {cfg : CalDavConfig} {s t : CalDavStore} (h : Change cfg s t) :
    s.revision ≤ t.revision := by
  cases h with
  | create | touch | delete => exact Nat.le_refl _
  | write => exact Nat.le_succ _

theorem carried_valid {cfg : CalDavConfig} {s t : CalDavStore} {k : JsString} {d : CalendarCollection}
    (h : Carried cfg s t k d) (hs : Keyed cfg s) : d.key = k ∧ d.Valid cfg := by
  cases h with
  | created key valid => exact ⟨key, valid⟩
  | kept c stored same =>
    have hc := hs.valid stored
    exact ⟨same.key.trans (hs.key stored), same.tenant.trans hc.tenant, same.scope _ ▸ hc.scope⟩
  | written c stored tenant key scope =>
    have hc := hs.valid stored
    exact ⟨key.trans (hs.key stored), tenant.trans hc.tenant, scope ▸ hc.scope⟩

theorem change_keyed {cfg : CalDavConfig} {s t : CalDavStore} (h : Change cfg s t) (hs : Keyed cfg s) :
    Keyed cfg t where
  key hd := (carried_valid (change_carried h hd) hs).1
  valid hd := (carried_valid (change_carried h hd) hs).2
  object hd i o ho := by
    cases change_carried h hd with
    | created _ _ objects => simp [objects] at ho
    | kept c stored same => exact hs.object stored (same.objects ▸ ho)
    | written c stored _ _ _ _ id object named objects =>
      rw [objects] at ho
      split at ho
      · rename_i hi; exact hi ▸ named o ho
      · exact hs.object stored ho
  token hd := by
    cases change_carried h hd with
    | created _ _ _ token => exact ⟨s.revision, change_revision h, token⟩
    | kept c stored same =>
      obtain ⟨r, hr, htoken⟩ := hs.token stored
      exact ⟨r, Nat.le_trans hr (change_revision h), by rw [same.token, htoken, same.scope]⟩
    | written _ _ _ _ _ token => exact ⟨t.revision, Nat.le_refl _, token⟩

theorem changes_keyed {cfg : CalDavConfig} {s t : CalDavStore} (h : Changes cfg s t) (hs : Keyed cfg s) :
    Keyed cfg t := by
  induction h with
  | refl => exact hs
  | step _ change ih => exact change_keyed change ih

theorem changes_revision {cfg : CalDavConfig} {s t : CalDavStore} (h : Changes cfg s t) :
    s.revision ≤ t.revision := by
  induction h with
  | refl => exact Nat.le_refl _
  | step _ change ih => exact Nat.le_trans ih (change_revision change)

/-- How a call that started in `s` ends: the store has gone through changes,
and `P` holds of the answer if there is one. -/
def Effects (cfg : CalDavConfig) (s : CalDavStore) {α : Type} (P : α → CalDavStore → Prop)
    (r : Except (Thrown CalDavError) α) (t : CalDavStore) : Prop :=
  Changes cfg s t ∧ ∀ a, r = .ok a → P a t

section
variable {cfg : CalDavConfig} {cb : Callbacks} {s t : CalDavStore} {α β : Type}
  {P : α → CalDavStore → Prop}

theorem effects_return {a : α} (h : Changes cfg s t) (hp : P a t) :
    wp (pure a) t (Effects cfg s P) :=
  ⟨h, by rintro _ ⟨rfl⟩; exact hp⟩

theorem effects_throw {e : Thrown CalDavError} (h : Changes cfg s t) : Effects cfg s P (.error e) t :=
  ⟨h, by simp⟩

theorem effects_quiet {m : CalDavOp β} {f : β → CalDavOp α} (hm : Eff.ReadOnly m)
    (h : Changes cfg s t) (next : ∀ b, (m t).1 = .ok b → wp (f b) t (Effects cfg s P)) :
    wp (m >>= f) t (Effects cfg s P) :=
  Eff.wp_readOnly_bind hm (fun _ _ => effects_throw h) next

theorem effects_check {x : Except CalDavError β} {f : β → CalDavOp α} (h : Changes cfg s t)
    (next : ∀ b, x = .ok b → wp (f b) t (Effects cfg s P)) :
    wp (check x >>= f) t (Effects cfg s P) :=
  Eff.wp_check_bind.mpr ⟨fun _ _ => effects_throw h, next⟩

theorem now_readOnly (n : Nat) : Eff.ReadOnly (now cfg cb n) := by
  unfold now; split
  · exact Eff.readOnly_check _
  · exact Eff.readOnly_lift _

theorem emitAudit_readOnly (actor : CalDavActor) (c : CalendarCollection) (details : AuditDetails) :
    Eff.ReadOnly (emitAudit cfg cb actor c details) := by
  unfold emitAudit; split
  · exact Eff.readOnly_pure _
  · exact Eff.readOnly_lift _

theorem destructure_readOnly (options : JsValue) : Eff.ReadOnly (destructure options) := by
  unfold destructure; split
  · exact Eff.readOnly_lift _
  · exact Eff.readOnly_pure _

theorem resolveCollection_readOnly (actor id : JsValue) : Eff.ReadOnly (resolveCollection cfg actor id) :=
  fun _ => rfl

theorem defaultOwner_readOnly (actor ownerUserId : JsValue) :
    Eff.ReadOnly (defaultOwner cfg actor ownerUserId) := by
  unfold defaultOwner; split
  · exact Eff.readOnly_bind (Eff.readOnly_check _) fun _ => Eff.readOnly_pure _
  · exact Eff.readOnly_pure _

theorem findCollection_mem {actor : CalDavActor} {id : CalendarId} {c : CalendarCollection}
    (h : findCollection s actor id = .ok (some c)) : ∃ k, s.collections.get k = some c := by
  unfold findCollection at h
  split at h
  · exact ⟨_, Except.ok.inj h⟩
  · simp only [bind_eq_ok, pure, Except.pure, Except.ok.injEq] at h
    obtain ⟨_, _, h⟩ := h
    exact OrderedMap.mem_values.mp (List.mem_filter.mp (List.mem_of_head? h)).1

/-- A resolved collection is in the store under its key. -/
theorem resolveCollection_present (keyed : Keyed cfg s) {actor id : JsValue} {a : CalDavActor}
    {c : CalendarCollection} (h : (resolveCollection cfg actor id s).1 = .ok (a, c)) :
    s.collections.get c.key = some c := by
  have h : resolveIn cfg s actor id = .ok (a, c) := Eff.check_fst_eq_ok.mp h
  simp only [resolveIn, bind_eq_ok] at h
  obtain ⟨actor', _, id', _, found, hfound, h⟩ := h
  split at h
  · cases h
  · rename_i c'
    simp only [bind_eq_ok, pure, Except.pure, Except.ok.injEq, Prod.mk.injEq] at h
    obtain ⟨_, _, _, _, _, rfl⟩ := h
    obtain ⟨k, hk⟩ := findCollection_mem hfound
    rw [keyed.key hk]
    exact hk

theorem resolveForWrite_readOnly (actor options : JsValue) :
    Eff.ReadOnly (resolveForWrite cfg actor options) :=
  Eff.readOnly_bind (resolveCollection_readOnly _ _) fun _ =>
    Eff.readOnly_bind (Eff.readOnly_check _) fun _ =>
      Eff.readOnly_bind (Eff.readOnly_check _) fun _ => Eff.readOnly_pure _

theorem resolveForWrite_present (keyed : Keyed cfg s) {actor options : JsValue} {a : CalDavActor}
    {c : CalendarCollection} {id : JsString}
    (h : (resolveForWrite cfg actor options s).1 = .ok (a, c, id)) :
    s.collections.get c.key = some c := by
  obtain ⟨⟨a', c'⟩, hresolve, h⟩ := Eff.bind_fst_eq_ok h
  obtain ⟨_, _, h⟩ := Eff.bind_fst_eq_ok h
  obtain ⟨_, _, h⟩ := Eff.bind_fst_eq_ok h
  cases h
  exact resolveCollection_present keyed hresolve

/-- An assignment to fields that sync does not read. -/
theorem effects_touch {key : JsString} {f : CalendarCollection → CalendarCollection}
    {next : Unit → CalDavOp α} (same : ∀ c, SameContent c (f c)) (h : Changes cfg s t)
    (rest : ∀ u, Changes cfg s u → wp (next ()) u (Effects cfg s P)) :
    wp (assignCollection key f >>= next) t (Effects cfg s P) :=
  rest _ (.step h (.touch key f same))

/-- A write to the objects of a collection and the record of it. -/
theorem effects_write {c : CalendarCollection} {id : JsString} (object : Option CalendarObject)
    {reading : Nat} {next : Unit → CalDavOp α} (h : Changes cfg s t)
    (present : t.collections.get c.key = some c) (named : ∀ o ∈ object, o.objectId = id)
    (rest : ∀ u, Changes cfg s u → wp (next ()) u (Effects cfg s P)) :
    wp (assignCollection c.key (CalendarCollection.put id object) >>= fun _ =>
      recordChange cfg cb c id object object.isNone reading >>= next) t (Effects cfg s P) := by
  have written : Changes cfg s (afterWrite cfg t c.key id object) := .step h (.write c present id object named)
  show wp (recordChange cfg cb c id object object.isNone reading >>= next) _ _
  rw [Eff.wp_bind, recordChange, Eff.wp_modify_bind]
  refine Eff.wp_readOnly_bind (now_readOnly reading) (fun _ _ => effects_throw written) fun _ _ => ?_
  exact rest _ (.step written (.touch _ _ fun c => ⟨rfl, rfl, rfl, rfl, rfl⟩))

theorem effects_set {c : CalendarCollection} {id : JsString} {object : CalendarObject} {reading : Nat}
    {next : Unit → CalDavOp α} (h : Changes cfg s t) (present : t.collections.get c.key = some c)
    (named : object.objectId = id) (rest : ∀ u, Changes cfg s u → wp (next ()) u (Effects cfg s P)) :
    wp (setObject c id object >>= fun _ =>
      recordChange cfg cb c id (some object) false reading >>= next) t (Effects cfg s P) :=
  effects_write (some object) h present (by simp [named]) rest

theorem effects_delete {c : CalendarCollection} {id : JsString} {reading : Nat}
    {next : Unit → CalDavOp α} (h : Changes cfg s t) (present : t.collections.get c.key = some c)
    (rest : ∀ u, Changes cfg s u → wp (next ()) u (Effects cfg s P)) :
    wp (deleteObject c id >>= fun _ =>
      recordChange cfg cb c id none true reading >>= next) t (Effects cfg s P) :=
  effects_write none h present (by simp) rest

/-- A token of some collection of this tenant, at a revision the store has reached. -/
def Issued (cfg : CalDavConfig) (s : CalDavStore) (key token : JsString) : Prop :=
  ∃ scope : TokenScope, ∃ r ≤ s.revision, scope.Valid ∧ scope.tenantId = cfg.canonicalTenant ∧
    key = canonicalCalendarKey scope.ownerUserId scope.collectionId ∧ token = makeToken scope r

theorem issued_scope {c : CalendarCollection} (valid : c.Valid cfg) {r : Nat} (h : r ≤ s.revision) :
    Issued cfg s c.key (makeToken (c.scope cfg.canonicalTenant) r) :=
  ⟨c.scope cfg.canonicalTenant, r, h, valid.scope, rfl, rfl, rfl⟩

theorem issued_syncToken {k : JsString} {c : CalendarCollection} (keyed : Keyed cfg s)
    (h : s.collections.get k = some c) : Issued cfg s c.key c.syncToken := by
  obtain ⟨r, hr, htoken⟩ := keyed.token h
  exact htoken ▸ issued_scope (keyed.valid h) hr

theorem issued_later {key token : JsString} (h : Issued cfg s key token) (later : Changes cfg s t) :
    Issued cfg t key token := by
  obtain ⟨scope, r, hr, rest⟩ := h
  exact ⟨scope, r, Nat.le_trans hr (changes_revision later), rest⟩

/-- A collection read again shows a token of the same calendar. -/
theorem issued_reread {c : CalendarCollection} (keyed : Keyed cfg s) (later : Changes cfg s t)
    (h : s.collections.get c.key = some c) {d : CalendarCollection}
    (hd : (reread c t).1 = .ok d) : Issued cfg t d.key d.syncToken ∧ d.key = c.key := by
  have hd : (t.collections.get c.key).getD c = d := Except.ok.inj hd
  have keyed' := changes_keyed later keyed
  cases hget : t.collections.get c.key with
  | none =>
    obtain rfl : c = d := by simpa [hget] using hd
    exact ⟨issued_later (issued_syncToken keyed h) later, rfl⟩
  | some d' =>
    obtain rfl : d' = d := by simpa [hget] using hd
    exact ⟨issued_syncToken keyed' hget, keyed'.key hget⟩

theorem reread_readOnly (c : CalendarCollection) : Eff.ReadOnly (reread c) := fun _ => rfl

section
variable (keyed : Keyed cfg s) (actor options : JsValue)
include keyed

omit keyed in
theorem createCalendarCollection_effects :
    wp (createCalendarCollection cfg cb actor options) s
      (Effects cfg s fun v t => Issued cfg t v.calendarId v.syncToken) := by
  unfold createCalendarCollection
  refine effects_quiet (destructure_readOnly _) .refl fun _ _ => ?_
  refine effects_quiet (defaultOwner_readOnly _ _) .refl fun ownerUserId _ => ?_
  refine effects_check .refl fun normalizedActor _ => ?_
  refine effects_check .refl fun owner howner => ?_
  refine effects_check .refl fun _ _ => ?_
  refine effects_check .refl fun slug hslug => ?_
  refine effects_quiet Eff.readOnly_get .refl fun _ hs => ?_
  cases hs
  refine effects_check .refl fun _ hfresh => ?_
  refine effects_check .refl fun fields _ => ?_
  refine effects_quiet (now_readOnly 0) .refl fun timestamp _ => ?_
  rw [Eff.wp_modify_bind]
  have scope : (TokenScope.mk cfg.canonicalTenant owner slug).Valid :=
    ⟨cfg.tenant, (requiredPattern_eq_ok.mp howner).2, (requiredPattern_eq_ok.mp hslug).2⟩
  have fresh : s.collections.get (canonicalCalendarKey owner slug) = none := by
    simpa using failIf_eq_ok.mp hfresh
  have created := Changes.single
    (.create (newCollection cfg owner slug fields timestamp s.revision) ⟨rfl, scope⟩ fresh rfl rfl)
  refine effects_quiet (emitAudit_readOnly _ _ _) created fun _ _ => ?_
  exact effects_return created ⟨_, s.revision, Nat.le_refl _, scope, rfl, rfl, rfl⟩

theorem listCalendarCollections_effects :
    wp (listCalendarCollections cfg actor) s
      (Effects cfg s fun vs t => ∀ v ∈ vs, Issued cfg t v.calendarId v.syncToken) := by
  unfold listCalendarCollections
  refine effects_check .refl fun normalizedActor _ => ?_
  refine effects_quiet Eff.readOnly_get .refl fun _ hs => ?_
  cases hs
  refine effects_return .refl fun v hv => ?_
  obtain ⟨c, hc, rfl⟩ := List.mem_map.mp hv
  obtain ⟨k, hk⟩ := OrderedMap.mem_values.mp (List.mem_filter.mp hc).1
  exact issued_syncToken keyed hk

theorem getCalendarCollection_effects :
    wp (getCalendarCollection cfg actor options) s
      (Effects cfg s fun v t => Issued cfg t v.calendarId v.syncToken) := by
  unfold getCalendarCollection
  refine effects_quiet (resolveCollection_readOnly _ _) .refl fun (_, c) hc => ?_
  exact effects_return .refl (issued_syncToken keyed (resolveCollection_present keyed hc))

theorem setCalendarAcl_effects :
    wp (setCalendarAcl cfg cb actor options) s
      (Effects cfg s fun v t => Issued cfg t v.calendarId v.syncToken) := by
  unfold setCalendarAcl
  refine effects_quiet (destructure_readOnly _) .refl fun _ _ => ?_
  refine effects_quiet (resolveCollection_readOnly _ _) .refl fun (_, c) hc => ?_
  refine effects_check .refl fun _ _ => ?_
  refine effects_check .refl fun _ _ => ?_
  refine effects_check .refl fun _ _ => ?_
  refine effects_check .refl fun _ _ => ?_
  refine effects_touch (fun c => ⟨rfl, rfl, rfl, rfl, rfl⟩) .refl fun t ht => ?_
  refine effects_quiet (now_readOnly 0) ht fun _ _ => ?_
  refine effects_touch (fun c => ⟨rfl, rfl, rfl, rfl, rfl⟩) ht fun u hu => ?_
  refine effects_quiet (emitAudit_readOnly _ _ _) hu fun _ _ => ?_
  refine effects_quiet (reread_readOnly _) hu fun d hd => ?_
  exact effects_return hu (issued_reread keyed hu (resolveCollection_present keyed hc) hd).1

theorem revokeCalendarAcl_effects :
    wp (revokeCalendarAcl cfg cb actor options) s
      (Effects cfg s fun v t => Issued cfg t v.calendarId v.syncToken) := by
  unfold revokeCalendarAcl
  refine effects_quiet (destructure_readOnly _) .refl fun _ _ => ?_
  refine effects_quiet (resolveCollection_readOnly _ _) .refl fun (_, c) hc => ?_
  refine effects_check .refl fun _ _ => ?_
  refine effects_touch (fun c => ⟨rfl, rfl, rfl, rfl, rfl⟩) .refl fun t ht => ?_
  refine effects_quiet (now_readOnly 0) ht fun _ _ => ?_
  refine effects_touch (fun c => ⟨rfl, rfl, rfl, rfl, rfl⟩) ht fun u hu => ?_
  refine effects_quiet (emitAudit_readOnly _ _ _) hu fun _ _ => ?_
  refine effects_quiet (reread_readOnly _) hu fun d hd => ?_
  exact effects_return hu (issued_reread keyed hu (resolveCollection_present keyed hc) hd).1

omit keyed in
theorem getCalendarEtag_effects :
    wp (getCalendarEtag cfg actor options) s (Effects cfg s fun _ _ => True) := by
  unfold getCalendarEtag
  refine effects_quiet (resolveCollection_readOnly _ _) .refl fun _ _ => ?_
  exact effects_return .refl trivial

theorem deleteCalendarCollection_effects :
    wp (deleteCalendarCollection cfg actor options) s (Effects cfg s fun r _ => r.syncToken = none) := by
  unfold deleteCalendarCollection
  refine effects_quiet (destructure_readOnly _) .refl fun _ _ => ?_
  refine effects_quiet (resolveCollection_readOnly _ _) .refl fun (_, c) hc => ?_
  refine effects_check .refl fun _ _ => ?_
  refine effects_check .refl fun _ hsize => ?_
  refine effects_check .refl fun _ _ => ?_
  rw [Eff.wp_modify_bind]
  have empty : ∀ id, c.objects.get id = none := by
    rw [failIf_eq_ok, decide_eq_false_iff_not] at hsize
    exact OrderedMap.size_eq_zero.mp (by omega)
  exact effects_return (.single (.delete c (resolveCollection_present keyed hc) empty)) rfl

theorem createCalendarObject_effects :
    wp (createCalendarObject cfg cb actor options) s (Effects cfg s fun _ _ => True) := by
  unfold createCalendarObject
  refine effects_quiet (destructure_readOnly _) .refl fun _ _ => ?_
  refine effects_quiet (resolveForWrite_readOnly _ _) .refl fun (_, c, id) hc => ?_
  refine effects_check .refl fun _ _ => ?_
  refine effects_check .refl fun metadata _ => ?_
  refine effects_quiet (now_readOnly 0) .refl fun timestamp _ => ?_
  refine effects_set .refl (resolveForWrite_present keyed hc) rfl fun t ht => ?_
  refine effects_quiet (emitAudit_readOnly _ _ _) ht fun _ _ => ?_
  exact effects_return ht trivial

omit keyed in
theorem getCalendarObject_effects :
    wp (getCalendarObject cfg actor options) s (Effects cfg s fun _ _ => True) := by
  unfold getCalendarObject
  refine effects_quiet (destructure_readOnly _) .refl fun _ _ => ?_
  refine effects_quiet (resolveCollection_readOnly _ _) .refl fun (_, c) _ => ?_
  refine effects_check .refl fun id _ => ?_
  cases c.objects.get id with
  | none => exact effects_throw .refl
  | some object => exact effects_return .refl trivial

theorem updateCalendarObject_effects :
    wp (updateCalendarObject cfg cb actor options) s (Effects cfg s fun _ _ => True) := by
  unfold updateCalendarObject
  refine effects_quiet (destructure_readOnly _) .refl fun _ _ => ?_
  refine effects_quiet (resolveForWrite_readOnly _ _) .refl fun (_, c, id) hc => ?_
  have present := resolveForWrite_present keyed hc
  cases hexisting : c.objects.get id with
  | none => simp only [hexisting]; exact effects_throw .refl
  | some existing =>
    simp only [hexisting]
    refine effects_check .refl fun _ _ => ?_
    refine effects_check .refl fun metadata _ => ?_
    refine effects_check .refl fun _ _ => ?_
    refine effects_quiet (now_readOnly 0) .refl fun timestamp _ => ?_
    have named : existing.objectId = id := keyed.object present hexisting
    refine effects_set .refl present named fun t ht => ?_
    refine effects_quiet (emitAudit_readOnly _ _ _) ht fun _ _ => ?_
    exact effects_return ht trivial

theorem deleteCalendarObject_effects :
    wp (deleteCalendarObject cfg cb actor options) s
      (Effects cfg s fun r t => ∀ token ∈ r.syncToken, Issued cfg t r.calendarId token) := by
  unfold deleteCalendarObject
  refine effects_quiet (destructure_readOnly _) .refl fun _ _ => ?_
  refine effects_quiet (resolveForWrite_readOnly _ _) .refl fun (_, c, id) hc => ?_
  have present := resolveForWrite_present keyed hc
  cases hexisting : c.objects.get id with
  | none => simp only [hexisting]; exact effects_throw .refl
  | some existing =>
    simp only [hexisting]
    refine effects_check .refl fun _ _ => ?_
    refine effects_delete .refl present fun t ht => ?_
    refine effects_quiet (emitAudit_readOnly _ _ _) ht fun _ _ => ?_
    refine effects_quiet (reread_readOnly _) ht fun d hd => ?_
    obtain ⟨issued, key⟩ := issued_reread keyed ht present hd
    refine effects_return ht ?_
    rintro _ ⟨rfl⟩
    exact key ▸ issued

theorem listCalendarObjects_effects :
    wp (listCalendarObjects cfg actor options) s
      (Effects cfg s fun l t => Issued cfg t l.calendarId l.syncToken) := by
  unfold listCalendarObjects
  refine effects_quiet (destructure_readOnly _) .refl fun _ _ => ?_
  refine effects_quiet (resolveCollection_readOnly _ _) .refl fun (_, c) hc => ?_
  refine effects_quiet Eff.readOnly_get .refl fun _ hs => ?_
  cases hs
  refine effects_check .refl fun since _ => ?_
  refine effects_check .refl fun _ _ => ?_
  have valid := keyed.valid (resolveCollection_present keyed hc)
  exact effects_return .refl (issued_scope valid (Nat.le_refl _))

omit keyed in
/-- `makeSyncToken` takes the full name of a calendar. -/
theorem makeSyncToken_effects :
    wp (makeSyncToken cfg options) s (Effects cfg s fun token t =>
      Issued cfg t ((options.get "calendarId").asString?.getD []) token) := by
  unfold makeSyncToken
  refine effects_quiet (destructure_readOnly _) .refl fun _ _ => ?_
  refine effects_quiet Eff.readOnly_get .refl fun _ hs => ?_
  cases hs
  refine ⟨.refl, fun token htoken => ?_⟩
  rw [Eff.check_fst_eq_ok, bind_eq_ok] at htoken
  obtain ⟨id, hid, htoken⟩ := htoken
  obtain ⟨key, hkey⟩ := splitCalendarId_string hid
  rw [hkey] at hid ⊢
  split at htoken
  · cases htoken
  · rename_i owner howner
    split at htoken
    · rename_i r hr
      simp only [bind_eq_ok, failIf_eq_ok, decide_eq_false_iff_not, not_or, Nat.not_lt, pure, Except.pure,
        Except.ok.injEq] at htoken
      obtain ⟨_, ⟨_, hle⟩, rfl⟩ := htoken
      obtain ⟨hvalid, rfl⟩ := splitCalendarId_owner hid howner
      exact ⟨⟨cfg.canonicalTenant, owner, id.collectionId⟩, r, hle, ⟨cfg.tenant, hvalid.1, hvalid.2⟩, rfl, rfl, rfl⟩
    · cases htoken

end

theorem effects_map {m : CalDavOp α} {f : α → β} {P' : β → CalDavStore → Prop}
    (h : wp m s (Effects cfg s P)) (imp : ∀ a t, P a t → P' (f a) t) :
    wp (m >>= fun a => pure (f a)) s (Effects cfg s P') := by
  rw [Eff.wp_bind]
  refine Eff.wp_mono h fun r t ⟨changes, hp⟩ => ?_
  cases r with
  | ok a => exact effects_return changes (imp a t (hp a rfl))
  | error e => exact effects_throw changes

variable (cb) in
/-- Every call: changes to the store, and tokens that the store has issued. -/
theorem run_effects (keyed : Keyed cfg s) (call : CalDavCall) :
    wp (call.run cfg cb) s
      (Effects cfg s fun answer t => ∀ p ∈ answer.tokens, Issued cfg t p.1 p.2) := by
  cases call with
  | createCalendarCollection actor options =>
    exact effects_map (createCalendarCollection_effects actor options) (by simp [CalDavAnswer.tokens])
  | listCalendarCollections actor =>
    exact effects_map (listCalendarCollections_effects keyed actor) (by simp [CalDavAnswer.tokens])
  | getCalendarCollection actor calendarId =>
    exact effects_map (getCalendarCollection_effects keyed actor calendarId)
      (by simp [CalDavAnswer.tokens])
  | setCalendarAcl actor options =>
    exact effects_map (setCalendarAcl_effects keyed actor options) (by simp [CalDavAnswer.tokens])
  | revokeCalendarAcl actor options =>
    exact effects_map (revokeCalendarAcl_effects keyed actor options) (by simp [CalDavAnswer.tokens])
  | getCalendarEtag actor calendarId =>
    exact effects_map (getCalendarEtag_effects actor calendarId) (by simp [CalDavAnswer.tokens])
  | createCalendarObject actor options =>
    exact effects_map (createCalendarObject_effects keyed actor options) (by simp [CalDavAnswer.tokens])
  | getCalendarObject actor options =>
    exact effects_map (getCalendarObject_effects actor options) (by simp [CalDavAnswer.tokens])
  | updateCalendarObject actor options =>
    exact effects_map (updateCalendarObject_effects keyed actor options) (by simp [CalDavAnswer.tokens])
  | deleteCalendarObject actor options =>
    refine effects_map (deleteCalendarObject_effects keyed actor options) fun r t hr p hp => ?_
    simp only [CalDavAnswer.tokens, List.mem_map, Option.mem_toList] at hp
    obtain ⟨token, htoken, rfl⟩ := hp
    exact hr token htoken
  | listCalendarObjects actor options =>
    exact effects_map (listCalendarObjects_effects keyed actor options) (by simp [CalDavAnswer.tokens])
  | deleteCalendarCollection actor options =>
    exact effects_map (deleteCalendarCollection_effects keyed actor options) fun r t hr => by
      simp [CalDavAnswer.tokens, hr]
  | makeSyncToken options =>
    exact effects_map (makeSyncToken_effects options) (by simp [CalDavAnswer.tokens])

end

end GuloGulo.CalDav
