import GuloGulo.CalDav.StoreSync
import GuloGulo.Js.Atomic

/-!
# When the in-memory CalDAV store's operations are atomic

A write to an object is recorded before the clock is read again, and an ACL is
replaced before it is read at all. So what a callback that fails then leaves is
a change that later syncs report, but the call has thrown.
-/

namespace GuloGulo.CalDav
open Js Data
open Eff (Atomic check)

def objectAt (s : CalDavStore) (key id : JsString) : Option CalendarObject :=
  (s.collections.get key).bind (·.objects.get id)

/-- Every difference in the objects is in the changes after any earlier revision. -/
def Recorded (s t : CalDavStore) : Prop :=
  ∀ key id, objectAt t key id ≠ objectAt s key id → ∀ revision ≤ s.revision,
    ∃ c ∈ t.changes, revision < c.revision ∧ c.calendarKey = key ∧ c.objectId = id ∧
      c.object = objectAt t key id ∧ c.deleted = c.object.isNone

section
variable {cfg : CalDavConfig} {s t u : CalDavStore}

/-- A change writes one object and records it, or none. -/
theorem change_objectAt (h : Change cfg s t) (key id : JsString) :
    objectAt t key id = objectAt s key id ∨
      ∃ object, objectAt t key id = object ∧
        t.changes = s.changes ++ [⟨s.revision + 1, key, id, object, object.isNone⟩] := by
  cases h with
  | create c valid fresh empty =>
    left
    simp only [objectAt, OrderedMap.get_set]
    by_cases hk : c.key = key
    · subst hk
      simp [fresh, empty]
    · rw [if_neg hk]
  | touch k f same =>
    left
    simp only [objectAt, OrderedMap.get_adjust]
    by_cases hk : key = k
    · simp [hk, Option.bind_map, Function.comp_def, (same _).objects]
    · rw [if_neg hk]
  | delete c present empty =>
    left
    simp only [objectAt, OrderedMap.get_delete]
    by_cases hk : key = c.key
    · subst hk
      simp [present, empty]
    · rw [if_neg hk]
  | write c present i object named =>
    by_cases here : key = c.key ∧ id = i
    · obtain ⟨rfl, rfl⟩ := here
      right
      refine ⟨object, ?_, rfl⟩
      cases object <;>
        simp [objectAt, afterWrite, OrderedMap.get_adjust, present, CalendarCollection.put, OrderedMap.get_set,
          OrderedMap.get_delete]
    · left
      simp only [objectAt, afterWrite, OrderedMap.get_adjust]
      by_cases hk : key = c.key
      · subst hk
        have hi : ¬ id = i := fun e => here ⟨rfl, e⟩
        have hi' : ¬ i = id := fun e => hi e.symm
        cases object <;>
          simp [present, CalendarCollection.put, OrderedMap.get_set, OrderedMap.get_delete, hi, hi']
      · simp only [if_neg hk]

theorem Recorded.refl (s : CalDavStore) : Recorded s s := fun _ _ differs => absurd rfl differs

theorem change_recorded (before : Changes cfg s t) (recorded : Recorded s t) (h : Change cfg t u) : Recorded s u := by
  intro key id differs revision earlier
  rcases change_objectAt h key id with same | ⟨object, now, logged⟩
  · rw [same] at differs
    obtain ⟨c, hc, after, rfl, rfl, written, deleted⟩ := recorded key id differs revision earlier
    obtain ⟨new, extends_, _⟩ := change_extends h
    refine ⟨c, ?_, after, rfl, rfl, written.trans same.symm, deleted⟩
    rw [extends_]
    exact List.mem_append_left _ hc
  · refine ⟨⟨t.revision + 1, key, id, object, object.isNone⟩, ?_, ?_, rfl, rfl, now.symm, rfl⟩
    · rw [logged]
      exact List.mem_append_right _ List.mem_cons_self
    · exact Nat.lt_succ_of_le (Nat.le_trans earlier (changes_revision before))

theorem changes_recorded (h : Changes cfg s t) : Recorded s t := by
  induction h with
  | refl => exact .refl s
  | step before change ih => exact change_recorded before ih change

end

section
variable (cfg : CalDavConfig) (cb : Callbacks) (s : CalDavStore)

/-- `now` as a value. -/
def reading (n : Nat) : Except (Thrown CalDavError) JsString :=
  match cb.clock n with
  | some value => (do
    let time ← assertDate cfg.host value "clock result"
    return isoString time : Except CalDavError JsString).mapError .contract
  | none => .error .foreign

theorem now_eq (n : Nat) : now cfg cb n = Eff.lift (reading cfg cb n) := by
  unfold now reading
  cases cb.clock n with
  | some value => rfl
  | none => rfl

/-- The `n`-th reading of the clock is a time. -/
def Reads (n : Nat) : Prop := ∃ timestamp, reading cfg cb n = .ok timestamp

/-- The audit callback returns. -/
def Audited (actor : CalDavActor) (c : CalendarCollection) (details : AuditDetails) : Prop :=
  cb.audit ⟨cfg.canonicalTenant, actor.userId, c.key, c.ownerUserId, details⟩ = true

/-- The checks of `createCalendarCollection` pass, and this is the collection it makes. -/
def NewCollection (actor options : JsValue) (a : CalDavActor) (c : CalendarCollection) : Prop :=
  ∃ ownerUserId owner slug fields timestamp, options ≠ .null ∧
    (defaultOwner cfg actor (options.get "ownerUserId") s).1 = .ok ownerUserId ∧
    normalizeActor actor cfg.canonicalTenant = .ok a ∧ canonicalUserId ownerUserId "ownerUserId" = .ok owner ∧
    owner = a.userId ∧
    canonicalCalendarSlug ((options.get "collectionId").orDefault (.string (js "default"))) "collectionId" =
      .ok slug ∧
    s.collections.get (canonicalCalendarKey owner slug) = none ∧
    collectionFields cfg.host
      ((options.get "displayName").orDefault ((options.get "collectionId").orDefault (.string (js "default"))))
      ((options.get "description").orDefault (.string [])) ((options.get "timezone").orDefault (.string (js "UTC")))
      ((options.get "color").orDefault .null) = .ok fields ∧
    reading cfg cb 0 = .ok timestamp ∧ c = newCollection cfg owner slug fields timestamp s.revision

/-- The ACL is what it is to be already; so is the time, where it is the audit callback that throws. -/
def AclUndisturbed (actor : CalDavActor) (c : CalendarCollection) (acl : Option CalendarAcl) (details : AuditDetails) :
    Prop :=
  match reading cfg cb 0 with
  | .ok timestamp => Audited cfg cb actor c details ∨ c.acl = acl ∧ c.updatedAt = timestamp
  | .error _ => c.acl = acl

/-- An object's checks pass. -/
structure Writable (actor options : JsValue) (a : CalDavActor) (c : CalendarCollection) (id : JsString) : Prop where
  destructured : options ≠ .null
  resolved : (resolveForWrite cfg actor options s).1 = .ok (a, c, id)

/-- No callback fails once the call has changed the store. -/
def CalDavCall.Undisturbed : CalDavCall → Prop
  | createCalendarCollection actor options => ∀ a c, NewCollection cfg cb s actor options a c →
    Audited cfg cb a c (.collectionCreated c.displayName c.timezone)
  | setCalendarAcl actor options => ∀ a c delegate unique, options ≠ .null →
    (resolveCollection cfg actor (options.get "calendarId") s).1 = .ok (a, c) → a.userId = c.ownerUserId →
    canonicalUserId (options.get "delegateUserId") "delegateUserId" = .ok delegate → delegate ≠ c.ownerUserId →
    normalizePermissions ((options.get "permissions").orDefault (.array [.string (js "read")])) = .ok unique →
    AclUndisturbed cfg cb a c (some ⟨delegate, unique⟩) (.aclUpdated delegate unique)
  | revokeCalendarAcl actor options => ∀ a c, options ≠ .null →
    (resolveCollection cfg actor (options.get "calendarId") s).1 = .ok (a, c) → a.userId = c.ownerUserId →
    AclUndisturbed cfg cb a c none .aclRevoked
  | createCalendarObject actor options => ∀ a c id metadata, Writable cfg s actor options a c id →
    assertCreatable (c.objects.get id).isSome (options.get "ifNoneMatch") = .ok () →
    validateICalendar cfg.host (options.get "ical") = .ok metadata → Reads cfg cb 0 → Reads cfg cb 1 ∧
      Audited cfg cb a c (.objectCreated id metadata.uid
        (calculateEtag cfg.host cfg.canonicalTenant c.key id metadata.canonicalText)
        (byteLength metadata.canonicalText))
  | updateCalendarObject actor options => ∀ a c id existing metadata, Writable cfg s actor options a c id →
    c.objects.get id = some existing → assertIfMatch (options.get "ifMatch") existing.etag "update" = .ok () →
    validateICalendar cfg.host (options.get "ical") = .ok metadata → metadata.uid = existing.metadata.uid →
    Reads cfg cb 0 → Reads cfg cb 1 ∧
      Audited cfg cb a c (.objectUpdated id metadata.uid
        (calculateEtag cfg.host cfg.canonicalTenant c.key id metadata.canonicalText)
        (byteLength metadata.canonicalText))
  | deleteCalendarObject actor options => ∀ a c id existing, Writable cfg s actor options a c id →
    c.objects.get id = some existing → assertIfMatch (options.get "ifMatch") existing.etag "delete" = .ok () →
    Reads cfg cb 0 ∧ Audited cfg cb a c (.objectDeleted id existing.metadata.uid existing.etag)
  | _ => True

end

section
variable {cfg : CalDavConfig} {cb : Callbacks} {s : CalDavStore} {a : CalDavActor} {c : CalendarCollection}
  {α : Type} {details : AuditDetails} {actor options : JsValue}

theorem atomic_destructure {f : Unit → CalDavOp α} :
    Atomic (destructure options >>= f) s ↔ (options ≠ .null → Atomic (f ()) s) := by
  rw [Eff.atomic_bind (destructure_readOnly options)]
  unfold destructure
  split
  · exact ⟨fun _ h => absurd rfl h, fun _ u h => by cases h⟩
  · rename_i given
    exact ⟨fun h _ => h () rfl, fun h _ _ => h given⟩

theorem emitAudit_true (audited : Audited cfg cb a c details) : emitAudit cfg cb a c details = pure () :=
  if_pos audited

theorem emitAudit_false (h : ¬ Audited cfg cb a c details) :
    emitAudit cfg cb a c details = Eff.lift (.error .foreign) :=
  if_neg h

/-- An assignment and the audit event. -/
theorem audited_atomic {assign : CalDavStore → CalDavStore} :
    Atomic (Eff.modify assign >>= fun _ => emitAudit cfg cb a c details) s ↔
      Audited cfg cb a c details ∨ assign s = s := by
  by_cases audited : Audited cfg cb a c details
  · rw [emitAudit_true audited]
    refine iff_of_true ?_ (.inl audited)
    intro e throws
    cases throws
  · rw [emitAudit_false audited]
    constructor
    · intro atomic
      exact .inr (atomic .foreign rfl)
    · rintro (h | h)
      · exact absurd h audited
      · intro _ _
        exact h

variable (cfg cb a c details) in
/-- How an object is written, recorded and reported. -/
def writeObject (id : JsString) (object : Option CalendarObject) (n : Nat) : CalDavOp Unit := do
  assignCollection c.key (CalendarCollection.put id object)
  recordChange cfg cb c id object object.isNone n
  emitAudit cfg cb a c details

/-- The revision has moved on before either callback is called. -/
theorem writeObject_atomic {id : JsString} {object : Option CalendarObject} {n : Nat} :
    Atomic (writeObject cfg cb a c details id object n) s ↔ Reads cfg cb n ∧ Audited cfg cb a c details := by
  have moved (t : CalDavStore) (h : t.revision = s.revision + 1) : t ≠ s := by
    rintro rfl
    exact absurd h (Nat.ne_of_lt (Nat.lt_succ_self _))
  unfold writeObject recordChange Reads
  rw [now_eq]
  cases reading cfg cb n with
  | error e =>
    constructor
    · intro atomic
      exact absurd (atomic e rfl) (moved _ rfl)
    · rintro ⟨⟨_, h⟩, _⟩
      cases h
  | ok timestamp =>
    by_cases audited : Audited cfg cb a c details
    · rw [emitAudit_true audited]
      refine iff_of_true ?_ ⟨⟨timestamp, rfl⟩, audited⟩
      intro e throws
      cases throws
    · rw [emitAudit_false audited]
      constructor
      · intro atomic
        exact absurd (atomic .foreign rfl) (moved _ rfl)
      · rintro ⟨_, h⟩
        exact absurd h audited

/-- The same among the steps of an operation. -/
theorem written_atomic (id : JsString) (object : Option CalendarObject) (n : Nat) {f : Unit → CalDavOp α}
    (answers : ∀ u t, ∃ answer, (f u t).1 = .ok answer) :
    Atomic (assignCollection c.key (CalendarCollection.put id object) >>= fun _ =>
      recordChange cfg cb c id object object.isNone n >>= fun _ => emitAudit cfg cb a c details >>= f) s ↔
        Reads cfg cb n ∧ Audited cfg cb a c details := by
  have whole : Atomic (writeObject cfg cb a c details id object n >>= f) s ↔
      Reads cfg cb n ∧ Audited cfg cb a c details :=
    (Eff.atomic_bind_answers answers).trans writeObject_atomic
  simpa only [writeObject, Eff.bind_assoc] using whole

variable (cfg cb a c details) in
/-- How an ACL is replaced and that reported. -/
def writeAcl (acl : Option CalendarAcl) : CalDavOp Unit := do
  assignCollection c.key fun c => { c with acl }
  let updatedAt ← now cfg cb 0
  assignCollection c.key fun c => { c with updatedAt }
  emitAudit cfg cb a c details

theorem writeAcl_bind {acl : Option CalendarAcl} {f : Unit → CalDavOp α} :
    writeAcl cfg cb a c details acl >>= f =
      assignCollection c.key (fun c => { c with acl }) >>= fun _ => now cfg cb 0 >>= fun updatedAt =>
        assignCollection c.key (fun c => { c with updatedAt }) >>= fun _ => emitAudit cfg cb a c details >>= f := by
  simp only [writeAcl, Eff.bind_assoc]

theorem assigned_eq_self {f : CalendarCollection → CalendarCollection} (present : s.collections.get c.key = some c) :
    ({ s with collections := s.collections.adjust c.key f } : CalDavStore) = s ↔ f c = c := by
  rw [← OrderedMap.adjust_eq_self present]
  constructor
  · exact congrArg CalDavStore.collections
  · intro same
    rw [same]

theorem writeAcl_atomic {acl : Option CalendarAcl} (present : s.collections.get c.key = some c) :
    Atomic (writeAcl cfg cb a c details acl) s ↔ AclUndisturbed cfg cb a c acl details := by
  unfold writeAcl AclUndisturbed
  rw [now_eq]
  cases reading cfg cb 0 with
  | error e =>
    constructor
    · intro atomic
      have same := (assigned_eq_self present).mp (atomic e rfl)
      exact (congrArg CalendarCollection.acl same).symm
    · rintro rfl _ _
      exact (assigned_eq_self present).mpr rfl
  | ok timestamp =>
    by_cases audited : Audited cfg cb a c details
    · rw [emitAudit_true audited]
      refine iff_of_true ?_ (.inl audited)
      intro e throws
      cases throws
    · rw [emitAudit_false audited]
      constructor
      · intro atomic
        right
        have same := congrArg (fun t => t.collections.get c.key) (atomic .foreign rfl)
        have same : (((s.collections.adjust c.key fun c => { c with acl }).adjust c.key fun c =>
            { c with updatedAt := timestamp }).get c.key) = s.collections.get c.key := same
        simp only [OrderedMap.get_adjust, if_true, present, Option.map_some, Option.some.injEq] at same
        exact ⟨(congrArg CalendarCollection.acl same).symm, (congrArg CalendarCollection.updatedAt same).symm⟩
      · rintro (h | ⟨rfl, rfl⟩)
        · exact absurd h audited
        · intro _ _
          have first : s.collections.adjust c.key (fun d => { d with acl := c.acl }) = s.collections :=
            (OrderedMap.adjust_eq_self present).mpr rfl
          have second := congrArg (fun m : OrderedMap JsString CalendarCollection => ({ s with
            collections := m.adjust c.key fun d => { d with updatedAt := c.updatedAt } } : CalDavStore)) first
          exact second.trans ((assigned_eq_self present).mpr rfl)

/-- A collection that is stored and reported, where there was none. -/
theorem stored_atomic {answer : α} (fresh : s.collections.get c.key = none) :
    Atomic (Eff.modify (fun s => { s with collections := s.collections.set c.key c }) >>= fun _ =>
      emitAudit cfg cb a c details >>= fun _ => (pure answer : CalDavOp α)) s ↔ Audited cfg cb a c details := by
  rw [← Eff.bind_assoc, Eff.atomic_map, audited_atomic, or_iff_left_iff_imp]
  intro same
  have there := congrArg (fun t => t.collections.get c.key) same
  simp only [OrderedMap.get_set, if_true, fresh] at there
  cases there

theorem createCalendarCollection_atomic :
    Atomic (createCalendarCollection cfg cb actor options) s ↔
      (CalDavCall.createCalendarCollection actor options).Undisturbed cfg cb s := by
  unfold createCalendarCollection
  rw [atomic_destructure]
  dsimp only
  simp only [Eff.atomic_bind (defaultOwner_readOnly actor (options.get "ownerUserId")), Eff.atomic_check_bind,
    Eff.atomic_get_bind, now_eq, Eff.atomic_lift_bind, failIf_eq_ok]
  constructor
  · rintro atomic a _ ⟨ownerUserId, owner, slug, fields, timestamp, given, defaulted, normal, canonical, own, named,
      fresh, checked, read, rfl⟩
    have stored := atomic given ownerUserId defaulted a normal owner canonical () (by simp [own]) slug named ()
      (by simp [fresh]) fields checked timestamp read
    exact (stored_atomic fresh).mp stored
  · intro undisturbed given ownerUserId defaulted a normal owner canonical _ own slug named _ fresh fields checked
      timestamp read
    have fresh' : s.collections.get (canonicalCalendarKey owner slug) = none := by simpa using fresh
    refine (stored_atomic fresh').mpr (undisturbed a _ ?_)
    exact ⟨ownerUserId, owner, slug, fields, timestamp, given, defaulted, normal, canonical, by simpa using own,
      named, fresh', checked, read, rfl⟩

/-- What comes after the ACL is written only reads. -/
theorem answers_reread {f : CalendarCollection → α} (t : CalDavStore) :
    ∃ answer, ((reread c >>= fun d => (pure (f d) : CalDavOp α)) t).1 = .ok answer := ⟨_, rfl⟩

theorem setCalendarAcl_atomic (keyed : Keyed cfg s) :
    Atomic (setCalendarAcl cfg cb actor options) s ↔
      (CalDavCall.setCalendarAcl actor options).Undisturbed cfg cb s := by
  unfold setCalendarAcl
  rw [atomic_destructure]
  dsimp only
  simp only [Eff.atomic_bind (resolveCollection_readOnly actor (options.get "calendarId")), Eff.atomic_check_bind,
    failIf_eq_ok, ← writeAcl_bind, Eff.atomic_bind_answers fun _ => answers_reread]
  constructor
  · intro atomic a c delegate unique given resolved own canonical other permissions
    have written := atomic given (a, c) resolved () (by simp [own]) delegate canonical () (by simp [other]) unique
      permissions
    exact (writeAcl_atomic (resolveCollection_present keyed resolved)).mp written
  · rintro undisturbed given ⟨a, c⟩ resolved _ own delegate canonical _ other unique permissions
    refine (writeAcl_atomic (resolveCollection_present keyed resolved)).mpr ?_
    exact undisturbed a c delegate unique given resolved (by simpa using own) canonical (by simpa using other)
      permissions

theorem revokeCalendarAcl_atomic (keyed : Keyed cfg s) :
    Atomic (revokeCalendarAcl cfg cb actor options) s ↔
      (CalDavCall.revokeCalendarAcl actor options).Undisturbed cfg cb s := by
  unfold revokeCalendarAcl
  rw [atomic_destructure]
  dsimp only
  simp only [Eff.atomic_bind (resolveCollection_readOnly actor (options.get "calendarId")), Eff.atomic_check_bind,
    failIf_eq_ok, ← writeAcl_bind, Eff.atomic_bind_answers fun _ => answers_reread]
  constructor
  · intro atomic a c given resolved own
    have written := atomic given (a, c) resolved () (by simp [own])
    exact (writeAcl_atomic (resolveCollection_present keyed resolved)).mp written
  · rintro undisturbed given ⟨a, c⟩ resolved _ own
    refine (writeAcl_atomic (resolveCollection_present keyed resolved)).mpr ?_
    exact undisturbed a c given resolved (by simpa using own)

theorem createCalendarObject_atomic :
    Atomic (createCalendarObject cfg cb actor options) s ↔
      (CalDavCall.createCalendarObject actor options).Undisturbed cfg cb s := by
  unfold createCalendarObject
  rw [atomic_destructure]
  dsimp only
  simp only [Eff.atomic_bind (resolveForWrite_readOnly actor options), Eff.atomic_check_bind, now_eq,
    Eff.atomic_lift_bind]
  constructor
  · rintro atomic a c id metadata ⟨given, resolved⟩ absent valid ⟨timestamp, read⟩
    have rest := atomic given (a, c, id) resolved () absent metadata valid timestamp read
    exact (written_atomic id (some _) 1 fun _ _ => ⟨_, rfl⟩).mp rest
  · rintro undisturbed given ⟨a, c, id⟩ resolved _ absent metadata valid timestamp read
    refine (written_atomic id (some _) 1 fun _ _ => ⟨_, rfl⟩).mpr ?_
    exact undisturbed a c id metadata ⟨given, resolved⟩ absent valid ⟨timestamp, read⟩

theorem updateCalendarObject_atomic :
    Atomic (updateCalendarObject cfg cb actor options) s ↔
      (CalDavCall.updateCalendarObject actor options).Undisturbed cfg cb s := by
  unfold updateCalendarObject
  rw [atomic_destructure]
  simp only [Eff.atomic_bind (resolveForWrite_readOnly actor options)]
  constructor
  · rintro atomic a c id existing metadata ⟨given, resolved⟩ there matched valid same ⟨timestamp, read⟩
    have rest := atomic given (a, c, id) resolved
    simp only [there, Eff.atomic_check_bind, now_eq, Eff.atomic_lift_bind, failIf_eq_ok] at rest
    have rest := rest () matched metadata valid () (by simp [same]) timestamp read
    exact (written_atomic id (some _) 1 fun _ _ => ⟨_, rfl⟩).mp rest
  · rintro undisturbed given ⟨a, c, id⟩ resolved
    dsimp only
    cases there : c.objects.get id with
    | none => exact Eff.atomic_readOnly (Eff.readOnly_check _) s
    | some existing =>
      simp only [Eff.atomic_check_bind, now_eq, Eff.atomic_lift_bind, failIf_eq_ok]
      intro _ matched metadata valid _ same timestamp read
      refine (written_atomic id (some _) 1 fun _ _ => ⟨_, rfl⟩).mpr ?_
      exact undisturbed a c id existing metadata ⟨given, resolved⟩ there matched valid (by simpa using same)
        ⟨timestamp, read⟩

theorem deleteCalendarObject_atomic :
    Atomic (deleteCalendarObject cfg cb actor options) s ↔
      (CalDavCall.deleteCalendarObject actor options).Undisturbed cfg cb s := by
  unfold deleteCalendarObject
  rw [atomic_destructure]
  simp only [Eff.atomic_bind (resolveForWrite_readOnly actor options)]
  constructor
  · rintro atomic a c id existing ⟨given, resolved⟩ there matched
    have rest := atomic given (a, c, id) resolved
    simp only [there, Eff.atomic_check_bind] at rest
    exact (written_atomic id none 0 fun _ _ => ⟨_, rfl⟩).mp (rest () matched)
  · rintro undisturbed given ⟨a, c, id⟩ resolved
    dsimp only
    cases there : c.objects.get id with
    | none => exact Eff.atomic_readOnly (Eff.readOnly_check _) s
    | some existing =>
      refine Eff.atomic_check_bind.mpr ?_
      intro _ matched
      refine (written_atomic id none 0 fun _ _ => ⟨_, rfl⟩).mpr ?_
      exact undisturbed a c id existing ⟨given, resolved⟩ there matched

theorem deleteCalendarCollection_atomic : Atomic (deleteCalendarCollection cfg actor options) s := by
  unfold deleteCalendarCollection
  rw [atomic_destructure]
  intro _
  refine (Eff.atomic_bind (resolveCollection_readOnly actor (options.get "calendarId"))).mpr ?_
  rintro ⟨a, c⟩ _
  simp only [Eff.atomic_check_bind]
  intro _ _ _ _ _ _ e throws
  cases throws

/-- Calls that only read. -/
theorem getCalendarObject_readOnly : Eff.ReadOnly (getCalendarObject cfg actor options) := by
  refine Eff.readOnly_bind (destructure_readOnly options) fun _ => ?_
  refine Eff.readOnly_bind (resolveCollection_readOnly _ _) fun (_, c) => ?_
  refine Eff.readOnly_bind (Eff.readOnly_check _) fun id => ?_
  cases c.objects.get id with
  | none => exact Eff.readOnly_check _
  | some object => exact Eff.readOnly_pure _

theorem listCalendarObjects_readOnly : Eff.ReadOnly (listCalendarObjects cfg actor options) := by
  refine Eff.readOnly_bind (destructure_readOnly options) fun _ => ?_
  refine Eff.readOnly_bind (resolveCollection_readOnly _ _) fun (_, c) => ?_
  refine Eff.readOnly_bind Eff.readOnly_get fun s => ?_
  refine Eff.readOnly_bind (Eff.readOnly_check _) fun since => ?_
  exact Eff.readOnly_bind (Eff.readOnly_check _) fun _ => Eff.readOnly_pure _

/-- A call is atomic just where no callback fails after its first assignment. -/
theorem run_atomic (keyed : Keyed cfg s) (call : CalDavCall) :
    Atomic (call.run cfg cb) s ↔ call.Undisturbed cfg cb s := by
  cases call with
  | createCalendarCollection actor options => exact Eff.atomic_map.trans createCalendarCollection_atomic
  | setCalendarAcl actor options => exact Eff.atomic_map.trans (setCalendarAcl_atomic keyed)
  | revokeCalendarAcl actor options => exact Eff.atomic_map.trans (revokeCalendarAcl_atomic keyed)
  | createCalendarObject actor options => exact Eff.atomic_map.trans createCalendarObject_atomic
  | updateCalendarObject actor options => exact Eff.atomic_map.trans updateCalendarObject_atomic
  | deleteCalendarObject actor options => exact Eff.atomic_map.trans deleteCalendarObject_atomic
  | deleteCalendarCollection actor options =>
    exact iff_of_true (Eff.atomic_map.mpr deleteCalendarCollection_atomic) trivial
  | listCalendarCollections actor =>
    refine iff_of_true (Eff.atomic_map.mpr (Eff.atomic_readOnly ?_ s)) trivial
    exact Eff.readOnly_bind (Eff.readOnly_check _) fun _ =>
      Eff.readOnly_bind Eff.readOnly_get fun _ => Eff.readOnly_pure _
  | getCalendarCollection actor calendarId | getCalendarEtag actor calendarId =>
    refine iff_of_true (Eff.atomic_map.mpr (Eff.atomic_readOnly ?_ s)) trivial
    exact Eff.readOnly_bind (resolveCollection_readOnly _ _) fun _ => Eff.readOnly_pure _
  | getCalendarObject actor options =>
    exact iff_of_true (Eff.atomic_map.mpr (Eff.atomic_readOnly getCalendarObject_readOnly s)) trivial
  | listCalendarObjects actor options =>
    exact iff_of_true (Eff.atomic_map.mpr (Eff.atomic_readOnly listCalendarObjects_readOnly s)) trivial
  | makeSyncToken options =>
    refine iff_of_true (Eff.atomic_map.mpr (Eff.atomic_readOnly ?_ s)) trivial
    exact Eff.readOnly_bind (destructure_readOnly options) fun _ =>
      Eff.readOnly_bind Eff.readOnly_get fun _ => Eff.readOnly_check _

end

end GuloGulo.CalDav
