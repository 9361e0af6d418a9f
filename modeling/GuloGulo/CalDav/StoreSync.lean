import GuloGulo.CalDav.StoreSteps
import GuloGulo.Data.ChangeLog

/-!
# Sync of the in-memory store is complete

The change log is never cut and its revisions are the store's own, so a
calendar's objects are the replay of its part of the log, through deletions
and re-creations of the collection too. A token is a position in that log.
-/

namespace GuloGulo.CalDav
open Js Data
open Data.ChangeLog
open Eff (wp)

/-- What a client keeps of an object. -/
def CalendarObject.content (o : CalendarObject) : JsString × JsString := (o.ical, o.etag)

/-- The objects of a calendar; none, if there is no such collection. -/
def objectMap (s : CalDavStore) (key : JsString) : Snapshot JsString (JsString × JsString) := fun id =>
  ((s.collections.get key).bind (·.objects.get id)).map (·.content)

def CalendarChange.entry (c : CalendarChange) : Entry JsString (JsString × JsString) :=
  ⟨c.revision, c.objectId, c.object.map (·.content)⟩

def logOf (s : CalDavStore) (key : JsString) : List (Entry JsString (JsString × JsString)) :=
  (s.changes.filter fun c => c.calendarKey == key).map (·.entry)

/-- A change records what the object became. -/
structure CalendarChange.Faithful (c : CalendarChange) : Prop where
  tombstone : c.deleted = c.object.isNone
  named : ∀ o ∈ c.object, o.objectId = c.objectId

structure Logged (cfg : CalDavConfig) (s : CalDavStore) : Prop extends Keyed cfg s where
  ordered : s.changes.Pairwise fun a b => a.revision < b.revision
  bounded : ∀ c ∈ s.changes, c.revision ≤ s.revision
  faithful : ∀ c ∈ s.changes, c.Faithful
  replay : ∀ key, objectMap s key = ChangeLog.replay (logOf s key)

theorem logOf_append {s t : CalDavStore} {new : List CalendarChange}
    (h : t.changes = s.changes ++ new) (key : JsString) :
    logOf t key = logOf s key ++ (new.filter fun c => c.calendarKey == key).map (·.entry) := by
  simp [logOf, h]

theorem logOf_ordered {cfg : CalDavConfig} {s : CalDavStore} (h : Logged cfg s) (key : JsString) :
    Ordered (logOf s key) := by
  unfold Ordered logOf
  rw [List.pairwise_map]
  exact h.ordered.sublist List.filter_sublist

/-- A change that writes no object. -/
theorem objectMap_eq {s t : CalDavStore} {key : JsString}
    (h : ∀ id, (t.collections.get key).bind (·.objects.get id) = (s.collections.get key).bind (·.objects.get id)) :
    objectMap t key = objectMap s key := by
  funext id
  simp only [objectMap, h]

theorem objectMap_create {s t : CalDavStore} {c : CalendarCollection}
    (h : t.collections = s.collections.set c.key c) (fresh : s.collections.get c.key = none)
    (empty : c.objects = Table.empty) (key : JsString) : objectMap t key = objectMap s key := by
  apply objectMap_eq
  intro id
  rw [h, OrderedMap.get_set]
  by_cases hk : c.key = key
  · subst hk
    simp [fresh, empty]
  · simp [hk]

theorem objectMap_touch {s t : CalDavStore} {k : JsString} {f : CalendarCollection → CalendarCollection}
    (h : t.collections = s.collections.adjust k f) (same : ∀ c, SameContent c (f c)) (key : JsString) :
    objectMap t key = objectMap s key := by
  apply objectMap_eq
  intro id
  rw [h, OrderedMap.get_adjust]
  by_cases hk : key = k
  · simp [hk, Option.bind_map, Function.comp_def, (same _).objects]
  · simp [hk]

theorem objectMap_delete {s t : CalDavStore} {c : CalendarCollection}
    (h : t.collections = s.collections.delete c.key) (present : s.collections.get c.key = some c)
    (empty : ∀ id, c.objects.get id = none) (key : JsString) : objectMap t key = objectMap s key := by
  apply objectMap_eq
  intro id
  rw [h, OrderedMap.get_delete]
  by_cases hk : key = c.key
  · subst hk
    simp [present, empty]
  · simp [hk]

theorem objectMap_write {cfg : CalDavConfig} {s : CalDavStore} {c : CalendarCollection}
    (present : s.collections.get c.key = some c) (id : JsString) (object : Option CalendarObject)
    (key : JsString) :
    objectMap (afterWrite cfg s c.key id object) key =
      if key = c.key then Function.update (objectMap s key) id (object.map (·.content))
      else objectMap s key := by
  funext i
  simp only [objectMap, afterWrite, OrderedMap.get_adjust]
  by_cases hk : key = c.key
  · subst hk
    by_cases hi : i = id
    · subst hi
      cases object <;> simp [present, CalendarCollection.put, OrderedMap.get_set, OrderedMap.get_delete]
    · have hi' : ¬ id = i := fun e => hi e.symm
      cases object <;>
        simp [objectMap, present, CalendarCollection.put, OrderedMap.get_set, OrderedMap.get_delete, hi, hi']
  · simp [objectMap, hk]

/-- The log grows at its end only, by later revisions. -/
theorem change_extends {cfg : CalDavConfig} {s t : CalDavStore} (h : Change cfg s t) :
    ∃ new, t.changes = s.changes ++ new ∧ ∀ c ∈ new, s.revision < c.revision := by
  cases h with
  | create | touch | delete => exact ⟨[], by simp, by simp⟩
  | write c present id object =>
    refine ⟨[⟨s.revision + 1, c.key, id, object, object.isNone⟩], rfl, ?_⟩
    intro d hd
    rw [List.mem_singleton] at hd
    subst hd
    exact Nat.lt_succ_self _

theorem change_logged {cfg : CalDavConfig} {s t : CalDavStore} (h : Change cfg s t) (hs : Logged cfg s) :
    Logged cfg t := by
  have keyed := change_keyed h hs.toKeyed
  cases h with
  | create c valid fresh empty =>
    exact ⟨keyed, hs.ordered, hs.bounded, hs.faithful, fun key =>
      (objectMap_create rfl fresh empty key).trans (hs.replay key)⟩
  | touch k f same =>
    exact ⟨keyed, hs.ordered, hs.bounded, hs.faithful, fun key =>
      (objectMap_touch rfl same key).trans (hs.replay key)⟩
  | delete c present empty =>
    exact ⟨keyed, hs.ordered, hs.bounded, hs.faithful, fun key =>
      (objectMap_delete rfl present empty key).trans (hs.replay key)⟩
  | write c present id object named =>
    have hnew : (afterWrite cfg s c.key id object).changes = s.changes ++ _ := rfl
    refine ⟨keyed, ?_, ?_, ?_, ?_⟩
    · rw [hnew, List.pairwise_append]
      refine ⟨hs.ordered, List.pairwise_singleton _ _, ?_⟩
      intro a ha b hb
      rw [List.mem_singleton] at hb
      subst hb
      exact Nat.lt_succ_of_le (hs.bounded a ha)
    · intro d hd
      rw [hnew, List.mem_append, List.mem_singleton] at hd
      rcases hd with hd | rfl
      · exact Nat.le_succ_of_le (hs.bounded d hd)
      · exact Nat.le_refl _
    · intro d hd
      rw [hnew, List.mem_append, List.mem_singleton] at hd
      rcases hd with hd | rfl
      · exact hs.faithful d hd
      · exact ⟨rfl, named⟩
    · intro key
      rw [objectMap_write present, logOf_append hnew, hs.replay key]
      by_cases hk : key = c.key
      · subst hk
        simp only [↓reduceIte, beq_self_eq_true, List.filter_cons_of_pos, List.filter_nil, List.map_cons,
          List.map_nil, replay_snoc]
        rfl
      · have hk' : (c.key == key) = false := by simpa using fun e => hk e.symm
        simp [hk, hk']

theorem changes_logged {cfg : CalDavConfig} {s t : CalDavStore} (h : Changes cfg s t) (hs : Logged cfg s) :
    Logged cfg t := by
  induction h with
  | refl => exact hs
  | step _ change ih => exact change_logged change ih

theorem changes_extend {cfg : CalDavConfig} {s t : CalDavStore} (h : Changes cfg s t) :
    ∃ new, t.changes = s.changes ++ new ∧ ∀ c ∈ new, s.revision < c.revision := by
  induction h with
  | refl => exact ⟨[], by simp, by simp⟩
  | step before change ih =>
    obtain ⟨new, hnew, hlater⟩ := ih
    obtain ⟨more, hmore, hmost⟩ := change_extends change
    refine ⟨new ++ more, by rw [hmore, hnew, List.append_assoc], ?_⟩
    intro c hc
    rcases List.mem_append.mp hc with hc | hc
    · exact hlater c hc
    · exact Nat.lt_of_le_of_lt (changes_revision before) (hmost c hc)

section
variable {cfg : CalDavConfig} {s : CalDavStore}

/-- Folding changes into a map keeps the last one of each id. -/
theorem get_foldl_changes (changes : List CalendarChange) (p : CalendarChange → Bool)
    (m : OrderedMap JsString (Option CalendarObject × Bool)) (id : JsString) :
    ((changes.foldl (fun m c => if p c then m.set c.objectId (c.object, c.deleted) else m) m).get id).map
        (fun v => v.1.map (·.content)) =
      (last ((changes.filter p).map (·.entry)) id).or ((m.get id).map fun v => v.1.map (·.content)) := by
  induction changes generalizing m with
  | nil => simp [last]
  | cons c changes ih =>
    rw [List.foldl_cons, ih]
    by_cases hp : p c
    · simp only [hp, ↓reduceIte, List.filter_cons_of_pos, List.map_cons, last, OrderedMap.get_set,
        CalendarChange.entry]
      by_cases hid : c.objectId = id <;> simp [hid]
    · simp [hp]

/-- Every entry of the map comes from a change. -/
theorem mem_foldl_changes {changes : List CalendarChange} {p : CalendarChange → Bool}
    {m : OrderedMap JsString (Option CalendarObject × Bool)} {id : JsString}
    {v : Option CalendarObject × Bool}
    (h : (changes.foldl (fun m c => if p c then m.set c.objectId (c.object, c.deleted) else m) m).get id =
      some v) :
    m.get id = some v ∨ ∃ c ∈ changes, c.objectId = id ∧ v = (c.object, c.deleted) := by
  induction changes generalizing m with
  | nil => exact .inl h
  | cons c changes ih =>
    rw [List.foldl_cons] at h
    rcases ih h with h | ⟨d, hd, hid, hv⟩
    · by_cases hp : p c
      · simp only [hp, ↓reduceIte, OrderedMap.get_set] at h
        split at h
        · rename_i hid
          exact .inr ⟨c, by simp, hid, (Option.some.inj h).symm⟩
        · exact .inl h
      · simp only [hp] at h
        exact .inl h
    · exact .inr ⟨d, List.mem_cons_of_mem _ hd, hid, hv⟩

theorem changedObjects_get {c : CalendarCollection} (token : JsString) {r : Nat} (id : JsString) :
    ((changedObjects s c (.string token) r).get id).map (fun v => v.1.map (·.content)) =
      last (ChangeLog.since (logOf s c.key) r) id := by
  simp only [changedObjects, JsValue.isNullish, Bool.false_eq_true, ↓reduceIte]
  rw [get_foldl_changes]
  have hfilter : (s.changes.filter fun ch => decide (r < ch.revision) && ch.calendarKey == c.key).map
      (·.entry) = ChangeLog.since (logOf s c.key) r := by
    simp only [ChangeLog.since, logOf, List.filter_map, List.filter_filter]
    rfl
  rw [hfilter]
  simp

theorem changedObjects_faithful (logged : Logged cfg s) {c : CalendarCollection} {token : JsString}
    {r : Nat} {id : JsString} {v : Option CalendarObject × Bool}
    (h : (changedObjects s c (.string token) r).get id = some v) :
    v.2 = v.1.isNone ∧ ∀ o ∈ v.1, o.objectId = id := by
  simp only [changedObjects, JsValue.isNullish, Bool.false_eq_true, ↓reduceIte] at h
  rcases mem_foldl_changes h with h | ⟨ch, hch, rfl, rfl⟩
  · simp at h
  · have faithful := logged.faithful ch hch
    exact ⟨faithful.tombstone, faithful.named⟩

theorem listCalendarObjects_eq_ok {actor options : JsValue} {l : ObjectList}
    (keyed : Keyed cfg s) (h : (listCalendarObjects cfg actor options s).1 = .ok l) :
    ∃ c r, s.collections.get c.key = some c ∧
      decodeToken (options.get "syncToken") (c.scope cfg.canonicalTenant) = .ok r ∧
      l.calendarId = c.key ∧
      l.objects = (changedObjects s c (options.get "syncToken") r).values.filterMap (fun (object, deleted) =>
        if deleted then none else object.map (publicObject c)) ∧
      l.deletedObjectIds = (changedObjects s c (options.get "syncToken") r).rows.filterMap
        (fun (objectId, _, deleted) => if deleted then some objectId else none) := by
  obtain ⟨_, _, h⟩ := Eff.bind_fst_eq_ok h
  rw [destructure_readOnly] at h
  obtain ⟨⟨a, c⟩, hc, h⟩ := Eff.bind_fst_eq_ok h
  rw [resolveCollection_readOnly] at h
  obtain ⟨_, hs, h⟩ := Eff.bind_fst_eq_ok h
  cases hs
  obtain ⟨r, hr, h⟩ := Eff.bind_fst_eq_ok h
  obtain ⟨_, _, h⟩ := Eff.bind_fst_eq_ok h
  cases h
  exact ⟨c, r, resolveCollection_present keyed hc, Eff.check_fst_eq_ok.mp hr, rfl, rfl, rfl⟩

/-- The answer is the delta of the log past the token's revision. -/
theorem answer_delta (logged : Logged cfg s) {c : CalendarCollection} {token : JsString} {r : Nat}
    {l : ObjectList}
    (objects : l.objects = (changedObjects s c (.string token) r).values.filterMap (fun (object, deleted) =>
      if deleted then none else object.map (publicObject c)))
    (deleted : l.deletedObjectIds = (changedObjects s c (.string token) r).rows.filterMap
      (fun (objectId, _, deleted) => if deleted then some objectId else none)) :
    (∀ id v, (id, v) ∈ l.objects.map (·.entry) ↔
      last (ChangeLog.since (logOf s c.key) r) id = some (some v)) ∧
    ∀ id, id ∈ l.deletedObjectIds ↔ last (ChangeLog.since (logOf s c.key) r) id = some none := by
  simp only [← changedObjects_get token]
  have faithful := @changedObjects_faithful cfg s logged c token r
  generalize changedObjects s c (.string token) r = changed at *
  constructor
  · intro id v
    simp only [objects, List.mem_map, List.mem_filterMap, OrderedMap.mem_values, Option.map_eq_some_iff]
    constructor
    · rintro ⟨view, ⟨⟨object, dead⟩, ⟨k, hk⟩, hview⟩, hentry⟩
      obtain ⟨hdead, hnamed⟩ := faithful hk
      cases object with
      | none => simp at hview
      | some o =>
        obtain rfl : dead = false := hdead
        simp only [Bool.false_eq_true, ↓reduceIte, Option.map_some, Option.some.injEq] at hview
        subst hview
        have ho : o.objectId = k := hnamed o rfl
        simp only [CalendarObjectView.entry, publicObject, ho, Prod.mk.injEq] at hentry
        obtain ⟨rfl, rfl⟩ := hentry
        exact ⟨_, hk, o, rfl, rfl⟩
    · rintro ⟨⟨object, dead⟩, hget, hv⟩
      obtain ⟨hdead, hnamed⟩ := faithful hget
      cases object with
      | none => simp at hv
      | some o =>
        obtain rfl : dead = false := hdead
        obtain rfl : o.content = v := by simpa using hv
        refine ⟨publicObject c o, ⟨(some o, false), ⟨id, hget⟩, rfl⟩, ?_⟩
        simp [CalendarObjectView.entry, publicObject, hnamed o rfl, CalendarObject.content]
  · intro id
    simp only [deleted, List.mem_filterMap, Option.map_eq_some_iff, Prod.exists]
    constructor
    · rintro ⟨k, object, dead, hrow, hid⟩
      have hget := OrderedMap.mem_rows.mp hrow
      obtain ⟨hdead, _⟩ := faithful hget
      cases object with
      | some o =>
        obtain rfl : dead = false := hdead
        simp at hid
      | none =>
        obtain rfl : dead = true := hdead
        obtain rfl : k = id := by simpa using hid
        exact ⟨_, _, hget, rfl⟩
    · rintro ⟨object, dead, hget, hnone⟩
      obtain ⟨hdead, _⟩ := faithful hget
      obtain rfl : object = none := by simpa using hnone
      obtain rfl : dead = true := hdead
      exact ⟨id, none, true, OrderedMap.mem_rows.mpr hget, by simp⟩

end

/-- A sequence of calls, each with its own callbacks; a call that throws keeps
what it did before. -/
inductive Run (cfg : CalDavConfig) (s : CalDavStore) : CalDavStore → Prop where
  | start : Run cfg s s
  | call {t : CalDavStore} (before : Run cfg s t) (cb : Callbacks) (c : CalDavCall) :
      Run cfg s (c.run cfg cb t).2

theorem call_changes {cfg : CalDavConfig} {s : CalDavStore} (keyed : Keyed cfg s) (cb : Callbacks)
    (c : CalDavCall) : Changes cfg s (c.run cfg cb s).2 :=
  (run_effects cb keyed c).1

theorem run_changes {cfg : CalDavConfig} {s t : CalDavStore} (h : Run cfg s t) (keyed : Keyed cfg s) :
    Changes cfg s t := by
  induction h with
  | start => exact .refl
  | call before cb c ih => exact ih.trans (call_changes (changes_keyed ih keyed) cb c)

theorem createCalDavStore_logged {host : Host} {tenantId : JsValue} {cfg : CalDavConfig}
    {s : CalDavStore} (h : createCalDavStore host tenantId = .ok (cfg, s)) : Logged cfg s := by
  have empty : s = ⟨Table.empty, [], 0⟩ := by
    unfold createCalDavStore at h
    split at h
    · split at h
      · cases h; rfl
      · cases h
    · cases h
  subst empty
  refine ⟨⟨?_, ?_, ?_, ?_⟩, List.Pairwise.nil, ?_, ?_, ?_⟩ <;> simp [logOf]
  intro key
  rfl

/-- Over an ordered log, the answer to a token brings the objects of the moment
it was issued to the objects of now. -/
theorem answer_applies {cfg : CalDavConfig} {s t : CalDavStore} (logged : Logged cfg s)
    (later : Changes cfg s t) {c : CalendarCollection} {r : Nat} (hr : r ≤ s.revision) {token : JsString}
    {l : ObjectList}
    (objects : l.objects = (changedObjects t c (.string token) r).values.filterMap (fun (object, deleted) =>
      if deleted then none else object.map (publicObject c)))
    (deleted : l.deletedObjectIds = (changedObjects t c (.string token) r).rows.filterMap
      (fun (objectId, _, deleted) => if deleted then some objectId else none)) :
    applyResponse (l.objects.map (·.entry)) l.deletedObjectIds (objectMap s c.key) = objectMap t c.key := by
  have logged' := changes_logged later logged
  obtain ⟨hlive, hgone⟩ := answer_delta logged' objects deleted
  obtain ⟨new, hnew, hlater⟩ := changes_extend later
  have hlog := logOf_append hnew c.key
  have hrevisions : ∀ e ∈ (new.filter fun ch => ch.calendarKey == c.key).map (·.entry), r < e.revision := by
    intro e he
    obtain ⟨ch, hch, rfl⟩ := List.mem_map.mp he
    have := hlater ch (List.mem_filter.mp hch).1
    simp only [CalendarChange.entry]
    omega
  rw [applyResponse_eq_patch hlive hgone, logged.replay, logged'.replay, hlog]
  exact patch_since (logOf_ordered logged c.key) hrevisions

/-- A sync with any token the store has ever returned brings the client to the
current objects, whatever happened in between. -/
theorem listCalendarObjects_complete {host : Host} {tenantId : JsValue} {cfg : CalDavConfig}
    {empty s t : CalDavStore} {cb : Callbacks} {c : CalDavCall} {answer : CalDavAnswer}
    {key token : JsString} {actor options : JsValue} {l : ObjectList}
    (store : createCalDavStore host tenantId = .ok (cfg, empty)) (before : Run cfg empty s)
    (returned : (c.run cfg cb s).1 = .ok answer) (issued : (key, token) ∈ answer.tokens)
    (after : Run cfg (c.run cfg cb s).2 t) (presented : options.get "syncToken" = .string token)
    (listed : (listCalendarObjects cfg actor options t).1 = .ok l) :
    l.calendarId = key ∧
      applyResponse (l.objects.map (·.entry)) l.deletedObjectIds (objectMap (c.run cfg cb s).2 key) =
        objectMap t key ∧
      ∀ id ∈ l.deletedObjectIds, ∀ view ∈ l.objects, view.objectId ≠ id := by
  have logged := changes_logged (run_changes before (createCalDavStore_logged store).toKeyed)
    (createCalDavStore_logged store)
  obtain ⟨changes, tokens⟩ := run_effects cb logged.toKeyed c
  have logged := changes_logged changes logged
  have later := run_changes after logged.toKeyed
  obtain ⟨scope, r, hr, valid, htenant, rfl, rfl⟩ := tokens answer returned _ issued
  obtain ⟨collection, since, present, hdecode, hid, objects, deleted⟩ :=
    listCalendarObjects_eq_ok (changes_logged later logged).toKeyed listed
  rw [presented] at hdecode objects deleted
  obtain ⟨rfl, rfl⟩ := decodeToken_eq_ok valid hdecode
  refine ⟨hid, answer_applies logged later hr objects deleted, ?_⟩
  intro id hdel view hview heq
  obtain ⟨hlive, hgone⟩ := answer_delta (changes_logged later logged) objects deleted
  have dead := (hgone id).mp hdel
  have live := (hlive view.objectId (view.ical, view.etag)).mp
    (List.mem_map.mpr ⟨view, hview, rfl⟩)
  rw [heq, dead] at live
  cases live

/-- A client that saw the calendar empty and syncs after the first object. -/
theorem listCalendarObjects_complete_first :
    let s := (createWork.run sampleConfig sampleCallbacks ⟨Table.empty, [], 0⟩).2
    let t := ((createInWork "a" (sampleEvent (js "SUMMARY:a"))).run sampleConfig sampleCallbacks s).2
    ∃ l, (listCalendarObjects sampleConfig (sampleActor "ada") (workSince 0) t).1 = .ok l ∧
      applyResponse (l.objects.map (·.entry)) l.deletedObjectIds (objectMap s (js "ada/work")) =
        objectMap t (js "ada/work") := by
  intro s t
  have store : createCalDavStore asciiHost (.string (js "acme")) = .ok (sampleConfig, ⟨Table.empty, [], 0⟩) := by
    simp only [createCalDavStore]
    exact dif_pos (by decide)
  have returned : ((createWork.run sampleConfig sampleCallbacks ⟨Table.empty, [], 0⟩).1.map (·.tokens)) =
      .ok [(js "ada/work", makeToken workScope 0)] := by decide +kernel
  obtain ⟨answer, hanswer, htokens⟩ := map_eq_ok.mp returned
  have listed : (listCalendarObjects sampleConfig (sampleActor "ada") (workSince 0) t).1.toBool := by
    decide +kernel
  obtain ⟨l, hl⟩ := eq_ok_of_toBool listed
  have issued : (js "ada/work", makeToken workScope 0) ∈ answer.tokens := by simp [htokens]
  have complete := listCalendarObjects_complete store .start hanswer issued
    (.call .start sampleCallbacks (createInWork "a" (sampleEvent (js "SUMMARY:a")))) rfl hl
  exact ⟨l, hl, complete.2.1⟩

end GuloGulo.CalDav
