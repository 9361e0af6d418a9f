import GuloGulo.CalDav.Interleaving
import GuloGulo.Sql.Serial

/-!
# Writes of the CalDAV store

Six operations lock the row of a collection, check what the actor may do, and
go on with the row they have locked. The id of a collection without its owner
is looked up without a lock first.
-/

namespace GuloGulo.CalDav.Postgres
open Js Data Sql
open Sql.Program (check holds_mono holds_map holds_bind holds_send_bind holds_check_bind)

/-- `resolveCollectionRow` from where the id is split. -/
def resolveId (actor : CalDavActor) (id : CalendarId) (forUpdate : Bool) (requirePermission : Permission) :
    CalDavProgram CollectionRow := do
  match ← findCollectionRow actor id forUpdate with
  | none => check (fail (js "calendar collection was not found") .calendarNotFound 404)
  | some row => do
    check (throwIf (!(permissionsForRow row actor.userId).contains requirePermission)
      (calDavError (js "actor is not allowed to " ++ requirePermission.text ++ js " this calendar")
        .aclDenied 403))
    return row

theorem resolveCollectionRow_eq (actor : CalDavActor) (requestedCalendarId : JsValue) (forUpdate : Bool)
    (permission : Permission) : resolveCollectionRow actor requestedCalendarId forUpdate permission =
      (check (splitCalendarId requestedCalendarId) >>= fun id => resolveId actor id forUpdate permission) := rfl

/-- An operation that writes: whose row it locks, and how it goes on. -/
structure LockingCall where
  actor : JsValue
  options : JsValue
  permission : Permission
  body : CalDavActor → CollectionRow → CalDavProgram CalDavAnswer

section
variable (host : Host)

/-- `setCalendarAcl` and `revokeCalendarAcl` from where the calendar is resolved and locked. -/
def setAclInCollection (now : Int) (options : JsValue) (actor : CalDavActor) (row : CollectionRow) :
    CalDavProgram CalendarCollectionView := do
  check (failIf (actor.userId != row.key.ownerUserId) "only the calendar owner may change its ACL"
    .aclOwnerRequired 403)
  let delegate ← check (canonicalUserId (options.get "delegateUserId") "delegateUserId")
  check (failIf (delegate == row.key.ownerUserId) "a calendar cannot delegate to itself" .invalidAcl 422)
  let unique ← check (normalizePermissions ((options.get "permissions").orDefault (.array [.string (js "read")])))
  let updated ← send (.updateAcl now (some ⟨delegate, unique⟩) row.key)
  let row ← check (requiredRow updated)
  return publicCollectionRow row actor

def revokeAclInCollection (now : Int) (actor : CalDavActor) (row : CollectionRow) :
    CalDavProgram CalendarCollectionView := do
  check (failIf (actor.userId != row.key.ownerUserId) "only the calendar owner may change its ACL"
    .aclOwnerRequired 403)
  let updated ← send (.updateAcl now none row.key)
  let row ← check (requiredRow updated)
  return publicCollectionRow row actor

/-- `deleteCalendarCollection` from where the calendar is resolved and locked. -/
def deleteLocked (options : JsValue) (actor : CalDavActor) (row : CollectionRow) : CalDavProgram DeletionResult := do
  check (failIf (actor.userId != row.key.ownerUserId) "only the calendar owner may delete a collection"
    .aclOwnerRequired 403)
  let count : Nat ← send (.countObjects row.key)
  check (failIf (decide (0 < count)) "calendar collection is not empty" .calendarNotEmpty 409)
  check (assertCollectionMatch (options.get "ifMatch") (rowEtag host row))
  send (.deleteCollection row.key)
  return ⟨calendarKey row.key, none, none, none⟩

def locking (now : Int) : CalDavCall → Option LockingCall
  | .setCalendarAcl actor options =>
    some ⟨actor, options, .read, fun a row => do return .collection (← setAclInCollection now options a row)⟩
  | .revokeCalendarAcl actor options =>
    some ⟨actor, options, .read, fun a row => do return .collection (← revokeAclInCollection now a row)⟩
  | .createCalendarObject actor options =>
    some ⟨actor, options, .write, fun a row => do return .object (← createInCollection host now options a row)⟩
  | .updateCalendarObject actor options =>
    some ⟨actor, options, .write, fun a row => do return .object (← updateInCollection host now options a row)⟩
  | .deleteCalendarObject actor options =>
    some ⟨actor, options, .write, fun _ row => do return .deletion (← deleteInCollection now options row)⟩
  | .deleteCalendarCollection actor options =>
    some ⟨actor, options, .read, fun a row => do return .deletion (← deleteLocked host options a row)⟩
  | _ => none

/-- The operation on the collection of an id that is split already. -/
def LockingCall.programOn (l : LockingCall) (id : CalendarId) : CalDavProgram CalDavAnswer := do
  destructure l.options
  let a ← check (openContext host l.actor)
  let row ← resolveId a id true l.permission
  l.body a row

def LockingCall.program (l : LockingCall) : CalDavProgram CalDavAnswer := do
  destructure l.options
  let a ← check (openContext host l.actor)
  let row ← resolveCollectionRow a (l.options.get "calendarId") true l.permission
  l.body a row

/-- The operations are what they are in the store. -/
theorem program_locking {now : Int} {call : CalDavCall} {l : LockingCall} (h : locking host now call = some l) :
    program host now call = l.program host := by
  cases call with
  | setCalendarAcl actor options =>
    cases h
    simp only [program, setCalendarAcl, setAclInCollection, LockingCall.program, Program.bind_assoc]
  | revokeCalendarAcl actor options =>
    cases h
    simp only [program, revokeCalendarAcl, revokeAclInCollection, LockingCall.program, Program.bind_assoc]
  | createCalendarObject actor options =>
    cases h
    simp only [program, createCalendarObject, LockingCall.program, Program.bind_assoc]
  | updateCalendarObject actor options =>
    cases h
    simp only [program, updateCalendarObject, LockingCall.program, Program.bind_assoc]
  | deleteCalendarObject actor options =>
    cases h
    simp only [program, deleteCalendarObject, LockingCall.program, Program.bind_assoc]
  | deleteCalendarCollection actor options =>
    cases h
    simp only [program, deleteCalendarCollection, deleteLocked, LockingCall.program, Program.bind_assoc]
  | _ => cases h

end

/-! ## What a write does -/

/-- The precondition of a write of an object that is there. -/
def Matches (ifMatch : JsValue) (etag : JsString) : Prop := ifMatch = .string (js "*") ∨ ifMatch = .string etag

/-- A write that commits: the actor may, the object is as the write expects it,
and one collection changes. -/
inductive Does (host : Host) (now : Int) : CalDavCall → Db → Db → Prop where
  | create {actor options : JsValue} {d d' : Db} (a : CalDavActor) (c c' : Collection) (o : ObjectRow)
      (opened : openContext host actor = .ok a) (present : d.find c.key = some c)
      (permitted : (permissionsForRow c.row a.userId).contains .write)
      (named : options.get "objectId" = .string o.objectId) (absent : c.objects.lookup o.objectId = none)
      (written : Written now c c' o.objectId (some o)) (placed : Placed d d' c.key (some c')) :
      Does host now (.createCalendarObject actor options) d d'
  | update {actor options : JsValue} {d d' : Db} (a : CalDavActor) (c c' : Collection) (existing o : ObjectRow)
      (opened : openContext host actor = .ok a) (present : d.find c.key = some c)
      (permitted : (permissionsForRow c.row a.userId).contains .write)
      (named : options.get "objectId" = .string o.objectId) (there : c.objects.lookup o.objectId = some existing)
      (matched : Matches (options.get "ifMatch") existing.etag)
      (written : Written now c c' o.objectId (some o)) (placed : Placed d d' c.key (some c')) :
      Does host now (.updateCalendarObject actor options) d d'
  | delete {actor options : JsValue} {d d' : Db} (a : CalDavActor) (c c' : Collection) (existing : ObjectRow)
      (id : JsString) (opened : openContext host actor = .ok a) (present : d.find c.key = some c)
      (permitted : (permissionsForRow c.row a.userId).contains .write)
      (named : options.get "objectId" = .string id) (there : c.objects.lookup id = some existing)
      (matched : Matches (options.get "ifMatch") existing.etag)
      (written : Written now c c' id none) (placed : Placed d d' c.key (some c')) :
      Does host now (.deleteCalendarObject actor options) d d'
  | setAcl {actor options : JsValue} {d d' : Db} (a : CalDavActor) (c : Collection) (acl : CalendarAcl)
      (opened : openContext host actor = .ok a) (present : d.find c.key = some c)
      (owner : a.userId = c.key.ownerUserId)
      (placed : Placed d d' c.key (some { c with row := { c.row with acl := some acl, updatedAt := now } })) :
      Does host now (.setCalendarAcl actor options) d d'
  | revokeAcl {actor options : JsValue} {d d' : Db} (a : CalDavActor) (c : Collection)
      (opened : openContext host actor = .ok a) (present : d.find c.key = some c)
      (owner : a.userId = c.key.ownerUserId)
      (placed : Placed d d' c.key (some { c with row := { c.row with acl := none, updatedAt := now } })) :
      Does host now (.revokeCalendarAcl actor options) d d'
  | deleteCollection {actor options : JsValue} {d d' : Db} (a : CalDavActor) (c : Collection)
      (opened : openContext host actor = .ok a) (present : d.find c.key = some c)
      (owner : a.userId = c.key.ownerUserId) (empty : c.objects.rows = []) (placed : Placed d d' c.key none) :
      Does host now (.deleteCalendarCollection actor options) d d'

theorem matches_of_assert {ifMatch : JsValue} {etag : JsString} {operation : String}
    (h : assertIfMatch ifMatch etag operation = .ok ()) : Matches ifMatch etag := by
  obtain ⟨_, _, h⟩ := bind_eq_ok.mp h
  have h := failIf_eq_ok.mp h
  simp only [Bool.not_eq_false', Bool.or_eq_true] at h
  rcases h with h | h
  · exact .inl (Integrations.Actor.isString_eq h)
  · exact .inr (Integrations.Actor.isString_eq h)

section
variable {host : Host} {collate : JsString → JsString → Bool} {now : Int} {d d' : Db}

theorem setAclInCollection_placed {options : JsValue} {a : CalDavActor} {c : Collection} {view : CalendarCollectionView}
    (hc : d.find c.key = some c)
    (h : (setAclInCollection now options a c.row).run (Stmt.exec collate) d = .ok (view, d')) :
    a.userId = c.key.ownerUserId ∧
      ∃ acl, Placed d d' c.key (some { c with row := { c.row with acl := some acl, updatedAt := now } }) := by
  obtain ⟨_, owner, h⟩ := Program.run_check_bind_eq_ok.mp h
  obtain ⟨delegate, _, h⟩ := Program.run_check_bind_eq_ok.mp h
  obtain ⟨_, _, h⟩ := Program.run_check_bind_eq_ok.mp h
  obtain ⟨unique, _, h⟩ := Program.run_check_bind_eq_ok.mp h
  obtain ⟨rows, e, hupdate, h⟩ := Program.run_bind_eq_ok.mp h
  rw [run_send] at hupdate
  obtain ⟨_, placed⟩ := updateAcl_ok hc hupdate
  obtain ⟨row, _, h⟩ := Program.run_check_bind_eq_ok.mp h
  cases h
  exact ⟨bne_eq_false_iff_eq.mp (failIf_eq_ok.mp owner), _, placed⟩

theorem revokeAclInCollection_placed {a : CalDavActor} {c : Collection} {view : CalendarCollectionView}
    (hc : d.find c.key = some c)
    (h : (revokeAclInCollection now a c.row).run (Stmt.exec collate) d = .ok (view, d')) :
    a.userId = c.key.ownerUserId ∧
      Placed d d' c.key (some { c with row := { c.row with acl := none, updatedAt := now } }) := by
  obtain ⟨_, owner, h⟩ := Program.run_check_bind_eq_ok.mp h
  obtain ⟨rows, e, hupdate, h⟩ := Program.run_bind_eq_ok.mp h
  rw [run_send] at hupdate
  obtain ⟨_, placed⟩ := updateAcl_ok hc hupdate
  obtain ⟨row, _, h⟩ := Program.run_check_bind_eq_ok.mp h
  cases h
  exact ⟨bne_eq_false_iff_eq.mp (failIf_eq_ok.mp owner), placed⟩

theorem deleteLocked_placed {options : JsValue} {a : CalDavActor} {c : Collection} {result : DeletionResult}
    (hc : d.find c.key = some c)
    (h : (deleteLocked host options a c.row).run (Stmt.exec collate) d = .ok (result, d')) :
    a.userId = c.key.ownerUserId ∧ c.objects.rows = [] ∧ Placed d d' c.key none := by
  obtain ⟨_, owner, h⟩ := Program.run_check_bind_eq_ok.mp h
  obtain ⟨count, e, hcount, h⟩ := Program.run_bind_eq_ok.mp h
  cases hcount
  obtain ⟨_, hempty, h⟩ := Program.run_check_bind_eq_ok.mp h
  obtain ⟨_, _, h⟩ := Program.run_check_bind_eq_ok.mp h
  have empty : c.objects.rows = [] := by
    have hc' : d.find c.row.key = some c := hc
    rw [failIf_eq_ok, hc'] at hempty
    exact List.length_eq_zero_iff.mp (Nat.eq_zero_of_not_pos (of_decide_eq_false hempty))
  cases h
  refine ⟨bne_eq_false_iff_eq.mp (failIf_eq_ok.mp owner), empty, rfl, ?_, ?_⟩
  · exact (Table.lookup_erase d.collections c.key c.key).trans (if_pos rfl)
  · intro k hk
    exact (Table.lookup_erase d.collections c.key k).trans (if_neg hk)

/-- From the lock on, an operation does what it is for. -/
theorem body_does {call : CalDavCall} {l : LockingCall} (h : locking host now call = some l) {a : CalDavActor}
    {c : Collection} {answer : CalDavAnswer} (opened : openContext host l.actor = .ok a) (logged : c.Logged)
    (present : d.find c.key = some c) (permitted : (permissionsForRow c.row a.userId).contains l.permission)
    (run : (l.body a c.row).run (Stmt.exec collate) d = .ok (answer, d')) : Does host now call d d' := by
  cases call with
  | createCalendarObject actor options =>
    cases h
    obtain ⟨view, e, run, ends⟩ := Program.run_bind_eq_ok.mp run
    cases ends
    obtain ⟨c', o, _, accepted, named, absent⟩ := createInCollection_accepted logged present run
    exact .create a c c' o opened present permitted named absent accepted.written accepted.placed
  | updateCalendarObject actor options =>
    cases h
    obtain ⟨view, e, run, ends⟩ := Program.run_bind_eq_ok.mp run
    cases ends
    obtain ⟨c', o, _, existing, accepted, named, there, matched⟩ := updateInCollection_accepted logged present run
    exact .update a c c' existing o opened present permitted named there (matches_of_assert matched) accepted.written
      accepted.placed
  | deleteCalendarObject actor options =>
    cases h
    obtain ⟨result, e, run, ends⟩ := Program.run_bind_eq_ok.mp run
    cases ends
    obtain ⟨c', id, existing, placed, written, _, _, named, there, matched⟩ :=
      deleteInCollection_written logged present run
    exact .delete a c c' existing id opened present permitted named there (matches_of_assert matched) written placed
  | setCalendarAcl actor options =>
    cases h
    obtain ⟨view, e, run, ends⟩ := Program.run_bind_eq_ok.mp run
    cases ends
    obtain ⟨owner, acl, placed⟩ := setAclInCollection_placed present run
    exact .setAcl a c acl opened present owner placed
  | revokeCalendarAcl actor options =>
    cases h
    obtain ⟨view, e, run, ends⟩ := Program.run_bind_eq_ok.mp run
    cases ends
    obtain ⟨owner, placed⟩ := revokeAclInCollection_placed present run
    exact .revokeAcl a c opened present owner placed
  | deleteCalendarCollection actor options =>
    cases h
    obtain ⟨result, e, run, ends⟩ := Program.run_bind_eq_ok.mp run
    cases ends
    obtain ⟨owner, empty, placed⟩ := deleteLocked_placed present run
    exact .deleteCollection a c opened present owner empty placed
  | _ => cases h

/-! ## The revisions of a collection -/

/-- The changes of a collection have the revisions from 1 on, up to its own. -/
def Collection.Consecutive (c : Collection) : Prop :=
  c.changes.rows.map (·.revision) = List.range' 1 c.row.revision

def Db.Consecutive (db : Db) : Prop := ∀ key c, db.find key = some c → c.Consecutive

theorem written_consecutive {c c' : Collection} {id : JsString} {object : Option ObjectRow}
    (written : Written now c c' id object) (h : c.Consecutive) : c'.Consecutive := by
  obtain ⟨uid, etag, changes⟩ := written.changes
  rw [Collection.Consecutive, written.revision, changes, List.map_append, h, List.range'_concat]
  simp [Nat.add_comm]

theorem placed_consecutive {key : TokenScope} {c : Option Collection} (placed : Placed d d' key c)
    (before : d.Consecutive) (here : ∀ c' ∈ c, c'.Consecutive) : d'.Consecutive := by
  intro k c' found
  by_cases own : k = key
  · subst own
    rw [placed.here] at found
    exact here c' found
  · rw [placed.elsewhere k own] at found
    exact before k c' found

theorem step_consecutive {texts : JsString → Prop} (step : Step texts d d') (before : d.Consecutive) :
    d'.Consecutive := by
  cases step with
  | read same =>
    rw [same]
    exact before
  | create c _ _ revision _ changes placed =>
    apply placed_consecutive placed before
    intro c' same
    cases same
    rw [Collection.Consecutive, changes, revision]
    rfl
  | acl key c present acl now placed =>
    apply placed_consecutive placed before
    intro c' same
    cases same
    exact before key c present
  | write key c c' present id object now _ written placed =>
    apply placed_consecutive placed before
    intro c'' same
    cases same
    exact written_consecutive written (before key c present)
  | delete key c _ _ placed =>
    apply placed_consecutive placed before
    intro c' same
    cases same

/-- A write is a step of the store. -/
theorem does_step {call : CalDavCall} (does : Does host now call d d') : ∃ texts, Step texts d d' := by
  have any : ∀ (o : Option ObjectRow), ∀ x ∈ o, (fun _ : JsString => True) x.icalData := fun _ _ _ => trivial
  refine ⟨fun _ => True, ?_⟩
  cases does with
  | create a c c' o _ present _ _ _ written placed => exact .write c.key c c' present _ _ now (any _) written placed
  | update a c c' existing o _ present _ _ _ _ written placed =>
    exact .write c.key c c' present _ _ now (any _) written placed
  | delete a c c' existing id _ present _ _ _ _ written placed =>
    exact .write c.key c c' present _ _ now (any _) written placed
  | setAcl a c acl _ present _ placed => exact .acl c.key c present _ now placed
  | revokeAcl a c _ present _ placed => exact .acl c.key c present _ now placed
  | deleteCollection a c _ present _ empty placed => exact .delete c.key c present empty placed

end

end GuloGulo.CalDav.Postgres
