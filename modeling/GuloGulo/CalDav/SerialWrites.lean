import GuloGulo.CalDav.Writes

/-!
# Writes one after another

The row of the collection is locked before anything is checked, so a write
commits what it would do alone, on the collection its calendar id was resolved
to. Only the lookup of an id without its owner comes before the lock.
-/

namespace GuloGulo.CalDav.Postgres
open Js Data Sql
open Sql.Program (check holds_mono holds_map holds_bind holds_send_bind holds_check_bind)

/-- Among any transactions, of which nothing is seen but what they have committed. -/
def amongAll (committed : Db → Prop) : Rely Db RowId :=
  rely (fun d d' => committed d → committed d') (fun _ h => h) fun first second h => second (first h)

section
variable {host : Host} {collate : JsString → JsString → Bool} {now : Int} {committed : Db → Prop} {d : Db}
  {writes : Db → Db} {held : List RowId}

/-- A row as it is, that nobody else can change. -/
structure Fixed (row : CollectionRow) (d : Db) (writes : Db → Db) (held : List RowId) : Prop where
  present : ∃ c, row = c.row ∧ d.find c.key = some c
  untouched : ∀ x, writes x = x
  held : RowId.collection row.key ∈ held

theorem Fixed.stable {row : CollectionRow} {d' : Db} (h : Fixed row d writes held) (commit : (amongAll committed).Allows held d d') :
    Fixed row d' writes held := by
  obtain ⟨c, rfl, hc⟩ := h.present
  exact ⟨⟨c, rfl, (commit.2 _ h.held).trans hc⟩, h.untouched, h.held⟩

theorem selectForUpdate_fixed (key : TokenScope) (untouched : ∀ x, writes x = x) :
    (do
      let rows ← send (.selectCollection key true)
      return rows.head? : CalDavProgram (Option CollectionRow)).Holds (Stmt.exec collate) Stmt.locks (amongAll committed)
      (fun found d w l => ∀ row ∈ found, row.key = key ∧ Fixed row d w l) d writes held := by
  apply holds_send_bind
  intro d' hd r v hv
  rw [untouched d'] at hv ⊢
  cases hv
  intro d'' hd'' row hrow
  obtain ⟨c, hc, rfl⟩ : ∃ c, d'.find key = some c ∧ c.row = row := by
    cases hf : d'.find key with
    | none => rw [hf] at hrow; cases hrow
    | some c => rw [hf] at hrow; exact ⟨c, rfl, Option.some.inj hrow⟩
  have hkey : c.key = key := key_of_find hc
  have hlock : RowId.collection c.row.key ∈ Stmt.locks (.selectCollection key true) d' ++ held := by
    apply List.mem_append_left
    show _ ∈ (if (d'.find key).isSome then [RowId.collection key] else [])
    rw [hc]
    exact List.mem_singleton.mpr (congrArg RowId.collection hkey)
  refine ⟨hkey, Fixed.stable ⟨⟨c, rfl, hkey ▸ hc⟩, ?_, hlock⟩ hd''⟩
  exact untouched

/-- The rows among which an id without its owner is looked up. -/
def lookupRows (d : Db) (a : CalDavActor) (collectionId : JsString) : List CollectionRow :=
  (d.collections.rows.map (·.row)).filter fun row =>
    row.key.collectionId == collectionId && row.accessible a.tenantId a.userId

/-- What an id is resolved to: itself if it names its owner, and otherwise the
one collection that was found among those committed at some time. -/
def ResolvesTo (committed : Db → Prop) (a : CalDavActor) (given id : CalendarId) : Prop :=
  match given.ownerUserId with
  | some _ => id = given
  | none => ∃ d row, committed d ∧ lookupRows d a given.collectionId = [row] ∧
    id = ⟨some row.key.ownerUserId, row.key.collectionId⟩

theorem ResolvesTo.named {a : CalDavActor} {given id : CalendarId} (h : ResolvesTo committed a given id) :
    id.collectionId = given.collectionId := by
  unfold ResolvesTo at h
  split at h
  · rw [h]
  · obtain ⟨d, row, _, rows, rfl⟩ := h
    have member : row ∈ lookupRows d a given.collectionId := rows ▸ List.mem_singleton_self row
    simp only [lookupRows, List.mem_filter, Bool.and_eq_true, beq_iff_eq] at member
    exact member.2.1

theorem findCollectionRow_fixed (a : CalDavActor) (given : CalendarId) (before : committed d) (untouched : ∀ x, writes x = x) :
    (findCollectionRow a given true).Holds (Stmt.exec collate) Stmt.locks (amongAll committed)
      (fun found d w l => ∀ row ∈ found, row.key.tenantId = a.tenantId ∧
        ResolvesTo committed a given ⟨some row.key.ownerUserId, row.key.collectionId⟩ ∧ Fixed row d w l) d writes held := by
  obtain ⟨owner, collectionId⟩ := given
  unfold findCollectionRow
  cases owner with
  | some owner =>
    refine holds_mono (selectForUpdate_fixed _ untouched) ?_
    intro found d w l h row hrow
    obtain ⟨hkey, fixed⟩ := h row hrow
    rw [hkey]
    exact ⟨rfl, rfl, fixed⟩
  | none =>
    apply holds_send_bind
    intro d' hd r v hv
    rw [untouched d'] at hv
    cases hv
    apply holds_check_bind
    intro _ single
    split
    · rename_i row hrow
      have rows : lookupRows d' a collectionId = [row] := by
        have few := of_decide_eq_false (throwIf_eq_ok.mp single)
        change ¬ 1 < (lookupRows d' a collectionId).length at few
        change (lookupRows d' a collectionId).head? = some row at hrow
        obtain ⟨tail, whole⟩ := List.head?_eq_some_iff.mp hrow
        rw [whole, List.length_cons] at few
        rw [whole, List.length_eq_zero_iff.mp (show tail.length = 0 by omega)]
      refine holds_mono (selectForUpdate_fixed _ untouched) ?_
      intro found d w l h row' hrow'
      obtain ⟨hkey, fixed⟩ := h row' hrow'
      rw [hkey]
      exact ⟨rfl, ⟨d', row, hd.1 before, rows, rfl⟩, fixed⟩
    · intro d'' _ row hrow
      cases hrow

/-- A locked row on which the actor has the permission. -/
structure Resolved (committed : Db → Prop) (a : CalDavActor) (given : CalendarId) (permission : Permission)
    (row : CollectionRow) (d : Db) (writes : Db → Db) (held : List RowId) : Prop where
  tenant : row.key.tenantId = a.tenantId
  resolves : ResolvesTo committed a given ⟨some row.key.ownerUserId, row.key.collectionId⟩
  permitted : (permissionsForRow row a.userId).contains permission
  fixed : Fixed row d writes held

theorem resolveId_fixed (a : CalDavActor) (given : CalendarId) (permission : Permission) (before : committed d)
    (untouched : ∀ x, writes x = x) :
    (resolveId a given true permission).Holds (Stmt.exec collate) Stmt.locks (amongAll committed)
      (Resolved committed a given permission) d writes held := by
  apply holds_bind
  refine holds_mono (findCollectionRow_fixed a given before untouched) ?_
  intro found d w l hfound
  cases found with
  | none => trivial
  | some row =>
    apply holds_check_bind
    intro _ allowed d' hd
    obtain ⟨tenant, resolves, fixed⟩ := hfound row rfl
    have permitted : (permissionsForRow row a.userId).contains permission := by
      simpa using throwIf_eq_ok.mp allowed
    exact ⟨tenant, resolves, permitted, fixed.stable hd⟩

theorem SameAt.trans {key : TokenScope} {d e f : Db} (h : SameAt key d e) (h' : SameAt key e f) : SameAt key d f :=
  Eq.trans h h'

theorem updateAcl_local (key : TokenScope) (acl : Option CalendarAcl) :
    LocalStmt collate key (.updateAcl now acl key) := by
  intro d e r d' h hd
  simp only [Stmt.exec] at hd ⊢
  obtain ⟨_, hself, hd⟩ := bind_eq_ok.mp hd
  simp only [hself, ok_bind]
  have same := sameAt_update h (fun c => { c with row := { c.row with acl, updatedAt := now } }) fun _ => rfl
  cases hd
  refine ⟨_, ?_, same⟩
  rw [show _ = _ from same.1]
  rfl

theorem countObjects_local (key : TokenScope) : LocalStmt collate key (.countObjects key) := by
  intro d e r d' h hd
  have same : d.find key = e.find key := h
  cases hd
  exact ⟨e, by simp only [Stmt.exec, same], h, .refl key e⟩

theorem deleteCollection_local (key : TokenScope) : LocalStmt collate key (.deleteCollection key) := by
  intro d e r d' h hd
  cases hd
  have gone (db : Db) (k : TokenScope) :
      Db.find { db with collections := db.collections.erase key } k = if k = key then none else db.find k :=
    Table.lookup_erase db.collections key k
  refine ⟨{ e with collections := e.collections.erase key }, rfl, ?_, rfl, ?_⟩
  · rw [SameAt, gone, gone, if_pos rfl, if_pos rfl]
  · intro k hk
    rw [gone, if_neg hk]

theorem body_local {call : CalDavCall} {l : LockingCall} (h : locking host now call = some l) (a : CalDavActor)
    (row : CollectionRow) : Local collate row.key (l.body a row) := by
  cases call with
  | createCalendarObject actor options =>
    cases h
    exact Program.local_bind (createInCollection_local a row) fun _ => trivial
  | updateCalendarObject actor options =>
    cases h
    exact Program.local_bind (updateInCollection_local a row) fun _ => trivial
  | deleteCalendarObject actor options =>
    cases h
    exact Program.local_bind (deleteInCollection_local now options row) fun _ => trivial
  | setCalendarAcl actor options =>
    cases h
    exact Program.local_bind
      (Program.local_bind (Program.local_check _) fun _ =>
        Program.local_bind (Program.local_check _) fun _ =>
          Program.local_bind (Program.local_check _) fun _ =>
            Program.local_bind (Program.local_check _) fun _ =>
              Program.local_send_bind (updateAcl_local _ _) fun _ =>
                Program.local_bind (Program.local_check _) fun _ => trivial)
      fun _ => trivial
  | revokeCalendarAcl actor options =>
    cases h
    exact Program.local_bind
      (Program.local_bind (Program.local_check _) fun _ =>
        Program.local_send_bind (updateAcl_local _ _) fun _ =>
          Program.local_bind (Program.local_check _) fun _ => trivial)
      fun _ => trivial
  | deleteCalendarCollection actor options =>
    cases h
    exact Program.local_bind
      (Program.local_bind (Program.local_check _) fun _ =>
        Program.local_send_bind (countObjects_local _) fun _ =>
          Program.local_bind (Program.local_check _) fun _ =>
            Program.local_bind (Program.local_check _) fun _ =>
              Program.local_send_bind (deleteCollection_local _) fun _ => trivial)
      fun _ => trivial
  | _ => cases h

/-- The calendar id names its owner, or its lookup finds no second collection. -/
def Unambiguous (host : Host) (l : LockingCall) (d : Db) : Prop :=
  ∀ a given, openContext host l.actor = .ok a → splitCalendarId (l.options.get "calendarId") = .ok given →
    given.ownerUserId = none → (lookupRows d a given.collectionId).length ≤ 1

/-- A commit of a write as its run alone. -/
structure Ends (host : Host) (collate : JsString → JsString → Bool) (committed : Db → Prop) (l : LockingCall)
    (answer : CalDavAnswer) (d : Db) (a : CalDavActor) (given : CalendarId) (c : Collection) (d' : Db) : Prop where
  destructured : l.options ≠ .null
  opened : openContext host l.actor = .ok a
  split : splitCalendarId (l.options.get "calendarId") = .ok given
  resolves : ResolvesTo committed a given ⟨some c.key.ownerUserId, c.key.collectionId⟩
  tenant : c.key.tenantId = a.tenantId
  present : d.find c.key = some c
  permitted : (permissionsForRow c.row a.userId).contains l.permission
  run : (l.body a c.row).run (Stmt.exec collate) d = .ok (answer, d')

theorem destructure_run {α : Type} {options : JsValue} {next : Unit → CalDavProgram α} (h : options ≠ .null) (d : Db) :
    (destructure options >>= next).run (Stmt.exec collate) d = (next ()).run (Stmt.exec collate) d := by
  unfold destructure
  split
  · exact absurd rfl h
  · rfl

theorem run_resolved {a : CalDavActor} {row : CollectionRow} {permission : Permission} {d : Db} {id : CalendarId}
    (found : (findCollectionRow a id true).run (Stmt.exec collate) d = .ok (some row, d))
    (permitted : (permissionsForRow row a.userId).contains permission) :
    (resolveId a id true permission).run (Stmt.exec collate) d = .ok (row, d) := by
  unfold resolveId
  rw [Program.run_bind_ok found]
  show (check (throwIf (!(permissionsForRow row a.userId).contains permission) _) >>= fun _ => pure row :
    CalDavProgram CollectionRow).run (Stmt.exec collate) d = _
  rw [permitted]
  rfl

variable {l : LockingCall} {a : CalDavActor} {given : CalendarId} {c : Collection} {answer : CalDavAnswer} {d' : Db}

theorem find_owned (h : Ends host collate committed l answer d a given c d') :
    (findCollectionRow a ⟨some c.key.ownerUserId, c.key.collectionId⟩ true).run (Stmt.exec collate) d =
      .ok (some c.row, d) := by
  have key : (⟨a.tenantId, c.key.ownerUserId, c.key.collectionId⟩ : TokenScope) = c.key := by
    rw [← h.tenant]
  show Except.ok (((d.find ⟨a.tenantId, c.key.ownerUserId, c.key.collectionId⟩).toList.map (·.row)).head?, d) = _
  rw [key, h.present]
  rfl

/-- The run on the collection that was locked. -/
theorem ends_on (h : Ends host collate committed l answer d a given c d') :
    (l.programOn host ⟨some c.key.ownerUserId, c.key.collectionId⟩).run (Stmt.exec collate) d = .ok (answer, d') := by
  unfold LockingCall.programOn
  rw [destructure_run h.destructured, Program.run_check_bind, h.opened]
  show (resolveId a _ true l.permission >>= l.body a).run (Stmt.exec collate) d = _
  rw [Program.run_bind_ok (run_resolved (find_owned h) h.permitted)]
  exact h.run

theorem accessible_of_permitted {row : CollectionRow} {a : CalDavActor} {permission : Permission}
    (tenant : row.key.tenantId = a.tenantId) (permitted : (permissionsForRow row a.userId).contains permission) :
    row.accessible a.tenantId a.userId := by
  have known : a.userId = row.key.ownerUserId ∨ ∃ acl, row.acl = some acl ∧ acl.delegateUserId = a.userId := by
    unfold permissionsForRow permissionsFor at permitted
    by_cases owner : a.userId = row.key.ownerUserId
    · exact .inl owner
    · rw [if_neg owner] at permitted
      split at permitted
      · rename_i acl hacl
        split at permitted
        · rename_i delegate
          exact .inr ⟨acl, hacl, delegate⟩
        · simp at permitted
      · simp at permitted
  unfold CollectionRow.accessible
  rw [tenant]
  rcases known with owner | ⟨acl, hacl, delegate⟩
  · simp [owner]
  · simp [hacl, delegate]

/-- A lookup that finds no second collection finds the one that was locked. -/
theorem find_looked_up (h : Ends host collate committed l answer d a given c d') (sole : Unambiguous host l d) :
    (findCollectionRow a given true).run (Stmt.exec collate) d = .ok (some c.row, d) := by
  cases owner : given.ownerUserId with
  | some o =>
    have same := h.resolves
    unfold ResolvesTo at same
    rw [owner] at same
    rw [← same]
    exact find_owned h
  | none =>
    have one := sole a given h.opened h.split owner
    have member : c.row ∈ lookupRows d a given.collectionId := by
      refine List.mem_filter.mpr ⟨List.mem_map.mpr ⟨c, Table.mem_of_lookup h.present, rfl⟩, ?_⟩
      have named : c.row.key.collectionId = given.collectionId := h.resolves.named
      have accessible : c.row.accessible a.tenantId a.userId := accessible_of_permitted h.tenant h.permitted
      rw [named, beq_self_eq_true, Bool.true_and]
      exact accessible
    obtain ⟨row, rows⟩ : ∃ row, lookupRows d a given.collectionId = [row] := by
      match looked : lookupRows d a given.collectionId with
      | [] => rw [looked] at member; cases member
      | [row] => exact ⟨row, rfl⟩
      | _ :: _ :: _ =>
        rw [looked] at one
        simp at one
    rw [rows, List.mem_singleton] at member
    subst member
    have owned := find_owned h
    unfold findCollectionRow
    rw [owner]
    have first : Stmt.exec collate (.selectAccessible a.tenantId given.collectionId a.userId) d = .ok ([c.row], d) := by
      rw [← rows]
      rfl
    simp only [run_send_bind, first, ok_bind]
    exact owned

/-- With no second collection to be found, the operation itself. -/
theorem ends_itself (h : Ends host collate committed l answer d a given c d') (sole : Unambiguous host l d) :
    (l.program host).run (Stmt.exec collate) d = .ok (answer, d') := by
  unfold LockingCall.program
  rw [destructure_run h.destructured, Program.run_check_bind, h.opened]
  show (resolveCollectionRow a (l.options.get "calendarId") true l.permission >>= l.body a).run (Stmt.exec collate) d = _
  rw [resolveCollectionRow_eq, h.split]
  show (resolveId a given true l.permission >>= l.body a).run (Stmt.exec collate) d = _
  rw [Program.run_bind_ok (run_resolved (find_looked_up h sole) h.permitted)]
  exact h.run

/-- What a write promises of its commit. -/
def Committed (host : Host) (collate : JsString → JsString → Bool) (committed : Db → Prop) (l : LockingCall)
    (answer : CalDavAnswer) (d : Db) (writes : Db → Db) (held : List RowId) : Prop :=
  ∃ a given c, Ends host collate committed l answer d a given c (writes d) ∧ SameBut c.key d (writes d) ∧
    RowId.collection c.key ∈ held

theorem committed_commits (h : Committed host collate committed l answer d writes held) (after : committed (writes d)) :
    (amongAll committed).Commits d writes held := by
  obtain ⟨_, _, c, _, elsewhere, lock⟩ := h
  refine ⟨fun _ => after, ?_⟩
  intro k free
  cases k with
  | collection key =>
    apply elsewhere.2
    rintro rfl
    exact free lock
  | object key id => trivial

theorem write_holds {call : CalDavCall} (h : locking host now call = some l) (d : Db) (before : committed d) :
    (program host now call).Holds (Stmt.exec collate) Stmt.locks (amongAll committed) (Committed host collate committed l) d
      (fun x => x) [] := by
  rw [program_locking host h]
  unfold LockingCall.program destructure
  split
  · trivial
  · rename_i destructured
    apply holds_check_bind
    intro a opened
    rw [resolveCollectionRow_eq, Program.bind_assoc]
    apply holds_check_bind
    intro given split
    apply holds_bind
    refine holds_mono (resolveId_fixed a given l.permission before fun _ => rfl) ?_
    intro row d w held resolved
    obtain ⟨c, rfl, present⟩ := resolved.fixed.present
    have hlocal : Local collate c.row.key (l.body a c.row) := body_local h a c.row
    have untouched := resolved.fixed.untouched
    have laid (x : Db) (hx : (amongAll committed).same (.collection c.row.key) d x) : SameAt c.row.key (w d) (w x) := by
      rw [untouched, untouched]
      exact Eq.symm hx
    refine holds_mono (Program.holds_run (SameAt c.row.key) (SameBut c.row.key) SameAt.symm SameAt.trans hlocal
      resolved.fixed.held laid) ?_
    rintro answer e writes held ⟨run, lock, same⟩
    rw [untouched] at run
    have here : e.find c.key = some c := Eq.trans same present
    refine ⟨a, given, c, ⟨destructured, opened, split, resolved.resolves, resolved.tenant, here, resolved.permitted, run⟩,
      ?_, lock⟩
    exact Program.run_frame (SameAt c.key) (SameBut c.key) (fun _ => rfl) (SameBut.refl _) SameBut.trans hlocal run

end

/-- One committed write: what it does to the database it commits to, and that
it does this alone, on the collection its id was resolved to; `past` are the
databases that have been committed. -/
structure Serial (host : Host) (collate : JsString → JsString → Bool) (past : List Db) (now : Int) (call : CalDavCall)
    (answer : CalDavAnswer) (d d' : Db) : Prop where
  does : Does host now call d d'
  alone : ∃ l a given id, locking host now call = some l ∧ openContext host l.actor = .ok a ∧
    splitCalendarId (l.options.get "calendarId") = .ok given ∧ ResolvesTo (· ∈ past) a given id ∧
    (l.programOn host id).run (Stmt.exec collate) d = .ok (answer, d') ∧
    (Unambiguous host l d → (program host now call).run (Stmt.exec collate) d = .ok (answer, d'))

section
variable {ι : Type} [DecidableEq ι] {host : Host} {collate : JsString → JsString → Bool}

/-- What holds between commits. -/
structure Sequenced (db : Db) : Prop where
  logged : db.Logged
  consecutive : db.Consecutive

theorem step_sequenced {texts : JsString → Prop} {d d' : Db} (step : Step texts d d') (before : Sequenced d) :
    Sequenced d' :=
  ⟨step_logged step before.logged, step_consecutive step before.consecutive⟩

theorem run_sequenced {safe : Db → CalDavCall → Db → Prop} {db db' : Db} (run : Run host collate safe db db')
    (start : Sequenced db) : Sequenced db' := by
  induction run with
  | start => exact start
  | call before now c allowed ih => exact step_sequenced (after_step host collate now c ih.logged) ih

theorem committed_serial {now : Int} {call : CalDavCall} {l : LockingCall} (h : locking host now call = some l)
    {past : List Db} {answer : CalDavAnswer} {d d' : Db} (before : Sequenced d)
    (ends : ∃ a given c, Ends host collate (· ∈ past) l answer d a given c d') :
    Sequenced d' ∧ Serial host collate past now call answer d d' := by
  obtain ⟨a, given, c, ends⟩ := ends
  have does := body_does h ends.opened (before.logged c.key c ends.present) ends.present ends.permitted ends.run
  obtain ⟨texts, step⟩ := does_step does
  refine ⟨step_sequenced step before, does, l, a, given, _, h, ends.opened, ends.split, ends.resolves, ends_on ends, ?_⟩
  intro sole
  rw [program_locking host h]
  exact ends_itself ends sole

/-- However their statements fall between each other, the writes of a calendar
commit what they would do one after another, in the order of their commits. -/
theorem writes_serialise {tenants : List JsString} {db : Db}
    (made : Run host collate (fun _ _ _ => True) (.empty tenants) db) (calls : ι → Int × CalDavCall)
    (writes : ∀ i, (locking host (calls i).1 (calls i).2).isSome) {h : List (ι × CalDavAnswer)}
    {s : Server ι (Thrown CalDavError) Stmt.Rows Db RowId CalDavAnswer}
    (history : Server.History (Stmt.exec collate) Stmt.locks (fun i => program host (calls i).1 (calls i).2)
      ⟨db, fun _ => none⟩ h s) :
    ∃ past, Server.Replays (fun past i answer d d' => Serial host collate past (calls i).1 (calls i).2 answer d d') db h past
      s.committed ∧ s.committed.Consecutive := by
  have locked (i : ι) : ∃ l, locking host (calls i).1 (calls i).2 = some l := Option.isSome_iff_exists.mp (writes i)
  choose l hl using locked
  obtain ⟨past, replays, _⟩ := Server.history_replays
    (fun past i answer d d' => ∃ a given c, Ends host collate (· ∈ past) (l i) answer d a given c d')
    (fun _ i d before => write_holds (hl i) d before)
    (fun _ _ _ _ _ _ ends after => committed_commits ends after)
    (fun _ i answer d writes held ends => by
      obtain ⟨a, given, c, ends, _⟩ := ends
      exact ⟨a, given, c, ends⟩)
    history
  have start : Sequenced db := by
    apply run_sequenced made
    constructor
    · intro key c found
      cases found
    · intro key c found
      cases found
  obtain ⟨serial, sequenced⟩ := Server.replays_mono replays start fun _ i answer d d' before ends =>
    committed_serial (hl i) before ends
  exact ⟨past, serial, sequenced.consecutive⟩

end

/-- Two events that Ada puts into one calendar. -/
def writesBoth : Bool → CalDavCall
  | false => createInWork "a" (sampleEvent (js "SUMMARY:a"))
  | true => createInWork "b" (sampleEvent (js "SUMMARY:b"))

def revisionOfBoth : Except (Thrown CalDavError) (Option (Option Nat)) := do
  let (_, d) ← (program asciiHost 0 (writesBoth true)).run (Stmt.exec fun _ _ => true) (sampleDb [createWork])
  return ((program asciiHost 0 (writesBoth false)).interrupted (Stmt.exec fun _ _ => true) Stmt.locks
    (sampleDb [createWork]) d).map fun ends => ends.toOption.bind fun x =>
      (x.2.find ⟨js "acme", js "ada", js "work"⟩).map (·.row.revision)

/-- The second commits between the lookup of the first and its lock. -/
theorem writes_serialise_both :
    ∃ first second past d, Server.Replays (fun past i answer d d' =>
        Serial asciiHost (fun _ _ => true) past 0 (writesBoth i) answer d d')
      (sampleDb [createWork]) [(true, second), (false, first)] past d ∧ d.Consecutive ∧
      (d.find ⟨js "acme", js "ada", js "work"⟩).map (·.row.revision) = some 2 := by
  have runs : revisionOfBoth = .ok (some (some 2)) := by decide +kernel
  obtain ⟨⟨second, d⟩, between, around⟩ := bind_eq_ok.mp runs
  obtain ⟨ends, around, ended⟩ := Option.map_eq_some_iff.mp (Except.ok.inj around)
  obtain ⟨first, f, rfl⟩ : ∃ first f, ends = .ok (first, f) := by
    cases ends with
    | ok x => exact ⟨x.1, x.2, rfl⟩
    | error e => cases ended
  obtain ⟨s, before, last⟩ := Server.history_between Stmt.locks (fun i => program asciiHost 0 (writesBoth i))
    (show false ≠ true by decide) between around
  have made : Run asciiHost (fun _ _ => true) (fun _ _ _ => True) (.empty [js "acme"]) (sampleDb [createWork]) :=
    .call .start 0 createWork trivial
  obtain ⟨past, replays, consecutive⟩ := writes_serialise made (fun i => (0, writesBoth i)) (fun i => by cases i <;> rfl)
    (.commits before last)
  exact ⟨first, second, past, f, replays, consecutive, ended⟩

def createWorkOf (user : String) : CalDavCall :=
  .createCalendarCollection (sampleActor user) (sampleOptions [("collectionId", js "work")])

/-- Carol shares her calendar with Bob, and Bob writes into his own of the same name. -/
def sharesOrWrites : Bool → CalDavCall
  | false => .setCalendarAcl (sampleActor "carol")
      (sampleOptions [("calendarId", js "work"), ("delegateUserId", js "bob")])
  | true => .createCalendarObject (sampleActor "bob")
      (sampleOptions [("calendarId", js "work"), ("objectId", js "a"), ("ical", sampleEvent (js "SUMMARY:a"))])

def writesAroundOrAfter : Except (Thrown CalDavError) (Option Bool × Bool) := do
  let (_, d) ← (program asciiHost 0 (sharesOrWrites false)).run (Stmt.exec fun _ _ => true)
    (sampleDb [createWorkOf "bob", createWorkOf "carol"])
  return (((program asciiHost 0 (sharesOrWrites true)).interrupted (Stmt.exec fun _ _ => true) Stmt.locks
      (sampleDb [createWorkOf "bob", createWorkOf "carol"]) d).map (·.toBool),
    ((program asciiHost 0 (sharesOrWrites true)).run (Stmt.exec fun _ _ => true) d).toBool)

/-- Carol commits between Bob's lookup and his lock. After her, Bob alone would
be told that the id is ambiguous. -/
theorem looked_up_before :
    ¬ ∀ (db : Db) (calls : Bool → Int × CalDavCall) (h : List (Bool × CalDavAnswer))
      (s : Server Bool (Thrown CalDavError) Stmt.Rows Db RowId CalDavAnswer),
      Run asciiHost (fun _ _ => true) (fun _ _ _ => True) (.empty [js "acme"]) db →
      (∀ i, (locking asciiHost (calls i).1 (calls i).2).isSome) →
      Server.History (Stmt.exec fun _ _ => true) Stmt.locks (fun i => program asciiHost (calls i).1 (calls i).2)
        ⟨db, fun _ => none⟩ h s →
      ∃ past, Server.Replays (fun _ i answer d d' =>
        (program asciiHost (calls i).1 (calls i).2).run (Stmt.exec fun _ _ => true) d = .ok (answer, d')) db h past
        s.committed := by
  intro claim
  have runs : writesAroundOrAfter = .ok (some true, false) := by decide +kernel
  obtain ⟨⟨shared, d⟩, shares, runs⟩ := bind_eq_ok.mp runs
  obtain ⟨around, ambiguous⟩ := Prod.mk.inj (Except.ok.inj runs)
  obtain ⟨ends, around, ended⟩ := Option.map_eq_some_iff.mp around
  obtain ⟨⟨written, f⟩, rfl⟩ := eq_ok_of_toBool ended
  obtain ⟨s, before, last⟩ := Server.history_between Stmt.locks (fun i => program asciiHost 0 (sharesOrWrites i))
    (show true ≠ false by decide) shares around
  have made : Run asciiHost (fun _ _ => true) (fun _ _ _ => True) (.empty [js "acme"])
      (sampleDb [createWorkOf "bob", createWorkOf "carol"]) :=
    .call (.call .start 0 (createWorkOf "bob") trivial) 0 (createWorkOf "carol") trivial
  obtain ⟨past, replays⟩ := claim _ (fun i => (0, sharesOrWrites i)) _ _ made (fun i => by cases i <;> rfl)
    (.commits before last)
  obtain ⟨e, _, _, replays, alone⟩ := Server.replays_last (h := [(false, shared)]) replays
  obtain ⟨_, _, _, begins, first⟩ := Server.replays_last (h := []) replays
  rw [Server.replays_nil begins] at first
  obtain rfl : d = e := (Prod.mk.inj (Except.ok.inj (shares.symm.trans first))).2
  rw [alone] at ambiguous
  cases ambiguous

end GuloGulo.CalDav.Postgres
