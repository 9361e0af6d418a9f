import GuloGulo.CalDav.PostgresSync
import GuloGulo.Sql.Interleaving

/-!
# Syncs among writers

Object writes and syncs, each a transaction of its own, one statement at a
time. A writer locks the collection row before anything else, so a collection
only ever changes by whole writes. A sync locks nothing: it reads the revision
first, and everything it reads later is at least as new.
-/

namespace GuloGulo.CalDav.Postgres
open Js Data Sql
open Data.ChangeLog (Snapshot Delta applyResponse applyResponse_eq_patch patch)
open Sql.Program (check holds_mono holds_bind holds_send_bind holds_check_bind)

inductive RowId where
  | collection (key : TokenScope)
  | object (key : TokenScope) (objectId : JsString)

/-- The rows a statement locks: those it selects `FOR UPDATE`, those it
writes, and the collection a new row references. -/
def Stmt.locks : Stmt → Db → List RowId
  | selectCollection key true, db => if (db.find key).isSome then [.collection key] else []
  | selectObject key objectId true, _ => [.object key objectId]
  | insertCollection _ columns, _ => [.collection columns.key]
  | updateAcl _ _ key, _ | bumpRevision _ key, _ | deleteCollection key, _ | insertChange key _, _ =>
    [.collection key]
  | insertObject _ key objectId _ _ _, _ => [.collection key, .object key objectId]
  | updateObject _ _ _ key objectId, _ | deleteObject key objectId, _ => [.object key objectId]
  | _, _ => []

/-- Any number of writes. -/
def Grows : Collection → Collection → Prop :=
  Relation.ReflTransGen fun c c' => ∃ now id object, Written now c c' id object

theorem grows_follows {m : Snapshot JsString (JsString × JsString)} {r : Nat} {c c' : Collection}
    (h : Grows c c') (follows : Follows m r c) : Follows m r c' := by
  induction h with
  | refl => exact follows
  | tail _ step ih =>
    obtain ⟨_, _, _, written⟩ := step
    exact written_follows written ih

theorem grows_logged {c c' : Collection} (h : Grows c c') (logged : c.Logged) : c'.Logged := by
  induction h with
  | refl => exact logged
  | tail _ step ih =>
    obtain ⟨_, _, _, written⟩ := step
    exact written_logged written ih

theorem grows_revision {c c' : Collection} (h : Grows c c') : c.row.revision ≤ c'.row.revision := by
  induction h with
  | refl => exact Nat.le_refl _
  | tail _ step ih =>
    obtain ⟨_, _, _, written⟩ := step
    rw [written.revision]
    exact Nat.le_succ_of_le ih

/-- No collection comes or goes; those there are grow. -/
structure Advance (d d' : Db) : Prop where
  absent : ∀ key, d.find key = none → d'.find key = none
  grows : ∀ key c, d.find key = some c → ∃ c', d'.find key = some c' ∧ Grows c c'

theorem Advance.refl (d : Db) : Advance d d :=
  ⟨fun _ h => h, fun _ c h => ⟨c, h, .refl⟩⟩

theorem Advance.trans {d e f : Db} (h : Advance d e) (h' : Advance e f) : Advance d f := by
  refine ⟨fun key hk => h'.absent key (h.absent key hk), ?_⟩
  intro key c hc
  obtain ⟨c', hc', grows⟩ := h.grows key c hc
  obtain ⟨c'', hc'', grows'⟩ := h'.grows key c' hc'
  exact ⟨c'', hc'', grows.trans grows'⟩

theorem advance_logged {d d' : Db} (h : Advance d d') (logged : d.Logged) : d'.Logged := by
  intro key c' hc'
  cases hc : d.find key with
  | none => rw [h.absent key hc] at hc'; cases hc'
  | some c =>
    obtain ⟨c'', hc'', grows⟩ := h.grows key c hc
    cases hc'.symm.trans hc''
    exact grows_logged grows (logged key c hc)

/-- What a lock on a row protects; a collection's row stands for all of it. -/
def SameRow : RowId → Db → Db → Prop
  | .collection key, d, d' => d'.find key = d.find key
  | .object _ _, _, _ => True

def rely (commit : Db → Db → Prop) (refl : ∀ d, commit d d)
    (trans : ∀ {d e f}, commit d e → commit e f → commit d f) : Rely Db RowId where
  commit := commit
  same := SameRow
  commit_refl := refl
  commit_trans := trans
  same_refl
    | .collection _, _ => rfl
    | .object _ _, _ => trivial
  same_trans {k _ _ _} h h' :=
    match k, h, h' with
    | .collection _, h, h' => h'.trans h
    | .object _ _, _, _ => trivial

/-- Among writers. -/
def amongWriters : Rely Db RowId := rely Advance Advance.refl Advance.trans

/-- While nothing is committed. -/
def undisturbed : Rely Db RowId := rely Eq Eq.refl Eq.trans

section
variable {host : Host} {collate : JsString → JsString → Bool} {now : Int} {actor options : JsValue}

/-- The row is that of a collection as it is, and nobody else can change it. -/
structure Locked (start : Db) (row : CollectionRow) (d : Db) (writes : Db → Db) (held : List RowId) :
    Prop where
  advance : Advance start d
  present : ∃ c, row = c.row ∧ d.find c.key = some c
  untouched : ∀ x, writes x = x
  held : RowId.collection row.key ∈ held

theorem Locked.stable {start d d' : Db} {row : CollectionRow} {writes : Db → Db} {held : List RowId}
    (h : Locked start row d writes held) (commit : amongWriters.Allows held d d') :
    Locked start row d' writes held := by
  obtain ⟨c, rfl, hc⟩ := h.present
  refine ⟨h.advance.trans commit.1, ⟨c, rfl, ?_⟩, h.untouched, h.held⟩
  exact (commit.2 _ h.held).trans hc

theorem selectForUpdate_holds {start d : Db} {writes : Db → Db} {held : List RowId} (key : TokenScope)
    (advance : Advance start d) (untouched : ∀ x, writes x = x) :
    (do
      let rows ← send (.selectCollection key true)
      return rows.head? : CalDavProgram (Option CollectionRow)).Holds (Stmt.exec collate) Stmt.locks
      amongWriters (fun found d w l => ∀ row ∈ found, Locked start row d w l) d writes held := by
  apply holds_send_bind
  intro d' hd r v hv
  rw [untouched d'] at hv ⊢
  cases hv
  intro d'' hd'' row hrow
  obtain ⟨c, hc, rfl⟩ : ∃ c, d'.find key = some c ∧ c.row = row := by
    cases hf : d'.find key with
    | none => rw [hf] at hrow; cases hrow
    | some c => rw [hf] at hrow; exact ⟨c, rfl, Option.some.inj hrow⟩
  have hkey : c.key = key := key_of_find hc
  have hlock : RowId.collection c.row.key ∈ Stmt.locks (.selectCollection key true) d' ++ held := by
    apply List.mem_append_left
    show _ ∈ (if (d'.find key).isSome then [RowId.collection key] else [])
    rw [hc]
    exact List.mem_singleton.mpr (congrArg RowId.collection hkey)
  refine Locked.stable ⟨advance.trans hd.1, ⟨c, rfl, hkey ▸ hc⟩, ?_, hlock⟩ hd''
  exact untouched

theorem findCollectionRow_locks {start : Db} (a : CalDavActor) (id : CalendarId) {writes : Db → Db}
    {held : List RowId} (untouched : ∀ x, writes x = x) :
    (findCollectionRow a id true).Holds (Stmt.exec collate) Stmt.locks amongWriters
      (fun found d w l => ∀ row ∈ found, Locked start row d w l) start writes held := by
  unfold findCollectionRow
  split
  · exact selectForUpdate_holds _ (.refl start) untouched
  · apply holds_send_bind
    intro d' hd r v hv
    rw [untouched d'] at hv
    cases hv
    apply holds_check_bind
    intro _ _
    split
    · exact selectForUpdate_holds _ hd.1 untouched
    · intro d'' _ row hrow
      cases hrow

theorem resolveCollectionRow_locks {start : Db} {a : CalDavActor} {id : JsValue} {permission : Permission}
    {writes : Db → Db} {held : List RowId} (untouched : ∀ x, writes x = x) :
    (resolveCollectionRow a id true permission).Holds (Stmt.exec collate) Stmt.locks amongWriters
      (Locked start) start writes held := by
  apply holds_check_bind
  intro id' _
  apply holds_bind
  refine holds_mono (findCollectionRow_locks a id' untouched) ?_
  intro found d w l hfound
  cases found with
  | none => trivial
  | some row =>
    apply holds_check_bind
    intro _ _ d' hd
    exact (hfound row rfl).stable hd

theorem destructure_holds {α : Type} {next : Unit → CalDavProgram α} {commits : Rely Db RowId}
    {post : α → Db → (Db → Db) → List RowId → Prop} {d : Db} {writes : Db → Db} {held : List RowId}
    (h : (next ()).Holds (Stmt.exec collate) Stmt.locks commits post d writes held) :
    (destructure options >>= next).Holds (Stmt.exec collate) Stmt.locks commits post d writes held := by
  unfold destructure
  split
  · trivial
  · exact h

/-- Two databases with the same collection. -/
def SameAt (key : TokenScope) (d d' : Db) : Prop := d.find key = d'.find key

theorem SameAt.symm {key : TokenScope} {d d' : Db} (h : SameAt key d d') : SameAt key d' d := Eq.symm h

/-- Only that collection differs. -/
def SameBut (key : TokenScope) (d d' : Db) : Prop :=
  d'.tenants = d.tenants ∧ ∀ k, k ≠ key → d'.find k = d.find k

theorem SameBut.refl (key : TokenScope) (d : Db) : SameBut key d d := ⟨rfl, fun _ _ => rfl⟩

theorem SameBut.trans {key : TokenScope} {d e f : Db} (h : SameBut key d e) (h' : SameBut key e f) :
    SameBut key d f :=
  ⟨h'.1.trans h.1, fun k hk => (h'.2 k hk).trans (h.2 k hk)⟩

theorem sameAt_update {key : TokenScope} {d e : Db} (h : SameAt key d e) (f : Collection → Collection)
    (hf : ∀ c, (f c).key = c.key) :
    SameAt key (d.update key f hf) (e.update key f hf) ∧ SameBut key e (e.update key f hf) := by
  refine ⟨?_, rfl, ?_⟩
  · rw [SameAt, find_update, find_update, if_pos rfl, if_pos rfl, h]
  · intro k hk
    rw [find_update, if_neg hk]

abbrev LocalStmt (collate : JsString → JsString → Bool) (key : TokenScope) : Stmt → Prop :=
  Program.LocalStmt (Stmt.exec collate) (SameAt key) (SameBut key)

abbrev Local (collate : JsString → JsString → Bool) (key : TokenScope) {α : Type} :
    CalDavProgram α → Prop :=
  Program.Local (Stmt.exec collate) (SameAt key) (SameBut key)

theorem selectObject_local (key : TokenScope) (id : JsString) (forUpdate : Bool) :
    LocalStmt collate key (.selectObject key id forUpdate) := by
  intro d e r d' h hd
  have same : d.find key = e.find key := h
  cases hd
  exact ⟨e, by simp only [Stmt.exec, same], h, .refl key e⟩

theorem insertObject_local (key : TokenScope) (id uid etag icalData : JsString) :
    LocalStmt collate key (.insertObject now key id uid etag icalData) := by
  intro d e r d' h hd
  have same : d.find key = e.find key := h
  simp only [Stmt.exec, same] at hd ⊢
  obtain ⟨uid', huid, hd⟩ := bind_eq_ok.mp hd
  obtain ⟨icalData', hical, hd⟩ := bind_eq_ok.mp hd
  simp only [huid, hical, ok_bind]
  split at hd
  · cases hd
    exact ⟨_, rfl, sameAt_update h _ _⟩
  · cases hd

theorem updateObject_local (key : TokenScope) (id etag icalData : JsString) :
    LocalStmt collate key (.updateObject now etag icalData key id) := by
  intro d e r d' h hd
  simp only [Stmt.exec] at hd ⊢
  obtain ⟨icalData', hical, hd⟩ := bind_eq_ok.mp hd
  simp only [hical, ok_bind]
  have same := sameAt_update h (fun c => { c with
    objects := c.objects.modify id (fun o => { o with etag, icalData := icalData', updatedAt := now })
      fun _ => rfl }) fun _ => rfl
  cases hd
  refine ⟨_, ?_, same⟩
  rw [show _ = _ from same.1]
  rfl

theorem deleteObject_local (key : TokenScope) (id : JsString) :
    LocalStmt collate key (.deleteObject key id) := by
  intro d e r d' h hd
  cases hd
  exact ⟨_, rfl, sameAt_update h _ _⟩

theorem bumpRevision_local (key : TokenScope) : LocalStmt collate key (.bumpRevision now key) := by
  intro d e r d' h hd
  have same := sameAt_update h (Collection.bump now) fun _ => rfl
  cases hd
  refine ⟨e.update key (Collection.bump now) fun _ => rfl, ?_, same⟩
  have rows : ((e.update key (Collection.bump now) fun _ => rfl).find key).toList.map (·.row.revision) =
      ((d.update key (Collection.bump now) fun _ => rfl).find key).toList.map (·.row.revision) := by
    rw [show _ = _ from same.1]
  exact congrArg (fun rows => Except.ok (rows, e.update key (Collection.bump now) fun _ => rfl)) rows

theorem insertChange_local (key : TokenScope) (change : ChangeRow) :
    LocalStmt collate key (.insertChange key change) := by
  intro d e r d' h hd
  have same : d.find key = e.find key := h
  simp only [Stmt.exec, same] at hd ⊢
  split at hd
  · cases hd
    exact ⟨_, rfl, sameAt_update h _ _⟩
  · cases hd

theorem bumpRevision_program_local (key : TokenScope) (id : JsString) (uid etag : Option JsString)
    (deleted : Bool) : Local collate key (bumpRevision now key id uid etag deleted) :=
  Program.local_send_bind (bumpRevision_local key) fun _ =>
    Program.local_bind (Program.local_check _) fun _ =>
      Program.local_send_bind (insertChange_local key _) fun _ => trivial

theorem lockObject_local (key : TokenScope) (id : JsString) (ifMatch : JsValue) (operation : String) :
    Local collate key (lockObject key id ifMatch operation) := by
  refine Program.local_send_bind (selectObject_local key id true) fun found => ?_
  split
  · exact Program.local_check _
  · exact Program.local_bind (Program.local_check _) fun _ => trivial

theorem createInCollection_local (a : CalDavActor) (row : CollectionRow) :
    Local collate row.key (createInCollection host now options a row) :=
  Program.local_bind (Program.local_check _) fun _ =>
    Program.local_send_bind (selectObject_local _ _ _) fun _ =>
      Program.local_bind (Program.local_check _) fun _ =>
        Program.local_bind (Program.local_check _) fun _ =>
          Program.local_send_bind (insertObject_local _ _ _ _ _) fun _ =>
            Program.local_bind (bumpRevision_program_local _ _ _ _ _) fun _ =>
              Program.local_bind (Program.local_check _) fun _ => trivial

theorem updateInCollection_local (a : CalDavActor) (row : CollectionRow) :
    Local collate row.key (updateInCollection host now options a row) :=
  Program.local_bind (Program.local_check _) fun _ =>
    Program.local_bind (lockObject_local _ _ _ _) fun _ =>
      Program.local_bind (Program.local_check _) fun _ =>
        Program.local_bind (Program.local_check _) fun _ =>
          Program.local_send_bind (updateObject_local _ _ _ _) fun _ =>
            Program.local_bind (bumpRevision_program_local _ _ _ _ _) fun _ =>
              Program.local_bind (Program.local_check _) fun _ => trivial

variable (now options) in
theorem deleteInCollection_local (row : CollectionRow) :
    Local collate row.key (deleteInCollection now options row) :=
  Program.local_bind (Program.local_check _) fun _ =>
    Program.local_bind (lockObject_local _ _ _ _) fun _ =>
      Program.local_send_bind (deleteObject_local _ _) fun _ =>
        Program.local_bind (bumpRevision_program_local _ _ _ _ _) fun _ => trivial

/-- What a transaction may do when it commits. -/
def Commits {α : Type} (_ : α) : Db → (Db → Db) → List RowId → Prop := amongWriters.Commits

/-- One write of one collection, laid over what the collection is. -/
theorem commits_written {α : Type} {answer : α} {c c' : Collection} {id : JsString} {object : Option ObjectRow}
    {d : Db} {writes : Db → Db} {held : List RowId} (hc : d.find c.key = some c)
    (written : Written now c c' id object) (here : (writes d).find c.key = some c')
    (elsewhere : SameBut c.key d (writes d)) (lock : RowId.collection c.key ∈ held) :
    Commits answer d writes held := by
  refine ⟨⟨?_, ?_⟩, ?_⟩
  · intro key hkey
    have hne : key ≠ c.key := by
      rintro rfl
      rw [hc] at hkey
      cases hkey
    rw [elsewhere.2 key hne, hkey]
  · intro key e he
    by_cases hkey : key = c.key
    · subst hkey
      obtain rfl : e = c := Option.some.inj (he.symm.trans hc)
      exact ⟨c', here, .single ⟨now, id, object, written⟩⟩
    · exact ⟨e, (elsewhere.2 key hkey).trans he, .refl⟩
  · intro k hk
    cases k with
    | object key id => trivial
    | collection key =>
      apply elsewhere.2
      rintro rfl
      exact hk lock

/-- From the lock on, a writer is alone with its collection. -/
theorem locked_holds {α : Type} {p : CollectionRow → CalDavProgram α} (hlocal : ∀ row, Local collate row.key (p row))
    (alone : ∀ c d d' a, c.Logged → d.find c.key = some c → (p c.row).run (Stmt.exec collate) d = .ok (a, d') →
      ∃ now c' id object, Placed d d' c.key (some c') ∧ Written now c c' id object)
    {start : Db} (logged : start.Logged) {row : CollectionRow} {d : Db} {writes : Db → Db} {held : List RowId}
    (h : Locked start row d writes held) :
    (p row).Holds (Stmt.exec collate) Stmt.locks amongWriters Commits d writes held := by
  obtain ⟨c, rfl, hc⟩ := h.present
  have hlogged : c.Logged := advance_logged h.advance logged _ _ hc
  have laid (x : Db) (hx : amongWriters.same (.collection c.row.key) d x) :
      SameAt c.row.key d (writes x) ∧ SameBut c.row.key x (writes x) := by
    rw [h.untouched x]
    exact ⟨Eq.symm hx, .refl _ x⟩
  refine holds_mono (Program.holds_serial (SameAt c.row.key) (SameBut c.row.key) SameAt.symm SameBut.trans
    (hlocal c.row) h.held laid) ?_
  rintro a d' w l ⟨s', hrun, hlock, hsame, hend⟩
  obtain ⟨now, c', id, object, placed, written⟩ := alone c d s' a hlogged hc hrun
  obtain ⟨here, elsewhere⟩ := hend d' rfl
  exact commits_written (hsame.trans hc) written (here.symm.trans placed.here) elsewhere hlock

theorem openLocked_holds {α : Type} {id : JsValue} {permission : Permission}
    {next : CalDavActor → CollectionRow → CalDavProgram α} {post : α → Db → (Db → Db) → List RowId → Prop}
    {start : Db} (h : ∀ a row d writes held, Locked start row d writes held →
      (next a row).Holds (Stmt.exec collate) Stmt.locks amongWriters post d writes held) :
    (do
      destructure options
      let a ← check (openContext host actor)
      let row ← resolveCollectionRow a id true permission
      next a row : CalDavProgram α).Holds (Stmt.exec collate) Stmt.locks amongWriters post start (fun x => x) [] := by
  apply destructure_holds
  apply holds_check_bind
  intro a _
  apply holds_bind
  exact holds_mono (resolveCollectionRow_locks fun _ => rfl) (h a)

def IsObjectWrite : CalDavCall → Prop
  | .createCalendarObject _ _ | .updateCalendarObject _ _ | .deleteCalendarObject _ _ => True
  | _ => False

theorem writer_holds {call : CalDavCall} (write : IsObjectWrite call) {start : Db} (logged : start.Logged) :
    (program host now call).Holds (Stmt.exec collate) Stmt.locks amongWriters Commits start (fun x => x) [] := by
  cases call with
  | createCalendarObject actor options =>
    apply Program.holds_map
    refine openLocked_holds fun a row d writes held h => ?_
    refine locked_holds (createInCollection_local a) ?_ logged h
    intro c d d' view hlogged hc hrun
    obtain ⟨c', row, metadata, accepted, _⟩ := createInCollection_accepted hlogged hc hrun
    exact ⟨now, c', row.objectId, some row, accepted.placed, accepted.written⟩
  | updateCalendarObject actor options =>
    apply Program.holds_map
    refine openLocked_holds fun a row d writes held h => ?_
    refine locked_holds (updateInCollection_local a) ?_ logged h
    intro c d d' view hlogged hc hrun
    obtain ⟨c', row, metadata, _, accepted, _⟩ := updateInCollection_accepted hlogged hc hrun
    exact ⟨now, c', row.objectId, some row, accepted.placed, accepted.written⟩
  | deleteCalendarObject actor options =>
    apply Program.holds_map
    refine openLocked_holds fun a row d writes held h => ?_
    refine locked_holds (deleteInCollection_local now options) ?_ logged h
    intro c d d' result hlogged hc hrun
    obtain ⟨c', id, _, placed, written, _⟩ := deleteInCollection_written hlogged hc hrun
    exact ⟨now, c', id, none, placed, written⟩
  | _ => cases write

end

end GuloGulo.CalDav.Postgres
