import GuloGulo.Backup.StoredArchives
import GuloGulo.Lifecycle.Wiring

/-!
# The archives of a purged account

What `deleteAccountArchives` does for an account that the lifecycle store has
registered: its archives are gone just if both of its names are names of the
adapter, which are fewer than those that can be registered.
-/

namespace GuloGulo.Backup
open Js Data

/-- An account that `registerAccount` accepts. -/
def Registrable (tenantId userId : JsString) : Prop :=
  ∃ (cfg : Lifecycle.LifecycleConfig) (env : Lifecycle.Ambient) (input : JsValue)
    (store : Lifecycle.AccountLifecycleStore) (operation : Lifecycle.AccountOperation),
    (Lifecycle.registerAccount cfg env input store).1 = .ok operation ∧ operation.account.tenantId = tenantId ∧
      operation.account.userId = userId

namespace BackupAdapter

/-- The call resolves, the account's archives are gone, and all others are as they were,
with every file outside the account's directory. -/
structure Purges (adapter : BackupAdapter) (tenantId userId : JsString) (before : Disk) : Prop where
  resolves : ∃ deleted, (adapter.deleteAccountArchives tenantId userId before).1 = .ok deleted
  removed : Removed (adapter.account tenantId userId) before (adapter.deleteAccountArchives tenantId userId before).2
  listed : (adapter.listArchives tenantId (some userId) (adapter.deleteAccountArchives tenantId userId before).2).1 = .ok []
  gone : ∀ archiveId, ∃ e, (adapter.readManifest ⟨tenantId, some userId, archiveId⟩
    (adapter.deleteAccountArchives tenantId userId before).2).1 = .error e
  lists : ∀ tenantId' userId', (tenantId', userId') ≠ (tenantId, some userId) →
    SameNames (adapter.listArchives tenantId' userId' before).1
      (adapter.listArchives tenantId' userId' (adapter.deleteAccountArchives tenantId userId before).2).1
  manifests : ∀ location, (location.tenantId, location.userId) ≠ (tenantId, some userId) →
    (adapter.readManifest location before).1 =
      (adapter.readManifest location (adapter.deleteAccountArchives tenantId userId before).2).1
  entries : ∀ location path, (location.tenantId, location.userId) ≠ (tenantId, some userId) →
    (adapter.readEntry location path before).1 =
      (adapter.readEntry location path (adapter.deleteAccountArchives tenantId userId before).2).1

/-- What the promise of the adapter's call is fulfilled with, if it is. -/
def settled : Except StorageError (List JsString) → Option JsValue
  | .ok deletedArchiveIds =>
    some (.object [(js "deletedArchiveIds", .array (deletedArchiveIds.map .string))])
  | .error _ => none

section
variable {adapter : BackupAdapter} {disk after : Disk} {tenantId userId : JsString} {location : StoredArchiveLocation}

/-- What is read of an entry depends on what is on the way to it. -/
theorem readEntry_congr {path : JsString} (h : Safe location → ∀ p target, adapter.directory location <+: target →
    p <+: target → disk.node p = after.node p) :
    (adapter.readEntry location path disk).1 = (adapter.readEntry location path after).1 := by
  cases named : adapter.archiveDirectory location.tenantId location.userId location.archiveId with
  | error e =>
    unfold readEntry
    rw [named]
    rfl
  | ok dir =>
    obtain ⟨safe, rfl⟩ := archiveDirectory_eq_ok.mp named
    cases resolved : resolveWithinDirectory (adapter.content location) path with
    | error e =>
      have resolved : resolveWithinDirectory (adapter.directory location ++ [contentDirectory]) path = .error e := resolved
      unfold readEntry
      rw [named, Eff.lift_ok_bind, resolved]
      rfl
    | ok target =>
      have below := (resolveWithinDirectory_eq_ok.mp resolved).2
      have same := FileTree.readFile_congr fun p above => h safe p target ((List.prefix_append _ _).trans below) above
      by_cases valid : validPath target = true
      · rw [readEntry_safe safe resolved valid, readEntry_safe safe resolved valid, same]
      · have resolved : resolveWithinDirectory (adapter.directory location ++ [contentDirectory]) path = .ok target := resolved
        have fails (disk : Disk) : readFile target disk = (.error .invalidPath, disk) := by
          show read target (fun disk => disk.readFile target) disk = _
          rw [read, if_neg valid]
        unfold readEntry
        rw [named, Eff.lift_ok_bind, resolved, Eff.lift_ok_bind, bind_of_error (fails disk), bind_of_error (fails after)]

/-- The directory of the account is gone, and all else is left. -/
theorem deleteAccountArchives_ok (layout : adapter.Layout disk) (tenant : pathSegmentPattern tenantId)
    (user : pathSegmentPattern userId) : ∃ deleted after,
      adapter.deleteAccountArchives tenantId userId disk = (.ok deleted, after) ∧
        Removed (adapter.account tenantId userId) disk after := by
  obtain ⟨deleted, run⟩ := deleteAccountArchives_eq adapter disk tenant user
  have free : ¬ disk.blocked (adapter.account tenantId userId) = true := by
    rw [FileTree.blocked_iff]
    rintro ⟨p, content, above, _, there⟩
    have short := above.length_le
    rw [length_account] at short
    exact layout.directories p (List.prefix_or_prefix_of_prefix above (List.prefix_append _ _)) (by omega) content there
  have done : FileTree.rm disk (adapter.account tenantId userId) = .ok (disk.remove (adapter.account tenantId userId)) := by
    rw [FileTree.rm, if_neg free]
  have removed : rm (adapter.account tenantId userId) disk = (.ok (), disk.remove (adapter.account tenantId userId)) :=
    change_eq_ok (valid_account tenant user) done
  refine ⟨deleted, disk.remove (adapter.account tenantId userId), ?_, fun q => FileTree.node_remove account_ne_nil⟩
  rw [run, bind_of_ok removed]
  rfl

theorem account_inj {tenantId' userId' : JsString} {path : List JsString}
    (h : adapter.account tenantId userId <+: path) (h' : adapter.account tenantId' userId' <+: path) :
    tenantId = tenantId' ∧ userId = userId' := by
  have same : adapter.account tenantId userId = adapter.account tenantId' userId' :=
    (List.prefix_of_prefix_length_le h h' (by simp)).eq_of_length (by simp)
  unfold account at same
  have names := List.append_cancel_left same
  cases names
  exact ⟨rfl, rfl⟩

/-- Nothing is gone that another account reads. -/
theorem other_account {tenantId' : JsString} {userId' : Option JsString} (tenant : pathSegmentPattern tenantId')
    (user : pathSegmentPattern (userId'.getD tenantScopeSegment)) (other : (tenantId', userId') ≠ (tenantId, some userId))
    (removed : Removed (adapter.account tenantId userId) disk after) {p target : List JsString}
    (below : adapter.account tenantId' (userId'.getD tenantScopeSegment) <+: target) (above : p <+: target) :
    disk.node p = after.node p := by
  rw [removed, if_neg]
  intro gone
  obtain ⟨rfl, same⟩ := account_inj (gone.trans above) below
  obtain ⟨name, rfl, _⟩ := user_iff.mp user
  exact other (by rw [same]; rfl)

theorem purges_of_safe (layout : adapter.Layout disk) (tenant : pathSegmentPattern tenantId)
    (user : pathSegmentPattern userId) : adapter.Purges tenantId userId disk := by
  obtain ⟨deleted, after, run, removed⟩ := deleteAccountArchives_ok layout tenant user
  have layout' : adapter.Layout after := layout_removed layout removed
  have absent {path : List JsString} (below : adapter.account tenantId userId <+: path) : after.node path = none := by
    rw [removed, if_pos below]
  constructor
  · exact ⟨deleted, by rw [run]⟩
  · rw [run]
    exact removed
  · rw [run]
    obtain ⟨names, listed, inside⟩ := listArchives_names adapter after (some userId) tenant user
    have none' : names = [] := by
      apply List.eq_nil_iff_forall_not_mem.mpr
      intro name there
      exact (inside name).mp there (absent (List.prefix_append _ _))
    rw [listed, none']
  · intro archiveId
    rw [run]
    cases found : (adapter.readManifest ⟨tenantId, some userId, archiveId⟩ after).1 with
    | error e => exact ⟨e, rfl⟩
    | ok manifest =>
      by_cases safe : Safe ⟨tenantId, some userId, archiveId⟩
      · have there := (readManifest_eq_ok safe).mp found
        rw [absent] at there
        · cases there
        · exact (List.prefix_append _ _).trans (List.prefix_append _ _)
      · obtain ⟨e, fails⟩ := readManifest_refused adapter safe
        rw [fails] at found
        cases found
  · intro tenantId' userId' other
    rw [run]
    apply sameNames_of_nodes
    intro tenant' user' name
    rw [other_account tenant' user' other removed (List.prefix_append _ _) List.prefix_rfl]
  · intro location other
    rw [run]
    by_cases safe : Safe location
    · apply readManifest_congr safe layout layout'
      exact other_account safe.tenant (user_iff.mpr safe.user) other removed
        ((List.prefix_append _ _).trans (List.prefix_append _ _)) List.prefix_rfl
    · obtain ⟨e, fails⟩ := readManifest_refused adapter safe
      rw [fails, fails]
  · intro location path other
    rw [run]
    apply readEntry_congr
    intro safe p target below above
    exact other_account safe.tenant (user_iff.mpr safe.user) other removed ((List.prefix_append _ _).trans below) above

/-- An account's archives are purged just if its names are names of the adapter. -/
theorem purges_iff (layout : adapter.Layout disk) :
    adapter.Purges tenantId userId disk ↔ pathSegmentPattern tenantId ∧ pathSegmentPattern userId := by
  constructor
  · intro purges
    by_contra refused
    obtain ⟨e, fails⟩ := deleteAccountArchives_refused adapter refused
    obtain ⟨deleted, resolved⟩ := purges.resolves
    rw [fails] at resolved
    cases resolved
  · rintro ⟨tenant, user⟩
    exact purges_of_safe layout tenant user

/-- The purge that waits for the adapter goes on, and is not rejected, just if
the names are names of the adapter. -/
theorem purge_goes_on_iff {ι : Type} {cfg : Lifecycle.WiringConfig} {w : Lifecycle.World ι} {i : ι}
    {env : Lifecycle.Ambient} {task : Lifecycle.PurgeTask} (layout : adapter.Layout disk) (given : cfg.backupAdapter)
    (waits : w.purges i = some ⟨task, .adapter .backups⟩) :
    w.turn cfg (.settled i env (settled (adapter.deleteAccountArchives task.scope.tenantId task.scope.userId disk).1)) ≠
      some (.reject i) ↔ pathSegmentPattern task.scope.tenantId ∧ pathSegmentPattern task.scope.userId := by
  have loops (task : Lifecycle.PurgeTask) : Lifecycle.PurgeTask.loop cfg i env task ≠ .reject i := by
    unfold Lifecycle.PurgeTask.loop
    split
    · intro same
      cases same
    · split
      · intro same
        cases same
      · intro same
        cases same
  have adapter' : cfg.adapter .backups = .deleteAccountArchives := if_pos ⟨rfl, given⟩
  simp only [Lifecycle.World.turn, waits, adapter']
  by_cases safe : pathSegmentPattern task.scope.tenantId ∧ pathSegmentPattern task.scope.userId
  · obtain ⟨deleted, after, run, _⟩ := deleteAccountArchives_ok layout safe.1 safe.2
    rw [run]
    have purged : (settled (.ok deleted)).any Lifecycle.Adapter.deleteAccountArchives.purged = true := rfl
    rw [if_pos purged]
    exact iff_of_true (fun same => loops _ (Option.some.inj same)) safe
  · obtain ⟨e, fails⟩ := deleteAccountArchives_refused adapter safe
    rw [fails]
    have rejected : ¬ (settled (.error e)).any Lifecycle.Adapter.deleteAccountArchives.purged = true :=
      Bool.false_ne_true
    rw [if_neg rejected]
    exact iff_of_false (fun goes => goes rfl) safe

end

/-- In every state of the disk, the archives of an account that can be
registered are purged, and its purge goes on after them, just if its names are
names of the adapter. -/
theorem archives_purged_iff (adapter : BackupAdapter) (host : Host) {past : List Call} {disk : Disk}
    (run : (adapter.archives host).Run past disk) :
    (∀ tenantId userId, Registrable tenantId userId →
      (adapter.Purges tenantId userId disk ↔ pathSegmentPattern tenantId ∧ pathSegmentPattern userId)) ∧
    ∀ (ι : Type) cfg (w : Lifecycle.World ι) i env task, cfg.backupAdapter →
      w.purges i = some ⟨task, .adapter .backups⟩ →
        (w.turn cfg (.settled i env (settled (adapter.deleteAccountArchives task.scope.tenantId task.scope.userId disk).1)) ≠
          some (.reject i) ↔ pathSegmentPattern task.scope.tenantId ∧ pathSegmentPattern task.scope.userId) :=
  ⟨fun _ _ _ => purges_iff (layout_of_run run), fun _ _ _ _ _ _ given waits =>
    purge_goes_on_iff (layout_of_run run) given waits⟩

def registrationOf (userId : String) : JsValue :=
  .object [(js "tenantId", .string (js "acme")), (js "userId", .string (js userId))]

def registration (userId : String) : Except (Thrown Lifecycle.AccountError) Lifecycle.AccountOperation :=
  (Lifecycle.registerAccount Lifecycle.sampleConfig ⟨fun _ => some (.date (some 0)), js "random"⟩
    (registrationOf userId) .empty).1

theorem registrable_of {userId : String}
    (h : (registration userId).toOption.map (fun o => (o.account.tenantId, o.account.userId)) = some (js "acme", js userId)) :
    Registrable (js "acme") (js userId) := by
  obtain ⟨operation, made, named⟩ := Option.map_eq_some_iff.mp h
  cases registered : registration userId with
  | error e =>
    rw [registered] at made
    cases made
  | ok operation' =>
    rw [registered] at made
    cases made
    obtain ⟨tenant, user⟩ := Prod.mk.inj named
    exact ⟨_, _, _, _, operation, registered, tenant, user⟩

def storedDisk : Disk :=
  (sampleAdapter.writeArchive asciiHost ⟨sampleManifest "acme" "alice", sampleContents, none⟩ emptyDisk).2

theorem archives_purged_iff_alice : sampleAdapter.Purges (js "acme") (js "alice") storedDisk := by
  have run : (sampleAdapter.archives asciiHost).Run
      [.writeArchive ⟨sampleManifest "acme" "alice", sampleContents, none⟩] storedDisk := .next (.start emptyDisk_empty) rfl
  have registrable : Registrable (js "acme") (js "alice") := registrable_of (by decide)
  exact ((archives_purged_iff sampleAdapter asciiHost run).1 _ _ registrable).mpr ⟨by decide, by decide⟩

/-- An account named by an address can be registered, and its archives cannot be purged. -/
theorem archives_unpurged : ¬ ∀ past disk tenantId userId, (sampleAdapter.archives asciiHost).Run past disk →
    Registrable tenantId userId → sampleAdapter.Purges tenantId userId disk := by
  intro purged
  have registrable : Registrable (js "acme") (js "alice@acme.test") := registrable_of (by decide)
  have run : (sampleAdapter.archives asciiHost).Run [] emptyDisk := .start emptyDisk_empty
  have named := ((purges_iff (layout_of_run run)).mp (purged [] emptyDisk _ _ run registrable)).2
  exact absurd named (by decide)

end BackupAdapter

end GuloGulo.Backup
