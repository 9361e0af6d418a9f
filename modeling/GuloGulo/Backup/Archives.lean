import GuloGulo.Backup.Filesystem
import GuloGulo.Backup.Restore
import GuloGulo.Data.Machine

/-!
# The archives on the disk

What the adapter's calls do to the disk, whatever they answer, and the layout
that all of them keep: a directory for each tenant, user and archive, with the
manifest in the last.
-/

namespace GuloGulo.Backup
open Js Data

/-- The names of an archive's directory are names of the adapter. A location of
no user has none: the name that stands for it is not one. -/
structure Safe (location : StoredArchiveLocation) : Prop where
  tenant : pathSegmentPattern location.tenantId
  user : ∃ userId, location.userId = some userId ∧ pathSegmentPattern userId
  archive : pathSegmentPattern location.archiveId

def BackupManifest.location (manifest : BackupManifest) : StoredArchiveLocation :=
  ⟨manifest.tenantId, manifest.userId, manifest.archiveId⟩

namespace BackupAdapter
variable (adapter : BackupAdapter)

def account (tenantId userId : JsString) : List JsString := adapter.basePath ++ [tenantId, userId]

def directory (location : StoredArchiveLocation) : List JsString :=
  adapter.account location.tenantId (location.userId.getD tenantScopeSegment) ++ [location.archiveId]

def manifestPath (location : StoredArchiveLocation) : List JsString := adapter.directory location ++ [manifestFile]

def content (location : StoredArchiveLocation) : List JsString := adapter.directory location ++ [contentDirectory]

/-- The directories above the archives, and the files that are what they should be. -/
structure Layout (disk : Disk) : Prop where
  directories : ∀ path, (path <+: adapter.basePath ∨ adapter.basePath <+: path) →
    path.length ≤ adapter.basePath.length + 3 → ∀ content, disk.node path ≠ some (.file content)
  manifests : ∀ location node, disk.node (adapter.manifestPath location) = some node →
    ∃ manifest, node = .file (.manifest manifest)
  metadata : ∀ location, disk.node (adapter.directory location ++ [metadataFile]) ≠ some .dir

/-- What a call of `writeArchive` does to the disk below the base directory. -/
structure Written (manifest : BackupManifest) (before after : Disk) : Prop where
  outside : ∀ path, ¬ adapter.directory manifest.location <+: path →
    after.node path = if path <+: adapter.directory manifest.location then some .dir else before.node path
  made : after.node (adapter.directory manifest.location) = some .dir
  listed : after.node (adapter.manifestPath manifest.location) = some (.file (.manifest manifest))
  metadata : after.node (adapter.directory manifest.location ++ [metadataFile]) ≠ some .dir

section
variable {adapter : BackupAdapter} {host : Host} {disk after : Disk} {location : StoredArchiveLocation}

theorem pathSegment_eq_ok {value s : JsString} {name : String} :
    pathSegment value name = .ok s ↔ s = value ∧ pathSegmentPattern value := by
  unfold pathSegment
  split
  · rename_i holds
    simp [holds, eq_comm]
  · rename_i fails
    simp [fails]

theorem tenantScope_refused : pathSegmentPattern tenantScopeSegment = false := by decide +kernel

theorem user_iff {userId : Option JsString} : pathSegmentPattern (userId.getD tenantScopeSegment) ↔
    ∃ user, userId = some user ∧ pathSegmentPattern user := by
  cases userId with
  | none => simp [tenantScope_refused]
  | some user => simp

theorem archiveDirectory_eq_ok {dir : List JsString} :
    adapter.archiveDirectory location.tenantId location.userId location.archiveId = .ok dir ↔
      Safe location ∧ dir = adapter.directory location := by
  unfold archiveDirectory
  simp only [bind_eq_ok, pathSegment_eq_ok]
  constructor
  · rintro ⟨_, ⟨rfl, tenant⟩, _, ⟨rfl, user⟩, _, ⟨rfl, archive⟩, same⟩
    cases same
    exact ⟨⟨tenant, user_iff.mp user, archive⟩, by simp [directory, account]⟩
  · rintro ⟨safe, rfl⟩
    exact ⟨_, ⟨rfl, safe.tenant⟩, _, ⟨rfl, user_iff.mpr safe.user⟩, _, ⟨rfl, safe.archive⟩,
      by simp [directory, account, pure, Except.pure]⟩

theorem accountDirectory_eq_ok {tenantId userId : JsString} {dir : List JsString} :
    adapter.accountDirectory tenantId userId = .ok dir ↔
      (pathSegmentPattern tenantId ∧ pathSegmentPattern userId) ∧ dir = adapter.account tenantId userId := by
  unfold accountDirectory
  simp only [bind_eq_ok, pathSegment_eq_ok]
  constructor
  · rintro ⟨_, ⟨rfl, tenant⟩, _, ⟨rfl, user⟩, same⟩
    cases same
    exact ⟨⟨tenant, user⟩, rfl⟩
  · rintro ⟨⟨tenant, user⟩, rfl⟩
    exact ⟨_, ⟨rfl, tenant⟩, _, ⟨rfl, user⟩, rfl⟩

theorem clean_of_segment {s : JsString} (h : pathSegmentPattern s) : 0 ∉ s := by
  unfold pathSegmentPattern isName at h
  split at h
  · cases h
  · rename_i u us
    simp only [Bool.and_eq_true, List.all_eq_true] at h
    intro zero
    rcases List.mem_cons.mp zero with rfl | inside
    · exact absurd h.1.1 (by decide)
    · exact absurd (h.2 0 inside) (by decide)

theorem validPath_iff {path : List JsString} : validPath path = true ↔ ∀ name ∈ path, 0 ∉ name := by
  simp [validPath]

theorem validPath_append {path more : List JsString} (h : validPath path) (h' : ∀ name ∈ more, 0 ∉ name) :
    validPath (path ++ more) := by
  rw [validPath_iff] at h ⊢
  intro name there
  rcases List.mem_append.mp there with inside | inside
  · exact h name inside
  · exact h' name inside

theorem valid_basePath : validPath adapter.basePath := validPath_iff.mpr adapter.clean

theorem valid_account {tenantId userId : JsString} (tenant : pathSegmentPattern tenantId)
    (user : pathSegmentPattern userId) : validPath (adapter.account tenantId userId) := by
  apply validPath_append valid_basePath
  intro name there
  simp only [List.mem_cons, List.not_mem_nil, or_false] at there
  rcases there with rfl | rfl
  · exact clean_of_segment tenant
  · exact clean_of_segment user

theorem valid_directory (safe : Safe location) : validPath (adapter.directory location) := by
  apply validPath_append (valid_account safe.tenant (user_iff.mpr safe.user))
  intro name there
  rw [List.mem_singleton.mp there]
  exact clean_of_segment safe.archive

theorem valid_manifestPath (safe : Safe location) : validPath (adapter.manifestPath location) := by
  apply validPath_append (valid_directory safe)
  intro name there
  rw [List.mem_singleton.mp there]
  decide +kernel

@[simp] theorem length_account (tenantId userId : JsString) :
    (adapter.account tenantId userId).length = adapter.basePath.length + 2 := by
  simp [account]

@[simp] theorem length_directory : (adapter.directory location).length = adapter.basePath.length + 3 := by
  simp [directory]

theorem base_directory : adapter.basePath <+: adapter.directory location := by
  rw [directory, account, List.append_assoc]
  exact List.prefix_append _ _

theorem directory_ne_nil : adapter.directory location ≠ [] := by simp [directory]

attribute [local simp] change in
theorem change_eq_ok {path : List JsString} {f : Disk → Except FsError Disk} (valid : validPath path)
    (h : f disk = .ok after) : change path f disk = (.ok (), after) := by
  simp [change, valid, h]

/-- A change is made, or the disk is as it was. -/
theorem change_cases (path : List JsString) (f : Disk → Except FsError Disk) (disk : Disk) :
    (∃ after, f disk = .ok after ∧ change path f disk = (.ok (), after)) ∨
      ∃ e, change path f disk = (.error e, disk) := by
  unfold change
  split
  · cases f disk with
    | ok after => exact .inl ⟨after, rfl, rfl⟩
    | error code => exact .inr ⟨_, rfl⟩
  · exact .inr ⟨_, rfl⟩

theorem mkdir_eq_ok {path : List JsString} (valid : validPath path) (h : FileTree.mkdir disk path = .ok after) :
    mkdir path disk = (.ok (), after) := change_eq_ok valid h

theorem mkdir_cases (path : List JsString) (disk : Disk) :
    (∃ after, FileTree.mkdir disk path = .ok after ∧ mkdir path disk = (.ok (), after)) ∨
      ∃ e, mkdir path disk = (.error e, disk) := change_cases path (fun disk => disk.mkdir path) disk

theorem writeFile_eq_ok {path : List JsString} {content : FileContent} (valid : validPath path)
    (h : FileTree.writeFile disk path content = .ok after) : writeFile path content disk = (.ok (), after) :=
  change_eq_ok valid h

theorem writeFile_cases (path : List JsString) (content : FileContent) (disk : Disk) :
    (∃ after, FileTree.writeFile disk path content = .ok after ∧ writeFile path content disk = (.ok (), after)) ∨
      ∃ e, writeFile path content disk = (.error e, disk) :=
  change_cases path (fun disk => disk.writeFile path content) disk

theorem rm_cases (path : List JsString) (disk : Disk) :
    (∃ after, FileTree.rm disk path = .ok after ∧ rm path disk = (.ok (), after)) ∨
      ∃ e, rm path disk = (.error e, disk) := change_cases path (fun disk => disk.rm path) disk

theorem bind_of_ok {α β : Type} {m : Storage α} {f : α → Storage β} {a : α} (h : m disk = (.ok a, after)) :
    (m >>= f) disk = f a after := by
  show Eff.bind m f disk = _
  rw [Eff.bind, h]

theorem bind_of_error {α β : Type} {m : Storage α} {f : α → Storage β} {e : StorageError}
    (h : m disk = (.error e, after)) : (m >>= f) disk = (.error e, after) := by
  show Eff.bind m f disk = _
  rw [Eff.bind, h]

/-- The disk on which the contents are written. -/
def Prepared (adapter : BackupAdapter) (manifest : BackupManifest) (before after : Disk) : Prop :=
  ∀ path, after.node path =
    if adapter.manifestPath manifest.location = path then some (.file (.manifest manifest))
    else if path <+: adapter.directory manifest.location then some .dir else before.node path

theorem mkdir_base (layout : adapter.Layout disk) : ∃ after, mkdir adapter.basePath disk = (.ok (), after) ∧
    ∀ path, after.node path = if path <+: adapter.basePath then some .dir else disk.node path := by
  obtain ⟨after, made⟩ := FileTree.mkdir_ok_iff.mpr fun p content above =>
    layout.directories p (.inl above) (by have := above.length_le; omega) content
  exact ⟨after, mkdir_eq_ok valid_basePath made, fun path => FileTree.mkdir_eq_ok made⟩

theorem writeArchive_safe (host : Host) {input : WriteArchiveInput} (layout : adapter.Layout disk)
    (safe : Safe input.manifest.location) : ∃ prepared, adapter.Prepared input.manifest disk prepared ∧
      adapter.writeArchive host input disk = writeMembers host input (adapter.directory input.manifest.location) prepared := by
  let dir := adapter.directory input.manifest.location
  obtain ⟨first, ready, firstNode⟩ := mkdir_base layout
  have near {p : List JsString} (above : p <+: dir) : p <+: adapter.basePath ∨ adapter.basePath <+: p :=
    List.prefix_or_prefix_of_prefix above base_directory
  have free : ∀ p content, p <+: dir → first.node p ≠ some (.file content) := by
    intro p content above node
    rw [firstNode] at node
    split at node
    · cases node
    · have short := above.length_le
      rw [length_directory] at short
      exact layout.directories p (near above) short content node
  obtain ⟨second, made⟩ := FileTree.mkdir_ok_iff.mpr free
  have secondNode (path : List JsString) : second.node path = if path <+: dir then some .dir else disk.node path := by
    rw [FileTree.mkdir_eq_ok made, firstNode]
    by_cases above : path <+: dir
    · rw [if_pos above, if_pos above]
    · rw [if_neg above, if_neg above, if_neg fun base => above (base.trans base_directory)]
  have beyond : ¬ dir ++ [manifestFile] <+: dir := by
    intro above
    have short := above.length_le
    rw [List.length_append, List.length_singleton] at short
    omega
  have fresh : second.node (dir ++ [manifestFile]) ≠ some .dir := by
    intro node
    rw [secondNode, if_neg beyond] at node
    obtain ⟨manifest, file⟩ := layout.manifests _ _ node
    cases file
  have parent : second.node (dir ++ [manifestFile]).dropLast = some .dir := by
    rw [List.dropLast_concat, secondNode, if_pos List.prefix_rfl]
  obtain ⟨third, written⟩ := (FileTree.writeFile_ok_iff (.manifest input.manifest)).mpr ⟨fresh, parent⟩
  refine ⟨third, ?_, ?_⟩
  · intro path
    rw [FileTree.writeFile_eq_ok written, secondNode]
    rfl
  · have named : adapter.archiveDirectory input.manifest.tenantId input.manifest.userId input.manifest.archiveId =
        .ok dir := archiveDirectory_eq_ok.mpr ⟨safe, rfl⟩
    unfold writeArchive
    rw [bind_of_ok ready]
    simp only [named]
    rw [Eff.lift_ok_bind, bind_of_ok (mkdir_eq_ok (valid_directory safe) made)]
    exact bind_of_ok (writeFile_eq_ok (valid_manifestPath safe) written)

theorem writeArchive_refused (host : Host) {input : WriteArchiveInput} (layout : adapter.Layout disk)
    (safe : ¬ Safe input.manifest.location) : ∃ e after, adapter.writeArchive host input disk = (.error e, after) ∧
      ∀ path, after.node path = if path <+: adapter.basePath then some .dir else disk.node path := by
  obtain ⟨first, ready, firstNode⟩ := mkdir_base layout
  cases named : adapter.archiveDirectory input.manifest.tenantId input.manifest.userId input.manifest.archiveId with
  | ok dir => exact absurd (archiveDirectory_eq_ok.mp named).1 safe
  | error e =>
    refine ⟨e, first, ?_, firstNode⟩
    unfold writeArchive
    rw [bind_of_ok ready]
    simp only [named]
    exact bind_of_error rfl

section
variable {manifest : BackupManifest} {dir : List JsString}

theorem resolveWithinDirectory_eq_ok {path : JsString} {target : List JsString} :
    resolveWithinDirectory dir path = .ok target ↔ target = resolvePath dir path ∧ dir <+: target := by
  unfold resolveWithinDirectory
  simp only [List.isPrefixOf_iff_prefix]
  split
  · rename_i inside
    simp only [Except.ok.injEq]
    constructor
    · rintro rfl
      exact ⟨rfl, inside⟩
    · rintro ⟨rfl, _⟩
      rfl
  · rename_i outside
    simp only [reduceCtorEq, false_iff, not_and]
    rintro rfl
    exact outside

theorem checkEntry_eq_ok {entry : StoredArchiveEntryContent} {target : List JsString} :
    checkEntry host manifest dir entry = .ok target ↔
      (∃ member, declared manifest entry.path = .ok member ∧ sha256Hex host entry.content.buffer = member.sha256 ∧
        (entry.content.buffer.length : Int) = member.bytes) ∧ resolveWithinDirectory dir entry.path = .ok target := by
  unfold checkEntry
  simp only [bind_eq_ok, throwIf_eq_ok, decide_eq_false_iff_not, not_not]
  constructor
  · rintro ⟨member, known, _, resolved, _, digest, _, size, same⟩
    cases same
    exact ⟨⟨member, known, digest, size⟩, resolved⟩
  · rintro ⟨⟨member, known, digest, size⟩, resolved⟩
    exact ⟨member, known, target, resolved, (), digest, (), size, rfl⟩

/-- Nothing changes but below a directory. -/
def Within (dir : List JsString) (before after : Disk) : Prop := ∀ path, ¬ dir <+: path → after.node path = before.node path

theorem writeEntry_within {entry : StoredArchiveEntryContent} {name : JsString} (parent : disk.node dir = some .dir) :
    Within (dir ++ [name]) disk (writeEntry host manifest (dir ++ [name]) entry disk).2 := by
  unfold writeEntry
  cases checked : checkEntry host manifest (dir ++ [name]) entry with
  | error e => exact fun _ _ => rfl
  | ok target =>
    rw [Eff.lift_ok_bind]
    have below := (resolveWithinDirectory_eq_ok.mp (checkEntry_eq_ok.mp checked).2).2
    have kept {made : Disk} (h : disk.mkdir target.dropLast = .ok made) : Within (dir ++ [name]) disk made := by
      intro path outside
      rw [FileTree.mkdir_eq_ok h]
      split
      · rename_i above
        have before : path <+: dir := by
          rcases List.prefix_or_prefix_of_prefix (above.trans (List.dropLast_prefix target)) below with before | after
          · have strict : path ≠ dir ++ [name] := by
              rintro rfl
              exact outside List.prefix_rfl
            exact (List.prefix_concat_iff.mp before).resolve_left strict
          · exact absurd after outside
        by_cases same : path = dir
        · rw [same, parent]
        · exact (FileTree.node_above (by rw [parent]; nofun) before same).symm
      · rfl
    rcases mkdir_cases target.dropLast disk with ⟨made, h, done⟩ | ⟨e, failed⟩
    · have made' := kept h
      rw [bind_of_ok done]
      rcases writeFile_cases target (.bytes entry.content.buffer) made with ⟨written, h', done'⟩ | ⟨e, failed⟩
      · rw [bind_of_ok done']
        intro path outside
        have other : target ≠ path := by
          rintro rfl
          exact outside below
        show written.node path = _
        rw [FileTree.writeFile_eq_ok h', if_neg other]
        exact made' path outside
      · rw [bind_of_error failed]
        exact made'
    · rw [bind_of_error failed]
      exact fun _ _ => rfl

theorem within_parent {name : JsString} (within : Within (dir ++ [name]) disk after) : after.node dir = disk.node dir := by
  apply within
  intro above
  have short := above.length_le
  rw [List.length_append, List.length_singleton] at short
  omega

theorem writeEntries_within {entries : List StoredArchiveEntryContent} {name : JsString}
    (parent : disk.node dir = some .dir) :
    Within (dir ++ [name]) disk (writeEntries host manifest (dir ++ [name]) entries disk).2 := by
  induction entries generalizing disk with
  | nil => exact fun _ _ => rfl
  | cons entry rest ih =>
    unfold writeEntries
    have first : Within (dir ++ [name]) disk (writeEntry host manifest (dir ++ [name]) entry disk).2 :=
      writeEntry_within parent
    rcases run : writeEntry host manifest (dir ++ [name]) entry disk with ⟨result, next⟩
    rw [run] at first
    cases result with
    | error e =>
      rw [bind_of_error run]
      exact first
    | ok target =>
      rw [bind_of_ok run]
      have others : Within (dir ++ [name]) next (writeEntries host manifest (dir ++ [name]) rest next).2 :=
        ih (by rw [within_parent first, parent])
      rcases run' : writeEntries host manifest (dir ++ [name]) rest next with ⟨result', last⟩
      rw [run'] at others
      have both : Within (dir ++ [name]) disk last := fun path outside =>
        (others path outside).trans (first path outside)
      cases result' with
      | error e =>
        rw [bind_of_error run']
        exact both
      | ok targets =>
        rw [bind_of_ok run']
        exact both

/-- The metadata is written to a file of its own, or not at all. -/
theorem writeMetadata_cases (dir : List JsString) (metadata : Option EncryptedArchiveMetadata) (disk : Disk) :
    (writeMetadata dir metadata disk).2 = disk ∨ ∃ metadata',
      disk.writeFile (dir ++ [metadataFile]) (.metadata metadata') = .ok (writeMetadata dir metadata disk).2 := by
  cases metadata with
  | none => exact .inl rfl
  | some metadata =>
    rw [writeMetadata]
    rcases writeFile_cases (dir ++ [metadataFile]) (.metadata metadata) disk with ⟨written, h, done⟩ | ⟨e, failed⟩
    · rw [bind_of_ok done]
      exact .inr ⟨metadata, h⟩
    · rw [bind_of_error failed]
      exact .inl rfl

theorem not_under {name other : JsString} (h : name ≠ other) : ¬ dir ++ [name] <+: dir ++ [other] := by
  intro under
  have same := (List.prefix_append_right_inj dir).mp under
  rw [List.cons_prefix_cons] at same
  exact h same.1

theorem not_below_itself {name : JsString} : ¬ dir ++ [name] <+: dir := by
  intro above
  have short := above.length_le
  rw [List.length_append, List.length_singleton] at short
  omega

theorem names_differ :
    contentDirectory ≠ manifestFile ∧ contentDirectory ≠ metadataFile ∧ manifestFile ≠ metadataFile := by
  decide +kernel

theorem member_ne_dir {name : JsString} : dir ++ [name] ≠ dir := by simp

theorem members_ne {name other : JsString} (h : name ≠ other) : dir ++ [name] ≠ dir ++ [other] := by simp [h]

theorem prepared_directory {prepared : Disk} (h : adapter.Prepared manifest disk prepared) :
    prepared.node (adapter.directory manifest.location) = some .dir := by
  rw [h, if_neg, if_pos List.prefix_rfl]
  exact member_ne_dir

theorem prepared_metadata {prepared : Disk} (layout : adapter.Layout disk) (h : adapter.Prepared manifest disk prepared) :
    prepared.node (adapter.directory manifest.location ++ [metadataFile]) ≠ some .dir := by
  rw [h, if_neg, if_neg not_below_itself]
  · exact layout.metadata _
  · exact members_ne names_differ.2.2

theorem writeMembers_written (host : Host) {input : WriteArchiveInput} {prepared : Disk} (layout : adapter.Layout disk)
    (h : adapter.Prepared input.manifest disk prepared) : adapter.Written input.manifest disk
      (writeMembers host input (adapter.directory input.manifest.location) prepared).2 := by
  let dir := adapter.directory input.manifest.location
  have first : prepared.node dir = some .dir := prepared_directory h
  have contents : Within (dir ++ [contentDirectory]) prepared
      (writeEntries host input.manifest (dir ++ [contentDirectory]) input.entries prepared).2 := writeEntries_within first
  have written (after : Disk) (h' : Within (dir ++ [contentDirectory]) prepared after) :
      adapter.Written input.manifest disk after := by
    constructor
    · intro path outside
      rw [h' path fun below => outside ((List.prefix_append dir _).trans below), h, if_neg]
      rintro rfl
      exact outside (List.prefix_append _ _)
    · rw [h' _ not_below_itself]
      exact first
    · rw [h' (adapter.manifestPath _) (not_under names_differ.1), h, if_pos rfl]
    · rw [h' _ (not_under names_differ.2.1)]
      exact prepared_metadata layout h
  unfold writeMembers
  rcases run : writeEntries host input.manifest (dir ++ [contentDirectory]) input.entries prepared with ⟨result, next⟩
  rw [run] at contents
  have before := written next contents
  cases result with
  | error e =>
    rw [bind_of_error run]
    exact before
  | ok targets =>
    rw [bind_of_ok run]
    have after : adapter.Written input.manifest disk (writeMetadata dir input.encryptedMetadata next).2 := by
      rcases writeMetadata_cases dir input.encryptedMetadata next with same | ⟨metadata, made⟩
      · rw [same]
        exact before
      · have node (path : List JsString) := FileTree.writeFile_eq_ok (q := path) made
        constructor
        · intro path outside
          rw [node, if_neg]
          · exact before.outside path outside
          · rintro rfl
            exact outside (List.prefix_append _ _)
        · rw [node, if_neg]
          · exact before.made
          · exact member_ne_dir
        · rw [node, if_neg]
          · exact before.listed
          · exact members_ne names_differ.2.2.symm
        · rw [node, if_pos rfl]
          nofun
    rcases run' : writeMetadata dir input.encryptedMetadata next with ⟨result', last⟩
    rw [run'] at after
    cases result' with
    | error e =>
      rw [bind_of_error run']
      exact after
    | ok path =>
      rw [bind_of_ok run']
      exact after

end

/-- What is at a path after something has been removed. -/
def Removed (path : List JsString) (before after : Disk) : Prop :=
  ∀ q, after.node q = if path <+: q then none else before.node q

theorem layout_removed {path : List JsString} (layout : adapter.Layout disk) (h : Removed path disk after) :
    adapter.Layout after := by
  have old {q : List JsString} {node : Node FileContent} (there : after.node q = some node) : disk.node q = some node := by
    rw [h] at there
    split at there
    · cases there
    · exact there
  constructor
  · exact fun q near short content there => layout.directories q near short content (old there)
  · exact fun location node there => layout.manifests location node (old there)
  · exact fun location there => layout.metadata location (old there)

theorem directory_eq_of_under {other : StoredArchiveLocation} {name : JsString}
    (h : adapter.directory location <+: adapter.directory other ++ [name]) :
    adapter.directory location = adapter.directory other := by
  have shorter : adapter.directory location ≠ adapter.directory other ++ [name] := by
    intro same
    have lengths := congrArg List.length same
    simp only [List.length_append, List.length_cons, List.length_nil, length_directory] at lengths
    omega
  exact ((List.prefix_concat_iff.mp h).resolve_left shorter).eq_of_length (by simp)

theorem layout_written {manifest : BackupManifest} (layout : adapter.Layout disk)
    (h : adapter.Written manifest disk after) : adapter.Layout after := by
  have other {location : StoredArchiveLocation} {name : JsString}
      (away : adapter.directory manifest.location ≠ adapter.directory location) :
      after.node (adapter.directory location ++ [name]) = disk.node (adapter.directory location ++ [name]) := by
    rw [h.outside _ fun below => away (directory_eq_of_under below), if_neg]
    intro above
    have short := above.length_le
    simp only [List.length_append, List.length_cons, List.length_nil, length_directory] at short
    omega
  constructor
  · intro path near short content there
    by_cases below : adapter.directory manifest.location <+: path
    · have same := below.eq_of_length_le (by simpa using short)
      rw [← same, h.made] at there
      cases there
    · rw [h.outside path below] at there
      split at there
      · cases there
      · exact layout.directories path near short content there
  · intro location node there
    by_cases same : adapter.directory manifest.location = adapter.directory location
    · have listed := h.listed
      rw [manifestPath, same] at listed
      cases listed.symm.trans there
      exact ⟨manifest, rfl⟩
    · rw [manifestPath, other same] at there
      exact layout.manifests location node there
  · intro location
    by_cases same : adapter.directory manifest.location = adapter.directory location
    · rw [← same]
      exact h.metadata
    · rw [other same]
      exact layout.metadata location

theorem layout_based (layout : adapter.Layout disk)
    (h : ∀ path, after.node path = if path <+: adapter.basePath then some .dir else disk.node path) :
    adapter.Layout after := by
  have beyond {location : StoredArchiveLocation} {name : JsString} :
      after.node (adapter.directory location ++ [name]) = disk.node (adapter.directory location ++ [name]) := by
    rw [h, if_neg]
    intro above
    have short := above.length_le
    simp only [List.length_append, List.length_cons, List.length_nil, length_directory] at short
    omega
  constructor
  · intro path near short content there
    rw [h] at there
    split at there
    · cases there
    · exact layout.directories path near short content there
  · intro location node there
    rw [manifestPath, beyond] at there
    exact layout.manifests location node there
  · intro location
    rw [beyond]
    exact layout.metadata location

theorem writeArchive_layout {input : WriteArchiveInput} (layout : adapter.Layout disk) :
    adapter.Layout (adapter.writeArchive host input disk).2 := by
  by_cases safe : Safe input.manifest.location
  · obtain ⟨prepared, nodes, run⟩ := writeArchive_safe host layout safe
    rw [run]
    exact layout_written layout (writeMembers_written host layout nodes)
  · obtain ⟨e, made, run, nodes⟩ := writeArchive_refused host layout safe
    rw [run]
    exact layout_based layout nodes

theorem rm_layout (path : List JsString) (some' : path ≠ []) (layout : adapter.Layout disk) :
    adapter.Layout (rm path disk).2 := by
  rcases rm_cases path disk with ⟨after, h, done⟩ | ⟨e, failed⟩
  · rw [done]
    exact layout_removed layout fun q => FileTree.rm_eq_ok some' h
  · rw [failed]
    exact layout

theorem read_disk {α : Type} (path : List JsString) (f : Disk → Except FsError α) : (read path f disk).2 = disk := by
  unfold read
  split <;> rfl

theorem orElse_eq {α : Type} {m : Storage α} {value : α} (kept : (m disk).2 = disk) :
    orElse m value disk = (.ok ((m disk).1.toOption.getD value), disk) := by
  unfold orElse
  rcases run : m disk with ⟨result, after⟩
  rw [run] at kept
  cases result with
  | ok a => rw [← kept]; rfl
  | error e => rw [← kept]; rfl

theorem deleteArchive_layout (layout : adapter.Layout disk) : adapter.Layout (adapter.deleteArchive location disk).2 := by
  unfold deleteArchive
  cases named : adapter.archiveDirectory location.tenantId location.userId location.archiveId with
  | error e => exact layout
  | ok dir =>
    obtain ⟨_, rfl⟩ := archiveDirectory_eq_ok.mp named
    rw [Eff.lift_ok_bind]
    have kept : (pathExists (adapter.directory location ++ [manifestFile]) disk).2 = disk := read_disk _ _
    rcases run : pathExists (adapter.directory location ++ [manifestFile]) disk with ⟨result, after⟩
    rw [run] at kept
    cases kept
    cases result with
    | error e =>
      rw [bind_of_error run]
      exact layout
    | ok existed =>
      rw [bind_of_ok run]
      have removed := rm_layout (adapter.directory location) directory_ne_nil layout
      rcases run' : rm (adapter.directory location) after with ⟨result', last⟩
      rw [run'] at removed
      cases result' with
      | error e =>
        rw [bind_of_error run']
        exact removed
      | ok =>
        rw [bind_of_ok run']
        exact removed

theorem account_ne_nil {tenantId userId : JsString} : adapter.account tenantId userId ≠ [] := by simp [account]

/-- What is read of an account's directory, and the `rm` of it. -/
theorem deleteAccountArchives_eq (adapter : BackupAdapter) (disk : Disk) {tenantId userId : JsString} (tenant : pathSegmentPattern tenantId)
    (user : pathSegmentPattern userId) : ∃ deleted, adapter.deleteAccountArchives tenantId userId disk =
      (rm (adapter.account tenantId userId) >>= fun _ => pure deleted) disk := by
  have named : adapter.accountDirectory tenantId userId = .ok (adapter.account tenantId userId) :=
    accountDirectory_eq_ok.mpr ⟨⟨tenant, user⟩, rfl⟩
  refine ⟨(readdir (adapter.account tenantId userId) disk).1.toOption.getD [], ?_⟩
  unfold deleteAccountArchives
  rw [named, Eff.lift_ok_bind]
  exact bind_of_ok (orElse_eq (read_disk _ _))

theorem deleteAccountArchives_refused (adapter : BackupAdapter) {tenantId userId : JsString}
    (h : ¬ (pathSegmentPattern tenantId ∧ pathSegmentPattern userId)) :
    ∃ e, ∀ disk, adapter.deleteAccountArchives tenantId userId disk = (.error e, disk) := by
  cases named : adapter.accountDirectory tenantId userId with
  | ok dir => exact absurd (accountDirectory_eq_ok.mp named).1 h
  | error e =>
    refine ⟨e, fun disk => ?_⟩
    unfold deleteAccountArchives
    rw [named]
    exact bind_of_error rfl

theorem deleteAccountArchives_layout {tenantId userId : JsString} (layout : adapter.Layout disk) :
    adapter.Layout (adapter.deleteAccountArchives tenantId userId disk).2 := by
  by_cases safe : pathSegmentPattern tenantId ∧ pathSegmentPattern userId
  · obtain ⟨deleted, run⟩ := deleteAccountArchives_eq adapter disk safe.1 safe.2
    have removed := rm_layout (adapter.account tenantId userId) account_ne_nil layout
    rw [run]
    rcases run' : rm (adapter.account tenantId userId) disk with ⟨result, last⟩
    rw [run'] at removed
    cases result with
    | error e =>
      rw [bind_of_error run']
      exact removed
    | ok =>
      rw [bind_of_ok run']
      exact removed
  · obtain ⟨e, run⟩ := deleteAccountArchives_refused adapter safe
    rw [run]
    exact layout

end

/-- A call that changes the disk. -/
inductive Call where
  | writeArchive (input : WriteArchiveInput)
  | deleteArchive (location : StoredArchiveLocation)
  | deleteAccountArchives (tenantId userId : JsString)

def Call.run (adapter : BackupAdapter) (host : Host) (disk : Disk) : Call → Disk
  | writeArchive input => (adapter.writeArchive host input disk).2
  | deleteArchive location => (adapter.deleteArchive location disk).2
  | deleteAccountArchives tenantId userId => (adapter.deleteAccountArchives tenantId userId disk).2

/-- A disk with room for the base directory, and nothing in it. -/
structure Empty (disk : Disk) : Prop where
  room : ∀ path, path <+: adapter.basePath → ∀ content, disk.node path ≠ some (.file content)
  empty : ∀ path, adapter.basePath <+: path → path ≠ adapter.basePath → disk.node path = none

def archives (host : Host) : Machine Disk Call where
  Start disk := adapter.Empty disk
  Step disk call after := after = call.run adapter host disk

theorem layout_of_run {adapter : BackupAdapter} {host : Host} {past : List Call} {disk : Disk}
    (run : (adapter.archives host).Run past disk) : adapter.Layout disk := by
  apply run.invariant (P := fun _ disk => adapter.Layout disk)
  · intro disk start
    have gone {location : StoredArchiveLocation} {name : JsString} :
        disk.node (adapter.directory location ++ [name]) = none := by
      apply start.empty _ (base_directory.trans (List.prefix_append _ _))
      intro same
      have lengths := congrArg List.length same
      simp only [List.length_append, List.length_cons, List.length_nil, length_directory] at lengths
      omega
    constructor
    · intro path near _ content there
      rcases near with above | below
      · exact start.room path above content there
      · by_cases same : path = adapter.basePath
        · exact start.room path (same ▸ List.prefix_rfl) content there
        · rw [start.empty path below same] at there
          cases there
    · intro location node there
      rw [manifestPath, gone] at there
      cases there
    · intro location there
      rw [gone] at there
      cases there
  · rintro _ disk call _ layout rfl
    cases call with
    | writeArchive input => exact writeArchive_layout layout
    | deleteArchive location => exact deleteArchive_layout layout
    | deleteAccountArchives tenantId userId => exact deleteAccountArchives_layout layout

section
variable {adapter : BackupAdapter} {disk after : Disk} {location : StoredArchiveLocation}

/-- The archives of an account are what is in its directory. -/
theorem listArchives_names (adapter : BackupAdapter) (disk : Disk) {tenantId : JsString} (userId : Option JsString) (tenant : pathSegmentPattern tenantId)
    (user : pathSegmentPattern (userId.getD tenantScopeSegment)) : ∃ names,
      (adapter.listArchives tenantId userId disk).1 = .ok names ∧ ∀ name, name ∈ names ↔
        disk.node (adapter.account tenantId (userId.getD tenantScopeSegment) ++ [name]) ≠ none := by
  let dir := adapter.account tenantId (userId.getD tenantScopeSegment)
  have named : adapter.accountDirectory tenantId (userId.getD tenantScopeSegment) = .ok dir :=
    accountDirectory_eq_ok.mpr ⟨⟨tenant, user⟩, rfl⟩
  have listed : adapter.listArchives tenantId userId disk = (.ok ((readdir dir disk).1.toOption.getD []), disk) := by
    unfold listArchives
    rw [named, Eff.lift_ok_bind]
    exact orElse_eq (read_disk _ _)
  have answer : (readdir dir disk).1 = (disk.readdir dir).mapError .fs := by
    show (read dir (fun disk => disk.readdir dir) disk).1 = _
    rw [read, if_pos (valid_account tenant user)]
  refine ⟨_, by rw [listed], ?_⟩
  intro name
  rw [answer]
  cases found : disk.readdir dir with
  | ok names =>
    obtain ⟨_, rfl⟩ := FileTree.readdir_eq_ok found
    exact FileTree.mem_names
  | error e =>
    constructor
    · intro inside
      cases inside
    · intro there
      have parent := FileTree.node_above there (List.prefix_append dir [name]) (by simp [dir])
      rw [FileTree.readdir, parent] at found
      cases found

theorem listArchives_refused (adapter : BackupAdapter) {tenantId : JsString} {userId : Option JsString}
    (h : ¬ (pathSegmentPattern tenantId ∧ pathSegmentPattern (userId.getD tenantScopeSegment))) :
    ∃ e, ∀ disk, (adapter.listArchives tenantId userId disk).1 = .error e := by
  cases named : adapter.accountDirectory tenantId (userId.getD tenantScopeSegment) with
  | ok dir => exact absurd (accountDirectory_eq_ok.mp named).1 h
  | error e =>
    refine ⟨e, fun disk => ?_⟩
    unfold listArchives
    rw [named]
    rfl

theorem readManifest_safe (safe : Safe location) : (adapter.readManifest location disk).1 =
    (disk.readFile (adapter.manifestPath location)).mapError .fs >>= parseManifest := by
  have named : adapter.archiveDirectory location.tenantId location.userId location.archiveId =
      .ok (adapter.directory location) := archiveDirectory_eq_ok.mpr ⟨safe, rfl⟩
  have raw : readFile (adapter.directory location ++ [manifestFile]) disk =
      ((disk.readFile (adapter.manifestPath location)).mapError .fs, disk) := by
    show read (adapter.manifestPath location) (fun disk => disk.readFile (adapter.manifestPath location)) disk = _
    rw [read, if_pos (valid_manifestPath safe)]
  unfold readManifest
  rw [named, Eff.lift_ok_bind]
  cases found : (disk.readFile (adapter.manifestPath location)).mapError StorageError.fs with
  | ok content =>
    rw [found] at raw
    rw [bind_of_ok raw]
    rfl
  | error e =>
    rw [found] at raw
    rw [bind_of_error raw]
    rfl

theorem readManifest_refused (adapter : BackupAdapter) (h : ¬ Safe location) : ∃ e, ∀ disk, (adapter.readManifest location disk).1 = .error e := by
  cases named : adapter.archiveDirectory location.tenantId location.userId location.archiveId with
  | ok dir => exact absurd (archiveDirectory_eq_ok.mp named).1 h
  | error e =>
    refine ⟨e, fun disk => ?_⟩
    unfold readManifest
    rw [named]
    rfl

/-- A manifest is read just where one is stored. -/
theorem readManifest_eq_ok (safe : Safe location) {manifest : BackupManifest} :
    (adapter.readManifest location disk).1 = .ok manifest ↔
      disk.node (adapter.manifestPath location) = some (.file (.manifest manifest)) := by
  rw [readManifest_safe safe, bind_eq_ok]
  simp only [mapError_eq_ok, FileTree.readFile_eq_ok]
  constructor
  · rintro ⟨content, there, parsed⟩
    cases content with
    | manifest m =>
      cases parsed
      exact there
    | bytes | metadata => cases parsed
  · intro there
    exact ⟨_, there, rfl⟩

/-- What is read of a manifest depends on its file only. -/
theorem readManifest_congr (safe : Safe location) (before : adapter.Layout disk) (layout : adapter.Layout after)
    (same : disk.node (adapter.manifestPath location) = after.node (adapter.manifestPath location)) :
    (adapter.readManifest location disk).1 = (adapter.readManifest location after).1 := by
  have open' {d : Disk} (layout : adapter.Layout d) : d.missing (adapter.manifestPath location) = .noEntry := by
    have free : ¬ d.blocked (adapter.manifestPath location) = true := by
      rw [FileTree.blocked_iff]
      rintro ⟨p, content, above, strict, there⟩
      have before : p <+: adapter.directory location := (List.prefix_concat_iff.mp above).resolve_left strict
      have short := before.length_le
      rw [length_directory] at short
      exact layout.directories p (List.prefix_or_prefix_of_prefix before base_directory) short content there
    rw [FileTree.missing, if_neg free]
  rw [readManifest_safe safe, readManifest_safe safe, FileTree.readFile, FileTree.readFile, same, open' before,
    open' layout]

end

end BackupAdapter

end GuloGulo.Backup
