import GuloGulo.Backup.Archives
import GuloGulo.Js.Pattern

/-!
# What it takes to store an archive

An archive of an accepted manifest is stored with all its contents just if its
names are names of the adapter and there is room for its entries. A call that
fails has stored its manifest all the same.
-/

namespace GuloGulo.Backup
open Js Data

/-- A scope that one of the two functions makes. -/
inductive Scoped (host : Host) : BackupScope → Prop where
  | user {today : Int} {input : JsValue} {scope : UserBackupScope}
      (h : createUserBackupScope host today input = .ok scope) : Scoped host (.user scope)
  | provider {today : Int} {input : JsValue} {scope : ProviderBackupScope}
      (h : createProviderBackupScope host today input = .ok scope) : Scoped host (.provider scope)

/-- A manifest of such a scope. -/
def Accepted (host : Host) (manifest : BackupManifest) : Prop :=
  ∃ today uuid input scope, Scoped host scope ∧ input.get "scope" = scope.value ∧
    createArchiveManifest host today uuid input = .ok manifest

/-- A content is what an entry says. -/
def ArchiveEntry.Describes (entry : ArchiveEntry) (host : Host) (content : Content) : Prop :=
  sha256Hex host content.buffer = entry.sha256 ∧ (content.buffer.length : Int) = entry.bytes

/-- Contents for all entries, each of them what an entry says. -/
structure Matches (host : Host) (manifest : BackupManifest) (contents : List StoredArchiveEntryContent) : Prop where
  present : ∀ entry ∈ manifest.entries, ∃ c ∈ contents, c.path = entry.path ∧ entry.Describes host c.content
  described : ∀ c ∈ contents, ∃ entry ∈ manifest.entries, entry.path = c.path ∧ entry.Describes host c.content

/-- The content of an entry is missing. -/
def WriteArchiveInput.Lacks (input : WriteArchiveInput) : Prop :=
  ∃ entry ∈ input.manifest.entries, ∀ c ∈ input.entries, c.path ≠ entry.path

/-- Two directories that were read, in whatever order. -/
def SameNames : Except StorageError (List JsString) → Except StorageError (List JsString) → Prop
  | .ok names, .ok names' => ∀ name, name ∈ names ↔ name ∈ names'
  | .error e, .error e' => e = e'
  | _, _ => False

/-- The names on a path that is not resolved. -/
def components (path : JsString) : List JsString := (split path 47).filter (· ≠ [])

namespace BackupAdapter

structure SameAnswers (adapter : BackupAdapter) (before after : Disk) : Prop where
  lists : ∀ tenantId userId, SameNames (adapter.listArchives tenantId userId before).1
    (adapter.listArchives tenantId userId after).1
  reads : ∀ location, (adapter.readManifest location before).1 = (adapter.readManifest location after).1

/-- The contents as they are read. -/
def contentByPath (adapter : BackupAdapter) (location : StoredArchiveLocation) (disk : Disk) (path : JsString) :
    Option Content :=
  (adapter.readEntry location path disk).1.toOption.map .bytes

/-- The call succeeds, and what is read after it verifies. -/
structure Stores (adapter : BackupAdapter) (host : Host) (input : WriteArchiveInput) (before : Disk) : Prop where
  succeeds : ∃ result, (adapter.writeArchive host input before).1 = .ok result
  listed : (adapter.readManifest input.manifest.location (adapter.writeArchive host input before).2).1 =
    .ok input.manifest
  complete : ∃ integrity, verifyArchiveManifest host input.manifest
    (adapter.contentByPath input.manifest.location (adapter.writeArchive host input before).2) = .ok integrity ∧
      integrity.complete = true

/-- The file of an entry. -/
def place (adapter : BackupAdapter) (manifest : BackupManifest) (path : JsString) : List JsString :=
  adapter.content manifest.location ++ components path

/-- No entry has a file above it or a directory in its place, left by an
archive before, and none is above another or at the same place with another
content. -/
structure Fits (adapter : BackupAdapter) (disk : Disk) (manifest : BackupManifest) : Prop where
  free : ∀ entry ∈ manifest.entries, ∀ p content, p <+: adapter.place manifest entry.path →
    p ≠ adapter.place manifest entry.path → disk.node p ≠ some (.file content)
  vacant : ∀ entry ∈ manifest.entries, disk.node (adapter.place manifest entry.path) ≠ some .dir
  apart : ∀ entry ∈ manifest.entries, ∀ other ∈ manifest.entries, components entry.path <+: components other.path →
    components entry.path = components other.path ∧ entry.sha256 = other.sha256 ∧ entry.bytes = other.bytes

section
variable {adapter : BackupAdapter} {host : Host} {disk after : Disk} {manifest : BackupManifest}

theorem enter_name {dir : List JsString} {name : JsString} (dot : name.head? ≠ some 46) (clean : toWellFormed name = name) :
    enter dir name = if name = [] then dir else dir ++ [name] := by
  have one : name ≠ js "." := by
    rintro rfl
    exact dot rfl
  have two : name ≠ js ".." := by
    rintro rfl
    exact dot rfl
  simp [enter, one, two, clean]

theorem foldl_enter {names : List JsString} (h : ∀ name ∈ names, name.head? ≠ some 46 ∧ toWellFormed name = name)
    (dir : List JsString) : names.foldl enter dir = dir ++ names.filter (· ≠ []) := by
  induction names generalizing dir with
  | nil => simp
  | cons name rest ih =>
    rw [List.forall_mem_cons] at h
    rw [List.foldl_cons, enter_name h.1.1 h.1.2, ih h.2]
    by_cases empty : name = [] <;> simp [empty]

theorem isPathUnit_ascii {u : UInt16} (h : isPathUnit u) : u ≠ 0 ∧ isHighSurrogate u = false ∧ isLowSurrogate u = false := by
  simp only [isPathUnit, isAlnum, isAlpha, isUpper, isLower, isDigit, isHighSurrogate, isLowSurrogate,
    List.contains_cons, List.contains_nil, Bool.or_eq_true, Bool.and_eq_true, decide_eq_true_eq, beq_iff_eq,
    Bool.and_eq_false_iff, decide_eq_false_iff_not, ne_eq, UInt16.le_iff_toNat_le, ← UInt16.toNat_inj,
    Bool.false_eq_true, or_false] at h ⊢
  simp only [UInt16.reduceToNat] at h ⊢
  omega

theorem toWellFormed_path {s : JsString} (h : ∀ u ∈ s, isPathUnit u) : toWellFormed s = s := by
  induction s with
  | nil => rfl
  | cons u s ih =>
    rw [List.forall_mem_cons] at h
    obtain ⟨_, high, low⟩ := isPathUnit_ascii h.1
    rw [toWellFormed_cons high low, ih h.2]

theorem units_of_path {path : JsString} (h : pathPattern path) : ∀ u ∈ path, isPathUnit u := by
  simp only [pathPattern, Bool.and_eq_true, List.all_eq_true] at h
  exact h.1.1.2

theorem resolvePath_eq {path : JsString} (h : pathPattern path) (dir : List JsString) :
    resolvePath dir path = dir ++ components path := by
  have units := units_of_path h
  simp only [pathPattern, Bool.and_eq_true, List.all_eq_true, bne_iff_ne] at h
  obtain ⟨⟨_, relative⟩, dots⟩ := h
  rw [resolvePath, if_neg relative, foldl_enter]
  · rfl
  · intro name there
    exact ⟨dots name there, toWellFormed_path fun u inside => units u (mem_of_mem_split there inside)⟩

theorem clean_components {path : JsString} (h : pathPattern path) : ∀ name ∈ components path, 0 ∉ name := by
  intro name there zero
  have inside := mem_of_mem_split (List.mem_filter.mp there).1 zero
  exact (isPathUnit_ascii (units_of_path h 0 inside)).1 rfl

/-- The entries of an accepted manifest have paths of the pattern. -/
theorem path_of_entry {index : Nat} {items : List JsValue} {entries : List ArchiveEntry}
    (h : entriesFrom index items = .ok entries) : ∀ e ∈ entries, pathPattern e.path := by
  induction items generalizing index entries with
  | nil =>
    cases h
    simp
  | cons item rest ih =>
    obtain ⟨first, made, h⟩ := bind_eq_ok.mp h
    obtain ⟨others, more, h⟩ := bind_eq_ok.mp h
    cases h
    rw [List.forall_mem_cons]
    refine ⟨?_, ih more⟩
    obtain ⟨_, _, made⟩ := bind_eq_ok.mp made
    obtain ⟨_, _, made⟩ := bind_eq_ok.mp made
    obtain ⟨path, valid, made⟩ := bind_eq_ok.mp made
    obtain ⟨_, _, made⟩ := bind_eq_ok.mp made
    obtain ⟨_, _, made⟩ := bind_eq_ok.mp made
    obtain ⟨_, _, made⟩ := bind_eq_ok.mp made
    cases made
    exact (matched_eq_ok valid).2

/-- What is used of an accepted manifest. -/
structure Sound (host : Host) (manifest : BackupManifest) : Prop where
  paths : ∀ entry ∈ manifest.entries, pathPattern entry.path
  version : manifest.schemaVersion = 1
  digest : manifest.manifestSha256 = some (manifestDigest host manifest.toManifestBase)

theorem sound_of_accepted (h : Accepted host manifest) : Sound host manifest := by
  obtain ⟨today, uuid, input, scope, _, _, made⟩ := h
  have made := createArchiveManifest_eq_ok made
  obtain ⟨items, _, entries⟩ := made.entries
  exact ⟨path_of_entry entries, made.version, made.digest⟩

theorem place_eq (sound : Sound host manifest) {entry : ArchiveEntry} (there : entry ∈ manifest.entries) :
    resolvePath (adapter.content manifest.location) entry.path = adapter.place manifest entry.path :=
  resolvePath_eq (sound.paths entry there) _

theorem valid_place (sound : Sound host manifest) (safe : Safe manifest.location) {entry : ArchiveEntry}
    (there : entry ∈ manifest.entries) : validPath (adapter.place manifest entry.path) := by
  apply validPath_append _ (clean_components (sound.paths entry there))
  apply validPath_append (valid_directory safe)
  intro name inside
  rw [List.mem_singleton.mp inside]
  decide

theorem place_ne_nil {path : JsString} : adapter.place manifest path ≠ [] := by simp [place, content]

theorem foldl_set_get (entries : List ArchiveEntry) (map : OrderedMap JsString ArchiveEntry) (path : JsString) :
    (∀ entry, (entries.foldl (fun map entry => map.set entry.path entry) map).get path = some entry →
      (entry ∈ entries ∧ entry.path = path) ∨ map.get path = some entry) ∧
    ((∃ entry ∈ entries, entry.path = path) ∨ map.get path ≠ none →
      (entries.foldl (fun map entry => map.set entry.path entry) map).get path ≠ none) := by
  induction entries generalizing map with
  | nil => simp
  | cons first rest ih =>
    rw [List.foldl_cons]
    obtain ⟨found, present⟩ := ih (map.set first.path first)
    rw [OrderedMap.get_set] at found present
    constructor
    · intro entry there
      rcases found entry there with ⟨inside, named⟩ | here
      · exact .inl ⟨List.mem_cons_of_mem _ inside, named⟩
      · split at here
        · rename_i same
          cases here
          exact .inl ⟨List.mem_cons_self, same⟩
        · exact .inr here
    · intro some'
      apply present
      by_cases same : first.path = path
      · right
        rw [if_pos same]
        exact Option.some_ne_none first
      · rw [if_neg same]
        rcases some' with ⟨entry, there, named⟩ | kept
        · left
          rcases List.mem_cons.mp there with rfl | inside
          · exact absurd named same
          · exact ⟨entry, inside, named⟩
        · exact .inr kept

theorem declared_eq_ok {path : JsString} {entry : ArchiveEntry} (h : declared manifest path = .ok entry) :
    entry ∈ manifest.entries ∧ entry.path = path := by
  unfold declared at h
  split at h
  · rename_i found
    cases h
    rcases (foldl_set_get manifest.entries .empty path).1 entry found with there | none'
    · exact there
    · cases none'
  · cases h

theorem declared_ok {path : JsString} (h : ∃ entry ∈ manifest.entries, entry.path = path) :
    ∃ entry, declared manifest path = .ok entry := by
  have present := (foldl_set_get manifest.entries .empty path).2 (.inl h)
  unfold declared declaredByPath
  split
  · exact ⟨_, rfl⟩
  · rename_i absent
    exact absurd absent present

/-- The files of contents. -/
def files (dir : List JsString) (contents : List StoredArchiveEntryContent) : List (List JsString × FileContent) :=
  contents.map fun c => (resolvePath dir c.path, .bytes c.content.buffer)

theorem validPath_dropLast {path : List JsString} (h : validPath path) : validPath path.dropLast := by
  rw [validPath_iff] at h ⊢
  exact fun name there => h name (List.dropLast_subset path there)

theorem writeEntry_eq_ok {dir target : List JsString} {c : StoredArchiveEntryContent}
    (h : writeEntry host manifest dir c disk = (.ok target, after)) :
    checkEntry host manifest dir c = .ok target ∧
      FileTree.store disk target (.bytes c.content.buffer) = .ok after := by
  unfold writeEntry at h
  cases checked : checkEntry host manifest dir c with
  | error e =>
    rw [checked] at h
    cases h
  | ok target' =>
    rw [checked, Eff.lift_ok_bind] at h
    rcases mkdir_cases target'.dropLast disk with ⟨made, parent, done⟩ | ⟨e, failed⟩
    · rw [bind_of_ok done] at h
      rcases writeFile_cases target' (.bytes c.content.buffer) made with ⟨written, file, done'⟩ | ⟨e, failed⟩
      · rw [bind_of_ok done'] at h
        cases h
        refine ⟨rfl, ?_⟩
        rw [FileTree.store, parent]
        exact file
      · rw [bind_of_error failed] at h
        cases h
    · rw [bind_of_error failed] at h
      cases h

theorem writeEntry_ok {dir target : List JsString} {c : StoredArchiveEntryContent}
    (checked : checkEntry host manifest dir c = .ok target) (valid : validPath target)
    (h : FileTree.store disk target (.bytes c.content.buffer) = .ok after) :
    writeEntry host manifest dir c disk = (.ok target, after) := by
  unfold writeEntry
  unfold FileTree.store at h
  rw [checked, Eff.lift_ok_bind]
  split at h
  · rename_i made parent
    rw [bind_of_ok (mkdir_eq_ok (validPath_dropLast valid) parent), bind_of_ok (writeFile_eq_ok valid h)]
    rfl
  · cases h

theorem checkEntry_target {dir target : List JsString} {c : StoredArchiveEntryContent}
    (h : checkEntry host manifest dir c = .ok target) : target = resolvePath dir c.path :=
  (resolveWithinDirectory_eq_ok.mp (checkEntry_eq_ok.mp h).2).1

theorem writeEntries_eq_ok {dir : List JsString} {contents : List StoredArchiveEntryContent}
    {targets : List (List JsString)} (h : writeEntries host manifest dir contents disk = (.ok targets, after)) :
    (∀ c ∈ contents, ∃ target, checkEntry host manifest dir c = .ok target) ∧
      FileTree.storeAll disk (files dir contents) = .ok after := by
  induction contents generalizing disk targets with
  | nil =>
    cases h
    exact ⟨by simp, rfl⟩
  | cons c rest ih =>
    unfold writeEntries at h
    rcases run : writeEntry host manifest dir c disk with ⟨result, next⟩
    cases result with
    | error e =>
      rw [bind_of_error run] at h
      cases h
    | ok target =>
      rw [bind_of_ok run] at h
      rcases run' : writeEntries host manifest dir rest next with ⟨result', last⟩
      cases result' with
      | error e =>
        rw [bind_of_error run'] at h
        cases h
      | ok targets' =>
        rw [bind_of_ok run'] at h
        cases h
        obtain ⟨checked, stored⟩ := writeEntry_eq_ok run
        obtain ⟨others, more⟩ := ih run'
        rw [List.forall_mem_cons]
        rw [checkEntry_target checked] at stored
        exact ⟨⟨⟨target, checked⟩, others⟩, FileTree.storeAll_cons.mpr ⟨next, stored, more⟩⟩

theorem writeEntries_ok {dir : List JsString} {contents : List StoredArchiveEntryContent}
    (checked : ∀ c ∈ contents, ∃ target, checkEntry host manifest dir c = .ok target)
    (valid : ∀ c ∈ contents, validPath (resolvePath dir c.path))
    (h : FileTree.storeAll disk (files dir contents) = .ok after) :
    ∃ targets, writeEntries host manifest dir contents disk = (.ok targets, after) := by
  induction contents generalizing disk with
  | nil =>
    cases h
    exact ⟨[], rfl⟩
  | cons c rest ih =>
    rw [List.forall_mem_cons] at checked valid
    obtain ⟨⟨target, first⟩, others⟩ := checked
    obtain ⟨next, stored, more⟩ := FileTree.storeAll_cons.mp h
    have named := checkEntry_target first
    obtain ⟨targets, run'⟩ := ih others valid.2 more
    have run : writeEntry host manifest dir c disk = (.ok target, next) :=
      writeEntry_ok first (named ▸ valid.1) (named ▸ stored)
    refine ⟨target :: targets, ?_⟩
    unfold writeEntries
    rw [bind_of_ok run, bind_of_ok run']
    rfl

theorem readEntry_safe {location : StoredArchiveLocation} {path : JsString} {target : List JsString}
    (safe : Safe location) (resolved : resolveWithinDirectory (adapter.content location) path = .ok target)
    (valid : validPath target) : (adapter.readEntry location path disk).1 =
      (disk.readFile target).mapError .fs >>= rawBytes := by
  have named : adapter.archiveDirectory location.tenantId location.userId location.archiveId =
      .ok (adapter.directory location) := archiveDirectory_eq_ok.mpr ⟨safe, rfl⟩
  have raw : readFile target disk = ((disk.readFile target).mapError .fs, disk) := by
    show read target (fun disk => disk.readFile target) disk = _
    rw [read, if_pos valid]
  have resolved : resolveWithinDirectory (adapter.directory location ++ [contentDirectory]) path = .ok target := resolved
  unfold readEntry
  rw [named, Eff.lift_ok_bind, resolved, Eff.lift_ok_bind]
  cases found : (disk.readFile target).mapError StorageError.fs with
  | ok content =>
    rw [found] at raw
    rw [bind_of_ok raw]
    rfl
  | error e =>
    rw [found] at raw
    rw [bind_of_error raw]
    rfl

theorem resolved_place (sound : Sound host manifest) {entry : ArchiveEntry} (there : entry ∈ manifest.entries) :
    resolveWithinDirectory (adapter.content manifest.location) entry.path = .ok (adapter.place manifest entry.path) := by
  rw [resolveWithinDirectory_eq_ok, place_eq sound there]
  exact ⟨rfl, List.prefix_append _ _⟩

theorem contentByPath_eq (sound : Sound host manifest) (safe : Safe manifest.location) {entry : ArchiveEntry}
    (there : entry ∈ manifest.entries) : adapter.contentByPath manifest.location disk entry.path =
      ((disk.readFile (adapter.place manifest entry.path)).mapError .fs >>= rawBytes).toOption.map .bytes := by
  rw [contentByPath, readEntry_safe safe (resolved_place sound there) (valid_place sound safe there)]

/-- What is above an entry, or in its place, is not changed before the entries are written. -/
theorem prepared_place {prepared : Disk} (h : adapter.Prepared manifest disk prepared) {path : JsString} {p : List JsString}
    (above : p <+: adapter.place manifest path) : prepared.node p =
      if p <+: adapter.directory manifest.location then some .dir else disk.node p := by
  rw [h, if_neg]
  rintro rfl
  have split : adapter.place manifest path = adapter.directory manifest.location ++ (contentDirectory :: components path) := by
    simp [place, content]
  rw [split, manifestPath, List.prefix_append_right_inj, List.cons_prefix_cons] at above
  exact names_differ.1 above.1.symm

theorem above_directory (layout : adapter.Layout disk) {p : List JsString}
    (above : p <+: adapter.directory manifest.location) (content : FileContent) : disk.node p ≠ some (.file content) := by
  have short := above.length_le
  rw [length_directory] at short
  exact layout.directories p (List.prefix_or_prefix_of_prefix above base_directory) short content

theorem place_beyond {path : JsString} : ¬ adapter.place manifest path <+: adapter.directory manifest.location := by
  intro above
  have short := above.length_le
  simp only [place, content, List.length_append, List.length_cons, List.length_nil, length_directory] at short
  omega

theorem place_under {path other : JsString} :
    adapter.place manifest path <+: adapter.place manifest other ↔ components path <+: components other :=
  List.prefix_append_right_inj _

theorem place_inj {path other : JsString} :
    adapter.place manifest path = adapter.place manifest other ↔ components path = components other :=
  List.append_right_inj _

variable {contents : List StoredArchiveEntryContent}

theorem file_of_entry (sound : Sound host manifest) (given : Matches host manifest contents) {entry : ArchiveEntry}
    (there : entry ∈ manifest.entries) :
    ∃ f ∈ files (adapter.content manifest.location) contents, f.1 = adapter.place manifest entry.path := by
  obtain ⟨c, inside, named, _⟩ := given.present entry there
  refine ⟨_, List.mem_map.mpr ⟨c, inside, rfl⟩, ?_⟩
  rw [named]
  exact place_eq sound there

theorem entry_of_file (sound : Sound host manifest) (given : Matches host manifest contents)
    {f : List JsString × FileContent} (there : f ∈ files (adapter.content manifest.location) contents) :
    ∃ entry ∈ manifest.entries, ∃ content : Content, f = (adapter.place manifest entry.path, .bytes content.buffer) ∧
      entry.Describes host content := by
  obtain ⟨c, inside, rfl⟩ := List.mem_map.mp there
  obtain ⟨entry, declared, named, described⟩ := given.described c inside
  refine ⟨entry, declared, c.content, ?_, described⟩
  rw [← place_eq sound declared, named]

/-- There is room for the files on the prepared disk just if the entries fit,
but for entries at the same place. -/
theorem room_iff (layout : adapter.Layout disk) (sound : Sound host manifest) (given : Matches host manifest contents)
    {prepared : Disk} (h : adapter.Prepared manifest disk prepared) :
    FileTree.Room prepared (files (adapter.content manifest.location) contents) ↔
      (∀ entry ∈ manifest.entries, ∀ p content, p <+: adapter.place manifest entry.path →
        p ≠ adapter.place manifest entry.path → disk.node p ≠ some (.file content)) ∧
      (∀ entry ∈ manifest.entries, disk.node (adapter.place manifest entry.path) ≠ some .dir) ∧
      ∀ entry ∈ manifest.entries, ∀ other ∈ manifest.entries, components entry.path <+: components other.path →
        components entry.path = components other.path := by
  have here (path : JsString) : prepared.node (adapter.place manifest path) = disk.node (adapter.place manifest path) := by
    rw [prepared_place h List.prefix_rfl, if_neg place_beyond]
  constructor
  · intro room
    refine ⟨?_, ?_, ?_⟩
    · intro entry there p content above strict file
      obtain ⟨f, inside, named⟩ := file_of_entry sound given there
      by_cases before : p <+: adapter.directory manifest.location
      · exact above_directory layout before content file
      · rw [← named] at above strict
        apply room.free f inside p content above strict
        rw [prepared_place h (named ▸ above), if_neg before]
        exact file
    · intro entry there dir
      obtain ⟨f, inside, named⟩ := file_of_entry sound given there
      apply room.vacant f inside
      rw [named, here]
      exact dir
    · intro entry there other there' above
      obtain ⟨f, inside, named⟩ := file_of_entry sound given there
      obtain ⟨g, inside', named'⟩ := file_of_entry sound given there'
      have same := room.apart f inside g inside' (by rw [named, named', place_under]; exact above)
      rwa [named, named', place_inj] at same
  · rintro ⟨free, vacant, apart⟩
    constructor
    · intro f inside p content above strict file
      obtain ⟨entry, there, _, rfl, _⟩ := entry_of_file sound given inside
      rw [prepared_place h above] at file
      split at file
      · cases file
      · exact free entry there p content above strict file
    · intro f inside dir
      obtain ⟨entry, there, _, rfl, _⟩ := entry_of_file sound given inside
      rw [here] at dir
      exact vacant entry there dir
    · intro f inside g inside' above
      obtain ⟨entry, there, _, rfl, _⟩ := entry_of_file sound given inside
      obtain ⟨other, there', _, rfl, _⟩ := entry_of_file sound given inside'
      exact place_inj.mpr (apart entry there other there' (place_under.mp above))

variable {metadata : Option EncryptedArchiveMetadata}

/-- The contents of an archive are written just if each is what the manifest
declares and there is room for all. -/
theorem writeMembers_ok (metadata : Option EncryptedArchiveMetadata) (sound : Sound host manifest) (safe : Safe manifest.location) (given : Matches host manifest contents)
    (layout : adapter.Layout disk) {prepared : Disk} (h : adapter.Prepared manifest disk prepared)
    (checked : ∀ c ∈ contents, ∃ target, checkEntry host manifest (adapter.content manifest.location) c = .ok target)
    (stored : FileTree.storeAll prepared (files (adapter.content manifest.location) contents) = .ok after) :
    ∃ result last, writeMembers host ⟨manifest, contents, metadata⟩ (adapter.directory manifest.location) prepared =
      (.ok result, last) ∧ ∀ path, last.node (adapter.place manifest path) = after.node (adapter.place manifest path) := by
  have valid : ∀ c ∈ contents, validPath (resolvePath (adapter.content manifest.location) c.path) := by
    intro c inside
    obtain ⟨entry, there, named, _⟩ := given.described c inside
    rw [← named, place_eq sound there]
    exact valid_place sound safe there
  obtain ⟨targets, written⟩ := writeEntries_ok checked valid stored
  have written : writeEntries host manifest (adapter.directory manifest.location ++ [contentDirectory]) contents prepared =
      (.ok targets, after) := written
  unfold writeMembers
  rw [bind_of_ok written]
  cases metadata with
  | none => exact ⟨_, after, rfl, fun _ => rfl⟩
  | some metadata =>
    have grown : FileTree.Grows prepared after := by
      apply FileTree.storeAll_grows _ stored
      intro f inside
      obtain ⟨entry, there, _, rfl, _⟩ := entry_of_file sound given inside
      exact place_ne_nil
    have parent : after.node (adapter.directory manifest.location) = some .dir :=
      grown.dirs _ (prepared_directory h)
    have within : Within (adapter.directory manifest.location ++ [contentDirectory]) prepared
        (writeEntries host manifest (adapter.directory manifest.location ++ [contentDirectory]) contents prepared).2 :=
      writeEntries_within (prepared_directory h)
    rw [written] at within
    have free : after.node (adapter.directory manifest.location ++ [metadataFile]) ≠ some .dir := by
      rw [within _ (not_under names_differ.2.1)]
      exact prepared_metadata layout h
    obtain ⟨last, made⟩ := (FileTree.writeFile_ok_iff (FileContent.metadata metadata)).mpr
      ⟨free, by rwa [List.dropLast_concat]⟩
    have valid' : validPath (adapter.directory manifest.location ++ [metadataFile]) := by
      apply validPath_append (valid_directory safe)
      intro name inside
      rw [List.mem_singleton.mp inside]
      decide
    have done : writeMetadata (adapter.directory manifest.location) (some metadata) after =
        (.ok (some (adapter.directory manifest.location ++ [metadataFile])), last) := by
      rw [writeMetadata, bind_of_ok (writeFile_eq_ok valid' made)]
      rfl
    refine ⟨_, last, bind_of_ok done, ?_⟩
    intro path
    rw [FileTree.writeFile_eq_ok made, if_neg]
    intro same
    have split : adapter.place manifest path = adapter.directory manifest.location ++ (contentDirectory :: components path) := by
      simp [place, content]
    rw [split, List.append_right_inj] at same
    exact names_differ.2.1 (List.cons.inj same).1.symm

/-- The contents are all written. -/
theorem writeMembers_eq_ok {result : WriteArchiveResult} {last prepared : Disk}
    (h : writeMembers host ⟨manifest, contents, metadata⟩ (adapter.directory manifest.location) prepared = (.ok result, last)) :
    ∃ after, (∀ c ∈ contents, ∃ target, checkEntry host manifest (adapter.content manifest.location) c = .ok target) ∧
      FileTree.storeAll prepared (files (adapter.content manifest.location) contents) = .ok after := by
  unfold writeMembers at h
  rcases run : writeEntries host manifest (adapter.directory manifest.location ++ [contentDirectory]) contents prepared with
    ⟨result', after⟩
  cases result' with
  | error e =>
    rw [bind_of_error run] at h
    cases h
  | ok targets => exact ⟨after, writeEntries_eq_ok run⟩

/-- An accepted manifest whose contents match is stored with them just if its
names are safe and its entries fit. -/
theorem stores_iff (layout : adapter.Layout disk) (accepted : Accepted host manifest)
    (given : Matches host manifest contents) :
    adapter.Stores host ⟨manifest, contents, metadata⟩ disk ↔ Safe manifest.location ∧ adapter.Fits disk manifest := by
  have sound := sound_of_accepted accepted
  have some' : ∀ f ∈ files (adapter.content manifest.location) contents, f.1 ≠ [] := by
    intro f inside
    obtain ⟨entry, there, _, rfl, _⟩ := entry_of_file sound given inside
    exact place_ne_nil
  constructor
  · intro stores
    obtain ⟨result, succeeds⟩ := stores.succeeds
    by_cases safe : Safe manifest.location
    · refine ⟨safe, ?_⟩
      have safe' : Safe (WriteArchiveInput.mk manifest contents metadata).manifest.location := safe
      obtain ⟨prepared, nodes, run⟩ := writeArchive_safe host layout safe'
      rcases done : writeMembers host ⟨manifest, contents, metadata⟩ (adapter.directory manifest.location) prepared with
        ⟨result', last⟩
      have run : adapter.writeArchive host ⟨manifest, contents, metadata⟩ disk = (result', last) := run.trans done
      rw [run] at succeeds
      cases succeeds
      obtain ⟨after, _, stored⟩ := writeMembers_eq_ok done
      have room := (FileTree.storeAll_ok_iff some').mp ⟨after, stored⟩
      obtain ⟨free, vacant, apart⟩ := (room_iff layout sound given nodes).mp room
      refine ⟨free, vacant, ?_⟩
      intro entry there other there' above
      have same := apart entry there other there' above
      obtain ⟨integrity, verified, complete⟩ := stores.complete
      have verified := (verifyArchiveManifest_eq_ok verified complete).2
      obtain ⟨content, found, digest, size⟩ := verified entry there
      obtain ⟨content', found', digest', size'⟩ := verified other there'
      rw [contentByPath_eq sound safe there, place_inj.mpr same, ← contentByPath_eq sound safe there', found'] at found
      cases found
      exact ⟨same, digest.symm.trans digest', size.symm.trans size'⟩
    · have safe' : ¬ Safe (WriteArchiveInput.mk manifest contents metadata).manifest.location := safe
      obtain ⟨e, after, run, _⟩ := writeArchive_refused host layout safe'
      rw [run] at succeeds
      cases succeeds
  · rintro ⟨safe, fits⟩
    have safe' : Safe (WriteArchiveInput.mk manifest contents metadata).manifest.location := safe
    obtain ⟨prepared, nodes, run⟩ := writeArchive_safe host layout safe'
    have alike {entry other : ArchiveEntry} (there : entry ∈ manifest.entries) (there' : other ∈ manifest.entries)
        (same : components entry.path = components other.path) {content : Content} (described : entry.Describes host content) :
        other.Describes host content := by
      obtain ⟨_, digest, size⟩ := fits.apart entry there other there' (same ▸ List.prefix_rfl)
      exact ⟨described.1.trans digest, described.2.trans size⟩
    have checked : ∀ c ∈ contents, ∃ target, checkEntry host manifest (adapter.content manifest.location) c = .ok target := by
      intro c inside
      obtain ⟨entry, there, named, described⟩ := given.described c inside
      obtain ⟨member, known⟩ := declared_ok ⟨entry, there, named⟩
      obtain ⟨there', named'⟩ := declared_eq_ok known
      have same : entry.path = member.path := named.trans named'.symm
      have described := alike there there' (by rw [same]) described
      refine ⟨adapter.place manifest entry.path, checkEntry_eq_ok.mpr ⟨⟨member, known, described.1, described.2⟩, ?_⟩⟩
      rw [← named]
      exact resolved_place sound there
    have room := (room_iff layout sound given nodes).mpr
      ⟨fits.free, fits.vacant, fun entry there other there' above => (fits.apart entry there other there' above).1⟩
    obtain ⟨after, stored⟩ := (FileTree.storeAll_ok_iff some').mpr room
    obtain ⟨result, last, done, kept⟩ := writeMembers_ok metadata sound safe given layout nodes checked stored
    have written := writeMembers_written host layout nodes
    have done : writeMembers host ⟨manifest, contents, metadata⟩ (adapter.directory manifest.location) prepared =
      (.ok result, last) := done
    rw [done] at written run
    constructor
    · exact ⟨result, by rw [run]⟩
    · rw [run]
      exact (readManifest_eq_ok safe).mpr written.listed
    · apply verifyArchiveManifest_ok sound.version
      refine ⟨sound.digest, ?_⟩
      intro entry there
      obtain ⟨f, inside, named⟩ := file_of_entry sound given there
      obtain ⟨g, inside', same, file⟩ := FileTree.storeAll_stored some' stored inside
      obtain ⟨other, there', content, rfl, described⟩ := entry_of_file sound given inside'
      have here : last.node (adapter.place manifest entry.path) = some (.file (.bytes content.buffer)) := by
        rw [kept, ← named]
        exact file
      have described := alike there' there (place_inj.mp (same.trans named)) described
      refine ⟨.bytes content.buffer, ?_, described⟩
      rw [run, contentByPath_eq sound safe there, FileTree.readFile_eq_ok.mpr here]
      rfl

theorem sameNames_of_nodes {before : Disk} {tenantId : JsString} {userId : Option JsString}
    (h : pathSegmentPattern tenantId → pathSegmentPattern (userId.getD tenantScopeSegment) → ∀ name,
      before.node (adapter.account tenantId (userId.getD tenantScopeSegment) ++ [name]) ≠ none ↔
        after.node (adapter.account tenantId (userId.getD tenantScopeSegment) ++ [name]) ≠ none) :
    SameNames (adapter.listArchives tenantId userId before).1 (adapter.listArchives tenantId userId after).1 := by
  by_cases safe : pathSegmentPattern tenantId ∧ pathSegmentPattern (userId.getD tenantScopeSegment)
  · obtain ⟨names, listed, inside⟩ := listArchives_names adapter before userId safe.1 safe.2
    obtain ⟨names', listed', inside'⟩ := listArchives_names adapter after userId safe.1 safe.2
    rw [listed, listed']
    exact fun name => (inside name).trans ((h safe.1 safe.2 name).trans (inside' name).symm)
  · obtain ⟨e, fails⟩ := listArchives_refused adapter safe
    rw [fails, fails]
    rfl

/-- A manifest is read as before if its file is as before. -/
theorem sameManifest {before : Disk} {location : StoredArchiveLocation} (layout : adapter.Layout before)
    (layout' : adapter.Layout after)
    (h : before.node (adapter.manifestPath location) = after.node (adapter.manifestPath location)) :
    (adapter.readManifest location before).1 = (adapter.readManifest location after).1 := by
  by_cases safe : Safe location
  · exact readManifest_congr safe layout layout' h
  · obtain ⟨e, fails⟩ := readManifest_refused adapter safe
    rw [fails, fails]

/-- Lists and manifests are as before a call just if its names are not safe or
this very manifest was stored before. -/
theorem sameAnswers_iff {input : WriteArchiveInput} (layout : adapter.Layout disk) :
    adapter.SameAnswers disk (adapter.writeArchive host input disk).2 ↔
      ¬ Safe input.manifest.location ∨ (adapter.readManifest input.manifest.location disk).1 = .ok input.manifest := by
  have kept : adapter.Layout (adapter.writeArchive host input disk).2 := writeArchive_layout layout
  by_cases safe : Safe input.manifest.location
  · obtain ⟨prepared, nodes, run⟩ := writeArchive_safe host layout safe
    have written := writeMembers_written host layout nodes
    rw [run] at kept ⊢
    constructor
    · intro same
      right
      rw [same.reads]
      exact (readManifest_eq_ok safe).mpr written.listed
    · rintro (refused | known)
      · exact absurd safe refused
      · have known := (readManifest_eq_ok safe).mp known
        have made : disk.node (adapter.directory input.manifest.location) = some .dir :=
          FileTree.node_above (q := adapter.manifestPath input.manifest.location) (by rw [known]; nofun)
            (List.prefix_append _ _) member_ne_dir.symm
        constructor
        · intro tenantId userId
          apply sameNames_of_nodes
          intro _ _ name
          by_cases below : adapter.directory input.manifest.location <+:
              adapter.account tenantId (userId.getD tenantScopeSegment) ++ [name]
          · have same := below.eq_of_length (by simp)
            rw [← same, made, written.made]
          · rw [written.outside _ below, if_neg]
            intro above
            exact below (above.eq_of_length (by simp) ▸ List.prefix_rfl)
        · intro location
          apply sameManifest layout kept
          by_cases same : adapter.directory input.manifest.location = adapter.directory location
          · have path : adapter.manifestPath location = adapter.manifestPath input.manifest.location := by
              rw [manifestPath, manifestPath, same]
            rw [path, known, written.listed]
          · rw [manifestPath, written.outside _ fun below => same (directory_eq_of_under below), if_neg]
            intro above
            have short := above.length_le
            simp only [List.length_append, List.length_cons, List.length_nil, length_directory] at short
            omega
  · obtain ⟨e, made, run, nodes⟩ := writeArchive_refused host layout safe
    rw [run] at kept ⊢
    refine iff_of_true ⟨?_, ?_⟩ (.inl safe)
    · intro tenantId userId
      apply sameNames_of_nodes
      intro _ _ name
      rw [nodes, if_neg]
      intro above
      have short := above.length_le
      simp only [List.length_append, List.length_cons, List.length_nil, length_account] at short
      omega
    · intro location
      apply sameManifest layout kept
      rw [nodes, if_neg]
      intro above
      have short := above.length_le
      simp only [manifestPath, List.length_append, List.length_cons, List.length_nil, length_directory] at short
      omega

end

/-- In every state of the disk: an accepted manifest with matching contents is
stored and read back just if its names are safe and its entries fit; a call that
rejects, or lacks a content, leaves the answers as they were just if its names
are not safe or the manifest was there before. -/
theorem archives_stored_iff (adapter : BackupAdapter) (host : Host) {past : List Call} {disk : Disk}
    (run : (adapter.archives host).Run past disk) :
    (∀ manifest contents metadata, Accepted host manifest → Matches host manifest contents →
      (adapter.Stores host ⟨manifest, contents, metadata⟩ disk ↔ Safe manifest.location ∧ adapter.Fits disk manifest)) ∧
    ∀ input, (∃ e, (adapter.writeArchive host input disk).1 = .error e) ∨ input.Lacks →
      (adapter.SameAnswers disk (adapter.writeArchive host input disk).2 ↔
        ¬ Safe input.manifest.location ∨ (adapter.readManifest input.manifest.location disk).1 = .ok input.manifest) :=
  ⟨fun _ _ _ accepted given => stores_iff (layout_of_run run) accepted given,
    fun _ _ => sameAnswers_iff (layout_of_run run)⟩

def sampleAdapter : BackupAdapter where
  basePath := [js "backups"]
  clean := by decide

def emptyDisk : Disk where
  nodes := Table.empty
  closed := by
    intro path there
    unfold nodeAt at there ⊢
    split at there
    · rename_i root
      rw [root]
      rfl
    · exact absurd rfl there

theorem emptyDisk_file (path : List JsString) (content : FileContent) : emptyDisk.node path ≠ some (.file content) := by
  unfold FileTree.node nodeAt
  split <;> nofun

theorem emptyDisk_empty : sampleAdapter.Empty emptyDisk where
  room path _ content := emptyDisk_file path content
  empty path below other := by
    have some' : path ≠ [] := by
      rintro rfl
      cases List.prefix_nil.mp below
    exact if_neg some'

def sampleRequest : JsValue :=
  .object [(js "session", .object [(js "tenantId", .string (js "acme")), (js "userId", .string (js "alice"))]),
    (js "resources", .array [.string (js "mail")]), (js "issuedAt", .number 0)]

theorem sampleManifest_accepted : Accepted asciiHost (sampleManifest "acme" "alice") := by
  have made : createUserBackupScope asciiHost 0 sampleRequest =
      .ok ⟨js "acme", js "alice", [js "mail"], js "1970-01-01T00:00:00.000Z", none⟩ := by decide
  exact ⟨0, [], sampleInput "acme" "alice", sampleScope "acme" "alice", .user made, rfl, sampleManifest_created⟩

def sampleContents : List StoredArchiveEntryContent := [⟨js "inbox/1.eml", .text (js "hello")⟩]

theorem sampleContents_describe : (⟨js "mail", js "inbox/1.eml", 5, sampleDigest, none⟩ : ArchiveEntry).Describes asciiHost
    (.text (js "hello")) := by
  have digest : sha256Hex asciiHost (utf8 (js "hello")) = sampleDigest := by decide
  have size : ((utf8 (js "hello")).length : Int) = 5 := by decide
  exact ⟨digest, size⟩

theorem sampleContents_match (manifest : BackupManifest)
    (h : manifest.entries = [⟨js "mail", js "inbox/1.eml", 5, sampleDigest, none⟩]) :
    Matches asciiHost manifest sampleContents := by
  constructor
  · intro entry there
    rw [h] at there
    cases List.mem_singleton.mp there
    exact ⟨_, List.mem_singleton.mpr rfl, rfl, sampleContents_describe⟩
  · intro c inside
    cases List.mem_singleton.mp inside
    exact ⟨_, h ▸ List.mem_singleton.mpr rfl, rfl, sampleContents_describe⟩

theorem sampleManifest_safe : Safe (sampleManifest "acme" "alice").location where
  tenant := by decide
  user := ⟨js "alice", rfl, by decide⟩
  archive := by decide

theorem archives_stored_iff_alice :
    sampleAdapter.Stores asciiHost ⟨sampleManifest "acme" "alice", sampleContents, none⟩ emptyDisk := by
  have stored := (archives_stored_iff sampleAdapter asciiHost (.start emptyDisk_empty)).1 _ _ none
    sampleManifest_accepted (sampleContents_match _ rfl)
  refine stored.mpr ⟨sampleManifest_safe, ?_⟩
  constructor
  · exact fun _ _ p content _ _ => emptyDisk_file p content
  · intro entry there dir
    rw [emptyDisk_empty.empty] at dir
    · cases dir
    · exact base_directory.trans ((List.prefix_append _ _).trans (List.prefix_append _ _))
    · intro same
      have lengths := congrArg List.length same
      simp only [place, content, List.length_append, List.length_cons, List.length_nil, length_directory] at lengths
      omega
  · intro entry there other there' _
    cases List.mem_singleton.mp there
    cases List.mem_singleton.mp there'
    exact ⟨rfl, rfl, rfl⟩

def sampleProvider : ProviderBackupScope :=
  ⟨js "provider", js "acme", [js "mail"], [js "snapshot"], js "1970-01-01T00:00:00.000Z", js "1970-01-01T00:00:01.000Z",
    js "key/1"⟩

def sampleProviderRequest : JsValue :=
  .object [(js "providerId", .string (js "provider")), (js "tenantId", .string (js "acme")),
    (js "resources", .array [.string (js "mail")]), (js "operations", .array [.string (js "snapshot")]),
    (js "issuedAt", .number 0), (js "expiresAt", .number 1000), (js "encryptionKeyReference", .string (js "key/1"))]

def sampleTenantInput : JsValue :=
  .object [(js "scope", (BackupScope.provider sampleProvider).value), (js "archiveId", .string (js "monday")),
    (js "entries", .array [.object [(js "resource", .string (js "mail")), (js "path", .string (js "inbox/1.eml")),
      (js "bytes", .number 5), (js "sha256", .string sampleDigest)]]),
    (js "createdAt", .number 0)]

/-- No archive of a tenant is stored, and the manifest of an archive without its
content is. -/
theorem archives_incomplete :
    (¬ ∀ past disk manifest contents metadata, (sampleAdapter.archives asciiHost).Run past disk →
      Accepted asciiHost manifest → Matches asciiHost manifest contents →
        sampleAdapter.Stores asciiHost ⟨manifest, contents, metadata⟩ disk) ∧
    ¬ ∀ past disk (input : WriteArchiveInput), (sampleAdapter.archives asciiHost).Run past disk → input.Lacks →
      sampleAdapter.SameAnswers disk (sampleAdapter.writeArchive asciiHost input disk).2 := by
  have run : (sampleAdapter.archives asciiHost).Run [] emptyDisk := .start emptyDisk_empty
  have layout : sampleAdapter.Layout emptyDisk := layout_of_run run
  constructor
  · intro stored
    have scope : createProviderBackupScope asciiHost 0 sampleProviderRequest = .ok sampleProvider := by decide
    obtain ⟨manifest, made⟩ := eq_ok_of_toBool
      (show (createArchiveManifest asciiHost 0 [] sampleTenantInput).toBool = true by decide)
    have accepted : Accepted asciiHost manifest :=
      ⟨0, [], sampleTenantInput, .provider sampleProvider, .provider scope, rfl, made⟩
    have manifests := createArchiveManifest_eq_ok made
    obtain ⟨items, given, listed⟩ := manifests.entries
    cases given
    have entries : manifest.entries = [⟨js "mail", js "inbox/1.eml", 5, sampleDigest, none⟩] := by
      have known : entriesFrom 0 [.object [(js "resource", .string (js "mail")), (js "path", .string (js "inbox/1.eml")),
          (js "bytes", .number 5), (js "sha256", .string sampleDigest)]] =
          .ok [⟨js "mail", js "inbox/1.eml", 5, sampleDigest, none⟩] := by
        decide
      exact Except.ok.inj (listed.symm.trans known)
    have given := sampleContents_match manifest entries
    have safe := ((stores_iff layout accepted given).mp (stored [] emptyDisk manifest sampleContents none run accepted given)).1
    obtain ⟨user, named, _⟩ := safe.user
    have nobody : manifest.userId = none := (Except.ok.inj manifests.userId).symm
    cases nobody.symm.trans named
  · intro same
    have lacks : WriteArchiveInput.Lacks ⟨sampleManifest "acme" "alice", [], none⟩ :=
      ⟨_, List.mem_singleton.mpr rfl, by simp⟩
    rcases (sameAnswers_iff layout).mp (same [] emptyDisk _ run lacks) with refused | known
    · exact refused sampleManifest_safe
    · exact emptyDisk_file _ _ ((readManifest_eq_ok sampleManifest_safe).mp known)

end BackupAdapter

end GuloGulo.Backup
