import GuloGulo.Data.Table
import Mathlib.Data.List.Infix

/-!
# A tree of files

A file system as what is at each path: a directory, or a file with its content.
What is there lies in a directory. Names have no limit, and nothing fails but
for what is at the paths of a call.
-/

namespace GuloGulo.Data

inductive Node (γ : Type) where
  | dir
  | file (content : γ)

def Node.isDir {γ : Type} : Node γ → Bool
  | dir => true
  | file _ => false

/-- The codes `ENOENT`, `ENOTDIR`, `EISDIR` and `EEXIST`. -/
inductive FsError where
  | noEntry | notDirectory | isDirectory | fileExists
  deriving DecidableEq

theorem OrderedMap.mem_keys {κ ν : Type} [DecidableEq κ] {m : OrderedMap κ ν} {k : κ} : k ∈ m.keys ↔ m.get k ≠ none := by
  constructor
  · intro inside gone
    obtain ⟨⟨_, v⟩, row, rfl⟩ := List.mem_map.mp inside
    rw [OrderedMap.mem_rows.mp row] at gone
    cases gone
  · intro there
    by_contra absent
    exact there (OrderedMap.get_eq_none_of_keys absent)

section
variable {κ γ : Type} [DecidableEq κ]

/-- What is at a path: the root is a directory. -/
def nodeAt (nodes : OrderedMap (List κ) (Node γ)) (path : List κ) : Option (Node γ) :=
  if path = [] then some .dir else nodes.get path

attribute [local simp] nodeAt in
theorem nodeAt_set {nodes : OrderedMap (List κ) (Node γ)} {path : List κ} (h : path ≠ []) (n : Node γ) (q : List κ) :
    nodeAt (nodes.set path n) q = if path = q then some n else nodeAt nodes q := by
  unfold nodeAt
  rw [OrderedMap.get_set]
  by_cases root : q = []
  · rw [if_pos root, if_pos root, if_neg fun same => h (same.trans root)]
  · rw [if_neg root, if_neg root]

theorem nodeAt_deleteWhere {nodes : OrderedMap (List κ) (Node γ)} {p : List κ → Bool} (h : p [] = false) (q : List κ) :
    nodeAt (nodes.deleteWhere fun n => p n.1) q = if p q then none else nodeAt nodes q := by
  unfold nodeAt OrderedMap.get
  rw [Table.lookup_deleteWhere]
  by_cases root : q = []
  · rw [if_pos root, if_pos root, if_neg (by rw [root, h]; exact Bool.false_ne_true)]
  · rw [if_neg root, if_neg root]
    cases found : nodes.lookup q with
    | none => simp
    | some n =>
      have key : n.1 = q := Table.key_of_lookup found
      rw [← key, Option.filter_some]
      cases p n.1 <;> simp

end

structure FileTree (κ γ : Type) [DecidableEq κ] where
  nodes : OrderedMap (List κ) (Node γ)
  closed : ∀ path, nodeAt nodes path ≠ none → nodeAt nodes path.dropLast = some .dir

namespace FileTree
variable {κ γ : Type} [DecidableEq κ]

def node (t : FileTree κ γ) (path : List κ) : Option (Node γ) := nodeAt t.nodes path

def isDir (t : FileTree κ γ) (path : List κ) : Bool := (t.node path).any Node.isDir

attribute [local simp] isDir in
theorem isDir_iff {t : FileTree κ γ} {path : List κ} : t.isDir path = true ↔ t.node path = some .dir := by
  unfold isDir
  cases t.node path with
  | none => simp
  | some n => cases n <;> simp [Node.isDir]

/-- A path that leads through a file, so that nothing can be there. -/
def blocked (t : FileTree κ γ) (path : List κ) : Bool :=
  path.inits.any fun p => p != path && (t.node p).any fun n => !n.isDir

/-- Why there is nothing at a path. -/
def missing (t : FileTree κ γ) (path : List κ) : FsError := if t.blocked path then .notDirectory else .noEntry

theorem closed_set (t : FileTree κ γ) {path : List κ} {n : Node γ} (some' : path ≠ [])
    (parent : t.node path.dropLast = some .dir) (fresh : t.node path ≠ some .dir) (q : List κ)
    (there : nodeAt (t.nodes.set path n) q ≠ none) : nodeAt (t.nodes.set path n) q.dropLast = some .dir := by
  rw [nodeAt_set some'] at there ⊢
  have old : t.node q ≠ none → t.node q.dropLast = some .dir := t.closed q
  by_cases same : path = q
  · subst same
    have shorter : path ≠ path.dropLast := by
      intro same
      have lengths := congrArg List.length same
      have positive := List.length_pos_iff.mpr some'
      rw [List.length_dropLast] at lengths
      omega
    rw [if_neg shorter]
    exact parent
  · rw [if_neg same] at there
    have above : path ≠ q.dropLast := fun above => fresh (above ▸ old there)
    rw [if_neg above]
    exact old there

/-- A new node in a directory, in the place of no other directory. -/
def put (t : FileTree κ γ) (path : List κ) (n : Node γ) : FileTree κ γ :=
  if h : path ≠ [] ∧ t.isDir path.dropLast = true ∧ t.isDir path = false then
    { nodes := t.nodes.set path n
      closed := t.closed_set h.1 (isDir_iff.mp h.2.1) fun dir => by simp [isDir_iff.mpr dir] at h }
  else t

/-- `mkdir` of the directories on a path below another. -/
def mkdirFrom (t : FileTree κ γ) (parent : List κ) : List κ → Except FsError (FileTree κ γ)
  | [] => .ok t
  | name :: rest =>
    match t.node (parent ++ [name]) with
    | some .dir => mkdirFrom t (parent ++ [name]) rest
    | some (.file _) => .error (if rest.isEmpty then .fileExists else .notDirectory)
    | none => mkdirFrom (t.put (parent ++ [name]) .dir) (parent ++ [name]) rest

/-- `mkdir` with `recursive`. -/
def mkdir (t : FileTree κ γ) (path : List κ) : Except FsError (FileTree κ γ) := t.mkdirFrom [] path

def writeFile (t : FileTree κ γ) (path : List κ) (content : γ) : Except FsError (FileTree κ γ) :=
  if t.isDir path then .error .isDirectory
  else if t.isDir path.dropLast then .ok (t.put path (.file content))
  else .error (t.missing path)

def readFile (t : FileTree κ γ) (path : List κ) : Except FsError γ :=
  match t.node path with
  | some (.file content) => .ok content
  | some .dir => .error .isDirectory
  | none => .error (t.missing path)

/-- The names in a directory. -/
def names (t : FileTree κ γ) (path : List κ) : List κ :=
  t.nodes.keys.filterMap fun p => if p.dropLast = path then p.getLast? else none

def readdir (t : FileTree κ γ) (path : List κ) : Except FsError (List κ) :=
  match t.node path with
  | some .dir => .ok (t.names path)
  | some (.file _) => .error .notDirectory
  | none => .error (t.missing path)

/-- All that is at a path or below it. -/
def under (path q : List κ) : Bool := !path.isEmpty && path.isPrefixOf q

def remove (t : FileTree κ γ) (path : List κ) : FileTree κ γ where
  nodes := t.nodes.deleteWhere fun n => under path n.1
  closed := by
    intro q there
    have root : under path [] = false := by cases path <;> rfl
    rw [nodeAt_deleteWhere root] at there ⊢
    split at there
    · exact absurd rfl there
    · rename_i kept
      have above : ¬ under path q.dropLast = true := by
        intro gone
        apply kept
        simp only [under, Bool.and_eq_true, List.isPrefixOf_iff_prefix] at gone ⊢
        exact ⟨gone.1, gone.2.trans (List.dropLast_prefix q)⟩
      rw [if_neg above]
      exact t.closed q there

/-- `rm` with `recursive` and `force`. -/
def rm (t : FileTree κ γ) (path : List κ) : Except FsError (FileTree κ γ) :=
  if t.blocked path then .error .notDirectory else .ok (t.remove path)

/-! ## What is there -/

section
variable {t u : FileTree κ γ} {path q : List κ} {n : Node γ}

@[simp] theorem node_nil : t.node [] = some .dir := rfl

theorem node_put (some' : path ≠ []) (parent : t.node path.dropLast = some .dir) (fresh : t.node path ≠ some .dir) :
    (t.put path n).node q = if path = q then some n else t.node q := by
  have free : t.isDir path = false := by
    rw [Bool.eq_false_iff]
    exact fun dir => fresh (isDir_iff.mp dir)
  unfold put
  rw [dif_pos ⟨some', isDir_iff.mpr parent, free⟩]
  exact nodeAt_set some' n q

theorem node_remove (h : path ≠ []) : (t.remove path).node q = if path <+: q then none else t.node q := by
  have root : under path [] = false := by cases path <;> rfl
  have below : under path q = true ↔ path <+: q := by
    simp [under, h]
  unfold node remove
  rw [nodeAt_deleteWhere root]
  simp only [below]

/-- All that is above something is a directory. -/
theorem node_above (there : t.node q ≠ none) (h : path <+: q) (strict : path ≠ q) : t.node path = some .dir := by
  induction q using List.reverseRecOn with
  | nil => exact absurd (List.prefix_nil.mp h) strict
  | append_singleton q name ih =>
    have parent := t.closed _ there
    rw [List.dropLast_concat] at parent
    rcases List.prefix_concat_iff.mp h with same | above
    · exact absurd same strict
    · by_cases same : path = q
      · rw [same]
        exact parent
      · exact ih (by rw [node, parent]; nofun) above same

theorem blocked_iff : t.blocked path = true ↔ ∃ p content, p <+: path ∧ p ≠ path ∧ t.node p = some (.file content) := by
  simp only [blocked, List.any_eq_true, List.mem_inits, Bool.and_eq_true, bne_iff_ne, Option.any_eq_true]
  constructor
  · rintro ⟨p, above, strict, n, there, file⟩
    cases n with
    | dir => cases file
    | file content => exact ⟨p, content, above, strict, there⟩
  · rintro ⟨p, content, above, strict, there⟩
    exact ⟨p, above, strict, _, there, rfl⟩

theorem mem_names {name : κ} : name ∈ t.names path ↔ t.node (path ++ [name]) ≠ none := by
  have key : name ∈ t.names path ↔ path ++ [name] ∈ t.nodes.keys := by
    simp only [names, List.mem_filterMap]
    constructor
    · rintro ⟨p, inside, last⟩
      split at last
      · rename_i same
        rw [← same, List.dropLast_append_getLast? name last]
        exact inside
      · cases last
    · intro inside
      exact ⟨_, inside, by simp⟩
  rw [key, node, nodeAt, if_neg (by simp)]
  exact OrderedMap.mem_keys

theorem readdir_eq_ok {found : List κ} (h : t.readdir path = .ok found) :
    t.node path = some .dir ∧ found = t.names path := by
  unfold readdir at h
  split at h
  · rename_i dir
    cases h
    exact ⟨dir, rfl⟩
  · cases h
  · cases h

theorem missing_congr (h : ∀ p, p <+: path → t.node p = u.node p) : t.missing path = u.missing path := by
  have same : t.blocked path = u.blocked path := by
    rw [Bool.eq_iff_iff, blocked_iff, blocked_iff]
    constructor
    · rintro ⟨p, content, above, strict, there⟩
      exact ⟨p, content, above, strict, h p above ▸ there⟩
    · rintro ⟨p, content, above, strict, there⟩
      exact ⟨p, content, above, strict, (h p above).symm ▸ there⟩
  rw [missing, missing, same]

/-- What is read at a path depends on what is on the way to it. -/
theorem readFile_congr (h : ∀ p, p <+: path → t.node p = u.node p) : t.readFile path = u.readFile path := by
  rw [readFile, readFile, h path List.prefix_rfl, missing_congr h]

theorem readFile_eq_ok {content : γ} : t.readFile path = .ok content ↔ t.node path = some (.file content) := by
  unfold readFile
  split <;> simp_all

/-! ## What a directory that is made changes -/

attribute [local simp] mkdirFrom in
theorem mkdirFrom_eq_ok (parent rest : List κ) (dir : t.node parent = some .dir) (h : t.mkdirFrom parent rest = .ok u) :
    u.node q = if q <+: parent ++ rest then some .dir else t.node q := by
  induction rest generalizing t parent with
  | nil =>
    cases h
    rw [List.append_nil]
    split
    · rename_i above
      by_cases same : q = parent
      · rw [same, dir]
      · exact node_above (by rw [dir]; nofun) above same
    · rfl
  | cons name rest ih =>
    have joined : parent ++ name :: rest = (parent ++ [name]) ++ rest := by simp
    rw [joined]
    unfold mkdirFrom at h
    split at h
    · rename_i next
      exact ih _ next h
    · cases h
    · rename_i absent
      have some' : parent ++ [name] ≠ [] := by simp
      have above : t.node (parent ++ [name]).dropLast = some .dir := by rwa [List.dropLast_concat]
      have made (q : List κ) : (t.put (parent ++ [name]) .dir).node q =
          if parent ++ [name] = q then some .dir else t.node q :=
        node_put some' above (by rw [absent]; nofun)
      rw [ih _ (by rw [made, if_pos rfl]) h, made]
      split
      · rfl
      · rename_i beyond
        rw [if_neg]
        rintro rfl
        exact beyond (List.prefix_append _ _)

theorem mkdirFrom_ok (parent rest : List κ) (dir : t.node parent = some .dir)
    (free : ∀ p content, p <+: parent ++ rest → t.node p ≠ some (.file content)) :
    ∃ u, t.mkdirFrom parent rest = .ok u := by
  induction rest generalizing t parent with
  | nil => exact ⟨t, rfl⟩
  | cons name rest ih =>
    have joined : parent ++ name :: rest = (parent ++ [name]) ++ rest := by simp
    rw [joined] at free
    unfold mkdirFrom
    split
    · rename_i next
      exact ih _ next free
    · rename_i content file
      exact absurd file (free _ content (List.prefix_append _ _))
    · rename_i absent
      have made (q : List κ) : (t.put (parent ++ [name]) .dir).node q =
          if parent ++ [name] = q then some .dir else t.node q :=
        node_put (by simp) (by rwa [List.dropLast_concat]) (by rw [absent]; nofun)
      apply ih
      · rw [made, if_pos rfl]
      · intro p content above there
        rw [made] at there
        split at there
        · cases there
        · exact free p content above there

theorem mkdirFrom_free (parent rest : List κ) (dir : t.node parent = some .dir) (h : t.mkdirFrom parent rest = .ok u)
    {content : γ} (above : q <+: parent ++ rest) : t.node q ≠ some (.file content) := by
  induction rest generalizing t parent with
  | nil =>
    intro file
    rw [List.append_nil] at above
    by_cases same : q = parent
    · rw [same, dir] at file
      cases file
    · rw [node_above (by rw [dir]; nofun) above same] at file
      cases file
  | cons name rest ih =>
    have joined : parent ++ name :: rest = (parent ++ [name]) ++ rest := by simp
    rw [joined] at above
    unfold mkdirFrom at h
    split at h
    · rename_i next
      exact ih _ next h above
    · cases h
    · rename_i absent
      have made (q : List κ) : (t.put (parent ++ [name]) .dir).node q =
          if parent ++ [name] = q then some .dir else t.node q :=
        node_put (by simp) (by rwa [List.dropLast_concat]) (by rw [absent]; nofun)
      have free := ih _ (by rw [made, if_pos rfl]) h above
      rw [made] at free
      split at free
      · rename_i here
        rw [← here, absent]
        nofun
      · exact free

theorem mkdir_eq_ok (h : t.mkdir path = .ok u) : u.node q = if q <+: path then some .dir else t.node q :=
  mkdirFrom_eq_ok [] path rfl h

/-- A directory can be made just if no file is in the way. -/
theorem mkdir_ok_iff : (∃ u, t.mkdir path = .ok u) ↔ ∀ p content, p <+: path → t.node p ≠ some (.file content) := by
  constructor
  · rintro ⟨u, made⟩ p content above
    exact mkdirFrom_free [] path rfl made above
  · exact mkdirFrom_ok [] path rfl

/-! ## Files that are written, and what is removed -/

theorem writeFile_eq_ok {content : γ} (h : t.writeFile path content = .ok u) :
    u.node q = if path = q then some (.file content) else t.node q := by
  unfold writeFile at h
  split at h
  · cases h
  · rename_i free
    split at h
    · rename_i parent
      cases h
      apply node_put
      · rintro rfl
        exact free rfl
      · exact isDir_iff.mp parent
      · exact fun dir => free (isDir_iff.mpr dir)
    · cases h

theorem writeFile_ok_iff (content : γ) : (∃ u, t.writeFile path content = .ok u) ↔
    t.node path ≠ some .dir ∧ t.node path.dropLast = some .dir := by
  simp only [writeFile, ne_eq, ← isDir_iff]
  split
  · simp_all
  · split <;> simp_all

theorem rm_eq_ok (some' : path ≠ []) (h : t.rm path = .ok u) : u.node q = if path <+: q then none else t.node q := by
  unfold rm at h
  split at h
  · cases h
  · cases h
    exact node_remove some'

/-! ## Files that are written one after another -/

/-- A file, and the directories on the way to it. -/
def store (t : FileTree κ γ) (path : List κ) (content : γ) : Except FsError (FileTree κ γ) :=
  match t.mkdir path.dropLast with
  | .ok u => u.writeFile path content
  | .error code => .error code

def storeAll (t : FileTree κ γ) : List (List κ × γ) → Except FsError (FileTree κ γ)
  | [] => .ok t
  | file :: rest =>
    match t.store file.1 file.2 with
    | .ok u => storeAll u rest
    | .error code => .error code

/-- Nothing is in the way of the files, and none of them in the way of another. -/
structure Room (t : FileTree κ γ) (files : List (List κ × γ)) : Prop where
  free : ∀ f ∈ files, ∀ p content, p <+: f.1 → p ≠ f.1 → t.node p ≠ some (.file content)
  vacant : ∀ f ∈ files, t.node f.1 ≠ some .dir
  apart : ∀ f ∈ files, ∀ g ∈ files, f.1 <+: g.1 → f.1 = g.1

/-- Directories and files stay what they are. -/
structure Grows (t u : FileTree κ γ) : Prop where
  dirs : ∀ q, t.node q = some .dir → u.node q = some .dir
  files : ∀ q content, t.node q = some (.file content) → ∃ content', u.node q = some (.file content')

variable {content : γ} {files : List (List κ × γ)}

omit [DecidableEq κ] in
theorem prefix_dropLast (h : q <+: path.dropLast) (some' : path ≠ []) : q <+: path ∧ q ≠ path := by
  refine ⟨h.trans (List.dropLast_prefix path), ?_⟩
  rintro rfl
  have shorter := h.length_le
  have positive := List.length_pos_iff.mpr some'
  rw [List.length_dropLast] at shorter
  omega

omit [DecidableEq κ] in
theorem under_dropLast (h : q <+: path) (strict : q ≠ path) : q <+: path.dropLast := by
  rcases List.eq_nil_or_concat path with rfl | ⟨names, name, rfl⟩
  · exact absurd (List.prefix_nil.mp h) strict
  · rw [List.concat_eq_append] at h strict ⊢
    rw [List.dropLast_concat]
    exact (List.prefix_concat_iff.mp h).resolve_left strict

attribute [local simp] store in
theorem store_eq_ok (h : t.store path content = .ok u) : u.node q =
    if path = q then some (.file content) else if q <+: path.dropLast then some .dir else t.node q := by
  unfold store at h
  split at h
  · rename_i made
    rw [writeFile_eq_ok h, mkdir_eq_ok made]
  · cases h

/-- A file can be stored just if no file is above it and it is no directory. -/
theorem store_ok_iff (content : γ) (some' : path ≠ []) : (∃ u, t.store path content = .ok u) ↔
    (∀ p content, p <+: path → p ≠ path → t.node p ≠ some (.file content)) ∧ t.node path ≠ some .dir := by
  have under : ¬ path <+: path.dropLast := fun h => (prefix_dropLast h some').2 rfl
  constructor
  · rintro ⟨u, h⟩
    unfold store at h
    split at h
    · rename_i v made
      have free := mkdir_ok_iff.mp ⟨v, made⟩
      have fresh := ((writeFile_ok_iff content).mp ⟨u, h⟩).1
      rw [mkdir_eq_ok made, if_neg under] at fresh
      exact ⟨fun p content above strict => free p content (under_dropLast above strict), fresh⟩
    · cases h
  · rintro ⟨free, fresh⟩
    obtain ⟨v, made⟩ : ∃ v, t.mkdir path.dropLast = .ok v := mkdir_ok_iff.mpr fun p content above =>
      free p content (prefix_dropLast above some').1 (prefix_dropLast above some').2
    have parent : v.node path.dropLast = some .dir := by rw [mkdir_eq_ok made, if_pos List.prefix_rfl]
    have still : v.node path ≠ some .dir := by
      rw [mkdir_eq_ok made, if_neg under]
      exact fresh
    obtain ⟨u, written⟩ := (writeFile_ok_iff content).mpr ⟨still, parent⟩
    exact ⟨u, by rw [store, made]; exact written⟩

/-- A file that is not the one stored is left alone. -/
theorem store_file (some' : path ≠ []) (h : t.store path content = .ok u) {old : γ} (file : t.node q = some (.file old))
    (other : path ≠ q) : u.node q = some (.file old) := by
  have free := ((store_ok_iff content some').mp ⟨u, h⟩).1
  rw [store_eq_ok h, if_neg other, if_neg]
  · exact file
  · intro above
    exact free q old (prefix_dropLast above some').1 (prefix_dropLast above some').2 file

theorem store_grows (some' : path ≠ []) (h : t.store path content = .ok u) : Grows t u := by
  have fresh := ((store_ok_iff content some').mp ⟨u, h⟩).2
  constructor
  · intro q dir
    have other : path ≠ q := by
      rintro rfl
      exact fresh dir
    rw [store_eq_ok h, if_neg other]
    split
    · rfl
    · exact dir
  · intro q old file
    by_cases same : path = q
    · exact ⟨content, by rw [store_eq_ok h, if_pos same]⟩
    · exact ⟨old, store_file some' h file same⟩

attribute [local simp] storeAll in
theorem storeAll_cons {f : List κ × γ} : t.storeAll (f :: files) = .ok u ↔
    ∃ v, t.store f.1 f.2 = .ok v ∧ v.storeAll files = .ok u := by
  rw [storeAll]
  cases t.store f.1 f.2 <;> simp

theorem storeAll_grows (some' : ∀ f ∈ files, f.1 ≠ []) (h : t.storeAll files = .ok u) : Grows t u := by
  induction files generalizing t with
  | nil =>
    cases h
    exact ⟨fun _ dir => dir, fun _ content file => ⟨content, file⟩⟩
  | cons f rest ih =>
    rw [List.forall_mem_cons] at some'
    obtain ⟨v, first, others⟩ := storeAll_cons.mp h
    have before := store_grows some'.1 first
    have after := ih some'.2 others
    constructor
    · exact fun q dir => after.dirs q (before.dirs q dir)
    · intro q content file
      obtain ⟨content', file'⟩ := before.files q content file
      exact after.files q content' file'

theorem storeAll_file (some' : ∀ f ∈ files, f.1 ≠ []) (h : t.storeAll files = .ok u) {old : γ}
    (file : t.node q = some (.file old)) (others : ∀ f ∈ files, f.1 ≠ q) : u.node q = some (.file old) := by
  induction files generalizing t with
  | nil =>
    cases h
    exact file
  | cons f rest ih =>
    rw [List.forall_mem_cons] at some' others
    obtain ⟨v, stored, h⟩ := storeAll_cons.mp h
    exact ih some'.2 h (store_file some'.1 stored file others.1) others.2

/-- In the end a path has the content of one of the files stored there. -/
theorem storeAll_stored (some' : ∀ f ∈ files, f.1 ≠ []) (h : t.storeAll files = .ok u) {f : List κ × γ}
    (there : f ∈ files) : ∃ g ∈ files, g.1 = f.1 ∧ u.node f.1 = some (.file g.2) := by
  induction files generalizing t f with
  | nil => cases there
  | cons first rest ih =>
    rw [List.forall_mem_cons] at some'
    obtain ⟨v, stored, others⟩ := storeAll_cons.mp h
    by_cases again : ∃ g ∈ rest, g.1 = f.1
    · obtain ⟨g, inside, same⟩ := again
      obtain ⟨last, inside', same', node⟩ := ih some'.2 others inside
      exact ⟨last, List.mem_cons_of_mem _ inside', same'.trans same, by rw [← same]; exact node⟩
    · have here : f = first := by
        rcases List.mem_cons.mp there with same | inside
        · exact same
        · exact absurd ⟨f, inside, rfl⟩ again
      subst here
      have now : v.node f.1 = some (.file f.2) := by rw [store_eq_ok stored, if_pos rfl]
      exact ⟨f, there, rfl, storeAll_file some'.2 others now fun g inside same => again ⟨g, inside, same⟩⟩

/-- A list of files can be stored just if there is room for them. -/
theorem storeAll_ok_iff (some' : ∀ f ∈ files, f.1 ≠ []) : (∃ u, t.storeAll files = .ok u) ↔ Room t files := by
  constructor
  · rintro ⟨u, h⟩
    have grows := storeAll_grows some' h
    have file (f : List κ × γ) (there : f ∈ files) : ∃ content, u.node f.1 = some (.file content) := by
      obtain ⟨g, _, _, node⟩ := storeAll_stored some' h there
      exact ⟨g.2, node⟩
    have above (f : List κ × γ) (there : f ∈ files) (p : List κ) (before : p <+: f.1) (strict : p ≠ f.1) :
        u.node p = some .dir := by
      obtain ⟨content, node⟩ := file f there
      exact node_above (by rw [node]; nofun) before strict
    constructor
    · intro f there p content before strict node
      obtain ⟨content', node'⟩ := grows.files p content node
      rw [above f there p before strict] at node'
      cases node'
    · intro f there dir
      obtain ⟨content, node⟩ := file f there
      rw [grows.dirs _ dir] at node
      cases node
    · intro f there g there' before
      by_contra strict
      obtain ⟨content, node⟩ := file f there
      rw [above g there' _ before strict] at node
      cases node
  · intro room
    induction files generalizing t with
    | nil => exact ⟨t, rfl⟩
    | cons f rest ih =>
      have first : f ∈ f :: rest := List.mem_cons_self
      rw [List.forall_mem_cons] at some'
      obtain ⟨v, stored⟩ := (store_ok_iff f.2 some'.1).mpr ⟨room.free f first, room.vacant f first⟩
      have more : Room v rest := by
        constructor
        · intro g inside p content before strict node
          have there := List.mem_cons_of_mem f inside
          rw [store_eq_ok stored] at node
          split at node
          · rename_i same
            rw [← same] at before strict
            exact strict (room.apart f first g there before)
          · split at node
            · cases node
            · exact room.free g there p content before strict node
        · intro g inside node
          have there := List.mem_cons_of_mem f inside
          rw [store_eq_ok stored] at node
          split at node
          · cases node
          · split at node
            · rename_i above
              have before := prefix_dropLast above some'.1
              exact before.2 (room.apart g there f first before.1)
            · exact room.vacant g there node
        · exact fun g inside g' inside' => room.apart g (List.mem_cons_of_mem f inside) g' (List.mem_cons_of_mem f inside')
      obtain ⟨u, others⟩ := ih some'.2 more
      exact ⟨u, storeAll_cons.mpr ⟨v, stored, others⟩⟩

end

end FileTree

end GuloGulo.Data
