import GuloGulo.Backup.Contract
import GuloGulo.Data.FileTree

/-!
# The filesystem adapter

`core/backup/filesystem-backup-adapter.ts` on a tree of files. A path is the
list of its names, as they are encoded on the disk. A file that is written as
JSON is kept as the value that its text stands for. The warning of
`checkSameDevice` is left out.
-/

namespace GuloGulo.Backup
open Js Data

structure EncryptedArchiveMetadata where
  keyReference : JsString
  aad : JsString
  iv : JsString
  authTag : JsString
  ciphertext : JsString
  plaintextSha256 : JsString
  deriving DecidableEq

inductive FileContent where
  | bytes (content : List UInt8)
  | manifest (manifest : BackupManifest)
  | metadata (metadata : EncryptedArchiveMetadata)
  deriving DecidableEq

abbrev Disk := FileTree JsString FileContent

inductive StorageError where
  | error (message : JsString)
  | fs (code : FsError)
  /-- `ERR_INVALID_ARG_VALUE`. -/
  | invalidPath
  /-- The `SyntaxError` of a file that is not of the JSON that is expected. -/
  | syntax'
  deriving DecidableEq

abbrev Storage := Eff StorageError Disk

/-- The `basePath`: the names on the way to it. -/
structure BackupAdapter where
  basePath : List JsString
  clean : ∀ name ∈ basePath, 0 ∉ name

structure StoredArchiveLocation where
  tenantId : JsString
  userId : Option JsString
  archiveId : JsString
  deriving DecidableEq

structure StoredArchiveEntryContent where
  path : JsString
  content : Content

structure WriteArchiveInput where
  manifest : BackupManifest
  entries : List StoredArchiveEntryContent
  encryptedMetadata : Option EncryptedArchiveMetadata

structure WriteArchiveResult where
  archiveDir : List JsString
  manifestPath : List JsString
  entryPaths : List (List JsString)
  encryptedMetadataPath : Option (List JsString)

def manifestFile : JsString := js "manifest.json"
def metadataFile : JsString := js "metadata.json"
def contentDirectory : JsString := js "content"
def tenantScopeSegment : JsString := js "_tenant"

def pathSegmentPattern : JsString → Bool :=
  isName isAlnum (fun u => isAlnum u || u == 46 || u == 95 || u == 45) 127

def pathSegment (value : JsString) (name : String) : Except StorageError JsString :=
  if pathSegmentPattern value then .ok value
  else .error (.error (js s!"{name} is not a safe filesystem path segment: " ++ jsonString value))

/-- One name of a path that is resolved. -/
def enter (dir : List JsString) (name : JsString) : List JsString :=
  if name = [] ∨ name = js "." then dir
  else if name = js ".." then dir.dropLast
  else dir ++ [toWellFormed name]

/-- `resolve`. -/
def resolvePath (base : List JsString) (path : JsString) : List JsString :=
  (split path 47).foldl enter (if path.head? = some 47 then [] else base)

def resolveWithinDirectory (baseDir : List JsString) (relativePath : JsString) :
    Except StorageError (List JsString) :=
  let target := resolvePath baseDir relativePath
  if baseDir.isPrefixOf target then .ok target
  else .error (.error (js "path escapes its storage directory: " ++ relativePath))

/-- A path without a null character. -/
def validPath (path : List JsString) : Bool := path.all fun name => !name.contains 0

def change (path : List JsString) (f : Disk → Except FsError Disk) : Storage Unit := fun disk =>
  if validPath path then
    match f disk with
    | .ok changed => (.ok (), changed)
    | .error code => (.error (.fs code), disk)
  else (.error .invalidPath, disk)

def read {α : Type} (path : List JsString) (f : Disk → Except FsError α) : Storage α := fun disk =>
  if validPath path then ((f disk).mapError .fs, disk) else (.error .invalidPath, disk)

def mkdir (path : List JsString) : Storage Unit := change path fun disk => disk.mkdir path
def writeFile (path : List JsString) (content : FileContent) : Storage Unit :=
  change path fun disk => disk.writeFile path content
def rm (path : List JsString) : Storage Unit := change path fun disk => disk.rm path
def readFile (path : List JsString) : Storage FileContent := read path fun disk => disk.readFile path
def readdir (path : List JsString) : Storage (List JsString) := read path fun disk => disk.readdir path

/-- `stat`, of which `ENOENT` is an answer. -/
def pathExists (path : List JsString) : Storage Bool :=
  read path fun disk =>
    if (disk.node path).isSome then .ok true
    else if disk.missing path = .noEntry then .ok false
    else .error (disk.missing path)

/-- What is read, or another value if that fails. -/
def orElse {α : Type} (m : Storage α) (value : α) : Storage α := fun disk =>
  match m disk with
  | (.ok a, disk') => (.ok a, disk')
  | (.error _, disk') => (.ok value, disk')

namespace BackupAdapter
variable (adapter : BackupAdapter) (host : Host)

def archiveDirectory (tenantId : JsString) (userId : Option JsString) (archiveId : JsString) :
    Except StorageError (List JsString) := do
  let tenant ← pathSegment tenantId "tenantId"
  let user ← pathSegment (userId.getD tenantScopeSegment) "userId"
  let archive ← pathSegment archiveId "archiveId"
  return adapter.basePath ++ [tenant, user, archive]

def accountDirectory (tenantId : JsString) (userId : JsString) : Except StorageError (List JsString) := do
  let tenant ← pathSegment tenantId "tenantId"
  let user ← pathSegment userId "userId"
  return adapter.basePath ++ [tenant, user]

/-- `declaredByPath`: of the entries of one path, the last. -/
def declaredByPath (manifest : BackupManifest) : OrderedMap JsString ArchiveEntry :=
  manifest.entries.foldl (fun map entry => map.set entry.path entry) .empty

def declared (manifest : BackupManifest) (path : JsString) : Except StorageError ArchiveEntry :=
  match (declaredByPath manifest).get path with
  | some entry => .ok entry
  | none => .error (.error (js "entry " ++ path ++ js " is not declared in the manifest"))

/-- What is checked of a content before it is written. -/
def checkEntry (manifest : BackupManifest) (contentDir : List JsString) (entry : StoredArchiveEntryContent) :
    Except StorageError (List JsString) := do
  let member ← declared manifest entry.path
  let target ← resolveWithinDirectory contentDir entry.path
  throwIf (sha256Hex host entry.content.buffer ≠ member.sha256)
    (.error (js "entry " ++ entry.path ++ js " content does not match its manifest checksum"))
  throwIf ((entry.content.buffer.length : Int) ≠ member.bytes)
    (.error (js "entry " ++ entry.path ++ js " content size does not match its manifest size"))
  return target

def writeEntry (manifest : BackupManifest) (contentDir : List JsString) (entry : StoredArchiveEntryContent) :
    Storage (List JsString) := do
  let target ← Eff.lift (checkEntry host manifest contentDir entry)
  mkdir target.dropLast
  writeFile target (.bytes entry.content.buffer)
  return target

def writeEntries (manifest : BackupManifest) (contentDir : List JsString) :
    List StoredArchiveEntryContent → Storage (List (List JsString))
  | [] => pure []
  | entry :: rest => do
    let target ← writeEntry host manifest contentDir entry
    let targets ← writeEntries manifest contentDir rest
    return target :: targets

def writeMetadata (dir : List JsString) : Option EncryptedArchiveMetadata → Storage (Option (List JsString))
  | none => pure none
  | some metadata => do
    writeFile (dir ++ [metadataFile]) (.metadata metadata)
    return some (dir ++ [metadataFile])

/-- What follows the manifest. -/
def writeMembers (input : WriteArchiveInput) (dir : List JsString) : Storage WriteArchiveResult := do
  let entryPaths ← writeEntries host input.manifest (dir ++ [contentDirectory]) input.entries
  let encryptedMetadataPath ← writeMetadata dir input.encryptedMetadata
  return ⟨dir, dir ++ [manifestFile], entryPaths, encryptedMetadataPath⟩

def writeArchive (input : WriteArchiveInput) : Storage WriteArchiveResult := do
  mkdir adapter.basePath
  let manifest := input.manifest
  let dir ← Eff.lift (adapter.archiveDirectory manifest.tenantId manifest.userId manifest.archiveId)
  mkdir dir
  writeFile (dir ++ [manifestFile]) (.manifest manifest)
  writeMembers host input dir

def parseManifest : FileContent → Except StorageError BackupManifest
  | .manifest manifest => .ok manifest
  | _ => .error .syntax'

def readManifest (location : StoredArchiveLocation) : Storage BackupManifest := do
  let dir ← Eff.lift (adapter.archiveDirectory location.tenantId location.userId location.archiveId)
  let raw ← readFile (dir ++ [manifestFile])
  Eff.lift (parseManifest raw)

/-- The bytes of a file. The adapter writes no other file below a `content` directory. -/
def rawBytes : FileContent → Except StorageError (List UInt8)
  | .bytes content => .ok content
  | _ => .error .syntax'

def readEntry (location : StoredArchiveLocation) (path : JsString) : Storage (List UInt8) := do
  let dir ← Eff.lift (adapter.archiveDirectory location.tenantId location.userId location.archiveId)
  let target ← Eff.lift (resolveWithinDirectory (dir ++ [contentDirectory]) path)
  let raw ← readFile target
  Eff.lift (rawBytes raw)

def deleteArchive (location : StoredArchiveLocation) : Storage Bool := do
  let dir ← Eff.lift (adapter.archiveDirectory location.tenantId location.userId location.archiveId)
  let existed ← pathExists (dir ++ [manifestFile])
  rm dir
  return existed

def deleteAccountArchives (tenantId userId : JsString) : Storage (List JsString) := do
  let dir ← Eff.lift (adapter.accountDirectory tenantId userId)
  let deletedArchiveIds ← orElse (readdir dir) []
  rm dir
  return deletedArchiveIds

def listArchives (tenantId : JsString) (userId : Option JsString) : Storage (List JsString) := do
  let dir ← Eff.lift (adapter.accountDirectory tenantId (userId.getD tenantScopeSegment))
  orElse (readdir dir) []

end BackupAdapter

end GuloGulo.Backup
