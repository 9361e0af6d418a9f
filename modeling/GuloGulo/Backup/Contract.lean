import GuloGulo.Integrations.TenantContext
import GuloGulo.Js.Date
import GuloGulo.Js.Json
import GuloGulo.Data.Table

/-!
# The backup contract

Scopes, manifests and restore plans of `core/backup/backup-contract.ts`. The
records it makes have none of the keys that `safe` forbids, so that its calls
are left out. Options are objects, as their types say; `new Date()` is the
parameter `today`, a `randomUUID()` is `uuid`.
-/

namespace GuloGulo.Backup
open Js Data Integrations

structure BackupError where
  message : JsString
  code : String
  deriving DecidableEq

def backupError (message : String) (code : String := "BACKUP_CONTRACT_ERROR") : BackupError :=
  ⟨js s!"Backup contract error: {message}", code⟩

def memberError (message : String) (path : JsString) : BackupError :=
  ⟨js s!"Backup contract error: {message} for " ++ path, "INTEGRITY_FAILED"⟩

structure ArchiveEntry where
  resource : JsString
  path : JsString
  bytes : Int
  sha256 : JsString
  mediaType : Option JsString
  deriving DecidableEq

/-- A manifest without its own digest. -/
structure ManifestBase where
  schemaVersion : Int := 1
  archiveId : JsString
  format : JsString
  tenantId : JsString
  userId : Option JsString
  resources : List JsString
  createdAt : JsString
  entries : List ArchiveEntry
  encryptedContent : Bool := true
  deriving DecidableEq

/-- `manifestSha256` is `none` if it is no string. -/
structure BackupManifest extends ManifestBase where
  manifestSha256 : Option JsString
  deriving DecidableEq

structure UserBackupScope where
  tenantId : JsString
  userId : JsString
  resources : List JsString
  issuedAt : JsString
  expiresAt : Option JsString
  deriving DecidableEq

structure ProviderBackupScope where
  providerId : JsString
  tenantId : JsString
  resources : List JsString
  operations : List JsString
  issuedAt : JsString
  expiresAt : JsString
  encryptionKeyReference : JsString
  deriving DecidableEq

inductive BackupScope where
  | user (scope : UserBackupScope)
  | provider (scope : ProviderBackupScope)

namespace BackupScope

def tenantId : BackupScope → JsString
  | user scope => scope.tenantId
  | provider scope => scope.tenantId

def userId : BackupScope → Option JsString
  | user scope => some scope.userId
  | provider _ => none

def resources : BackupScope → List JsString
  | user scope => scope.resources
  | provider scope => scope.resources

/-- The fields that `createArchiveManifest` reads. -/
def value (scope : BackupScope) : JsValue :=
  .object [(js "tenantId", .string scope.tenantId), (js "userId", scope.userId.elim .null .string),
    (js "resources", .array (scope.resources.map .string))]

end BackupScope

structure BackupIdentity where
  tenantId : JsString
  userId : Option JsString
  role : Actor.TenantRole

structure RestorePlan where
  archiveId : JsString
  tenantId : JsString
  userId : Option JsString
  resources : List JsString
  overwrite : Bool
  plannedAt : JsString
  status : String := "ready-for-integrity-check"

/-- What is found of a member: its digest and its size, or that it is absent. -/
structure MemberStatus where
  path : JsString
  verified : Option (JsString × Nat)

structure Verification where
  archiveId : JsString
  manifestSha256 : JsString
  entries : List MemberStatus
  complete : Bool

structure ValidatedPlan extends RestorePlan where
  integrity : Verification
  validatedAt : JsString

/-- A member's content, `string | Uint8Array`. -/
inductive Content where
  | text (s : JsString)
  | bytes (b : List UInt8)

def Content.buffer : Content → List UInt8
  | text s => utf8 s
  | bytes b => b

def resourceTypes : List JsString := [js "mail", js "folders", js "ics", js "vcard", js "preferences"]

def providerOperations : List JsString := [js "snapshot", js "restore"]

/-- `idPattern`. -/
def idPattern : JsString → Bool :=
  isName isAlnum
    (fun u => isAlnum u || u == 46 || u == 95 || u == 58 || u == 64 || u == 47 || u == 45) 127

def refPattern : JsString → Bool :=
  isName isAlnum (fun u => isAlnum u || u == 46 || u == 95 || u == 58 || u == 47 || u == 45) 255

/-- An alphanumeric, or one of `._@+()-` and the slash. -/
def isPathUnit (u : UInt16) : Bool :=
  isAlnum u || [46, 95, 64, 43, 40, 41, 45, 47].contains u

/-- A relative path of which no segment begins with a dot. -/
def pathPattern (s : JsString) : Bool :=
  decide (1 ≤ s.length ∧ s.length ≤ 512) && s.all isPathUnit && s.head? != some 47 &&
    (split s 47).all fun segment => segment.head? != some 46

def checksumPattern (s : JsString) : Bool :=
  decide (s.length = 64) && s.all fun u => isDigit u || (97 ≤ u && u ≤ 102)

def formatPattern : JsString → Bool :=
  isName isAlnum (fun u => isAlnum u || u == 46 || u == 95 || u == 45) 63

def assertPlain (value : JsValue) (name : String) : Except BackupError Unit :=
  match value with
  | .object _ => .ok ()
  | _ => .error (backupError s!"{name} must be an object" "INVALID_CONTRACT")

/-- A string of a pattern. -/
def matched (pattern : JsString → Bool) (value : JsValue) (error : BackupError) : Except BackupError JsString :=
  match value with
  | .string s => if pattern s then .ok s else .error error
  | _ => .error error

def id (value : JsValue) (name : String) : Except BackupError JsString :=
  matched idPattern value (backupError s!"{name} is invalid" "INVALID_IDENTITY")

def reference (value : JsValue) (name : String) : Except BackupError JsString :=
  matched refPattern value (backupError s!"{name} is invalid" "INVALID_REFERENCE")

def date (host : Host) (value : JsValue) (name : String) : Except BackupError Int :=
  match newDate host value with
  | some time => .ok time
  | none => .error (backupError s!"{name} is invalid" "INVALID_TIMESTAMP")

def integer (value : JsValue) (name : String) (min max : Nat) : Except BackupError Int :=
  let invalid := backupError s!"{name} must be an integer between {min} and {max}" "INVALID_NUMBER"
  match value.asInteger? with
  | some n => if (min : Int) ≤ n && n ≤ (max : Int) then .ok n else .error invalid
  | none => .error invalid

def checksum (value : JsValue) (name : String := "checksum") : Except BackupError JsString :=
  matched checksumPattern value (backupError s!"{name} must be a lowercase SHA-256 digest" "INVALID_CHECKSUM")

/-- The strings of an array that has nothing else and nothing unsupported. -/
def supported (kinds : List JsString) : List JsValue → Option (List JsString)
  | [] => some []
  | .string s :: rest => if kinds.contains s then (supported kinds rest).map (s :: ·) else none
  | _ :: _ => none

def resourceList (value : JsValue) (name : String := "resources") : Except BackupError (List JsString) :=
  match value with
  | .array [] => .error (backupError s!"{name} must be a non-empty array" "INVALID_RESOURCES")
  | .array items =>
    match supported resourceTypes items with
    | some resources => .ok (unique resources)
    | none => .error (backupError s!"{name} contains an unsupported resource" "INVALID_RESOURCES")
  | _ => .error (backupError s!"{name} must be a non-empty array" "INVALID_RESOURCES")

def identity (value : JsValue) (name : String) : Except BackupError BackupIdentity := do
  assertPlain value name
  let role ← (Actor.requiredRole ((value.get "role").orElse (.string (js "user")))).mapError fun _ =>
    backupError s!"{name}.role is invalid" "INVALID_IDENTITY"
  let tenantId ← id (value.get "tenantId") s!"{name}.tenantId"
  let userId ←
    if (value.get "userId").isNullish then pure none else (id (value.get "userId") s!"{name}.userId").map some
  return ⟨tenantId, userId, role⟩

def sha256Hex (host : Host) (content : List UInt8) : JsString := hex (host.sha256 content)

/-- `canonicalJson` of an entry: the keys are sorted. -/
def ArchiveEntry.canonicalJson (entry : ArchiveEntry) : JsString :=
  jsonObject ([("bytes", jsonInteger entry.bytes)] ++
    (entry.mediaType.map fun mediaType => ("mediaType", jsonString mediaType)).toList ++
    [("path", jsonString entry.path), ("resource", jsonString entry.resource), ("sha256", jsonString entry.sha256)])

def ManifestBase.canonicalJson (base : ManifestBase) : JsString :=
  jsonObject [("archiveId", jsonString base.archiveId), ("createdAt", jsonString base.createdAt),
    ("encryptedContent", jsonBool base.encryptedContent),
    ("entries", jsonArray (base.entries.map ArchiveEntry.canonicalJson)), ("format", jsonString base.format),
    ("resources", jsonArray (base.resources.map jsonString)), ("schemaVersion", jsonInteger base.schemaVersion),
    ("tenantId", jsonString base.tenantId), ("userId", jsonOption base.userId)]

def manifestDigest (host : Host) (base : ManifestBase) : JsString := sha256Hex host (utf8 base.canonicalJson)

/-- `new Date(value)`, of a parameter whose default is the current time. -/
def dateOrToday (host : Host) (today : Int) (value : JsValue) (name : String) : Except BackupError Int :=
  if value.isUndefined then .ok today else date host value name

/-- A date, or `null` for none. -/
def dateOrNull (host : Host) (value : JsValue) (name : String) : Except BackupError (Option Int) :=
  match value with
  | .null => .ok none
  | value => (date host value name).map some

def createUserBackupScope (host : Host) (today : Int) (input : JsValue) : Except BackupError UserBackupScope := do
  let session := input.get "session"
  let actor ← identity session "session"
  throwIf (actor.role ≠ .user) (backupError "user self-service requires a user session" "USER_SCOPE_DENIED")
  let target ← id ((input.get "targetUserId").orDefault (session.get "userId")) "targetUserId"
  throwIf (some target ≠ actor.userId)
    (backupError "a user backup can target only the authenticated user" "USER_SCOPE_DENIED")
  let issued ← dateOrToday host today (input.get "issuedAt") "issuedAt"
  let expiry ← dateOrNull host ((input.get "expiresAt").orDefault .null) "expiresAt"
  throwIf (expiry.any fun expiry => expiry ≤ issued)
    (backupError "expiresAt must be later than issuedAt" "INVALID_TIMESTAMP")
  let resources ← resourceList ((input.get "resources").orDefault (.array (resourceTypes.map .string)))
  return ⟨actor.tenantId, target, resources, isoString issued, expiry.map isoString⟩

def operationList (value : JsValue) : Except BackupError (List JsString) :=
  let invalid := backupError "operations are invalid" "INVALID_PROVIDER_SCOPE"
  match value with
  | .array [] => .error invalid
  | .array items =>
    match supported providerOperations items with
    | some operations => .ok (unique operations)
    | none => .error invalid
  | _ => .error invalid

def createProviderBackupScope (host : Host) (today : Int) (input : JsValue) :
    Except BackupError ProviderBackupScope := do
  let provider ← id (input.get "providerId") "providerId"
  let tenant ← id (input.get "tenantId") "tenantId"
  let resources ← resourceList ((input.get "resources").orDefault (.array (resourceTypes.map .string)))
  let operations ← operationList ((input.get "operations").orDefault (.array (providerOperations.map .string)))
  let issued ← dateOrToday host today (input.get "issuedAt") "issuedAt"
  let expires ← date host (input.get "expiresAt") "expiresAt"
  throwIf (expires ≤ issued) (backupError "expiresAt must be later than issuedAt" "INVALID_TIMESTAMP")
  let encryptionKeyReference ← reference (input.get "encryptionKeyReference") "keyReference"
  return ⟨provider, tenant, resources, operations, isoString issued, isoString expires,
    encryptionKeyReference⟩

def mediaType (value : JsValue) (index : Nat) : Except BackupError (Option JsString) :=
  match value with
  | .undefined => .ok none
  | .string s =>
    if 1 ≤ s.length && s.length ≤ 255 then .ok (some s)
    else .error (backupError s!"entries[{index}].mediaType is invalid" "INVALID_ARCHIVE")
  | _ => .error (backupError s!"entries[{index}].mediaType is invalid" "INVALID_ARCHIVE")

def entry (value : JsValue) (index : Nat) : Except BackupError ArchiveEntry := do
  assertPlain value s!"entries[{index}]"
  let resource ← matched (resourceTypes.contains ·) (value.get "resource")
    (backupError s!"entries[{index}].resource is unsupported" "INVALID_ARCHIVE")
  let path ← matched pathPattern (value.get "path")
    (backupError s!"entries[{index}].path is unsafe" "INVALID_ARCHIVE_PATH")
  let bytes ← integer (value.get "bytes") s!"entries[{index}].bytes" 0 maxSafeInteger
  let sha256 ← checksum (value.get "sha256") s!"entries[{index}].sha256"
  let mediaType ← mediaType (value.get "mediaType") index
  return ⟨resource, path, bytes, sha256, mediaType⟩

/-- `entries.map(entry)`, from an index on. -/
def entriesFrom : Nat → List JsValue → Except BackupError (List ArchiveEntry)
  | _, [] => .ok []
  | index, value :: rest => do
    let first ← entry value index
    let others ← entriesFrom (index + 1) rest
    return first :: others

/-- A user's id, or `null` for the scope of a tenant. -/
def scopeUser (value : JsValue) : Except BackupError (Option JsString) :=
  match value with
  | .null => .ok none
  | value => (id value "scope.userId").map some

def entryItems (value : JsValue) : Except BackupError (List JsValue) :=
  match value with
  | .array (item :: rest) => .ok (item :: rest)
  | _ => .error (backupError "entries must be a non-empty array" "INVALID_ARCHIVE")

def createArchiveManifest (host : Host) (today : Int) (uuid : JsString) (input : JsValue) :
    Except BackupError BackupManifest := do
  let scope := input.get "scope"
  assertPlain scope "scope"
  let tenantId ← id (scope.get "tenantId") "scope.tenantId"
  let userId ← scopeUser (scope.get "userId")
  let scopeResources ← resourceList (scope.get "resources") "scope.resources"
  let archiveId ← id ((input.get "archiveId").orDefault (.string uuid)) "archiveId"
  let items ← entryItems (input.get "entries")
  let created ← dateOrToday host today (input.get "createdAt") "createdAt"
  let format ← matched formatPattern ((input.get "format").orDefault (.string (js "gulogulo-backup-tar")))
    (backupError "format is invalid" "INVALID_ARCHIVE")
  let entries ← entriesFrom 0 items
  let base : ManifestBase :=
    { archiveId, format, tenantId, userId, resources := scopeResources, createdAt := isoString created, entries }
  return { base with manifestSha256 := some (manifestDigest host base) }

/-- What is found of one member. -/
def verifyMember (host : Host) (contentByPath : JsString → Option Content) (member : ArchiveEntry) :
    Except BackupError MemberStatus :=
  match contentByPath member.path with
  | none => .ok ⟨member.path, none⟩
  | some content => do
    let actual := sha256Hex host content.buffer
    throwIf (actual ≠ member.sha256) (memberError "checksum mismatch" member.path)
    let bytes := content.buffer.length
    throwIf ((bytes : Int) ≠ member.bytes) (memberError "size mismatch" member.path)
    return ⟨member.path, some (actual, bytes)⟩

def storedDigest (manifest : BackupManifest) : Except BackupError JsString :=
  match manifest.manifestSha256 with
  | some digest => .ok digest
  | none => .error (backupError "manifestSha256 is required" "INVALID_ARCHIVE")

def verifyArchiveManifest (host : Host) (manifest : BackupManifest)
    (contentByPath : JsString → Option Content) : Except BackupError Verification := do
  throwIf (manifest.schemaVersion ≠ 1) (backupError "manifest schemaVersion is unsupported" "INVALID_ARCHIVE")
  let manifestSha256 ← storedDigest manifest
  throwIf (manifestDigest host manifest.toManifestBase ≠ manifestSha256)
    (backupError "manifest digest does not match" "INTEGRITY_FAILED")
  let found ← manifest.entries.mapM (verifyMember host contentByPath)
  return ⟨manifest.archiveId, manifestSha256, found, found.all fun member => member.verified.isSome⟩

def target (scope : BackupScope) (value : JsValue) : Except BackupError BackupIdentity := do
  let actor ← identity value "target"
  throwIf (scope.tenantId ≠ actor.tenantId)
    (backupError "restore target crosses tenant boundary" "TENANT_SCOPE_DENIED")
  match scope with
  | .user user =>
    throwIf (some user.userId ≠ actor.userId)
      (backupError "restore target crosses user boundary" "USER_SCOPE_DENIED")
  | .provider _ =>
    throwIf (actor.role ≠ .provider)
      (backupError "provider scope requires a provider restore actor" "PROVIDER_SCOPE_DENIED")
  return actor

structure RestoreRequest where
  manifest : Option BackupManifest
  scope : Option BackupScope
  target : JsValue
  requestedResources : JsValue
  overwrite : JsValue
  plannedAt : JsValue

def assertOverwrite (value : JsValue) : Except BackupError Bool :=
  match value with
  | .bool b => .ok b
  | _ => .error (backupError "overwrite must be boolean" "INVALID_RESTORE_PLAN")

def createRestorePlan (host : Host) (today : Int) (request : RestoreRequest) : Except BackupError RestorePlan :=
  match request.manifest, request.scope, request.target.isUndefined with
  | some manifest, some scope, false => do
    let _ ← target scope request.target
    throwIf (manifest.tenantId ≠ scope.tenantId || manifest.userId ≠ scope.userId)
      (backupError "manifest scope does not match restore scope" "SCOPE_MISMATCH")
    let selected ← resourceList (request.requestedResources.orDefault (.array (scope.resources.map .string)))
      "requestedResources"
    throwIf (selected.any fun item => !scope.resources.contains item)
      (backupError "restore requests a resource outside the authorized scope" "RESOURCE_SCOPE_DENIED")
    let overwrite ← assertOverwrite (request.overwrite.orDefault (.bool false))
    let planned ← dateOrToday host today request.plannedAt "plannedAt"
    return { archiveId := manifest.archiveId, tenantId := scope.tenantId, userId := scope.userId,
             resources := selected, overwrite := overwrite, plannedAt := isoString planned }
  | _, _, _ => .error (backupError "manifest, scope, and target are required" "INVALID_CONTRACT")

structure ValidationRequest where
  manifest : Option BackupManifest
  scope : Option BackupScope
  target : JsValue
  contentByPath : JsString → Option Content

def validateRestorePlan (host : Host) (today : Int) (plan : RestorePlan) (request : ValidationRequest) :
    Except BackupError ValidatedPlan :=
  match request.manifest, request.scope, request.target.isUndefined with
  | some manifest, some scope, false => do
    let restoreActor ← target scope request.target
    throwIf (plan.archiveId ≠ manifest.archiveId || plan.tenantId ≠ scope.tenantId || plan.userId ≠ scope.userId)
      (backupError "restore plan identity does not match its archive scope" "SCOPE_MISMATCH")
    throwIf (restoreActor.role = .user && plan.overwrite)
      (backupError "user restores cannot overwrite existing data" "RESTORE_POLICY_DENIED")
    let integrity ← verifyArchiveManifest host manifest request.contentByPath
    throwIf (!integrity.complete)
      (backupError "all archive members must be present before restore" "INTEGRITY_INCOMPLETE")
    return { plan with status := "validated", integrity := integrity, validatedAt := isoString today }
  | _, _, _ => .error (backupError "manifest, scope, and target are required" "INVALID_CONTRACT")

end GuloGulo.Backup
