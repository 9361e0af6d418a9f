import GuloGulo.Backup.Contract
import GuloGulo.Js.Sha256

/-!
# What a restore stays inside

What `validateRestorePlan` has checked when it succeeds, what is left to the
plan and the manifest it is given, and the same for the entries of a manifest.
-/

namespace GuloGulo.Backup
open Js Data Integrations

/-- The members that a plan restores. -/
def RestorePlan.members (plan : RestorePlan) (manifest : BackupManifest) : List ArchiveEntry :=
  manifest.entries.filter fun entry => plan.resources.contains entry.resource

/-- Every member is there, with its digest and its size. -/
def Verified (host : Host) (manifest : BackupManifest) (contentByPath : JsString → Option Content) : Prop :=
  manifest.manifestSha256 = some (manifestDigest host manifest.toManifestBase) ∧
    ∀ entry ∈ manifest.entries, ∃ content, contentByPath entry.path = some content ∧
      sha256Hex host content.buffer = entry.sha256 ∧ (content.buffer.length : Int) = entry.bytes

/-- A restore that stays inside its scope. -/
structure Inside (host : Host) (plan : RestorePlan) (manifest : BackupManifest) (scope : BackupScope)
    (contentByPath : JsString → Option Content) : Prop where
  planned : plan.tenantId = scope.tenantId ∧ plan.userId = scope.userId
  belongs : manifest.tenantId = scope.tenantId ∧ manifest.userId = scope.userId
  authorized : ∀ resource ∈ plan.resources, resource ∈ scope.resources ∧ resource ∈ manifest.resources
  members : ∀ entry ∈ plan.members manifest, entry.resource ∈ manifest.resources
  verified : Verified host manifest contentByPath

/-- What nobody checks: that the manifest is the scope's, and the plan's
resources those of both. -/
structure Bound (plan : RestorePlan) (manifest : BackupManifest) (scope : BackupScope) : Prop where
  belongs : manifest.tenantId = scope.tenantId ∧ manifest.userId = scope.userId
  authorized : ∀ resource ∈ plan.resources, resource ∈ scope.resources ∧ resource ∈ manifest.resources

/-- An array names a string. -/
def Lists (value : JsValue) (s : JsString) : Prop := ∃ items, value = .array items ∧ JsValue.string s ∈ items

section
variable {host : Host} {manifest : BackupManifest} {scope : BackupScope}
  {contentByPath : JsString → Option Content}

theorem verifyMember_eq_ok {member : ArchiveEntry} {status : MemberStatus}
    (h : verifyMember host contentByPath member = .ok status) (present : status.verified.isSome) :
    ∃ content, contentByPath member.path = some content ∧ sha256Hex host content.buffer = member.sha256 ∧
      (content.buffer.length : Int) = member.bytes := by
  unfold verifyMember at h
  split at h
  · cases h
    cases present
  · rename_i content found
    obtain ⟨_, digest, h⟩ := bind_eq_ok.mp h
    obtain ⟨_, size, _⟩ := bind_eq_ok.mp h
    have digest := throwIf_eq_ok.mp digest
    have size := throwIf_eq_ok.mp size
    rw [decide_eq_false_iff_not, not_not] at digest size
    exact ⟨content, found, digest, size⟩

theorem verifyMember_ok {member : ArchiveEntry} {content : Content} (found : contentByPath member.path = some content)
    (digest : sha256Hex host content.buffer = member.sha256)
    (size : (content.buffer.length : Int) = member.bytes) :
    verifyMember host contentByPath member = .ok ⟨member.path, some (member.sha256, content.buffer.length)⟩ := by
  simp [verifyMember, found, digest, size, pure, Except.pure]

theorem verifyArchiveManifest_eq_ok {integrity : Verification}
    (h : verifyArchiveManifest host manifest contentByPath = .ok integrity) (complete : integrity.complete) :
    Verified host manifest contentByPath := by
  obtain ⟨_, _, h⟩ := bind_eq_ok.mp h
  obtain ⟨digest, known, h⟩ := bind_eq_ok.mp h
  obtain ⟨_, same, h⟩ := bind_eq_ok.mp h
  obtain ⟨found, members, h⟩ := bind_eq_ok.mp h
  cases h
  have same := throwIf_eq_ok.mp same
  rw [decide_eq_false_iff_not, not_not] at same
  have named : manifest.manifestSha256 = some digest := by
    unfold storedDigest at known
    split at known
    · rename_i given
      cases known
      exact given
    · cases known
  refine ⟨by rw [named, same], ?_⟩
  intro entry inside
  obtain ⟨images, _⟩ := mapM_eq_ok members
  obtain ⟨status, there, verified⟩ := images entry inside
  exact verifyMember_eq_ok verified (List.all_eq_true.mp complete status there)

/-- Verified members are all found. -/
theorem verifyArchiveManifest_ok (version : manifest.schemaVersion = 1)
    (verified : Verified host manifest contentByPath) :
    ∃ integrity, verifyArchiveManifest host manifest contentByPath = .ok integrity ∧ integrity.complete = true := by
  obtain ⟨digest, members⟩ := verified
  have member (entry : ArchiveEntry) (there : entry ∈ manifest.entries) :
      ∃ status, verifyMember host contentByPath entry = .ok status ∧ status.verified.isSome := by
    obtain ⟨content, found, sha, size⟩ := members entry there
    exact ⟨_, verifyMember_ok found sha size, rfl⟩
  obtain ⟨found, all⟩ := mapM_ok_of_forall fun entry there => (member entry there).imp fun _ h => h.1
  have complete : (found.all fun status => status.verified.isSome) = true := by
    apply List.all_eq_true.mpr
    intro status there
    obtain ⟨entry, inside, is⟩ := (mapM_eq_ok all).2 status there
    obtain ⟨status', same, present⟩ := member entry inside
    cases is.symm.trans same
    exact present
  refine ⟨⟨manifest.archiveId, manifestDigest host manifest.toManifestBase, found, _⟩, ?_, complete⟩
  have known : storedDigest manifest = .ok (manifestDigest host manifest.toManifestBase) := by
    rw [storedDigest, digest]
  simp only [verifyArchiveManifest, version, ne_eq, not_true_eq_false, decide_false, throwIf_false, ok_bind, known, all]
  rfl

/-- The plan of a manifest and a scope is bound to them, as far as it looks. -/
theorem createRestorePlan_bound {today : Int} {request : RestoreRequest} {plan : RestorePlan}
    (h : createRestorePlan host today request = .ok plan) :
    ∃ manifest scope, request.manifest = some manifest ∧ request.scope = some scope ∧
      plan.archiveId = manifest.archiveId ∧ plan.tenantId = scope.tenantId ∧ plan.userId = scope.userId ∧
      manifest.tenantId = scope.tenantId ∧ manifest.userId = scope.userId ∧
      ∀ resource ∈ plan.resources, resource ∈ scope.resources := by
  unfold createRestorePlan at h
  split at h
  · rename_i manifest scope given authority _
    obtain ⟨_, _, h⟩ := bind_eq_ok.mp h
    obtain ⟨_, same, h⟩ := bind_eq_ok.mp h
    obtain ⟨selected, _, h⟩ := bind_eq_ok.mp h
    obtain ⟨_, authorized, h⟩ := bind_eq_ok.mp h
    obtain ⟨_, _, h⟩ := bind_eq_ok.mp h
    obtain ⟨_, _, h⟩ := bind_eq_ok.mp h
    cases h
    have same := throwIf_eq_ok.mp same
    have authorized := throwIf_eq_ok.mp authorized
    rw [Bool.or_eq_false_iff, decide_eq_false_iff_not, decide_eq_false_iff_not, not_not, not_not] at same
    refine ⟨manifest, scope, given, authority, rfl, rfl, rfl, same.1, same.2, ?_⟩
    intro resource chosen
    have inside := List.any_eq_false.mp authorized resource chosen
    simpa using inside
  · cases h

/-- What a validated plan has passed. -/
theorem validateRestorePlan_eq_ok {today : Int} {plan : RestorePlan} {target : JsValue} {validated : ValidatedPlan}
    (h : validateRestorePlan host today plan ⟨some manifest, some scope, target, contentByPath⟩ = .ok validated) :
    plan.tenantId = scope.tenantId ∧ plan.userId = scope.userId ∧ Verified host manifest contentByPath := by
  unfold validateRestorePlan at h
  split at h
  · rename_i given authority _
    cases given
    cases authority
    obtain ⟨actor, _, h⟩ := bind_eq_ok.mp h
    obtain ⟨_, same, h⟩ := bind_eq_ok.mp h
    obtain ⟨_, _, h⟩ := bind_eq_ok.mp h
    obtain ⟨integrity, verified, h⟩ := bind_eq_ok.mp h
    obtain ⟨_, complete, h⟩ := bind_eq_ok.mp h
    have same := throwIf_eq_ok.mp same
    have complete := throwIf_eq_ok.mp complete
    rw [Bool.or_eq_false_iff, Bool.or_eq_false_iff, decide_eq_false_iff_not, decide_eq_false_iff_not,
      decide_eq_false_iff_not, not_not, not_not, not_not] at same
    rw [Bool.not_eq_false'] at complete
    exact ⟨same.1.2, same.2, verifyArchiveManifest_eq_ok verified complete⟩
  · cases h

theorem validateRestorePlan_ok {today : Int} {plan : RestorePlan} {value : JsValue} {actor : BackupIdentity}
    (given : value.isUndefined = false) (targeted : target scope value = .ok actor)
    (same : plan.archiveId = manifest.archiveId ∧ plan.tenantId = scope.tenantId ∧ plan.userId = scope.userId)
    (kept : plan.overwrite = false) (version : manifest.schemaVersion = 1)
    (verified : Verified host manifest contentByPath) :
    ∃ validated, validateRestorePlan host today plan ⟨some manifest, some scope, value, contentByPath⟩ =
      .ok validated := by
  obtain ⟨integrity, found, complete⟩ := verifyArchiveManifest_ok version verified
  obtain ⟨archive, tenant, user⟩ := same
  simp [validateRestorePlan, given, targeted, archive, tenant, user, kept, found, complete, pure, Except.pure]

/-- A restore that is validated stays inside its scope just if the manifest and
the plan are bound to it. -/
theorem inside_iff {today : Int} {plan : RestorePlan} {target : JsValue} {validated : ValidatedPlan}
    (h : validateRestorePlan host today plan ⟨some manifest, some scope, target, contentByPath⟩ = .ok validated) :
    Inside host plan manifest scope contentByPath ↔ Bound plan manifest scope := by
  obtain ⟨tenant, user, verified⟩ := validateRestorePlan_eq_ok h
  constructor
  · intro inside
    exact ⟨inside.belongs, inside.authorized⟩
  · intro bound
    refine ⟨⟨tenant, user⟩, bound.belongs, bound.authorized, ?_, verified⟩
    intro entry chosen
    have restored := (List.mem_filter.mp chosen).2
    exact (bound.authorized entry.resource (by simpa using restored)).2

theorem matched_eq_ok {pattern : JsString → Bool} {value : JsValue} {error : BackupError} {s : JsString}
    (h : matched pattern value error = .ok s) : value = .string s ∧ pattern s := by
  unfold matched at h
  split at h
  · split at h
    · rename_i holds
      cases h
      exact ⟨rfl, holds⟩
    · cases h
  · cases h

/-- The resource of an entry is the one it is given with. -/
theorem entry_resource {value : JsValue} {index : Nat} {e : ArchiveEntry} (h : entry value index = .ok e) :
    value.get "resource" = .string e.resource := by
  obtain ⟨_, _, h⟩ := bind_eq_ok.mp h
  obtain ⟨resource, known, h⟩ := bind_eq_ok.mp h
  obtain ⟨_, _, h⟩ := bind_eq_ok.mp h
  obtain ⟨_, _, h⟩ := bind_eq_ok.mp h
  obtain ⟨_, _, h⟩ := bind_eq_ok.mp h
  obtain ⟨_, _, h⟩ := bind_eq_ok.mp h
  cases h
  exact (matched_eq_ok known).1

theorem entriesFrom_resources {index : Nat} {items : List JsValue} {entries : List ArchiveEntry}
    (h : entriesFrom index items = .ok entries) :
    items.map (fun item => item.get "resource") = entries.map fun entry => .string entry.resource := by
  induction items generalizing index entries with
  | nil =>
    cases h
    rfl
  | cons item rest ih =>
    obtain ⟨first, made, h⟩ := bind_eq_ok.mp h
    obtain ⟨others, more, h⟩ := bind_eq_ok.mp h
    cases h
    rw [List.map_cons, List.map_cons, entry_resource made, ih more]

/-- What a manifest is made of. -/
structure Manifests (host : Host) (input : JsValue) (manifest : BackupManifest) : Prop where
  resources : resourceList ((input.get "scope").get "resources") "scope.resources" = .ok manifest.resources
  entries : ∃ items, input.get "entries" = .array items ∧ entriesFrom 0 items = .ok manifest.entries
  tenantId : (input.get "scope").get "tenantId" = .string manifest.tenantId
  userId : scopeUser ((input.get "scope").get "userId") = .ok manifest.userId
  archiveId : idPattern manifest.archiveId
  version : manifest.schemaVersion = 1
  digest : manifest.manifestSha256 = some (manifestDigest host manifest.toManifestBase)

theorem createArchiveManifest_eq_ok {today : Int} {uuid : JsString} {input : JsValue}
    (h : createArchiveManifest host today uuid input = .ok manifest) : Manifests host input manifest := by
  obtain ⟨_, _, h⟩ := bind_eq_ok.mp h
  obtain ⟨tenantId, tenant, h⟩ := bind_eq_ok.mp h
  obtain ⟨userId, user, h⟩ := bind_eq_ok.mp h
  obtain ⟨scopeResources, resources, h⟩ := bind_eq_ok.mp h
  obtain ⟨archiveId, archive, h⟩ := bind_eq_ok.mp h
  obtain ⟨items, given, h⟩ := bind_eq_ok.mp h
  obtain ⟨created, _, h⟩ := bind_eq_ok.mp h
  obtain ⟨format, _, h⟩ := bind_eq_ok.mp h
  obtain ⟨entries, made, h⟩ := bind_eq_ok.mp h
  cases h
  have listed : input.get "entries" = .array items := by
    unfold entryItems at given
    split at given
    · rename_i item rest is
      cases given
      exact is
    · cases given
  exact ⟨resources, ⟨items, listed, made⟩, (matched_eq_ok tenant).1, user, (matched_eq_ok archive).2, rfl, rfl⟩

theorem createArchiveManifest_ok {today created : Int} {uuid archiveId tenantId format : JsString}
    {userId : Option JsString} {resources : List JsString} {items : List JsValue} {entries : List ArchiveEntry}
    {input : JsValue} (scope : assertPlain (input.get "scope") "scope" = .ok ())
    (tenant : id ((input.get "scope").get "tenantId") "scope.tenantId" = .ok tenantId)
    (user : scopeUser ((input.get "scope").get "userId") = .ok userId)
    (listed : resourceList ((input.get "scope").get "resources") "scope.resources" = .ok resources)
    (archive : id ((input.get "archiveId").orDefault (.string uuid)) "archiveId" = .ok archiveId)
    (given : entryItems (input.get "entries") = .ok items)
    (date : dateOrToday host today (input.get "createdAt") "createdAt" = .ok created)
    (named : matched formatPattern ((input.get "format").orDefault (.string (js "gulogulo-backup-tar")))
      (backupError "format is invalid" "INVALID_ARCHIVE") = .ok format)
    (made : entriesFrom 0 items = .ok entries) :
    createArchiveManifest host today uuid input = .ok
      { archiveId, format, tenantId, userId, resources, createdAt := isoString created, entries,
        manifestSha256 := some (manifestDigest host
          { archiveId, format, tenantId, userId, resources, createdAt := isoString created, entries }) } := by
  simp only [createArchiveManifest, scope, ok_bind, tenant, user, listed, archive, given, date, named, made]
  rfl

/-- A manifest has entries of its scope's resources only just if it is given
no others. -/
theorem entries_iff {today : Int} {uuid : JsString} {input : JsValue}
    (h : createArchiveManifest host today uuid input = .ok manifest) :
    (∀ entry ∈ manifest.entries, Lists ((input.get "scope").get "resources") entry.resource) ↔
      ∀ items item resource, input.get "entries" = .array items → item ∈ items →
        item.get "resource" = .string resource → Lists ((input.get "scope").get "resources") resource := by
  have made := createArchiveManifest_eq_ok h
  obtain ⟨items, given, entries⟩ := made.entries
  have same := entriesFrom_resources entries
  constructor
  · intro inside items' item resource again there named
    cases given.symm.trans again
    have image : JsValue.string resource ∈ manifest.entries.map fun entry => .string entry.resource := by
      rw [← same, ← named]
      exact List.mem_map.mpr ⟨item, there, rfl⟩
    obtain ⟨entry, inEntries, named⟩ := List.mem_map.mp image
    cases named
    exact inside entry inEntries
  · intro authorized entry there
    have image : JsValue.string entry.resource ∈ items.map fun item => item.get "resource" := by
      rw [same]
      exact List.mem_map.mpr ⟨entry, there, rfl⟩
    obtain ⟨item, inItems, named⟩ := List.mem_map.mp image
    exact authorized items item entry.resource given inItems named

end

/-- Restores that are validated, and manifests that are made, stay inside their
scopes just if what is given to them does. -/
theorem restores_inside_iff (host : Host) :
    (∀ today plan manifest scope target contentByPath validated,
      validateRestorePlan host today plan ⟨some manifest, some scope, target, contentByPath⟩ = .ok validated →
        (Inside host plan manifest scope contentByPath ↔ Bound plan manifest scope)) ∧
    ∀ today uuid input manifest, createArchiveManifest host today uuid input = .ok manifest →
      ((∀ entry ∈ manifest.entries, Lists ((input.get "scope").get "resources") entry.resource) ↔
        ∀ items item resource, input.get "entries" = .array items → item ∈ items →
          item.get "resource" = .string resource → Lists ((input.get "scope").get "resources") resource) :=
  ⟨fun _ _ _ _ _ _ _ accepted => inside_iff accepted, fun _ _ _ _ accepted => entries_iff accepted⟩

def sampleScope (tenant user : String) : BackupScope :=
  .user ⟨js tenant, js user, [js "mail"], js "1970-01-01T00:00:00.000Z", none⟩

/-- The digest of `hello`. -/
def sampleDigest : JsString := js "2cf24dba5fb0a30e26e83b2ac5b9e29e1b161e5c1fa7425e73043362938b9824"

def sampleInput (tenant user : String) : JsValue :=
  .object [(js "scope", (sampleScope tenant user).value), (js "archiveId", .string (js "monday")),
    (js "entries", .array [.object [(js "resource", .string (js "mail")), (js "path", .string (js "inbox/1.eml")),
      (js "bytes", .number 5), (js "sha256", .string sampleDigest)]]),
    (js "createdAt", .number 0)]

def sampleBase (tenant user : String) : ManifestBase where
  archiveId := js "monday"
  format := js "gulogulo-backup-tar"
  tenantId := js tenant
  userId := some (js user)
  resources := [js "mail"]
  createdAt := js "1970-01-01T00:00:00.000Z"
  entries := [⟨js "mail", js "inbox/1.eml", 5, sampleDigest, none⟩]

def sampleManifest (tenant user : String) : BackupManifest :=
  { sampleBase tenant user with manifestSha256 := some (manifestDigest asciiHost (sampleBase tenant user)) }

def samplePlan : RestorePlan where
  archiveId := js "monday"
  tenantId := js "acme"
  userId := some (js "alice")
  resources := [js "mail"]
  overwrite := false
  plannedAt := js "1970-01-01T00:00:00.000Z"

def sampleTarget : JsValue := .object [(js "tenantId", .string (js "acme")), (js "userId", .string (js "alice"))]

def sampleContent (path : JsString) : Option Content :=
  if path = js "inbox/1.eml" then some (.text (js "hello")) else none

theorem sampleManifest_verified (tenant user : String) :
    Verified asciiHost (sampleManifest tenant user) sampleContent := by
  have content : sha256Hex asciiHost (utf8 (js "hello")) = sampleDigest := by decide
  have size : ((utf8 (js "hello")).length : Int) = 5 := by decide
  refine ⟨rfl, ?_⟩
  intro entry there
  cases List.mem_singleton.mp there
  exact ⟨.text (js "hello"), if_pos rfl, content, size⟩

/-- A validation for the scope of `alice`. -/
theorem sampleManifest_validated (tenant user : String) : ∃ validated, validateRestorePlan asciiHost 0 samplePlan
    ⟨some (sampleManifest tenant user), some (sampleScope "acme" "alice"), sampleTarget, sampleContent⟩ =
      .ok validated := by
  obtain ⟨actor, targeted⟩ := eq_ok_of_toBool
    (show (target (sampleScope "acme" "alice") sampleTarget).toBool = true by decide)
  exact validateRestorePlan_ok rfl targeted ⟨rfl, rfl, rfl⟩ rfl rfl (sampleManifest_verified tenant user)

theorem sampleManifest_created : createArchiveManifest asciiHost 0 [] (sampleInput "acme" "alice") =
    .ok (sampleManifest "acme" "alice") := by
  have date : isoString 0 = js "1970-01-01T00:00:00.000Z" := by decide
  have tenant : id (((sampleInput "acme" "alice").get "scope").get "tenantId") "scope.tenantId" = .ok (js "acme") := by
    decide
  have user : scopeUser (((sampleInput "acme" "alice").get "scope").get "userId") = .ok (some (js "alice")) := by
    decide
  have listed : resourceList (((sampleInput "acme" "alice").get "scope").get "resources") "scope.resources" =
      .ok [js "mail"] := by
    decide
  have archive : id (((sampleInput "acme" "alice").get "archiveId").orDefault (.string [])) "archiveId" =
      .ok (js "monday") := by
    decide
  have created : dateOrToday asciiHost 0 ((sampleInput "acme" "alice").get "createdAt") "createdAt" = .ok 0 := by
    decide
  have format : matched formatPattern
      (((sampleInput "acme" "alice").get "format").orDefault (.string (js "gulogulo-backup-tar")))
      (backupError "format is invalid" "INVALID_ARCHIVE") = .ok (js "gulogulo-backup-tar") := by
    decide
  have entries : entriesFrom 0 [.object [(js "resource", .string (js "mail")), (js "path", .string (js "inbox/1.eml")),
      (js "bytes", .number 5), (js "sha256", .string sampleDigest)]] =
      .ok [⟨js "mail", js "inbox/1.eml", 5, sampleDigest, none⟩] := by
    decide
  rw [createArchiveManifest_ok rfl tenant user listed archive rfl created format entries, date]
  rfl

theorem restores_inside_iff_alice :
    Inside asciiHost samplePlan (sampleManifest "acme" "alice") (sampleScope "acme" "alice") sampleContent ∧
    ∀ entry ∈ (sampleManifest "acme" "alice").entries, entry.resource = js "mail" := by
  obtain ⟨validated, accepted⟩ := sampleManifest_validated "acme" "alice"
  have bound : Bound samplePlan (sampleManifest "acme" "alice") (sampleScope "acme" "alice") :=
    ⟨⟨rfl, rfl⟩, fun resource chosen => ⟨chosen, chosen⟩⟩
  refine ⟨((restores_inside_iff asciiHost).1 _ _ _ _ _ _ _ accepted).mpr bound, ?_⟩
  intro entry there
  have inside := ((restores_inside_iff asciiHost).2 _ _ _ _ sampleManifest_created).mpr ?_ entry there
  · obtain ⟨items, same, listed⟩ := inside
    cases same
    simpa [sampleScope, BackupScope.resources] using listed
  · intro items item resource given inItems named
    cases given
    cases List.mem_singleton.mp inItems
    cases named
    exact ⟨_, rfl, List.mem_singleton.mpr rfl⟩

/-- The archive of another tenant's user is restored to `alice`. -/
theorem restore_crosses : ¬ ∀ today plan manifest scope target contentByPath validated,
    validateRestorePlan asciiHost today plan ⟨some manifest, some scope, target, contentByPath⟩ = .ok validated →
      Inside asciiHost plan manifest scope contentByPath := by
  intro inside
  obtain ⟨validated, accepted⟩ := sampleManifest_validated "beta" "bob"
  have belongs := (inside _ _ _ _ _ _ _ accepted).belongs.1
  exact absurd belongs (by decide)

end GuloGulo.Backup
