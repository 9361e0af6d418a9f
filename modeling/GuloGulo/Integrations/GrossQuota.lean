import GuloGulo.Integrations.PostgresStore
import GuloGulo.Js.Sha256
import GuloGulo.Sql.Interleaving

/-!
# The gross quota of a tenant

Whoever allocates quota locks the row of the tenant first. From then on nobody
else changes what is allocated there, so the sum that is compared is still the
sum when the allocation is committed.
-/

namespace GuloGulo.Integrations.Postgres
open Js Data Sql
open Sql.Program (check holds_mono holds_map holds_bind holds_send_bind holds_check_bind)

inductive RowId where
  | tenant (tenantId : JsString)
  | domain (domain : JsString)
  | user (tenantId userId : JsString)
  | allocation (tenantId userId : JsString)

/-- The rows a statement locks: those it selects `FOR UPDATE`, those it writes,
and those a new row references. -/
def Stmt.locks : Stmt → Db → List RowId
  | selectTenant tenantId, db => if (db.find tenantId).isSome then [.tenant tenantId] else []
  | insertTenant tenantId domain _, _ => [.tenant tenantId, .domain domain]
  | insertPolicies tenantId .., _ => [.tenant tenantId]
  | insertUser tenantId columns, _ => [.tenant tenantId, .user tenantId columns.userId]
  | insertAllocation tenantId userId _, _ | upsertAllocation tenantId userId _, _ =>
    [.tenant tenantId, .user tenantId userId, .allocation tenantId userId]
  | _, _ => []

/-- No more is allocated than there is. -/
def Tenant.Within (tenant : Tenant) : Prop := tenant.allocations.values.sum ≤ tenant.grossQuotaBytes

def Db.WithinQuota (db : Db) : Prop := ∀ tenantId tenant, db.find tenantId = some tenant → tenant.Within

/-- What a lock on a row protects; a tenant's row stands for all of it. -/
def SameRow : RowId → Db → Db → Prop
  | .tenant tenantId, d, d' => d'.find tenantId = d.find tenantId
  | _, _, _ => True

def amongStores : Rely Db RowId where
  commit d d' := d.WithinQuota → d'.WithinQuota
  same := SameRow
  commit_refl _ h := h
  commit_trans h h' within := h' (h within)
  same_refl
    | .tenant _, _ => rfl
    | .domain _, _ | .user _ _, _ | .allocation _ _, _ => trivial
  same_trans {k _ _ _} h h' :=
    match k, h, h' with
    | .tenant _, h, h' => h'.trans h
    | .domain _, _, _ | .user _ _, _, _ | .allocation _ _, _, _ => trivial

/-! ## One tenant changes -/

/-- Two databases with the same tenant. -/
def SameAt (tenantId : JsString) (d d' : Db) : Prop := d.find tenantId = d'.find tenantId

/-- Only that tenant differs. -/
def SameBut (tenantId : JsString) (d d' : Db) : Prop := ∀ k, k ≠ tenantId → d'.find k = d.find k

theorem SameAt.symm {tenantId : JsString} {d d' : Db} (h : SameAt tenantId d d') : SameAt tenantId d' d := Eq.symm h

theorem SameBut.refl (tenantId : JsString) (d : Db) : SameBut tenantId d d := fun _ _ => rfl

theorem SameBut.trans {tenantId : JsString} {d e f : Db} (h : SameBut tenantId d e) (h' : SameBut tenantId e f) :
    SameBut tenantId d f :=
  fun k hk => (h' k hk).trans (h k hk)

/-- The key column is left alone. -/
def Keeps (change : Tenant → Option Tenant) : Prop := ∀ t u, change t = some u → u.tenantId = t.tenantId

theorem addUser_keeps (user : UserRow) : Keeps (Tenant.addUser user) := by
  intro t u h
  unfold Tenant.addUser at h
  split at h
  · cases h
  · obtain ⟨users, _, rfl⟩ := Option.map_eq_some_iff.mp h
    rfl

theorem allocate_keeps (userId : JsString) (bytes : Int) : Keeps (Tenant.allocate userId bytes) := by
  intro t u h
  unfold Tenant.allocate at h
  split at h
  · cases h
  · cases h
    rfl

theorem allocateNew_keeps (userId : JsString) (bytes : Int) : Keeps (Tenant.allocateNew userId bytes) := by
  intro t u h
  unfold Tenant.allocateNew at h
  split at h
  · cases h
  · exact allocate_keeps userId bytes t u h

theorem write_eq_ok {tenantId : JsString} {change : Tenant → Option Tenant} {d d' : Db} {r : Unit}
    (h : d.write tenantId change = .ok (r, d')) :
    ∃ t u, d.find tenantId = some t ∧ change t = some u ∧ d' = ⟨d.tenants.put u⟩ := by
  unfold Db.write at h
  split at h
  · rename_i u hu
    obtain ⟨t, ht, changed⟩ := Option.bind_eq_some_iff.mp hu
    cases h
    exact ⟨t, u, ht, changed, rfl⟩
  · cases h

theorem find_put {d : Db} {u : Tenant} (k : JsString) :
    Db.find ⟨d.tenants.put u⟩ k = if u.tenantId = k then some u else d.find k :=
  Table.lookup_put d.tenants u k

theorem tenantId_of_find {d : Db} {tenantId : JsString} {t : Tenant} (h : d.find tenantId = some t) :
    t.tenantId = tenantId :=
  Table.key_of_lookup h

/-- A write, and what it leaves of the tenant. -/
theorem write_spec {tenantId : JsString} {change : Tenant → Option Tenant} (keeps : Keeps change) {d d' : Db} {r : Unit}
    (h : d.write tenantId change = .ok (r, d')) :
    (∃ t u, d.find tenantId = some t ∧ change t = some u ∧ d'.find tenantId = some u) ∧ SameBut tenantId d d' := by
  obtain ⟨t, u, ht, changed, rfl⟩ := write_eq_ok h
  have own : u.tenantId = tenantId := (keeps t u changed).trans (tenantId_of_find ht)
  constructor
  · refine ⟨t, u, ht, changed, ?_⟩
    rw [find_put, if_pos own]
  · intro k hk
    rw [find_put, if_neg]
    rw [own]
    exact Ne.symm hk

section
variable {host : Host} {driver : Driver}

abbrev LocalStmt (driver : Driver) (tenantId : JsString) : Stmt → Prop :=
  Program.LocalStmt (Stmt.exec driver) (SameAt tenantId) (SameBut tenantId)

abbrev Local (driver : Driver) (tenantId : JsString) {α : Type} : StoreProgram α → Prop :=
  Program.Local (Stmt.exec driver) (SameAt tenantId) (SameBut tenantId)

theorem write_local {tenantId : JsString} {change : Tenant → Option Tenant} (keeps : Keeps change) {d e d' : Db}
    {r : Unit} (same : SameAt tenantId d e) (h : d.write tenantId change = .ok (r, d')) :
    ∃ e', e.write tenantId change = .ok (r, e') ∧ SameAt tenantId d' e' ∧ SameBut tenantId e e' := by
  obtain ⟨⟨t, u, ht, changed, here⟩, _⟩ := write_spec keeps h
  have ht' : e.find tenantId = some t := same.symm.trans ht
  have written : e.write tenantId change = .ok (r, ⟨e.tenants.put u⟩) := by
    rw [Db.write, ht', Option.bind_some, changed]
  obtain ⟨⟨t', u', found, changed', here'⟩, elsewhere⟩ := write_spec keeps written
  rw [ht'] at found
  cases found
  rw [changed] at changed'
  cases changed'
  exact ⟨_, written, here.trans here'.symm, elsewhere⟩

theorem insertUser_local (tenantId : JsString) (columns : NewUser) :
    LocalStmt driver tenantId (.insertUser tenantId columns) := by
  intro d e r d' same h
  obtain ⟨displayName, text, h⟩ := bind_eq_ok.mp h
  obtain ⟨e', written, here, elsewhere⟩ := write_local (addUser_keeps _) same h
  exact ⟨e', bind_eq_ok.mpr ⟨displayName, text, written⟩, here, elsewhere⟩

theorem insertAllocation_local (tenantId userId : JsString) (bytes : Int) :
    LocalStmt driver tenantId (.insertAllocation tenantId userId bytes) :=
  fun _ _ _ _ same h => write_local (allocateNew_keeps userId bytes) same h

theorem upsertAllocation_local (tenantId userId : JsString) (bytes : Int) :
    LocalStmt driver tenantId (.upsertAllocation tenantId userId bytes) :=
  fun _ _ _ _ same h => write_local (allocate_keeps userId bytes) same h

theorem selectUser_local (tenantId userId : JsString) : LocalStmt driver tenantId (.selectUser tenantId userId) := by
  intro d e r d' same h
  have same' : d.find tenantId = e.find tenantId := same
  cases h
  exact ⟨e, by simp only [Stmt.exec, same'], same, .refl tenantId e⟩

theorem sumAllocations_local (tenantId : JsString) : LocalStmt driver tenantId (.sumAllocations tenantId) := by
  intro d e r d' same h
  have same' : d.find tenantId = e.find tenantId := same
  cases h
  exact ⟨e, by simp only [Stmt.exec, same'], same, .refl tenantId e⟩

theorem sumOtherAllocations_local (tenantId userId : JsString) :
    LocalStmt driver tenantId (.sumOtherAllocations tenantId userId) := by
  intro d e r d' same h
  have same' : d.find tenantId = e.find tenantId := same
  cases h
  exact ⟨e, by simp only [Stmt.exec, same'], same, .refl tenantId e⟩

theorem createInTenant_local (tenantId : JsString) (user : NewUser) (allocated : Int) (tenant : List TenantColumns) :
    Local driver tenantId (createInTenant tenantId user allocated tenant) := by
  unfold createInTenant
  split
  · exact Program.local_send_bind (sumAllocations_local _) fun _ =>
      Program.local_bind (Program.local_check _) fun _ =>
        Program.local_send_bind (insertUser_local _ _) fun _ =>
          Program.local_send_bind (insertAllocation_local _ _ _) fun _ => trivial
  · trivial

theorem allocateInTenant_local (tenantId userId : JsString) (allocated : Int) (tenant : List TenantColumns) :
    Local driver tenantId (allocateInTenant tenantId userId allocated tenant) := by
  refine Program.local_send_bind (selectUser_local _ _) fun _ => ?_
  split
  · exact Program.local_send_bind (sumOtherAllocations_local _ _) fun _ =>
      Program.local_bind (Program.local_check _) fun _ =>
        Program.local_send_bind (upsertAllocation_local _ _ _) fun _ => trivial
  · trivial

/-! ## Alone -/

/-- The tenant before and after what is reported. -/
structure Allocates (d : Db) (answer : AllocatedQuota) (d' : Db) : Prop where
  tenants : ∃ t t', d.find answer.tenantId = some t ∧ d'.find answer.tenantId = some t' ∧ t'.Within ∧
    t'.allocations.get answer.userId = some answer.allocatedQuotaBytes
  elsewhere : SameBut answer.tenantId d d'

theorem requireQuota_eq_ok {used gross allocated : Int}
    (h : requireQuota [numeric used] (numeric gross) allocated = .ok ()) : used + allocated ≤ gross := by
  obtain ⟨u, readUsed, h⟩ := bind_eq_ok.mp h
  obtain ⟨g, readGross, h⟩ := bind_eq_ok.mp h
  have sameUsed : u = used := asBigInt_numeric readUsed
  have sameGross : g = gross := asBigInt_numeric readGross
  have fits := throwIf_eq_ok.mp h
  rw [sameUsed, sameGross, decide_eq_false_iff_not] at fits
  omega

theorem allocate_eq_some {userId : JsString} {bytes : Int} {t u : Tenant} (h : t.allocate userId bytes = some u) :
    u = { t with allocations := t.allocations.set userId bytes } := by
  unfold Tenant.allocate at h
  split at h
  · cases h
  · cases h
    rfl

theorem allocateNew_eq_some {userId : JsString} {bytes : Int} {t u : Tenant}
    (h : t.allocateNew userId bytes = some u) :
    t.allocations.get userId = none ∧ u = { t with allocations := t.allocations.set userId bytes } := by
  unfold Tenant.allocateNew at h
  split at h
  · cases h
  · rename_i absent
    rw [Bool.not_eq_true, Option.isSome_eq_false_iff, Option.isNone_iff_eq_none] at absent
    exact ⟨absent, allocate_eq_some h⟩

theorem addUser_eq_some {user : UserRow} {t u : Tenant} (h : t.addUser user = some u) :
    u.allocations = t.allocations ∧ u.grossQuotaBytes = t.grossQuotaBytes := by
  unfold Tenant.addUser at h
  split at h
  · cases h
  · obtain ⟨users, _, rfl⟩ := Option.map_eq_some_iff.mp h
    exact ⟨rfl, rfl⟩

/-- The new allocation instead of the old, next to those of the others. -/
theorem within_set {t : Tenant} {userId : JsString} {bytes : Int}
    (fits : t.allocations.sumExcept userId + bytes ≤ t.grossQuotaBytes) :
    Tenant.Within { t with allocations := t.allocations.set userId bytes } := by
  show (t.allocations.set userId bytes).values.sum ≤ t.grossQuotaBytes
  rw [OrderedMap.sum_set]
  exact fits

theorem sends_eq_ok {α : Type} {stmt : Stmt} {next : stmt.Rows → StoreProgram α} {d d' : Db} {a : α}
    (run : (send stmt >>= next).run (Stmt.exec driver) d = .ok (a, d')) :
    ∃ r e, Stmt.exec driver stmt d = .ok (r, e) ∧ (next r).run (Stmt.exec driver) e = .ok (a, d') := by
  obtain ⟨⟨r, e⟩, sent, run⟩ := bind_eq_ok.mp run
  exact ⟨r, e, sent, run⟩

theorem createInTenant_allocates {tenantId : JsString} {user : NewUser} {allocated : Int} {d d' : Db}
    {answer : AllocatedQuota} {t : Tenant} (here : d.find tenantId = some t)
    (run : (createInTenant tenantId user allocated [t.columns]).run (Stmt.exec driver) d = .ok (answer, d')) :
    answer = ⟨tenantId, user.userId, allocated⟩ ∧ Allocates d answer d' := by
  obtain ⟨_, _, summed, run⟩ := sends_eq_ok run
  cases summed
  rw [here] at run
  obtain ⟨_, fits, run⟩ := Program.run_check_bind_eq_ok.mp run
  have fits := requireQuota_eq_ok fits
  obtain ⟨_, d₁, added, run⟩ := sends_eq_ok run
  obtain ⟨displayName, _, added⟩ := bind_eq_ok.mp added
  obtain ⟨⟨t₀, t₁, found, adds, here₁⟩, elsewhere₁⟩ := write_spec (addUser_keeps _) added
  rw [here] at found
  cases found
  obtain ⟨sameAllocations, sameGross⟩ := addUser_eq_some adds
  obtain ⟨_, d₂, inserted, run⟩ := sends_eq_ok run
  obtain ⟨⟨t₁', t₂, found, allocates, here₂⟩, elsewhere₂⟩ := write_spec (allocateNew_keeps _ _) inserted
  rw [here₁] at found
  cases found
  cases run
  obtain ⟨absent, rfl⟩ := allocateNew_eq_some allocates
  refine ⟨rfl, ⟨t, _, here, here₂, ?_, ?_⟩, elsewhere₁.trans elsewhere₂⟩
  · apply within_set
    have split := t₁.allocations.sum_values user.userId
    rw [absent, Option.getD_none, sameAllocations] at split
    rw [sameAllocations, sameGross]
    have fits : t.allocations.values.sum + allocated ≤ t.grossQuotaBytes := fits
    omega
  · show (t₁.allocations.set user.userId allocated).get user.userId = some allocated
    rw [OrderedMap.get_set, if_pos rfl]

theorem allocateInTenant_allocates {tenantId userId : JsString} {allocated : Int} {d d' : Db}
    {answer : AllocatedQuota} {t : Tenant} (here : d.find tenantId = some t)
    (run : (allocateInTenant tenantId userId allocated [t.columns]).run (Stmt.exec driver) d = .ok (answer, d')) :
    answer = ⟨tenantId, userId, allocated⟩ ∧ Allocates d answer d' := by
  obtain ⟨user, _, selected, run⟩ := sends_eq_ok run
  cases selected
  match (((d.find tenantId).bind fun tenant => tenant.users.lookup userId).toList.map UserRow.userId), run with
  | [_], run =>
    obtain ⟨_, _, summed, run⟩ := sends_eq_ok run
    cases summed
    rw [here] at run
    obtain ⟨_, fits, run⟩ := Program.run_check_bind_eq_ok.mp run
    have fits := requireQuota_eq_ok fits
    obtain ⟨_, d₁, upserted, run⟩ := sends_eq_ok run
    obtain ⟨⟨t', t₁, found, allocates, here₁⟩, elsewhere⟩ := write_spec (allocate_keeps _ _) upserted
    rw [here] at found
    cases found
    cases run
    obtain rfl := allocate_eq_some allocates
    refine ⟨rfl, ⟨t, _, here, here₁, within_set fits, ?_⟩, elsewhere⟩
    show (t.allocations.set userId allocated).get userId = some allocated
    rw [OrderedMap.get_set, if_pos rfl]
  | [], run => cases run
  | _ :: _ :: _, run => cases run

/-! ## Among others -/

/-- What the answer to a call is about. -/
structure StoreCall.Reports (host : Host) (context options bytes : JsValue) (answer : AllocatedQuota) : Prop where
  tenantId : ∃ canonical, Actor.assertTenantContext host context = .ok canonical ∧
    answer.tenantId = canonical.tenantId
  userId : options.get "userId" = .string answer.userId
  bytes : quotaBytes bytes = .ok answer.allocatedQuotaBytes

/-- The user and the bytes reported are those the call asked for. -/
def StoreCall.Asks (host : Host) : StoreCall → AllocatedQuota → Prop
  | .bootstrapTenant _ _, _ => False
  | .createUserReference context options, answer =>
    Reports host context options ((options.get "allocatedQuotaBytes").orDefault (.number 0)) answer
  | .allocateQuota context options, answer => Reports host context options (options.get "allocatedQuotaBytes") answer

/-- What an attempt at a call promises of its commit. -/
def promise (host : Host) (call : StoreCall) : StoreAnswer → Db → (Db → Db) → List RowId → Prop
  | .bootstrapped _, d, writes, held => amongStores.Commits d writes held
  | .allocated answer, d, writes, held =>
    call.Asks host answer ∧ Allocates d answer (writes d) ∧ .tenant answer.tenantId ∈ held

theorem promise_commits {call : StoreCall} {answer : StoreAnswer} {d : Db} {writes : Db → Db} {held : List RowId}
    (h : promise host call answer d writes held) : amongStores.Commits d writes held := by
  cases answer with
  | bootstrapped _ => exact h
  | allocated answer =>
    obtain ⟨_, allocates, lock⟩ := h
    obtain ⟨_, t', _, after, within, _⟩ := allocates.tenants
    constructor
    · intro before k t found
      by_cases own : k = answer.tenantId
      · subst own
        rw [after] at found
        cases found
        exact within
      · rw [allocates.elsewhere k own] at found
        exact before k t found
    · intro k free
      cases k with
      | tenant k =>
        apply allocates.elsewhere
        rintro rfl
        exact free lock
      | domain | user | allocation => trivial

/-- From the lock on, an operation is alone with its tenant. -/
theorem locked_holds {p : List TenantColumns → StoreProgram AllocatedQuota} {tenantId : JsString} (answer : AllocatedQuota)
    {post : AllocatedQuota → Db → (Db → Db) → List RowId → Prop} {d : Db}
    (hlocal : ∀ rows, Local driver tenantId (p rows))
    (none : ∀ d writes held, (p []).Holds (Stmt.exec driver) Stmt.locks amongStores post d writes held)
    (alone : ∀ d d' t a, d.find tenantId = some t → (p [t.columns]).run (Stmt.exec driver) d = .ok (a, d') →
      a = answer ∧ Allocates d a d')
    (own : answer.tenantId = tenantId)
    (ends : ∀ d writes held, Allocates d answer (writes d) → .tenant tenantId ∈ held → post answer d writes held) :
    (send (.selectTenant tenantId) >>= p).Holds (Stmt.exec driver) Stmt.locks amongStores post d (fun x => x) [] := by
  apply holds_send_bind
  intro d' _ rows v sent
  cases sent
  cases here : d'.find tenantId with
  | none => exact none _ _ _
  | some t =>
    have lock : RowId.tenant tenantId ∈ Stmt.locks (.selectTenant tenantId) d' ++ [] := by
      simp only [Stmt.locks, here, Option.isSome_some, if_true, List.append_nil, List.mem_singleton]
    have laid (x : Db) (hx : amongStores.same (.tenant tenantId) d' x) :
        SameAt tenantId d' (effect (Stmt.exec driver) (.selectTenant tenantId) x) ∧
          SameBut tenantId x (effect (Stmt.exec driver) (.selectTenant tenantId) x) :=
      ⟨Eq.symm hx, .refl _ x⟩
    refine holds_mono (Program.holds_serial (SameAt tenantId) (SameBut tenantId) SameAt.symm SameBut.trans
      (hlocal _) lock laid) ?_
    rintro a e w l ⟨s', run, held, same, laid⟩
    obtain ⟨rfl, allocates⟩ := alone d' s' t a here run
    obtain ⟨t₀, t', before, after, within, own'⟩ := allocates.tenants
    obtain ⟨hereAfter, elsewhere⟩ := laid e (amongStores.same_refl _ e)
    apply ends e w l _ held
    rw [own] at before after
    refine ⟨⟨t₀, t', ?_, ?_, within, own'⟩, ?_⟩
    · rw [own]
      exact Eq.trans same before
    · rw [own]
      exact hereAfter.symm.trans after
    · rw [own]
      exact elsewhere

section
variable {α : Type} {post : α → Db → (Db → Db) → List RowId → Prop} {d : Db} {writes : Db → Db} {held : List RowId}

theorem destructure_holds {options : JsValue} {next : Unit → StoreProgram α}
    (h : (next ()).Holds (Stmt.exec driver) Stmt.locks amongStores post d writes held) :
    (destructure options >>= next).Holds (Stmt.exec driver) Stmt.locks amongStores post d writes held := by
  unfold destructure
  split
  · trivial
  · exact h

theorem openContext_holds {context : JsValue} {next : Actor.TenantContext → StoreProgram α}
    (h : ∀ canonical, Actor.assertTenantContext host context = .ok canonical →
      (next canonical).Holds (Stmt.exec driver) Stmt.locks amongStores post d writes held) :
    (openContext host context >>= next).Holds (Stmt.exec driver) Stmt.locks amongStores post d writes held := by
  unfold openContext
  split
  · rename_i canonical opened
    exact h canonical opened
  · trivial

end

theorem openAccess_holds {α : Type} {post : α → Db → (Db → Db) → List RowId → Prop} {d : Db} {writes : Db → Db}
    {held : List RowId} {context requestedTenantId : JsValue} {next : Actor.TenantContext → StoreProgram α}
    (h : ∀ canonical, (next canonical).Holds (Stmt.exec driver) Stmt.locks amongStores post d writes held) :
    (openAccess host context requestedTenantId >>= next).Holds (Stmt.exec driver) Stmt.locks amongStores post d
      writes held := by
  unfold openAccess openContext
  cases Actor.assertTenantContext host context with
  | error e => trivial
  | ok canonical =>
    show ((if requestedTenantId.isString canonical.tenantId then pure canonical else .throw .foreign :
      StoreProgram Actor.TenantContext) >>= next).Holds _ _ _ _ _ _ _
    split
    · exact h canonical
    · trivial

theorem safeIdentifier_eq_ok {value : JsValue} {name : String} {s : JsString} (h : safeIdentifier value name = .ok s) :
    value = .string s := by
  unfold safeIdentifier at h
  split at h
  · split at h
    · cases h
      rfl
    · cases h
  · cases h

theorem createUserReference_holds (context options : JsValue) (d : Db) :
    (program host (.createUserReference context options)).Holds (Stmt.exec driver) Stmt.locks amongStores
      (promise host (.createUserReference context options)) d (fun x => x) [] := by
  apply holds_map
  apply destructure_holds
  apply openContext_holds
  intro canonical opened
  apply holds_check_bind
  intro userId readUserId
  apply holds_check_bind
  intro externalId _
  apply holds_check_bind
  intro mailAddress _
  apply holds_check_bind
  intro allocated readBytes
  refine locked_holds ⟨canonical.tenantId, userId, allocated⟩ (createInTenant_local _ _ _) ?_ ?_ rfl ?_
  · intro d writes held
    trivial
  · intro d d' t a here run
    exact createInTenant_allocates here run
  · intro d writes held allocates lock
    exact ⟨⟨⟨canonical, opened, rfl⟩, safeIdentifier_eq_ok readUserId, readBytes⟩, allocates, lock⟩

theorem allocateQuota_holds (context options : JsValue) (d : Db) :
    (program host (.allocateQuota context options)).Holds (Stmt.exec driver) Stmt.locks amongStores
      (promise host (.allocateQuota context options)) d (fun x => x) [] := by
  apply holds_map
  apply destructure_holds
  apply openContext_holds
  intro canonical opened
  apply holds_check_bind
  intro userId readUserId
  apply holds_check_bind
  intro allocated readBytes
  refine locked_holds ⟨canonical.tenantId, userId, allocated⟩ (allocateInTenant_local _ _ _) ?_ ?_ rfl ?_
  · intro d writes held d' _ rows v _
    trivial
  · intro d d' t a here run
    exact allocateInTenant_allocates here run
  · intro d writes held allocates lock
    exact ⟨⟨⟨canonical, opened, rfl⟩, safeIdentifier_eq_ok readUserId, readBytes⟩, allocates, lock⟩

/-- Nothing is allocated in a new tenant. -/
theorem insertTenant_commits (tenantId domain : JsString) (grossQuota : Int) (d : Db) {held : List RowId}
    (lock : .tenant tenantId ∈ held) :
    amongStores.Commits d (effect (Stmt.exec driver) (.insertTenant tenantId domain grossQuota)) held := by
  cases run : Stmt.exec driver (.insertTenant tenantId domain grossQuota) d with
  | error e =>
    have same : effect (Stmt.exec driver) (.insertTenant tenantId domain grossQuota) d = d := by
      simp only [effect, run]
    rw [Rely.Commits, same]
    exact ⟨amongStores.commit_refl d, fun k _ => amongStores.same_refl k d⟩
  | ok r =>
    obtain ⟨u, d'⟩ := r
    have left : effect (Stmt.exec driver) (.insertTenant tenantId domain grossQuota) d = d' := by
      simp only [effect, run]
    obtain ⟨_, free, run⟩ := bind_eq_ok.mp run
    have positive := throwIf_eq_ok.mp free
    rw [Bool.or_eq_false_iff, decide_eq_false_iff_not] at positive
    split at run
    · rename_i tenants inserted
      cases run
      have found (k : JsString) : Db.find ⟨tenants⟩ k =
          if tenantId = k then some ⟨tenantId, domain, grossQuota, Table.empty, Table.empty⟩ else d.find k :=
        Table.lookup_insert? inserted k
      rw [Rely.Commits, left]
      constructor
      · intro before k t there
        rw [found] at there
        split at there
        · cases there
          show (0 : Int) ≤ grossQuota
          omega
        · exact before k t there
      · intro k free
        cases k with
        | tenant k =>
          show Db.find ⟨tenants⟩ k = d.find k
          rw [found, if_neg]
          rintro rfl
          exact free lock
        | domain | user | allocation => trivial
    · cases run

theorem insertPolicies_untouched (tenantId : JsString) (maxUsers maxAliases maxMessageBytes : JsValue) (d : Db) :
    effect (Stmt.exec driver) (.insertPolicies tenantId maxUsers maxAliases maxMessageBytes) d = d := by
  cases accepted : driver.policies maxUsers maxAliases maxMessageBytes with
  | true => simp only [effect, Stmt.exec, accepted, Bool.not_true, throwIf_false, ok_bind]; rfl
  | false => simp only [effect, Stmt.exec, accepted, Bool.not_false, throwIf, if_true]; rfl

theorem insertPolicies_commits {tenantId : JsString} {maxUsers maxAliases maxMessageBytes : JsValue} {d : Db}
    {writes : Db → Db} {held : List RowId} (h : amongStores.Commits d writes held) :
    amongStores.Commits d
      (fun x => effect (Stmt.exec driver) (.insertPolicies tenantId maxUsers maxAliases maxMessageBytes) (writes x))
      held := by
  rw [Rely.Commits, insertPolicies_untouched]
  exact h

theorem untouched_commits (d : Db) (held : List RowId) : amongStores.Commits d (fun x => x) held :=
  ⟨amongStores.commit_refl d, fun k _ => amongStores.same_refl k d⟩

theorem bootstrapTenant_holds (context options : JsValue) (d : Db) :
    (program host (.bootstrapTenant context options)).Holds (Stmt.exec driver) Stmt.locks amongStores
      (promise host (.bootstrapTenant context options)) d (fun x => x) [] := by
  apply holds_map
  apply destructure_holds
  apply openAccess_holds
  intro canonical
  apply holds_check_bind
  intro domain _
  apply holds_check_bind
  intro grossQuota _
  apply holds_send_bind
  intro d' _ rows v sent
  cases rows with
  | nil =>
    apply holds_send_bind
    intro d₁ _ _ _ _
    apply holds_send_bind
    intro d₂ _ _ _ _ d₃ _
    apply insertPolicies_commits
    refine insertTenant_commits canonical.tenantId (host.toLowerCase domain) grossQuota d₃ ?_
    exact List.mem_append_left _ List.mem_cons_self
  | cons existing rest =>
    apply holds_check_bind
    intro _ _
    apply holds_check_bind
    intro _ _
    apply holds_check_bind
    intro _ _ d₁ _
    exact untouched_commits _ _

theorem program_holds (call : StoreCall) (d : Db) :
    (program host call).Holds (Stmt.exec driver) Stmt.locks amongStores (promise host call) d (fun x => x) [] := by
  cases call with
  | bootstrapTenant context options => exact bootstrapTenant_holds context options d
  | createUserReference context options => exact createUserReference_holds context options d
  | allocateQuota context options => exact allocateQuota_holds context options d

end

/-! ## Any interleaving -/

section
variable {ι : Type} [DecidableEq ι] (host : Host) (driver : Driver)

/-- The database with the attempts under way. -/
abbrev StoreServer (ι : Type) := Server ι (Thrown StoreError) Stmt.Rows Db RowId StoreAnswer

abbrev StoreServer.Step (driver : Driver) :
    StoreServer ι → ι → Event (Thrown StoreError) Stmt.Rows StoreAnswer → StoreServer ι → Prop :=
  Server.Step (Stmt.exec driver) Stmt.locks

/-- Call `i` may attempt its transaction any number of times, as `retry` has it. -/
def Moves (calls : ι → StoreCall) (s s' : StoreServer ι) : Prop :=
  ∃ i e, StoreServer.Step driver s i e s' ∧ ∀ p, e = .begins p → p = program host (calls i)

def Run (calls : ι → StoreCall) (s s' : StoreServer ι) : Prop := Relation.ReflTransGen (Moves host driver calls) s s'

/-- The tables before the first tenant. -/
def StoreServer.initial : StoreServer ι := ⟨.empty, fun _ => none⟩

structure StoreServer.Sound (calls : ι → StoreCall) (s : StoreServer ι) : Prop where
  within : s.committed.WithinQuota
  server : Server.Sound (Stmt.exec driver) Stmt.locks amongStores (fun i => promise host (calls i)) s

variable {host driver} {calls : ι → StoreCall}

omit [DecidableEq ι] in
theorem initial_sound : (StoreServer.initial : StoreServer ι).Sound host driver calls := by
  refine ⟨?_, ?_, ?_⟩
  · intro tenantId t found
    cases found
  · intro i session running
    cases running
  · intro i j a b _ running
    cases running

theorem moves_sound {s s' : StoreServer ι} (sound : s.Sound host driver calls) (moves : Moves host driver calls s s') :
    s'.Sound host driver calls := by
  obtain ⟨i, e, step, begins⟩ := moves
  have commits (i : ι) (a : StoreAnswer) (d : Db) (writes : Db → Db) (held : List RowId)
      (h : promise host (calls i) a d writes held) : amongStores.Commits d writes held := promise_commits h
  constructor
  · exact Server.step_commit sound.server step commits sound.within
  · refine Server.step_sound sound.server step ?_ commits
    intro p hp
    rw [begins p hp]
    exact program_holds (calls i) s.committed

theorem reachable_sound {s s' : StoreServer ι} (sound : s.Sound host driver calls) (run : Run host driver calls s s') :
    s'.Sound host driver calls := by
  induction run with
  | refl => exact sound
  | tail _ moves ih => exact moves_sound ih moves

/-- However the statements of any number of calls fall between each other, no
tenant is committed to more than its gross quota, and an attempt that commits
leaves the user the bytes it reports. -/
theorem gross_quota_never_exceeded {s : StoreServer ι} (run : Run host driver calls .initial s) :
    s.committed.WithinQuota ∧
    ∀ i answer s', StoreServer.Step driver s i (.commits (.allocated answer)) s' → (calls i).Asks host answer ∧
      s'.committed.allocation answer.tenantId answer.userId = some answer.allocatedQuotaBytes := by
  have sound := reachable_sound initial_sound run
  refine ⟨sound.within, ?_⟩
  intro i answer s' step
  obtain ⟨writes, held, ⟨asks, allocates, _⟩, committed, _⟩ := Server.commits_post sound.server step
  obtain ⟨_, t', _, after, _, own⟩ := allocates.tenants
  refine ⟨asks, ?_⟩
  rw [committed, Db.allocation, after, Option.bind_some, own]

end

def sampleContext : JsValue := Actor.userContext (js "acme") (js "acme.example") (js "root")

def sampleUser (userId : String) (bytes : Rat) : JsValue :=
  .object [(js "userId", .string (js userId)), (js "externalId", .string (js userId)),
    (js "mailAddress", .string (js (userId ++ "@acme.example"))), (js "allocatedQuotaBytes", .number bytes)]

/-- Two users of a tenant with room for one of them. -/
def sampleCalls : Fin 3 → StoreCall
  | 0 => .bootstrapTenant sampleContext (.object [(js "tenantId", .string (js "acme")),
      (js "domain", .string (js "acme.example")), (js "grossQuotaBytes", .number 100)])
  | 1 => .createUserReference sampleContext (sampleUser "ada" 60)
  | 2 => .createUserReference sampleContext (sampleUser "bob" 60)

def sampleDriver : Driver where
  text
    | .null => .ok none
    | .string s => .ok (some s)
    | _ => .error .foreign
  policies _ _ _ := true

theorem moves_of_sends {i : Fin 3} {s s' : StoreServer (Fin 3)}
    (sends : Relation.ReflTransGen (fun s t => StoreServer.Step sampleDriver s i .sends t) s s') :
    Run asciiHost sampleDriver sampleCalls s s' := by
  refine sends.lift id ?_
  intro s t step
  refine ⟨i, .sends, step, ?_⟩
  intro p hp
  cases hp

theorem gross_quota_never_exceeded_ada : ∃ s s' : StoreServer (Fin 3), Run asciiHost sampleDriver sampleCalls .initial s ∧
    s.sessions 2 ≠ none ∧ StoreServer.Step sampleDriver s 1 (.commits (.allocated ⟨js "acme", js "ada", 60⟩)) s' ∧
    s.committed.WithinQuota ∧ s'.committed.allocation (js "acme") (js "ada") = some 60 := by
  have answers : (do
      let (_, d) ← (program asciiHost (sampleCalls 0)).run (Stmt.exec sampleDriver) .empty
      let (answer, _) ← (program asciiHost (sampleCalls 1)).run (Stmt.exec sampleDriver) d
      return answer : Except (Thrown StoreError) StoreAnswer) = .ok (.allocated ⟨js "acme", js "ada", 60⟩) := by
    decide
  obtain ⟨⟨tenant, d⟩, made, answers⟩ := bind_eq_ok.mp answers
  obtain ⟨⟨answer, d'⟩, created, answers⟩ := bind_eq_ok.mp answers
  obtain rfl : answer = .allocated ⟨js "acme", js "ada", 60⟩ := Except.ok.inj answers
  obtain ⟨s₀, t₀, begins, sends, commits⟩ := Server.transaction_alone Stmt.locks (0 : Fin 3) made
  have bootstrapped : Run asciiHost sampleDriver sampleCalls .initial ⟨d, fun _ => none⟩ := by
    refine .head ⟨0, _, begins, ?_⟩ ((moves_of_sends sends).tail ⟨0, _, commits, ?_⟩)
    · intro p hp
      exact (Event.begins.inj hp).symm
    · intro p hp
      cases hp
  let ada : StoreServer (Fin 3) :=
    ⟨d, Function.update (fun _ => none) 1 (some (.start (program asciiHost (sampleCalls 1))))⟩
  let both : StoreServer (Fin 3) :=
    ⟨d, Function.update ada.sessions 2 (some (.start (program asciiHost (sampleCalls 2))))⟩
  have first : Moves asciiHost sampleDriver sampleCalls ⟨d, fun _ => none⟩ ada :=
    ⟨1, _, .begins _ rfl, fun p hp => (Event.begins.inj hp).symm⟩
  have second : Moves asciiHost sampleDriver sampleCalls ada both :=
    ⟨2, _, .begins _ rfl, fun p hp => (Event.begins.inj hp).symm⟩
  have running : both.sessions 1 = some (.start (program asciiHost (sampleCalls 1))) := rfl
  have free (k : RowId) : ¬ both.Busy 1 k := by
    rintro ⟨j, session, other, there, held⟩
    match j, other, there with
    | 0, _, there => cases there
    | 1, other, _ => exact other rfl
    | 2, _, there =>
      cases there
      cases held
  obtain ⟨writes, held, _, sends⟩ := Server.runs_alone running free created
  have run := ((bootstrapped.tail first).tail second).trans (moves_of_sends sends)
  have step : StoreServer.Step sampleDriver
      ⟨d, Function.update both.sessions 1 (some ⟨.pure (.allocated ⟨js "acme", js "ada", 60⟩), writes, held⟩)⟩ 1
      (.commits (.allocated ⟨js "acme", js "ada", 60⟩)) _ :=
    .commits _ writes held (Function.update_self 1 _ both.sessions)
  have holds := gross_quota_never_exceeded run
  refine ⟨_, _, run, ?_, step, holds.1, (holds.2 1 _ _ step).2⟩
  intro closed
  cases closed

end GuloGulo.Integrations.Postgres
