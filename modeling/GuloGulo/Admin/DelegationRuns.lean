import GuloGulo.Admin.Delegation
import GuloGulo.Data.Machine
import GuloGulo.Js.Sha256

/-!
# Delegations over a run

What a successful change has found and leaves, and from it what the store of
one tenant holds after any calls, and whose content it opens to whom.
-/

namespace GuloGulo.Admin
open Js Data Integrations Actor

namespace Delegation

/-- A successful `create`. -/
structure Creates (host : Host) (records : OrderedMap JsString DelegationRecord) (clock : Answer)
    (actor input : JsValue) (change : Change) (draft : Draft) : Prop where
  drafted : assertDraft host clock actor input = .ok draft
  known : normalizeActor host actor = .ok draft.canonical
  named : input.get "ownerUserId" = .string change.owner
  safe : actorIdPattern change.owner
  owner : draft.owner = change.owner
  reads : now host clock = .ok change.time
  free : ∀ record, records.get change.owner = some record → isActive record change.time = false
  permitted : (requestedPermissions input).toBool
  tenantId : change.record.tenantId = draft.canonical.tenantId
  ownerUserId : change.record.ownerUserId = change.owner
  event : change.event.tenantId = draft.canonical.tenantId

/-- A successful `update` or `revoke`, with the record that it found. -/
structure Edits (host : Host) (records : OrderedMap JsString DelegationRecord) (clock : Answer)
    (actor ownerUserId : JsValue) (change : Change) (canonical : AdminActor) (previous : DelegationRecord) : Prop where
  known : normalizeActor host actor = .ok canonical
  named : ownerUserId = .string change.owner
  safe : actorIdPattern change.owner
  reads : now host clock = .ok change.time
  found : records.get change.owner = some previous
  active : isActive previous change.time
  tenant : previous.tenantId = canonical.tenantId
  unlocked : previous.forced → canonical.role ≠ .user
  tenantId : change.record.tenantId = previous.tenantId
  ownerUserId : change.record.ownerUserId = previous.ownerUserId
  event : change.event.tenantId = previous.tenantId

section
variable {host : Host} {records : OrderedMap JsString DelegationRecord} {clock : Answer}

theorem check_eq_ok {α : Type} {x : Except AdminError α} {a : α} : check x = .ok a ↔ x = .ok a := mapError_eq_ok

theorem parameter_eq_ok {input v : JsValue} (h : parameter input = .ok v) : v = input := by
  unfold parameter at h
  split at h
  · cases h
  · cases h
    rfl

/-- Who manages whose delegation. -/
theorem assertTenantOwner_eq_ok {actor ownerUserId : JsValue} {canonical : AdminActor} {owner : JsString}
    (h : assertTenantOwner host actor ownerUserId = .ok (canonical, owner)) :
    normalizeActor host actor = .ok canonical ∧ ownerUserId = .string owner ∧ actorIdPattern owner := by
  obtain ⟨c, known, h⟩ := bind_eq_ok.mp h
  obtain ⟨o, named, h⟩ := bind_eq_ok.mp h
  obtain ⟨_, _, h⟩ := bind_eq_ok.mp h
  obtain ⟨_, _, h⟩ := bind_eq_ok.mp h
  obtain ⟨_, _, h⟩ := bind_eq_ok.mp h
  cases h
  exact ⟨known, assertSafeUserId_eq_ok.mp named⟩

/-- What a draft rests on. -/
theorem assertDraft_eq_ok {actor input : JsValue} {draft : Draft}
    (h : assertDraft host clock actor input = .ok draft) :
    normalizeActor host actor = .ok draft.canonical ∧ input.get "ownerUserId" = .string draft.owner ∧
      actorIdPattern draft.owner ∧ now host clock = .ok draft.timestamp := by
  obtain ⟨⟨canonical, owner⟩, owned, h⟩ := bind_eq_ok.mp h
  obtain ⟨delegate, _, h⟩ := bind_eq_ok.mp h
  obtain ⟨_, _, h⟩ := bind_eq_ok.mp h
  obtain ⟨_, _, h⟩ := bind_eq_ok.mp h
  obtain ⟨_, _, h⟩ := bind_eq_ok.mp h
  obtain ⟨timestamp, reads, h⟩ := bind_eq_ok.mp h
  obtain ⟨expiry, _, h⟩ := bind_eq_ok.mp h
  obtain ⟨_, _, h⟩ := bind_eq_ok.mp h
  obtain ⟨reason, _, h⟩ := bind_eq_ok.mp h
  cases h
  obtain ⟨known, named, safe⟩ := assertTenantOwner_eq_ok (check_eq_ok.mp owned)
  exact ⟨known, named, safe, reads⟩

theorem create_eq_ok {actor input : JsValue} {change : Change}
    (h : create host records clock actor input = .ok change) :
    ∃ draft, Creates host records clock actor input change draft := by
  obtain ⟨v, given, h⟩ := bind_eq_ok.mp h
  cases parameter_eq_ok given
  obtain ⟨draft, drafted, h⟩ := bind_eq_ok.mp h
  obtain ⟨_, free, h⟩ := bind_eq_ok.mp h
  obtain ⟨permissions, permitted, h⟩ := bind_eq_ok.mp h
  cases h
  obtain ⟨known, named, safe, reads⟩ := assertDraft_eq_ok drafted
  have free := throwIf_eq_ok.mp (check_eq_ok.mp free)
  have permitted := check_eq_ok.mp permitted
  have unoccupied (record : DelegationRecord) (h : records.get draft.owner = some record) :
      isActive record draft.timestamp = false := by
    rw [h] at free
    exact free
  have ok : (requestedPermissions input).toBool := by
    rw [permitted]
    rfl
  exact ⟨draft, drafted, known, named, safe, rfl, reads, unoccupied, ok, rfl, rfl, rfl⟩

theorem lookupActive_eq_ok {canonical : AdminActor} {owner : JsString} {timestamp : Int} {verb : String}
    {record : DelegationRecord} (h : lookupActive records canonical owner timestamp verb = .ok record) :
    records.get owner = some record ∧ isActive record timestamp ∧ record.tenantId = canonical.tenantId ∧
      (record.forced → canonical.role ≠ .user) := by
  unfold lookupActive at h
  split at h
  · cases h
  · rename_i r found
    obtain ⟨_, tenant, h⟩ := bind_eq_ok.mp h
    obtain ⟨_, unlocked, h⟩ := bind_eq_ok.mp h
    cases h
    rw [Option.filter_eq_some_iff] at found
    have tenant := throwIf_eq_ok.mp tenant
    have unlocked := throwIf_eq_ok.mp unlocked
    rw [bne_eq_false_iff_eq] at tenant
    refine ⟨found.1, found.2, tenant, ?_⟩
    intro forced
    rw [forced, Bool.true_and, decide_eq_false_iff_not] at unlocked
    exact unlocked

theorem update_eq_ok {actor ownerUserId input : JsValue} {change : Change}
    (h : update host records clock actor ownerUserId input = .ok change) :
    ∃ canonical previous, Edits host records clock actor ownerUserId change canonical previous ∧
      ((input.get "expiresAt").isUndefined → change.record.expiresAt = previous.expiresAt) := by
  obtain ⟨v, kept, h⟩ := bind_eq_ok.mp h
  cases parameter_eq_ok kept
  obtain ⟨⟨canonical, owner⟩, owned, h⟩ := bind_eq_ok.mp h
  obtain ⟨timestamp, reads, h⟩ := bind_eq_ok.mp h
  obtain ⟨record, found, h⟩ := bind_eq_ok.mp h
  obtain ⟨delegate, _, h⟩ := bind_eq_ok.mp h
  obtain ⟨_, _, h⟩ := bind_eq_ok.mp h
  obtain ⟨expiry, expires, h⟩ := bind_eq_ok.mp h
  obtain ⟨_, _, h⟩ := bind_eq_ok.mp h
  obtain ⟨reason, _, h⟩ := bind_eq_ok.mp h
  obtain ⟨permissions, _, h⟩ := bind_eq_ok.mp h
  cases h
  obtain ⟨known, named, safe⟩ := assertTenantOwner_eq_ok (check_eq_ok.mp owned)
  obtain ⟨found, active, tenant, unlocked⟩ := lookupActive_eq_ok (check_eq_ok.mp found)
  refine ⟨canonical, record, ⟨known, named, safe, reads, found, active, tenant, unlocked, rfl, rfl, rfl⟩, ?_⟩
  intro absent
  have expires := check_eq_ok.mp expires
  rw [given, if_pos absent] at expires
  cases expires
  rfl

theorem revoke_eq_ok {actor ownerUserId input : JsValue} {change : Change}
    (h : revoke host records clock actor ownerUserId input = .ok change) :
    ∃ canonical previous, Edits host records clock actor ownerUserId change canonical previous ∧
      change.record.expiresAt = some change.time := by
  obtain ⟨v, kept, h⟩ := bind_eq_ok.mp h
  cases parameter_eq_ok kept
  obtain ⟨⟨canonical, owner⟩, owned, h⟩ := bind_eq_ok.mp h
  obtain ⟨timestamp, reads, h⟩ := bind_eq_ok.mp h
  obtain ⟨record, found, h⟩ := bind_eq_ok.mp h
  obtain ⟨reason, _, h⟩ := bind_eq_ok.mp h
  cases h
  obtain ⟨known, named, safe⟩ := assertTenantOwner_eq_ok (check_eq_ok.mp owned)
  obtain ⟨found, active, tenant, unlocked⟩ := lookupActive_eq_ok (check_eq_ok.mp found)
  exact ⟨canonical, record, ⟨known, named, safe, reads, found, active, tenant, unlocked, rfl, rfl, rfl⟩, rfl⟩

end

/-! ## Steps -/

/-- A call, the answer of its clock, and what it returned or threw. -/
abbrev Entry := (Call × Answer) × Except (Thrown AdminError) Reply

/-- What a call did to the state. -/
inductive Did (host : Host) (s : DelegationState) : Call × Answer → Except (Thrown AdminError) Reply →
    DelegationState → Prop where
  | asked {asked : Call × Answer} {reply : Except (Thrown AdminError) Reply}
      (question : ∀ view, reply ≠ .ok (.delegation view) ∨ ∃ actor owner, asked.1 = .get actor owner) :
      Did host s asked reply s
  | created {actor input : JsValue} {clock : Answer} {change : Change} {draft : Draft}
      (creates : Creates host s.records clock actor input change draft) :
      Did host s (.create actor input, clock) (.ok (.delegation (cloneDelegation change.record change.time)))
        (write s change)
  | updated {actor owner input : JsValue} {clock : Answer} {change : Change} {canonical : AdminActor}
      {previous : DelegationRecord} (edits : Edits host s.records clock actor owner change canonical previous)
      (expires : (input.get "expiresAt").isUndefined → change.record.expiresAt = previous.expiresAt) :
      Did host s (.update actor owner input, clock) (.ok (.delegation (cloneDelegation change.record change.time)))
        (write s change)
  | revoked {actor owner input : JsValue} {clock : Answer} {change : Change} {canonical : AdminActor}
      {previous : DelegationRecord} (edits : Edits host s.records clock actor owner change canonical previous)
      (expires : change.record.expiresAt = some change.time) :
      Did host s (.revoke actor owner input, clock) (.ok (.delegation (cloneDelegation change.record change.time)))
        (write s change)

theorem step_did (host : Host) (s : DelegationState) (asked : Call × Answer) :
    Did host s asked (step host s asked).1 (step host s asked).2 := by
  obtain ⟨call, clock⟩ := asked
  have threw (e : Thrown AdminError) : Did host s (call, clock) (.error e) s := by
    apply Did.asked
    intro view
    exact .inl nofun
  cases call with
  | create actor input =>
    show Did host s _ (apply s (create host s.records clock actor input)).1
      (apply s (create host s.records clock actor input)).2
    cases made : create host s.records clock actor input with
    | error e => exact threw e
    | ok change =>
      obtain ⟨draft, creates⟩ := create_eq_ok made
      exact .created creates
  | update actor owner input =>
    show Did host s _ (apply s (update host s.records clock actor owner input)).1
      (apply s (update host s.records clock actor owner input)).2
    cases made : update host s.records clock actor owner input with
    | error e => exact threw e
    | ok change =>
      obtain ⟨canonical, previous, edits, expires⟩ := update_eq_ok made
      exact .updated edits expires
  | revoke actor owner input =>
    show Did host s _ (apply s (revoke host s.records clock actor owner input)).1
      (apply s (revoke host s.records clock actor owner input)).2
    cases made : revoke host s.records clock actor owner input with
    | error e => exact threw e
    | ok change =>
      obtain ⟨canonical, previous, edits, expires⟩ := revoke_eq_ok made
      exact .revoked edits expires
  | get actor owner => exact .asked fun view => .inr ⟨actor, owner, rfl⟩
  | canAccess actor owner permission =>
    apply Did.asked
    intro view
    left
    intro same
    obtain ⟨_, _, h⟩ := map_eq_ok.mp same
    cases h
  | list actor =>
    apply Did.asked
    intro view
    left
    intro same
    obtain ⟨_, _, h⟩ := map_eq_ok.mp same
    cases h
  | events actor input =>
    apply Did.asked
    intro view
    left
    intro same
    obtain ⟨_, _, h⟩ := map_eq_ok.mp same
    cases h

/-! ## Runs of one tenant -/

/-- The store, called by the actors of one tenant. -/
def store (host : Host) (T : JsString) : Machine DelegationState Entry where
  Start s := s = created
  Step s e s' := step host s e.1 = (e.2, s') ∧
    ∀ canonical, normalizeActor host e.1.1.actor = .ok canonical → canonical.tenantId = T

/-- What a call has done to the revocation of an owner's delegation: nothing,
or that there is none any more, or one of its time. -/
def revocation (host : Host) (owner : JsString) : Entry → Option (Option Int)
  | ((.create _ input, _), .ok _) => if (input.get "ownerUserId").isString owner then some none else none
  | ((.update _ named input, _), .ok _) =>
    if named.isString owner && !(input.get "expiresAt").isUndefined then some none else none
  | ((.revoke _ named _, clock), .ok _) => if named.isString owner then some (now host clock).toOption else none
  | _ => none

/-- The time of the last `revoke` of an owner's delegation, unless it has been
created again since or its expiry set again. -/
def revokedAt (host : Host) (owner : JsString) : List Entry → Option Int
  | [] => none
  | e :: past => (revocation host owner e).getD (revokedAt host owner past)

/-- The store holds a delegation of an owner to a delegate, unexpired and not
revoked at a time, that includes a permission. -/
structure Delegated (host : Host) (past : List Entry) (s : DelegationState) (time : Int)
    (owner delegate permission : JsString) (record : DelegationRecord) : Prop where
  held : s.records.get owner = some record
  delegate : record.delegateUserId = delegate
  unexpired : ∀ expiry, record.expiresAt = some expiry → time < expiry
  unrevoked : ∀ revoked, revokedAt host owner past = some revoked → time < revoked
  includes : permission ∈ record.permissions

/-- What the records of one tenant's store keep to. -/
structure Kept (host : Host) (T : JsString) (past : List Entry) (s : DelegationState) : Prop where
  tenant : ∀ owner record, s.records.get owner = some record → record.tenantId = T
  owner : ∀ owner record, s.records.get owner = some record → record.ownerUserId = owner
  safe : ∀ owner record, s.records.get owner = some record → actorIdPattern owner
  revoked : ∀ owner time, revokedAt host owner past = some time →
    ∃ record, s.records.get owner = some record ∧ record.expiresAt = some time

section
variable {host : Host} {T : JsString} {past : List Entry} {s s' : DelegationState} {e : Entry}

theorem isString_iff {value : JsValue} {s : JsString} : value.isString s = true ↔ value = .string s := by
  cases value <;> simp [JsValue.isString]

theorem get_write (s : DelegationState) (change : Change) (owner : JsString) :
    (write s change).records.get owner = if change.owner = owner then some change.record else s.records.get owner :=
  OrderedMap.get_set _ _ _ _

attribute [local simp] revokedAt in
/-- A change keeps what it writes to the tenant and the owner, whatever it
does to a revocation. -/
theorem Kept.write (kept : Kept host T past s) {change : Change} (tenant : change.record.tenantId = T)
    (ownerUserId : change.record.ownerUserId = change.owner) (safe : actorIdPattern change.owner)
    (here : ∀ time, revokedAt host change.owner (e :: past) = some time → change.record.expiresAt = some time)
    (elsewhere : ∀ owner, change.owner ≠ owner → revocation host owner e = none) :
    Kept host T (e :: past) (write s change) := by
  constructor
  · intro owner record h
    rw [get_write] at h
    by_cases same : change.owner = owner
    · rw [if_pos same] at h
      cases h
      exact tenant
    · rw [if_neg same] at h
      exact kept.tenant owner record h
  · intro owner record h
    rw [get_write] at h
    by_cases same : change.owner = owner
    · rw [if_pos same] at h
      cases h
      exact ownerUserId.trans same
    · rw [if_neg same] at h
      exact kept.owner owner record h
  · intro owner record h
    rw [get_write] at h
    by_cases same : change.owner = owner
    · exact same ▸ safe
    · rw [if_neg same] at h
      exact kept.safe owner record h
  · intro owner time h
    rw [get_write]
    by_cases same : change.owner = owner
    · subst same
      exact ⟨change.record, if_pos rfl, here time h⟩
    · rw [if_neg same]
      rw [revokedAt, elsewhere owner same] at h
      exact kept.revoked owner time h

theorem Kept.asked (kept : Kept host T past s) (none : ∀ owner, revocation host owner e = none) :
    Kept host T (e :: past) s := by
  refine ⟨kept.tenant, kept.owner, kept.safe, ?_⟩
  intro owner time h
  rw [revokedAt, none owner] at h
  exact kept.revoked owner time h

theorem revocation_asked {asked : Call × Answer} {reply : Except (Thrown AdminError) Reply}
    (question : ∀ view, reply ≠ .ok (.delegation view) ∨ ∃ actor owner, asked.1 = .get actor owner)
    (owner : JsString) (did : (step host s asked).1 = reply) : revocation host owner (asked, reply) = none := by
  obtain ⟨call, clock⟩ := asked
  cases reply with
  | error e => cases call <;> rfl
  | ok reply =>
    have delegation {change : Except (Thrown AdminError) Change} (h : (apply s change).1 = .ok reply) :
        ∃ view, reply = .delegation view := by
      cases change with
      | error e => cases h
      | ok change =>
        cases h
        exact ⟨_, rfl⟩
    have got (change : Except (Thrown AdminError) Change) (h : (apply s change).1 = .ok reply) :
        ∃ actor owner, call = .get actor owner := by
      obtain ⟨view, rfl⟩ := delegation h
      exact (question view).resolve_left fun no => no rfl
    cases call with
    | create actor input =>
      obtain ⟨_, _, is⟩ := got _ did
      cases is
    | update actor owner input =>
      obtain ⟨_, _, is⟩ := got _ did
      cases is
    | revoke actor owner input =>
      obtain ⟨_, _, is⟩ := got _ did
      cases is
    | _ => rfl

theorem step_kept (kept : Kept host T past s) (h : (store host T).Step s e s') : Kept host T (e :: past) s' := by
  obtain ⟨asked, reply⟩ := e
  obtain ⟨did, tenant⟩ := h
  have inversion := step_did host s asked
  rw [did] at inversion
  have did : (step host s asked).1 = reply := by rw [did]
  cases inversion with
  | asked question => exact kept.asked fun owner => revocation_asked question owner did
  | @created actor input clock change draft creates =>
    have ownTenant := tenant draft.canonical creates.known
    apply kept.write (creates.tenantId.trans ownTenant) creates.ownerUserId creates.safe
    · intro time h
      have reset : revocation host change.owner ((Call.create actor input, clock),
          .ok (.delegation (cloneDelegation change.record change.time))) = some none := by
        apply if_pos
        exact isString_iff.mpr creates.named
      rw [revokedAt, reset] at h
      cases h
    · intro owner other
      apply if_neg
      intro same
      rw [creates.named, isString_iff] at same
      cases same
      exact other rfl
  | @updated actor named input clock change canonical previous edits expires =>
    have ownTenant := tenant canonical edits.known
    apply kept.write (edits.tenantId.trans (edits.tenant.trans ownTenant))
      (edits.ownerUserId.trans (kept.owner _ _ edits.found)) edits.safe
    · intro time h
      by_cases absent : (input.get "expiresAt").isUndefined
      · have untouched : revocation host change.owner ((Call.update actor named input, clock),
            .ok (.delegation (cloneDelegation change.record change.time))) = none := by
          apply if_neg
          rw [absent, Bool.not_true, Bool.and_false]
          exact Bool.false_ne_true
        rw [revokedAt, untouched] at h
        obtain ⟨record, found, expiry⟩ := kept.revoked _ _ h
        rw [edits.found] at found
        cases found
        exact (expires absent).trans expiry
      · have reset : revocation host change.owner ((Call.update actor named input, clock),
            .ok (.delegation (cloneDelegation change.record change.time))) = some none := by
          apply if_pos
          rw [edits.named]
          simpa [JsValue.isString] using absent
        rw [revokedAt, reset] at h
        cases h
    · intro owner other
      apply if_neg
      intro both
      rw [Bool.and_eq_true, edits.named, isString_iff] at both
      cases both.1
      exact other rfl
  | @revoked actor named input clock change canonical previous edits expires =>
    have ownTenant := tenant canonical edits.known
    apply kept.write (edits.tenantId.trans (edits.tenant.trans ownTenant))
      (edits.ownerUserId.trans (kept.owner _ _ edits.found)) edits.safe
    · intro time h
      have set : revocation host change.owner ((Call.revoke actor named input, clock),
          .ok (.delegation (cloneDelegation change.record change.time))) = some (some change.time) := by
        show (if named.isString change.owner then some (now host clock).toOption else none) = _
        rw [if_pos (isString_iff.mpr edits.named), edits.reads]
        rfl
      rw [revokedAt, set] at h
      cases h
      exact expires
    · intro owner other
      apply if_neg
      intro same
      rw [edits.named, isString_iff] at same
      cases same
      exact other rfl

theorem run_kept (run : (store host T).Run past s) : Kept host T past s := by
  apply run.invariant
  · rintro s rfl
    have empty (owner : JsString) : created.records.get owner = none := rfl
    constructor <;> simp [empty, revokedAt]
  · intro past s e s' kept step
    exact step_kept kept step

end

/-! ## Content of another user -/

/-- The store as `authorize` asks it, with what the clock answers then. -/
def access (host : Host) (s : DelegationState) (clock : Answer) : DelegationAccess := fun actor owner permission =>
  (canAccess host s.records clock actor.value (owner.elim .null .string) (.string permission)).toOption

/-- The permission of a delegation that a permission on content takes. -/
def needed (permission : JsValue) : Option JsString :=
  if permission.isString (js "content.write") then some (js "write")
  else if permission.isString (js "content.read") then some (js "read") else none

section
variable {host : Host} {T : JsString} {past : List Entry} {s : DelegationState} {clock : Answer}

/-- What opens the content of another user. -/
theorem canAccess_eq_ok {c : AdminActor} {owner permission : JsString} (canonical : Canonical host c)
    (user : c.role = .user) (other : c.userId ≠ some owner) (safe : actorIdPattern owner)
    (known : permission ∈ permissionSet) :
    canAccess host s.records clock c.value (.string owner) (.string permission) = .ok true ↔
      ∃ record time, s.records.get owner = some record ∧ record.tenantId = c.tenantId ∧
        record.delegateUserId = c.actorId ∧ now host clock = .ok time ∧ isActive record time ∧
        permission ∈ record.permissions := by
  have actorOk : normalizeActor host c.value = .ok c := normalizeActor_value canonical
  have ownerOk : assertSafeUserId (.string owner) "ownerUserId" = .ok owner := assertSafeUserId_eq_ok.mpr ⟨rfl, safe⟩
  have self : c.userId = some c.actorId := by
    rw [canonical.userId, if_pos user]
  have asked : (c.role ≠ .user || !permissionSet.contains permission : Bool) = false := by
    simp [user, known]
  unfold canAccess
  simp only [actorOk, ownerOk, JsValue.orDefault, JsValue.isUndefined, JsValue.asString?, Bool.false_eq_true,
    ↓reduceIte, asked, if_neg other]
  constructor
  · intro h
    split at h
    · cases h
    · rename_i record found
      obtain ⟨time, reads, h⟩ := bind_eq_ok.mp h
      obtain ⟨held, mine⟩ := Option.filter_eq_some_iff.mp found
      have mine := Bool.and_eq_true_iff.mp mine
      have tenant : record.tenantId = c.tenantId := of_decide_eq_true mine.1
      have delegate : c.userId = some record.delegateUserId := of_decide_eq_true mine.2
      have granted : (isActive record time && record.permissions.contains permission) = true := Except.ok.inj h
      rw [Bool.and_eq_true, List.contains_iff_mem] at granted
      rw [self] at delegate
      exact ⟨record, time, held, tenant, (Option.some.inj delegate).symm, reads, granted.1, granted.2⟩
  · rintro ⟨record, time, held, tenant, delegate, reads, active, included⟩
    have found : (s.records.get owner).filter (fun record =>
        record.tenantId = c.tenantId && c.userId = some record.delegateUserId) = some record := by
      rw [held]
      simp [tenant, self, delegate]
    rw [found]
    show (now host clock >>= fun timestamp =>
      pure (isActive record timestamp && record.permissions.contains permission)) = _
    rw [reads, ok_bind, active, List.contains_iff_mem.mpr included]
    rfl

theorem grants_content {permission : JsString} :
    grants contentPermissions permission = true ↔ permission = js "content.read" ∨ permission = js "content.write" := by
  simp only [grants, contentPermissions, List.any_cons, List.any_nil, Bool.or_false, Bool.or_eq_true, beq_iff_eq]
  rw [eq_comm, @eq_comm _ (js "content.write")]

theorem needed_eq_some {permission p : JsString} :
    needed (.string permission) = some p ↔ grants contentPermissions permission = true ∧
      p = if permission = js "content.write" then js "write" else js "read" := by
  have different : js "content.read" ≠ js "content.write" := by decide
  rw [grants_content]
  simp only [needed, JsValue.isString, beq_iff_eq]
  by_cases write : permission = js "content.write"
  · simp [write, eq_comm]
  · by_cases read : permission = js "content.read"
    · simp [read, different, eq_comm]
    · simp [write, read]

theorem needed_mem {permission : JsValue} {p : JsString} (h : needed permission = some p) : p ∈ permissionSet := by
  unfold needed at h
  split at h
  · cases h
    exact List.mem_cons_of_mem _ List.mem_cons_self
  · split at h
    · cases h
      exact List.mem_cons_self
    · cases h

theorem active_iff {record : DelegationRecord} {time : Int} :
    isActive record time = true ↔ ∀ expiry, record.expiresAt = some expiry → time < expiry := by
  unfold isActive
  cases record.expiresAt <;> simp

theorem userScope_other {c : AdminActor} {target permission : JsString} {content : Bool}
    {delegationStore : Option DelegationAccess} (other : c.userId ≠ some target) :
    userScope c (some target) permission content delegationStore = .ok () ↔
      canDelegateContent c (some target) permission delegationStore = true ∧ content = true := by
  have noMatch : targetMatchesActor c (some target) = false := by
    simpa [targetMatchesActor] using Ne.symm other
  unfold userScope
  simp only [Option.some_or, noMatch, Option.isSome_some, Bool.not_false, Bool.true_and, Bool.and_true]
  cases canDelegateContent c (some target) permission delegationStore with
  | false =>
    rw [Bool.not_false, throwIf_true]
    constructor
    · intro h
      cases h
    · rintro ⟨h, _⟩
      cases h
  | true =>
    rw [Bool.not_true, throwIf_false, ok_bind, throwIf_eq_ok, Bool.not_eq_false', eq_self, true_and]

/-- What opens another user's content, with what the store holds. -/
theorem canDelegateContent_iff (kept : Kept host T past s) {c : AdminActor} {target permission : JsString}
    (canonical : Canonical host c) (user : c.role = .user) (other : c.userId ≠ some target)
    (safe : actorIdPattern target) :
    canDelegateContent c (some target) permission (some (access host s clock)) = true ↔
      c.tenantId = T ∧ ∃ p time record, needed (.string permission) = some p ∧ now host clock = .ok time ∧
        Delegated host past s time target c.actorId p record := by
  have asked (p : JsString) (known : p ∈ permissionSet) :
      access host s clock c (some target) p = some true ↔
        ∃ record time, s.records.get target = some record ∧ record.tenantId = c.tenantId ∧
          record.delegateUserId = c.actorId ∧ now host clock = .ok time ∧ isActive record time ∧
          p ∈ record.permissions := by
    rw [← canAccess_eq_ok canonical user other safe known]
    show (canAccess host s.records clock c.value (.string target) (.string p)).toOption = some true ↔ _
    cases canAccess host s.records clock c.value (.string target) (.string p) <;> simp [Except.toOption]
  have unfolded : canDelegateContent c (some target) permission (some (access host s clock)) = true ↔
      ∃ p, needed (.string permission) = some p ∧ access host s clock c (some target) p = some true := by
    simp only [canDelegateContent, user, decide_true, Bool.true_and, Bool.and_eq_true, beq_iff_eq, needed_eq_some,
      and_assoc, exists_and_left, exists_eq_left]
  rw [unfolded]
  constructor
  · rintro ⟨p, takes, granted⟩
    obtain ⟨record, time, held, tenant, delegate, reads, active, includes⟩ := (asked p (needed_mem takes)).mp granted
    have unexpired := active_iff.mp active
    refine ⟨tenant.symm.trans (kept.tenant _ _ held), p, time, record, takes, reads, held, delegate, unexpired, ?_,
      includes⟩
    intro revoked h
    obtain ⟨r, found, expiry⟩ := kept.revoked _ _ h
    rw [held] at found
    cases found
    exact unexpired revoked expiry
  · rintro ⟨tenant, p, time, record, takes, reads, delegated⟩
    refine ⟨p, takes, (asked p (needed_mem takes)).mpr ⟨record, time, delegated.held, ?_, delegated.delegate, reads,
      active_iff.mpr delegated.unexpired, delegated.includes⟩⟩
    exact (kept.tenant _ _ delegated.held).trans tenant.symm

/-- `authorize` lets an actor use the content of a target with this store. -/
def Lets (host : Host) (s : DelegationState) (clock : Answer) (actor : JsValue) (request : AuthorizationRequest)
    (target : JsString) : Prop :=
  ∃ decision, authorize host actor { request with
    targetUserId := .string target
    delegationStore := some (access host s clock) } = .ok decision ∧ decision.content = true

theorem lets_iff (kept : Kept host T past s) {actor : JsValue} {request : AuthorizationRequest} {target : JsString}
    (other : ∀ c, normalizeActor host actor = .ok c → c.userId ≠ some target) :
    Lets host s clock actor request target ↔
      ∃ c, normalizeActor host actor = .ok c ∧ c.role = .user ∧ c.tenantId = T ∧
        (request.targetTenantId.orDefault (.string T)).isString T ∧
        ∃ p time record, needed request.permission = some p ∧ now host clock = .ok time ∧
          Delegated host past s time target c.actorId p record := by
  constructor
  · rintro ⟨decision, authorized, content⟩
    obtain ⟨c, permission, requested, decides⟩ := authorize_eq_ok.mp authorized
    have canonical := normalizeActor_canonical decides.known
    have user : c.role = .user := by
      apply decides.content
      rw [decides.decision] at content
      exact content
    obtain ⟨named, safe⟩ : requested = some target ∧ actorIdPattern target := by
      obtain ⟨u, named, same⟩ := map_eq_ok.mp decides.target
      obtain ⟨is, safe⟩ := assertSafeUserId_eq_ok.mp named
      cases is
      exact ⟨same.symm, safe⟩
    have scope := decides.scope
    rw [roleScope, user, named] at scope
    have delegated := ((userScope_other (other c decides.known)).mp scope).1
    obtain ⟨tenant, p, time, record, takes, reads, held⟩ :=
      (canDelegateContent_iff kept canonical user (other c decides.known) safe).mp delegated
    have is := (assertPermission_eq_ok.mp decides.wellFormed).1
    have sameTenant := decides.tenant
    rw [tenant] at sameTenant
    exact ⟨c, decides.known, user, tenant, sameTenant, p, time, record, (congrArg needed is).trans takes, reads, held⟩
  · rintro ⟨c, known, user, tenant, sameTenant, p, time, record, takes, reads, delegated⟩
    have canonical := normalizeActor_canonical known
    have safe := kept.safe _ _ delegated.held
    obtain ⟨permission, is⟩ : ∃ permission, request.permission = .string permission := by
      cases given : request.permission with
      | string permission => exact ⟨permission, rfl⟩
      | _ =>
        rw [given] at takes
        cases takes
    rw [is] at takes
    have opens := (canDelegateContent_iff kept canonical user (other c known) safe).mpr
      ⟨tenant, p, time, record, takes, reads, delegated⟩
    have onContent := (needed_eq_some.mp takes).1
    have content : isContentRequest permission request.resource request.content = true := by
      rw [isContentRequest, onContent, Bool.or_true, Bool.true_or]
    have words : permissionPattern permission = true ∧ grants userPermissions permission = true := by
      rcases grants_content.mp onContent with rfl | rfl <;> decide
    refine ⟨_, authorize_eq_ok.mpr ⟨c, permission, some target, known, assertPermission_eq_ok.mpr ⟨is, words.1⟩,
      ?_, ?_, fun _ => user, ?_, ?_, rfl⟩, content⟩
    · exact map_eq_ok.mpr ⟨target, assertSafeUserId_eq_ok.mpr ⟨rfl, safe⟩, rfl⟩
    · rw [tenant]
      exact sameTenant
    · rw [user]
      exact words.2
    · rw [roleScope, user]
      exact (userScope_other (other c known)).mpr ⟨opens, content⟩

/-- A user's call leaves a delegation alone that a master has forced and that
is active when the call reads the clock. -/
theorem forced_locked {asked : Call × Answer} {c : AdminActor} (known : normalizeActor host asked.1.actor = .ok c)
    (user : c.role = .user) {owner : JsString} {record : DelegationRecord} (held : s.records.get owner = some record)
    (forced : record.forced) (active : ∀ time, now host asked.2 = .ok time → isActive record time) :
    (step host s asked).2.records.get owner = some record := by
  have unedited {actor named : JsValue} {clock : Answer} {change : Change} {canonical : AdminActor}
      {previous : DelegationRecord} (edits : Edits host s.records clock actor named change canonical previous)
      (known : normalizeActor host actor = .ok c) : (write s change).records.get owner = some record := by
    rw [get_write]
    by_cases same : change.owner = owner
    · subst same
      have sameRecord := edits.found.symm.trans held
      cases sameRecord
      have sameActor := edits.known.symm.trans known
      cases sameActor
      exact absurd user (edits.unlocked forced)
    · rw [if_neg same]
      exact held
  have inversion := step_did host s asked
  revert known active
  generalize (step host s asked).1 = reply at inversion
  generalize (step host s asked).2 = s' at inversion ⊢
  intro known active
  cases inversion with
  | asked => exact held
  | @created actor input clock change draft creates =>
    rw [get_write]
    by_cases same : change.owner = owner
    · subst same
      have free := creates.free record held
      rw [active change.time creates.reads] at free
      cases free
    · rw [if_neg same]
      exact held
  | updated edits expires => exact unedited edits known
  | revoked edits expires => exact unedited edits known

/-- What the store of one tenant opens, to whom, and what it keeps. -/
structure Governs (host : Host) (T : JsString) (past : List Entry) (s : DelegationState) : Prop where
  delegated : ∀ clock actor request target, (∀ c, normalizeActor host actor = .ok c → c.userId ≠ some target) →
    (Lets host s clock actor request target ↔
      ∃ c, normalizeActor host actor = .ok c ∧ c.role = .user ∧ c.tenantId = T ∧
        (request.targetTenantId.orDefault (.string T)).isString T ∧
        ∃ p time record, needed request.permission = some p ∧ now host clock = .ok time ∧
          Delegated host past s time target c.actorId p record)
  administrative : ∀ actor request decision, authorize host actor request = .ok decision → decision.content = true →
    decision.actorRole = .user
  single : ∀ owner time,
    (s.records.values.filter fun record => record.ownerUserId = owner && isActive record time).length ≤ 1
  locked : ∀ asked c, normalizeActor host asked.1.actor = .ok c → c.role = .user →
    ∀ owner record, s.records.get owner = some record → record.forced →
      (∀ time, now host asked.2 = .ok time → isActive record time) →
        (step host s asked).2.records.get owner = some record

theorem store_governs (run : (store host T).Run past s) : Governs host T past s := by
  have kept := run_kept run
  constructor
  · intro clock actor request target other
    exact lets_iff kept other
  · intro actor request decision authorized content
    obtain ⟨c, permission, requested, decides⟩ := authorize_eq_ok.mp authorized
    rw [decides.decision] at content ⊢
    exact decides.content content
  · intro owner time
    apply OrderedMap.filter_values_le_one
    intro k record held chosen
    have chosen := Bool.and_eq_true_iff.mp chosen
    exact (kept.owner k record held).symm.trans (of_decide_eq_true chosen.1)
  · intro asked c known user owner record held forced active
    exact forced_locked known user held forced active

/-- A user of a tenant, as a context of the server. -/
def member (tenant user : String) : JsValue :=
  .object [(js "tenantId", .string (js tenant)), (js "domain", .string (js (tenant ++ ".test"))),
    (js "actorId", .string (js user)), (js "userId", .string (js user)), (js "role", .string (js "user"))]

/-- A user's call that delegates the reading of its content. -/
def delegates (tenant owner delegate : String) : Call × Answer :=
  (.create (member tenant owner)
    (.object [(js "ownerUserId", .string (js owner)), (js "delegateUserId", .string (js delegate))]),
    .returned (.number 1000))

/-- A reading of content, as the server asks for it. -/
def readsContent : AuthorizationRequest := { permission := .string (js "content.read") }

/-- Bob may read what Alice has delegated to him, and Carol may not. -/
theorem store_governs_alice : ∃ past s, (store asciiHost (js "acme")).Run past s ∧
    Lets asciiHost s (.returned (.number 2000)) (member "acme" "bob") readsContent (js "alice") ∧
    ¬ Lets asciiHost s (.returned (.number 2000)) (member "acme" "carol") readsContent (js "alice") ∧
    Governs asciiHost (js "acme") past s := by
  have known : normalizeActor asciiHost (member "acme" "alice") =
      .ok ⟨js "acme", js "acme.test", js "alice", some (js "alice"), .user⟩ := by decide
  have created : (store asciiHost (js "acme")).Step created
      (delegates "acme" "alice" "bob", (step asciiHost created (delegates "acme" "alice" "bob")).1)
      (step asciiHost created (delegates "acme" "alice" "bob")).2 := by
    refine ⟨(Prod.eta _).symm, ?_⟩
    intro canonical same
    cases known.symm.trans same
    rfl
  have run := (Machine.Run.start rfl).next created
  refine ⟨_, _, run, ?_, ?_, store_governs run⟩
  · have opens : (authorize asciiHost (member "acme" "bob") { readsContent with
        targetUserId := .string (js "alice")
        delegationStore := some (access asciiHost (step asciiHost Delegation.created (delegates "acme" "alice" "bob")).2
          (.returned (.number 2000))) }).map (·.content) = .ok true := by decide
    exact map_eq_ok.mp opens
  · rintro ⟨decision, authorized, _⟩
    have refused : (authorize asciiHost (member "acme" "carol") { readsContent with
        targetUserId := .string (js "alice")
        delegationStore := some (access asciiHost (step asciiHost Delegation.created (delegates "acme" "alice" "bob")).2
          (.returned (.number 2000))) }).isOk = false := by decide
    rw [authorized] at refused
    cases refused

end

end Delegation

end GuloGulo.Admin
