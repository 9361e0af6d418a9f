import GuloGulo.Js.Sha256
import GuloGulo.Mail.Rate

/-!
# No open relay, no catch-all

What an authorisation says about the envelope it was given: the recipients
stand in the directory, as active users or as explicit aliases, and the sender
of a submission belongs to its user.
-/

namespace GuloGulo.Mail
open Js Data Integrations

section
variable (host : Host) (policy : MailPolicy) (users : JsValue) (aliases : MailAliases)

/-- `entry` is an active user of the list, with a mailbox in the domain. -/
def ActiveMailbox (entry : DirectoryEntry) : Prop :=
  ∃ items, iterate users = .ok items ∧ ∃ user ∈ items, ActiveUser host policy.domain user entry

/-- `address` is an alias of the list, in the domain, that lists `entry`. -/
def AliasOf (address : JsString) (entry : DirectoryEntry) : Prop :=
  ActiveMailbox host policy users entry ∧ domainPart address = policy.domain ∧
    ∃ items, aliasEntries aliases = .ok items ∧ ∃ item ∈ items,
      normalizeAddress host ((mailAlias item).address.orElse (mailAlias item).aliasAddress)
        "alias.address" = .ok address ∧
      ∃ values, (mailAlias item).listed = .array values ∧ ∃ value ∈ values, Names host value entry

/-- Mail for `address` has somewhere to go. -/
def Deliverable (address : JsString) : Prop :=
  (∃ userId, ActiveMailbox host policy users ⟨userId, address⟩) ∨
    ∃ entry, AliasOf host policy users aliases address entry

/-- Where a resolved entry comes from. -/
def Resolves (requested : List JsString) (r : ResolvedRecipient) : Prop :=
  ActiveMailbox host policy users ⟨r.userId, r.address⟩ ∧
    match r.via with
    | .mailbox => r.address ∈ requested
    | .alias address => address ∈ requested ∧ AliasOf host policy users aliases address ⟨r.userId, r.address⟩

end

variable {host : Host} {policy : MailPolicy} {users : JsValue} {aliases : MailAliases}

theorem directory_users {d : Directory} (h : directory host policy users aliases = .ok d)
    {entry : DirectoryEntry} (mem : entry ∈ d.users.entries) : ActiveMailbox host policy users entry := by
  obtain ⟨own, normalized, h⟩ := bind_eq_ok.mp h
  obtain ⟨table, _, h⟩ := bind_eq_ok.mp h
  cases h
  obtain ⟨items, hitems, active⟩ := mem_normalizeUserDirectory normalized
  exact ⟨items, hitems, (active entry).mp mem⟩

theorem directory_aliases {d : Directory} (h : directory host policy users aliases = .ok d)
    {address : JsString} {destinations : List JsString} (found : d.aliases.get address = some destinations) :
    destinations ≠ [] ∧ ∀ destination ∈ destinations, ∃ entry ∈ d.users.entries,
      entry.address = destination ∧ AliasOf host policy users aliases address entry := by
  have known {entry : DirectoryEntry} (mem : entry ∈ d.users.entries) := directory_users h mem
  obtain ⟨own, _, h⟩ := bind_eq_ok.mp h
  obtain ⟨table, normalized, h⟩ := bind_eq_ok.mp h
  cases h
  obtain ⟨items, hitems, spec⟩ := normalizeAliases_spec normalized
  obtain ⟨item, hitem, isAlias⟩ := spec address destinations found
  refine ⟨isAlias.nonempty, fun destination mem => ?_⟩
  obtain ⟨values, listed, means⟩ := isAlias.listed
  obtain ⟨value, hvalue, entry, hentry, same, names⟩ := means destination mem
  exact ⟨entry, hentry, same, known hentry, isAlias.inside, items, hitems, item, hitem,
    isAlias.normalized, values, listed, value, hvalue, names⟩

theorem normalizeRecipients_spec {recipients : JsValue} {requested : List JsString}
    (h : normalizeRecipients host recipients = .ok requested) :
    ∃ items, recipients = .array items ∧
      (∀ value ∈ items, ∃ address ∈ requested, normalizeAddress host value "recipient" = .ok address) ∧
      ∀ address ∈ requested, ∃ value ∈ items, normalizeAddress host value "recipient" = .ok address := by
  unfold normalizeRecipients at h
  split at h
  · rename_i first others
    obtain ⟨addresses, mapped, h⟩ := bind_eq_ok.mp h
    cases h
    obtain ⟨images, origins⟩ := mapM_eq_ok mapped
    refine ⟨first :: others, rfl, ?_, ?_⟩
    · intro value mem
      obtain ⟨i, lt, at_i⟩ := List.mem_iff_getElem.mp mem
      have indexed : (value, i) ∈ (first :: others).zipIdx := by
        rw [List.mk_mem_zipIdx_iff_getElem?, List.getElem?_eq_getElem lt, at_i]
      obtain ⟨address, hmem, normalized⟩ := images _ indexed
      exact ⟨address, mem_unique.mpr hmem, normalizeAddress_name normalized _⟩
    · intro address mem
      obtain ⟨⟨value, i⟩, hmem, normalized⟩ := origins address (mem_unique.mp mem)
      exact ⟨value, List.mem_of_getElem? (List.mk_mem_zipIdx_iff_getElem?.mp hmem),
        normalizeAddress_name normalized _⟩
  · cases h

theorem resolveAddress_spec {d : Directory} (h : directory host policy users aliases = .ok d)
    {address : JsString} {resolved : List ResolvedRecipient}
    (outcome : resolveAddress policy d address = .ok (resolved, [])) :
    Deliverable host policy users aliases address ∧
      ∀ requested, address ∈ requested → ∀ r ∈ resolved,
        Resolves host policy users aliases requested r := by
  unfold resolveAddress at outcome
  split at outcome
  · cases outcome
  · split at outcome
    · rename_i user found
      cases outcome
      obtain ⟨mem, rfl⟩ := UserDirectory.mem_of_byAddress found
      have active := directory_users h mem
      refine ⟨.inl ⟨_, active⟩, fun requested own r hr => ?_⟩
      cases List.mem_singleton.mp hr
      exact ⟨active, own⟩
    · split at outcome
      · cases outcome
      · rename_i destinations found
        obtain ⟨resolved, mapped, outcome⟩ := bind_eq_ok.mp outcome
        cases outcome
        obtain ⟨nonempty, means⟩ := directory_aliases h found
        constructor
        · obtain ⟨destination, mem⟩ := List.exists_mem_of_ne_nil _ nonempty
          obtain ⟨entry, _, _, isAlias⟩ := means destination mem
          exact .inr ⟨entry, isAlias⟩
        · intro requested own r hr
          obtain ⟨destination, mem, resolves⟩ := (mapM_eq_ok mapped).2 r hr
          obtain ⟨entry, hentry, rfl, isAlias⟩ := means destination mem
          unfold resolveDestination at resolves
          split at resolves
          · rename_i user lookup
            cases resolves
            obtain ⟨huser, same⟩ := UserDirectory.mem_of_byAddress lookup
            cases UserDirectory.eq_of_address huser hentry same
            exact ⟨isAlias.1, own, isAlias⟩
          · cases resolves

/-- Accepted recipients all have somewhere to go, and nothing else is
resolved. -/
theorem resolveRecipients_spec {recipients : JsValue} {r : Recipients}
    (h : resolveRecipients host policy recipients users aliases = .ok r) (accepted : r.accepted) :
    normalizeRecipients host recipients = .ok r.requested ∧ r.resolved ≠ [] ∧
      (∀ address ∈ r.requested, Deliverable host policy users aliases address) ∧
      ∀ entry ∈ r.resolved, Resolves host policy users aliases r.requested entry := by
  obtain ⟨d, hd, h⟩ := bind_eq_ok.mp h
  obtain ⟨requested, normalized, h⟩ := bind_eq_ok.mp h
  obtain ⟨_, _, h⟩ := bind_eq_ok.mp h
  obtain ⟨outcomes, mapped, h⟩ := bind_eq_ok.mp h
  cases h
  simp only [Recipients.accepted, Bool.and_eq_true, List.isEmpty_iff, Bool.not_eq_true',
    List.isEmpty_eq_false_iff] at accepted
  obtain ⟨nothing, something⟩ := accepted
  obtain ⟨images, origins⟩ := mapM_eq_ok mapped
  have clean {o : List ResolvedRecipient × List RejectedRecipient} (mem : o ∈ outcomes) : o.2 = [] :=
    List.flatMap_eq_nil_iff.mp nothing o mem
  refine ⟨normalized, something, fun address mem => ?_, fun entry mem => ?_⟩
  · obtain ⟨⟨resolved, rejected⟩, hmem, outcome⟩ := images address mem
    obtain rfl : rejected = [] := clean hmem
    exact (resolveAddress_spec hd outcome).1
  · obtain ⟨⟨resolved, rejected⟩, hmem, own⟩ := List.mem_flatMap.mp mem
    obtain rfl : rejected = [] := clean hmem
    obtain ⟨address, haddress, outcome⟩ := origins _ hmem
    exact (resolveAddress_spec hd outcome).2 requested haddress entry own

variable (host policy) in
structure InboundSound (context : JsValue) (options : MailEnvelopeOptions) (a : InboundAuthorization) :
    Prop where
  tenant : ∃ canonical, Actor.assertTenantContext host context = .ok canonical ∧
    canonical.tenantId = policy.tenantId
  recipients : ∃ items, options.recipients = .array items ∧ ∀ value ∈ items, ∃ address,
    normalizeAddress host value "recipient" = .ok address ∧
      Deliverable host policy options.users options.aliases address
  resolved : a.recipients.resolved ≠ [] ∧ ∀ r ∈ a.recipients.resolved,
    Resolves host policy options.users options.aliases a.recipients.requested r

variable (host policy) in
structure SubmissionSound (context : JsValue) (options : MailEnvelopeOptions)
    (a : SubmissionAuthorization) : Prop where
  user : options.authenticatedUserId = .string a.authenticatedUserId
  tenant : ∃ canonical, Actor.assertTenantContext host context = .ok canonical ∧
    canonical.tenantId = policy.tenantId ∧
      (canonical.role = .user → canonical.actorId = some a.authenticatedUserId)
  sender : normalizeAddress host (options.sender.orElse options.envelopeFrom) "sender" = .ok a.sender
  owner : ActiveMailbox host policy options.users ⟨a.authenticatedUserId, a.sender⟩ ∨
    ∃ address, AliasOf host policy options.users options.aliases a.sender ⟨a.authenticatedUserId, address⟩
  recipients : ∃ items, options.recipients = .array items ∧ ∀ value ∈ items, ∃ address,
    normalizeAddress host value "recipient" = .ok address ∧
      (domainPart address = policy.domain →
        Deliverable host policy options.users options.aliases address)

theorem assertContext_eq_ok {context : JsValue} {canonical : Actor.TenantContext} :
    assertContext host context = .ok canonical ↔ Actor.assertTenantContext host context = .ok canonical :=
  mapError_eq_ok

theorem authorizeInbound_sound {context : JsValue} {options : MailEnvelopeOptions}
    {a : InboundAuthorization} (h : authorizeInbound host policy context options = .ok a) :
    InboundSound host policy context options a := by
  obtain ⟨canonical, asserted, h⟩ := bind_eq_ok.mp h
  obtain ⟨_, tenant, h⟩ := bind_eq_ok.mp h
  obtain ⟨sender, _, h⟩ := bind_eq_ok.mp h
  obtain ⟨recipients, resolves, h⟩ := bind_eq_ok.mp h
  obtain ⟨_, _, h⟩ := bind_eq_ok.mp h
  obtain ⟨_, accepted, h⟩ := bind_eq_ok.mp h
  cases h
  have accepted : recipients.accepted = true := by simpa using throwIf_eq_ok.mp accepted
  have tenant : canonical.tenantId = policy.tenantId := bne_eq_false_iff_eq.mp (throwIf_eq_ok.mp tenant)
  obtain ⟨normalized, something, deliverable, entries⟩ := resolveRecipients_spec resolves accepted
  obtain ⟨items, hitems, images, _⟩ := normalizeRecipients_spec normalized
  refine ⟨⟨canonical, assertContext_eq_ok.mp asserted, tenant⟩, ⟨items, hitems, ?_⟩, something, entries⟩
  intro value mem
  obtain ⟨address, hmem, own⟩ := images value mem
  exact ⟨address, own, deliverable address hmem⟩

theorem ownsSender_sound {users : JsValue} {aliases : MailAliases} {d : Directory} {sender userId : JsString}
    (hd : directory host policy users aliases = .ok d) (h : ownsSender d sender userId) :
    ActiveMailbox host policy users ⟨userId, sender⟩ ∨
      ∃ address, AliasOf host policy users aliases sender ⟨userId, address⟩ := by
  rw [ownsSender, Bool.or_eq_true, Option.any_eq_true, Option.any_eq_true] at h
  rcases h with ⟨user, found, same⟩ | ⟨destinations, found, some⟩
  · obtain ⟨mem, rfl⟩ := UserDirectory.mem_of_byAddress found
    obtain rfl := eq_of_beq same
    exact .inl (directory_users hd mem)
  · obtain ⟨destination, mem, some⟩ := List.any_eq_true.mp some
    rw [Option.any_eq_true] at some
    obtain ⟨user, lookup, same⟩ := some
    obtain rfl := eq_of_beq same
    obtain ⟨entry, hentry, rfl, isAlias⟩ := (directory_aliases hd found).2 destination mem
    obtain ⟨huser, address⟩ := UserDirectory.mem_of_byAddress lookup
    cases UserDirectory.eq_of_address huser hentry address
    exact .inr ⟨_, isAlias⟩

theorem authorizeActor_eq_ok {context : JsValue} {userId : JsString} {canonical : Actor.TenantContext}
    (h : authorizeActor host context userId = .ok canonical) :
    Actor.assertTenantContext host context = .ok canonical ∧
      (canonical.role = .user → canonical.actorId = some userId) := by
  obtain ⟨own, asserted, h⟩ := bind_eq_ok.mp h
  obtain ⟨_, actor, h⟩ := bind_eq_ok.mp h
  cases h
  refine ⟨assertContext_eq_ok.mp asserted, fun role => ?_⟩
  rw [throwIf_eq_ok, role, beq_self_eq_true, Bool.true_and, bne_eq_false_iff_eq] at actor
  exact actor

/-- The recipients inside the domain are resolved once more, as they were
normalised. -/
theorem internal_deliverable {host : MailHost} {users recipients : JsValue} {aliases : MailAliases}
    {requested : List JsString} (normalized : normalizeRecipients host.toHost recipients = .ok requested)
    (checked : requested.filter (isInternal policy) ≠ [] → ∃ r, resolveRecipients host.toHost policy
      (.array ((requested.filter (isInternal policy)).map .string)) users aliases = .ok r ∧ r.accepted = true)
    {address : JsString} (mem : address ∈ requested) (inside : domainPart address = policy.domain) :
    Deliverable host.toHost policy users aliases address := by
  obtain ⟨items, _, _, origins⟩ := normalizeRecipients_spec normalized
  obtain ⟨value, _, own⟩ := origins address mem
  have noAt := not_mem_of_domainPattern policy.domainValid
  have internal : address ∈ requested.filter (isInternal policy) :=
    List.mem_filter.mpr ⟨mem, (endsWith_domain (isAddress_of_normalizeAddress own) noAt).mpr inside⟩
  obtain ⟨r, resolves, accepted⟩ := checked (List.ne_nil_of_mem internal)
  obtain ⟨again, _, deliverable, _⟩ := resolveRecipients_spec resolves accepted
  obtain ⟨texts, same, images, _⟩ := normalizeRecipients_spec again
  cases same
  obtain ⟨address', hmem, twice⟩ := images (.string address) (List.mem_map_of_mem internal)
  rw [normalizeAddress_again own] at twice
  cases twice
  exact deliverable address hmem

theorem checkSubmission_sound {host : MailHost} {context : JsValue} {options : MailEnvelopeOptions}
    {a : SubmissionAuthorization} (h : checkSubmission host.toHost policy context options = .ok a) :
    SubmissionSound host.toHost policy context options a := by
  obtain ⟨userId, required, h⟩ := bind_eq_ok.mp h
  obtain ⟨canonical, actor, h⟩ := bind_eq_ok.mp h
  obtain ⟨_, tenant, h⟩ := bind_eq_ok.mp h
  obtain ⟨_, _, h⟩ := bind_eq_ok.mp h
  obtain ⟨sender, hsender, h⟩ := bind_eq_ok.mp h
  obtain ⟨_, _, h⟩ := bind_eq_ok.mp h
  obtain ⟨d, hd, h⟩ := bind_eq_ok.mp h
  obtain ⟨_, owns, h⟩ := bind_eq_ok.mp h
  obtain ⟨requested, normalized, h⟩ := bind_eq_ok.mp h
  obtain ⟨_, _, h⟩ := bind_eq_ok.mp h
  have tenant : canonical.tenantId = policy.tenantId := bne_eq_false_iff_eq.mp (throwIf_eq_ok.mp tenant)
  have owns : ownsSender d sender userId = true := by simpa using throwIf_eq_ok.mp owns
  obtain ⟨asserted, own⟩ := authorizeActor_eq_ok actor
  obtain ⟨items, hitems, images, _⟩ := normalizeRecipients_spec normalized
  have finish (checked : requested.filter (isInternal policy) ≠ [] → ∃ r,
        resolveRecipients host.toHost policy (.array ((requested.filter (isInternal policy)).map .string))
          options.users options.aliases = .ok r ∧ r.accepted = true)
      {b : SubmissionAuthorization} (user : b.authenticatedUserId = userId) (from_ : b.sender = sender) :
      SubmissionSound host.toHost policy context options b := by
    subst user from_
    refine ⟨(requiredString_eq_ok.mp required).1, ⟨canonical, asserted, tenant, own⟩, hsender,
      ownsSender_sound hd owns, items, hitems, fun value mem => ?_⟩
    obtain ⟨address, hmem, normal⟩ := images value mem
    exact ⟨address, normal, internal_deliverable normalized checked hmem⟩
  dsimp only at h
  split at h
  · obtain ⟨r, resolves, h⟩ := bind_eq_ok.mp h
    obtain ⟨_, accepted, h⟩ := bind_eq_ok.mp h
    obtain ⟨_, _, h⟩ := bind_eq_ok.mp h
    cases h
    have accepted : r.accepted = true := by simpa using throwIf_eq_ok.mp accepted
    exact finish (fun _ => ⟨r, resolves, accepted⟩) rfl rfl
  · rename_i none
    obtain ⟨_, _, h⟩ := bind_eq_ok.mp h
    cases h
    exact finish (fun some => absurd some none) rfl rfl

/-- The admissions of a run keep to the windows: no more than the limit in one,
each at a time within it, and two windows of a user do not overlap. -/
structure RateRespected (policy : MailPolicy) (admissions : List Admission) : Prop where
  bounded : ∀ userId w, tally admissions userId w ≤ policy.maxMessagesPerUserPerMinute
  within : ∀ a ∈ admissions, ∃ w t, a.window = some w ∧ a.time = some t ∧ w ≤ t ∧ t < w + 60000
  apart : ∀ a ∈ admissions, ∀ b ∈ admissions, a.userId = b.userId → ∀ v w, a.window = some v →
    b.window = some w → v < w → v + 60000 ≤ w

/-- Mail comes in for active users and explicit aliases of the policy's tenant
only, goes out from an identity of its user only, and the rate counts nothing
but what was granted. -/
theorem no_open_relay (host : MailHost) (policy : MailPolicy) :
    (∀ context options a, authorizeInbound host.toHost policy context options = .ok a →
      InboundSound host.toHost policy context options a) ∧
    (∀ clock context options s a,
      (authorizeSubmission host.toHost policy clock context options s).1 = .ok a →
        SubmissionSound host.toHost policy context options a) ∧
    (∀ clock context options s e,
      (authorizeSubmission host.toHost policy clock context options s).1 = .error e →
        (authorizeSubmission host.toHost policy clock context options s).2.windows = s.windows) ∧
    ∀ clock, NonDecreasing clock → ∀ calls,
      RateRespected policy (runPolicy host.toHost policy clock calls .initial).1 := by
  have spec clock := authorizeSubmission_spec host.toHost policy clock
  refine ⟨fun context options a => authorizeInbound_sound, ?_, ?_, ?_⟩
  · intro clock context options s a h
    rcases spec clock context options s with ⟨b, ok, checked, _⟩ | ⟨_, e, error⟩
    · rw [ok] at h
      cases h
      exact checkSubmission_sound checked
    · rw [error] at h
      cases h
  · intro clock context options s e h
    rcases spec clock context options s with ⟨b, ok, _⟩ | ⟨refused, _⟩
    · rw [ok] at h
      cases h
    · exact refused.windows
  · intro clock order calls
    have inv := rateInvariant_run host.toHost order calls (rateInvariant_initial policy clock)
    exact ⟨inv.bounded, inv.admitted, inv.apart⟩

def asciiMailHost : MailHost where
  toHost := asciiHost
  toLowerCase_lower s u hu := by
    obtain ⟨v, _, rfl⟩ := List.mem_map.mp hu
    exact (asciiLower_spec v).1

def samplePolicy : MailPolicy :=
  ⟨js "example", js "example.test", 52428800, 100, 60, by decide, by decide, by decide⟩

def sampleUser (userId address : String) : JsValue :=
  .object [(js "userId", .string (js userId)), (js "address", .string (js address))]

def sampleUsers : JsValue :=
  .array [sampleUser "alice" "alice@example.test", sampleUser "bob" "bob@example.test"]

def sampleAlias (address : String) (destinations : List String) : JsValue :=
  .object [(js "address", .string (js address)),
    (js "destinations", .array (destinations.map fun d => .string (js d)))]

def sampleContext : JsValue :=
  .object [(js "tenantId", .string (js "example")), (js "domain", .string (js "example.test")),
    (js "actorId", .string (js "alice")), (js "role", .string (js "user"))]

/-- From outside to the alias of both users. -/
def sampleInbound : MailEnvelopeOptions where
  sender := .string (js "sender@example.net")
  envelopeFrom := .undefined
  recipients := .array [.string (js "Sales@example.test")]
  sizeBytes := .number 4096
  authenticatedUserId := .undefined
  authenticated := .undefined
  messageRef := .string (js "ref")
  users := sampleUsers
  aliases := .value (.array [sampleAlias "sales@example.test" ["alice", "bob"]])

/-- From the alias to a user and to the outside. -/
def sampleSubmission : MailEnvelopeOptions :=
  { sampleInbound with
    sender := .string (js "sales@example.test")
    recipients := .array [.string (js "bob@example.test"), .string (js "sender@example.net")]
    authenticatedUserId := .string (js "alice")
    authenticated := .bool true }

theorem no_open_relay_sample :
    InboundSound asciiHost samplePolicy sampleContext sampleInbound
      ⟨js "sender@example.net", [js "sales@example.test"],
        [⟨js "alice@example.test", js "alice", .alias (js "sales@example.test")⟩,
          ⟨js "bob@example.test", js "bob", .alias (js "sales@example.test")⟩], []⟩ ∧
    SubmissionSound asciiHost samplePolicy sampleContext sampleSubmission
      ⟨js "sales@example.test", [js "bob@example.test", js "sender@example.net"],
        [js "bob@example.test"], [js "sender@example.net"], js "alice"⟩ ∧
    RateRespected samplePolicy (runPolicy asciiHost samplePolicy (fun _ => .time 0)
      [.submission sampleContext sampleSubmission] .initial).1 := by
  obtain ⟨inbound, submission, _, rate⟩ := no_open_relay asciiMailHost samplePolicy
  refine ⟨inbound _ _ _ (by decide), ?_, ?_⟩
  · exact submission (fun _ => .time 0) _ _ .initial _ (by decide)
  · apply rate
    exact ⟨nofun, fun _ _ _ _ _ hs ht => by cases hs; cases ht; exact Int.le_refl 0⟩

end GuloGulo.Mail
