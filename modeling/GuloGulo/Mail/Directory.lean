import GuloGulo.Data.Table
import GuloGulo.Mail.Address

/-!
# The mail directory

Users and aliases of `core/mail/mail-policy.ts`, read from the envelope. A
`UserDirectory` is the two maps of the source over the same entries, so
neither an address nor a user can stand in it twice. What normalising accepts
is characterised by `ActiveUser` and `ExplicitAlias`, which speak of the
values as they were passed.
-/

namespace GuloGulo.Mail
open Js Data

structure DirectoryEntry where
  userId : JsString
  address : JsString
  deriving DecidableEq

structure UserDirectory where
  byAddress : Table DirectoryEntry.address
  byId : Table DirectoryEntry.userId
  same : byAddress.rows = byId.rows

namespace UserDirectory

def empty : UserDirectory := ⟨.empty, .empty, rfl⟩

def entries (d : UserDirectory) : List DirectoryEntry := d.byAddress.rows

/-- `none` is an identity that is taken. -/
def add? (d : UserDirectory) (entry : DirectoryEntry) : Option UserDirectory :=
  match ha : d.byAddress.insert? entry, hi : d.byId.insert? entry with
  | some byAddress, some byId =>
    some ⟨byAddress, byId, by
      rw [(Table.insert?_eq_some ha).2, (Table.insert?_eq_some hi).2, d.same]⟩
  | _, _ => none

theorem entries_of_add? {d d' : UserDirectory} {entry : DirectoryEntry} (h : d.add? entry = some d') :
    d'.entries = d.entries ++ [entry] := by
  unfold add? at h
  split at h
  · rename_i byAddress byId ha hi
    cases h
    exact (Table.insert?_eq_some ha).2
  · cases h

theorem mem_of_byAddress {d : UserDirectory} {a : JsString} {entry : DirectoryEntry}
    (h : d.byAddress.lookup a = some entry) : entry ∈ d.entries ∧ entry.address = a :=
  ⟨Table.mem_of_lookup h, Table.key_of_lookup h⟩

theorem mem_of_byId {d : UserDirectory} {userId : JsString} {entry : DirectoryEntry}
    (h : d.byId.lookup userId = some entry) : entry ∈ d.entries ∧ entry.userId = userId := by
  refine ⟨?_, Table.key_of_lookup h⟩
  rw [entries, d.same]
  exact Table.mem_of_lookup h

/-- Neither an address nor a user names two entries. -/
theorem eq_of_address {d : UserDirectory} {e e' : DirectoryEntry} (h : e ∈ d.entries)
    (h' : e' ∈ d.entries) (same : e.address = e'.address) : e = e' := by
  have found := Table.lookup_of_mem h
  rw [same, Table.lookup_of_mem h'] at found
  exact (Option.some.inj found).symm

end UserDirectory

/-! ## Users -/

/-- The items of a `for … of`; a string gives its code points. -/
def codePointStrings : JsString → List JsString
  | [] => []
  | [u] => [[u]]
  | u :: v :: rest =>
    if isHighSurrogate u && isLowSurrogate v then [u, v] :: codePointStrings rest
    else [u] :: codePointStrings (v :: rest)

def iterate : JsValue → Except (Thrown CodedError) (List JsValue)
  | .undefined | .null => .ok []
  | .array items => .ok items
  | .string s => .ok ((codePointStrings s).map .string)
  | _ => .error .foreign

def isActive (user : JsValue) : Bool :=
  (user.get "status").isUndefined || (user.get "status").isString (js "active")

/-- One user of the list; `none` is an inactive one. -/
def normalizeUser (host : Host) (domain : JsString) (user : JsValue) :
    Except (Thrown CodedError) (Option DirectoryEntry) := do
  throwIf (!user.isRecord) (policyError "user directory entries must be objects" "INVALID_INPUT")
  let userId ← requiredString (user.get "userId") "user.userId"
  let address ← normalizeAddressForTenant host ((user.get "address").orElse (user.get "mailAddress"))
    domain "user.address"
  return if isActive user then some ⟨userId, address⟩ else none

def addUser (host : Host) (domain : JsString) (d : UserDirectory) (user : JsValue) :
    Except (Thrown CodedError) UserDirectory := do
  match ← normalizeUser host domain user with
  | none => return d
  | some entry =>
    match d.add? entry with
    | some d' => return d'
    | none => throw (policyError "user directory contains a duplicate identity" "CONFLICT")

def normalizeUserDirectory (host : Host) (users : JsValue) (domain : JsString) :
    Except (Thrown CodedError) UserDirectory := do
  (← iterate users).foldlM (addUser host domain) .empty

/-- `user` is an active user of the domain, with this identity. -/
structure ActiveUser (host : Host) (domain : JsString) (user : JsValue) (entry : DirectoryEntry) :
    Prop where
  record : user.isRecord = true
  userId : user.get "userId" = .string entry.userId
  nonempty : entry.userId ≠ []
  address : normalizeAddress host ((user.get "address").orElse (user.get "mailAddress"))
    "user.address" = .ok entry.address
  inside : domainPart entry.address = domain
  active : isActive user = true

variable {host : Host} {domain : JsString}

theorem normalizeUser_eq_some {user : JsValue} {entry : DirectoryEntry} :
    normalizeUser host domain user = .ok (some entry) ↔ ActiveUser host domain user entry := by
  constructor
  · intro h
    obtain ⟨_, record, h⟩ := bind_eq_ok.mp h
    obtain ⟨userId, required, h⟩ := bind_eq_ok.mp h
    obtain ⟨address, normalized, h⟩ := bind_eq_ok.mp h
    obtain ⟨value, nonempty⟩ := requiredString_eq_ok.mp required
    obtain ⟨normalized, inside⟩ := normalizeAddressForTenant_eq_ok.mp normalized
    have record : user.isRecord = true := by simpa using throwIf_eq_ok.mp record
    cases active : isActive user with
    | false => rw [active] at h; cases h
    | true =>
      rw [active] at h
      cases h
      exact ⟨record, value, nonempty, normalized, inside, active⟩
  · intro h
    have required : requiredString (user.get "userId") "user.userId" = .ok entry.userId :=
      requiredString_eq_ok.mpr ⟨h.userId, h.nonempty⟩
    have normalized := normalizeAddressForTenant_eq_ok.mpr ⟨h.address, h.inside⟩
    simp only [normalizeUser, h.record, required, normalized, h.active, ok_bind, Bool.not_true,
      throwIf_false, ↓reduceIte]
    rfl

/-- What one user adds to the directory. -/
theorem mem_addUser {d d' : UserDirectory} {user : JsValue} (h : addUser host domain d user = .ok d')
    (entry : DirectoryEntry) :
    entry ∈ d'.entries ↔ entry ∈ d.entries ∨ ActiveUser host domain user entry := by
  obtain ⟨read, hread, h⟩ := bind_eq_ok.mp h
  rw [← normalizeUser_eq_some, hread]
  cases read with
  | none => cases h; simp
  | some own =>
    dsimp only at h
    split at h
    · rename_i added
      cases h
      rw [UserDirectory.entries_of_add? added, List.mem_append, List.mem_singleton]
      simp [eq_comm]
    · cases h

theorem mem_foldlM_addUser {users : List JsValue} {d d' : UserDirectory}
    (h : users.foldlM (addUser host domain) d = .ok d') (entry : DirectoryEntry) :
    entry ∈ d'.entries ↔ entry ∈ d.entries ∨ ∃ user ∈ users, ActiveUser host domain user entry := by
  induction users generalizing d with
  | nil => cases h; simp
  | cons user users ih =>
    rw [List.foldlM_cons] at h
    obtain ⟨d₁, first, rest⟩ := bind_eq_ok.mp h
    rw [ih rest, mem_addUser first]
    simp only [List.mem_cons, exists_eq_or_imp, or_assoc]

/-- The directory holds the active users of the list and nobody else. -/
theorem mem_normalizeUserDirectory {users : JsValue} {d : UserDirectory}
    (h : normalizeUserDirectory host users domain = .ok d) :
    ∃ items, iterate users = .ok items ∧
      ∀ entry, entry ∈ d.entries ↔ ∃ user ∈ items, ActiveUser host domain user entry := by
  obtain ⟨items, hitems, h⟩ := bind_eq_ok.mp h
  refine ⟨items, hitems, fun entry => ?_⟩
  rw [mem_foldlM_addUser h]
  simp [UserDirectory.entries, UserDirectory.empty]

/-! ## Aliases -/

structure MailAlias where
  address : JsValue
  aliasAddress : JsValue
  destinations : JsValue
  targetUserId : JsValue

/-- `aliases`: a value, or a `Map`. -/
inductive MailAliases where
  | value (v : JsValue)
  | map (entries : List (JsValue × JsValue))

def aliasEntries : MailAliases → Except (Thrown CodedError) (List JsValue)
  | .map entries => .ok (entries.map fun e => .object [(js "address", e.1), (js "destinations", e.2)])
  | .value (.array items) => .ok items
  | .value v =>
    if v.isNullish then .ok [] else .error (policyError "aliases must be an array or map" "INVALID_INPUT")

/-- A pair of address and destinations, or a record. -/
def mailAlias : JsValue → MailAlias
  | .array items => ⟨items.getD 0 .undefined, .undefined, items.getD 1 .undefined, .undefined⟩
  | v => ⟨v.get "address", v.get "aliasAddress", v.get "destinations", v.get "targetUserId"⟩

def MailAlias.listed (a : MailAlias) : JsValue :=
  a.destinations.orElse (if a.targetUserId.isUndefined then .array [] else .array [a.targetUserId])

def normalizeDestination (host : Host) (d : UserDirectory) (domain : JsString) (destination : JsValue) :
    Except (Thrown CodedError) JsString :=
  match destination with
  | .string s =>
    match d.byId.lookup s with
    | some user => .ok user.address
    | none => normalizeAddressForTenant host destination domain "alias.destination"
  | _ => .error (policyError "alias destinations must be strings" "INVALID_ALIAS")

def normalizeAliasDestinations (host : Host) (a : MailAlias) (d : UserDirectory) (domain : JsString) :
    Except (Thrown CodedError) (List JsString) :=
  match a.listed with
  | .array (first :: others) => do
    let addresses ← (first :: others).mapM (normalizeDestination host d domain)
    throwIf ((unique addresses).any fun address => (d.byAddress.lookup address).isNone)
      (policyError "aliases may target active users only" "INVALID_ALIAS")
    return unique addresses
  | _ => .error (policyError "aliases require at least one explicit destination" "INVALID_ALIAS")

abbrev AliasTable := OrderedMap JsString (List JsString)

def addAlias (host : Host) (d : UserDirectory) (domain : JsString) (table : AliasTable) (entry : JsValue) :
    Except (Thrown CodedError) AliasTable := do
  throwIf (!entry.isObject) (policyError "alias entries must be objects" "INVALID_INPUT")
  let value := mailAlias entry
  let address ← normalizeAddressForTenant host (value.address.orElse value.aliasAddress) domain "alias.address"
  throwIf ((d.byAddress.lookup address).isSome || (table.get address).isSome)
    (policyError "an alias cannot replace a mailbox or another alias" "CONFLICT")
  let destinations ← normalizeAliasDestinations host value d domain
  return table.set address destinations

def normalizeAliases (host : Host) (aliases : MailAliases) (d : UserDirectory) (domain : JsString) :
    Except (Thrown CodedError) AliasTable := do
  (← aliasEntries aliases).foldlM (addAlias host d domain) Table.empty

/-- `destination`, as an alias lists it, means the user `entry`. -/
def Names (host : Host) (destination : JsValue) (entry : DirectoryEntry) : Prop :=
  destination = .string entry.userId ∨
    normalizeAddress host destination "alias.destination" = .ok entry.address

/-- `item` is an alias of the domain under `address`; its list means the
active users with the addresses `destinations`. -/
structure ExplicitAlias (host : Host) (d : UserDirectory) (domain : JsString) (item : JsValue)
    (address : JsString) (destinations : List JsString) : Prop where
  normalized : normalizeAddress host ((mailAlias item).address.orElse (mailAlias item).aliasAddress)
    "alias.address" = .ok address
  inside : domainPart address = domain
  nonempty : destinations ≠ []
  listed : ∃ values, (mailAlias item).listed = .array values ∧ ∀ destination ∈ destinations,
    ∃ value ∈ values, ∃ entry ∈ d.entries, entry.address = destination ∧ Names host value entry

theorem names_of_normalizeDestination {d : UserDirectory} {value : JsValue} {destination : JsString}
    (h : normalizeDestination host d domain value = .ok destination) {entry : DirectoryEntry}
    (found : d.byAddress.lookup destination = some entry) : Names host value entry := by
  unfold normalizeDestination at h
  split at h
  · rename_i s
    split at h
    · rename_i user byId
      cases h
      obtain ⟨mem, rfl⟩ := UserDirectory.mem_of_byId byId
      obtain ⟨mem', same⟩ := UserDirectory.mem_of_byAddress found
      rw [UserDirectory.eq_of_address mem mem' same.symm]
      exact .inl rfl
    · obtain ⟨_, rfl⟩ := UserDirectory.mem_of_byAddress found
      exact .inr (normalizeAddressForTenant_eq_ok.mp h).1
  · cases h

theorem normalizeAliasDestinations_spec {a : MailAlias} {d : UserDirectory} {destinations : List JsString}
    (h : normalizeAliasDestinations host a d domain = .ok destinations) :
    destinations ≠ [] ∧ ∃ values, a.listed = .array values ∧ ∀ destination ∈ destinations,
      ∃ value ∈ values, ∃ entry ∈ d.entries, entry.address = destination ∧ Names host value entry := by
  unfold normalizeAliasDestinations at h
  split at h
  · rename_i first others listed
    obtain ⟨addresses, mapped, h⟩ := bind_eq_ok.mp h
    obtain ⟨_, known, h⟩ := bind_eq_ok.mp h
    cases h
    rw [throwIf_eq_ok, List.any_eq_false] at known
    obtain ⟨image, himage, _⟩ := (mapM_eq_ok mapped).1 first List.mem_cons_self
    have nonempty : unique addresses ≠ [] := List.ne_nil_of_mem (mem_unique.mpr himage)
    refine ⟨nonempty, first :: others, listed, fun destination mem => ?_⟩
    have found := known destination mem
    rw [Option.isNone_iff_eq_none, ← ne_eq, Option.ne_none_iff_exists'] at found
    obtain ⟨entry, found⟩ := found
    obtain ⟨value, hv, read⟩ := (mapM_eq_ok mapped).2 destination (mem_unique.mp mem)
    obtain ⟨hmem, haddress⟩ := UserDirectory.mem_of_byAddress found
    exact ⟨value, hv, entry, hmem, haddress, names_of_normalizeDestination read found⟩
  · cases h

theorem addAlias_spec {d : UserDirectory} {table table' : AliasTable} {item : JsValue}
    (h : addAlias host d domain table item = .ok table') :
    ∃ address destinations, ExplicitAlias host d domain item address destinations ∧
      table' = table.set address destinations := by
  obtain ⟨_, _, h⟩ := bind_eq_ok.mp h
  obtain ⟨address, normalized, h⟩ := bind_eq_ok.mp h
  obtain ⟨_, _, h⟩ := bind_eq_ok.mp h
  obtain ⟨destinations, listed, h⟩ := bind_eq_ok.mp h
  cases h
  obtain ⟨normalized, inside⟩ := normalizeAddressForTenant_eq_ok.mp normalized
  obtain ⟨nonempty, listed⟩ := normalizeAliasDestinations_spec listed
  exact ⟨address, destinations, ⟨normalized, inside, nonempty, listed⟩, rfl⟩

theorem foldlM_addAlias_spec {items : List JsValue} {d : UserDirectory} {table table' : AliasTable}
    (h : items.foldlM (addAlias host d domain) table = .ok table') {address : JsString}
    {destinations : List JsString} (found : table'.get address = some destinations) :
    table.get address = some destinations ∨
      ∃ item ∈ items, ExplicitAlias host d domain item address destinations := by
  induction items generalizing table with
  | nil => cases h; exact .inl found
  | cons item items ih =>
    rw [List.foldlM_cons] at h
    obtain ⟨table₁, first, rest⟩ := bind_eq_ok.mp h
    rcases ih rest with before | ⟨later, mem, isAlias⟩
    · obtain ⟨own, ownDestinations, isAlias, rfl⟩ := addAlias_spec first
      rw [OrderedMap.get_set] at before
      split at before
      · rename_i same
        cases before
        exact .inr ⟨item, List.mem_cons_self, same ▸ isAlias⟩
      · exact .inl before
    · exact .inr ⟨later, List.mem_cons_of_mem _ mem, isAlias⟩

/-- Every alias of the table is one the envelope lists. -/
theorem normalizeAliases_spec {aliases : MailAliases} {d : UserDirectory} {table : AliasTable}
    (h : normalizeAliases host aliases d domain = .ok table) :
    ∃ items, aliasEntries aliases = .ok items ∧ ∀ address destinations,
      table.get address = some destinations →
        ∃ item ∈ items, ExplicitAlias host d domain item address destinations := by
  obtain ⟨items, hitems, h⟩ := bind_eq_ok.mp h
  refine ⟨items, hitems, fun address destinations found => ?_⟩
  rcases foldlM_addAlias_spec h found with none | some
  · rw [OrderedMap.get_empty] at none
    cases none
  · exact some

end GuloGulo.Mail
