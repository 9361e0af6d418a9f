import GuloGulo.CardDav.Store
import GuloGulo.Js.Atomic

/-!
# When the CardDAV store's operations are atomic

A contact is stored before the clock is read for the change that records it.
So an operation that gets as far as its first assignment is atomic just where
that reading is valid.
-/

namespace GuloGulo.CardDav
open Js Data
open Eff (Atomic check)

/-- Every difference in the contacts of an address book is in what a sync from
any earlier version reports. -/
def Recorded (s t : CardDavStore) : Prop :=
  ∀ key b b', s.addressBooks.get key = some b → t.addressBooks.get key = some b' →
    ∀ href, b'.contacts.get href ≠ b.contacts.get href → ∀ version ≤ b.revision,
      ∃ c ∈ b'.since version, c.href = href ∧ c.etag = (b'.contacts.get href).map (·.etag)

theorem Recorded.refl (s : CardDavStore) : Recorded s s := by
  intro key b b' hb hb' href differs
  cases hb.symm.trans hb'
  exact absurd rfl differs

section
variable (host : Host) (clock : Clock) (s : CardDavStore)

/-- The `n`-th reading of the clock is a time. -/
def Reads (n : Nat) : Prop := ∃ now, reading clock n = .ok now

/-- A contact that passes the checks is stored between the first reading and the second. -/
def CreateUndisturbed (options : JsValue) : Prop :=
  ∀ new, checkCreate host s options = .ok new → Reads clock 0 → Reads clock 1

/-- The clock does not fail once the call has changed the store. -/
def CardDavCall.Undisturbed : CardDavCall → Prop
  | createContact options => CreateUndisturbed host clock s options
  | putContact options => ∀ put, checkPut host s options = .ok put → match put with
    | .create options => CreateUndisturbed host clock s options
    | .unchanged _ => True
    | .replace _ _ => Reads clock 0 → Reads clock 1
  | deleteContact options => ∀ book href contact, (openContact options s).1 = .ok (book, href, contact) →
    assertIfMatch (options.get "ifMatch") contact.etag "contact" = .ok () → Reads clock 0
  | _ => True

end

section
variable {host : Host} {clock : Clock} {s t : CardDavStore} {book : FoundBook}

/-! ## Storing and recording -/

/-- One address book differs. -/
def Adjusted (s t : CardDavStore) (key : JsString) (f : AddressBookState → AddressBookState) : Prop :=
  ∀ k, t.addressBooks.get k = if k = key then (s.addressBooks.get k).map f else s.addressBooks.get k

/-- A contact put or taken away, with the record of it. -/
def written (contacts : OrderedMap JsString CardDavContact → OrderedMap JsString CardDavContact)
    (change : CardDavChange) (now : JsString) (state : AddressBookState) : AddressBookState :=
  { state with
    contacts := contacts state.contacts
    revision := state.revision + 1
    updatedAt := now
    changes := state.changes ++ [{ change with version := state.revision + 1 }] }

/-- A contact put or taken away, and a revision without a record. -/
def unrecorded (contacts : OrderedMap JsString CardDavContact → OrderedMap JsString CardDavContact)
    (state : AddressBookState) : AddressBookState :=
  { state with contacts := contacts state.contacts, revision := state.revision + 1 }

variable (host clock book) in
/-- The assignment to the contacts, and the record of it. -/
def writeContacts (contacts : OrderedMap JsString CardDavContact → OrderedMap JsString CardDavContact)
    (contact : CardDavContact) (operation : Operation) (etag : Option JsString) (n : Nat) : CardDavOp JsString := do
  assignBook book.key fun state => { state with contacts := contacts state.contacts }
  recordChange host clock book contact operation etag n

variable {contact : CardDavContact} {operation : Operation} {etag : Option JsString} {n : Nat}
  {contacts : OrderedMap JsString CardDavContact → OrderedMap JsString CardDavContact}

theorem storeContact_eq : storeContact host clock book contact operation n =
    writeContacts host clock book (·.set contact.href contact) contact operation (some contact.etag) n >>= fun _ =>
      pure (publicContact contact) := rfl

variable (s) in
theorem writeContacts_ok {now : JsString} (read : reading clock n = .ok now) :
    ∃ t, writeContacts host clock book contacts contact operation etag n s =
        (.ok (makeSyncToken host book.scope book.addressBookId (book.state.revision + 1)), t) ∧
      Adjusted s t book.key (written contacts ⟨0, operation, contact.href, contact.uid, etag⟩ now) := by
  unfold writeContacts recordChange touch
  rw [read]
  refine ⟨_, rfl, ?_⟩
  intro k
  simp only [OrderedMap.get_adjust]
  by_cases hk : k = book.key
  · simp only [hk, if_true, Option.map_map]
    rfl
  · simp only [hk, if_false]

variable (s) in
/-- The contacts are assigned and the revision is, and then the call throws. -/
theorem writeContacts_error {e : Thrown CardDavError} (failed : reading clock n = .error e) :
    ∃ t, writeContacts host clock book contacts contact operation etag n s = (.error e, t) ∧
      Adjusted s t book.key (unrecorded contacts) := by
  unfold writeContacts recordChange touch
  rw [failed]
  refine ⟨_, rfl, ?_⟩
  intro k
  simp only [OrderedMap.get_adjust]
  by_cases hk : k = book.key
  · simp only [hk, if_true, Option.map_map]
    rfl
  · simp only [hk, if_false]

theorem adjusted_ne {f : AddressBookState → AddressBookState} (present : s.addressBooks.get book.key = some book.state)
    (h : Adjusted s t book.key f) (further : (f book.state).revision = book.state.revision + 1) : t ≠ s := by
  rintro rfl
  have same := h book.key
  rw [if_pos rfl, present] at same
  have revision := congrArg AddressBookState.revision (Option.some.inj same)
  rw [further] at revision
  exact absurd revision (Nat.ne_of_lt (Nat.lt_succ_self _))

/-- From the first assignment on, everything depends on the clock. -/
theorem writeContacts_atomic (present : s.addressBooks.get book.key = some book.state) :
    Atomic (writeContacts host clock book contacts contact operation etag n) s ↔ Reads clock n := by
  unfold Atomic Reads
  cases read : reading clock n with
  | ok now =>
    obtain ⟨t, run, _⟩ := writeContacts_ok s read
    rw [run]
    exact ⟨fun _ => ⟨now, rfl⟩, fun _ e h => by cases h⟩
  | error e =>
    obtain ⟨t, run, adjusted⟩ := writeContacts_error s read
    rw [run]
    constructor
    · intro atomic
      exact absurd (atomic e rfl) (adjusted_ne present adjusted rfl)
    · rintro ⟨now, h⟩
      cases h

/-! ## The operations -/

variable {options : JsValue} {α : Type}

theorem destructure_readOnly (options : JsValue) : Eff.ReadOnly (destructure options) := by
  unfold destructure
  split
  · exact Eff.readOnly_lift _
  · exact Eff.readOnly_pure _

theorem atomic_destructure {f : Unit → CardDavOp α} :
    Atomic (destructure options >>= f) s ↔ (options ≠ .null → Atomic (f ()) s) := by
  rw [Eff.atomic_bind (destructure_readOnly options)]
  unfold destructure
  split
  · exact ⟨fun _ h => absurd rfl h, fun _ u h => by cases h⟩
  · rename_i given
    exact ⟨fun h _ => h () rfl, fun h _ _ => h given⟩

theorem getState_found {scope addressBookId : JsValue} (h : getState s scope addressBookId = .ok book) :
    s.addressBooks.get book.key = some book.state ∧ scope ≠ .undefined := by
  obtain ⟨a, normal, h⟩ := bind_eq_ok.mp h
  obtain ⟨b, _, h⟩ := bind_eq_ok.mp h
  have given : scope ≠ .undefined := by
    rintro rfl
    cases normal
  split at h
  · cases h
  · rename_i state found
    cases h
    exact ⟨found, given⟩

theorem get_null {key : String} (h : options.get key ≠ .undefined) : options ≠ .null := by
  rintro rfl
  exact h rfl

theorem checkContact_found {new : NewContact} (h : checkContact host s options = .ok new) :
    s.addressBooks.get new.book.key = some new.book.state ∧ options ≠ .null := by
  obtain ⟨book, opened, h⟩ := bind_eq_ok.mp h
  obtain ⟨_, _, h⟩ := bind_eq_ok.mp h
  obtain ⟨_, _, h⟩ := bind_eq_ok.mp h
  obtain ⟨_, _, h⟩ := bind_eq_ok.mp h
  cases h
  obtain ⟨present, given⟩ := getState_found opened
  exact ⟨present, get_null given⟩

theorem checkCreate_found {new : NewContact} (h : checkCreate host s options = .ok new) :
    s.addressBooks.get new.book.key = some new.book.state ∧ options ≠ .null := by
  obtain ⟨new', checked, h⟩ := bind_eq_ok.mp h
  obtain ⟨_, _, h⟩ := bind_eq_ok.mp h
  obtain ⟨_, _, h⟩ := bind_eq_ok.mp h
  obtain ⟨_, _, h⟩ := bind_eq_ok.mp h
  cases h
  exact checkContact_found checked

theorem checkPut_found {put : Put} (h : checkPut host s options = .ok put) :
    options ≠ .null ∧ ∀ new existing, put = .replace new existing →
      s.addressBooks.get new.book.key = some new.book.state := by
  obtain ⟨new', checked, h⟩ := bind_eq_ok.mp h
  obtain ⟨present, given⟩ := checkContact_found checked
  refine ⟨given, ?_⟩
  rintro new existing rfl
  split at h
  · obtain ⟨_, _, h⟩ := bind_eq_ok.mp h
    cases h
  · obtain ⟨_, _, h⟩ := bind_eq_ok.mp h
    obtain ⟨_, _, h⟩ := bind_eq_ok.mp h
    obtain ⟨_, _, h⟩ := bind_eq_ok.mp h
    obtain ⟨_, _, h⟩ := bind_eq_ok.mp h
    split at h
    · cases h
    · cases h
      exact present

theorem storeContact_atomic (present : s.addressBooks.get book.key = some book.state) :
    Atomic (storeContact host clock book contact operation n) s ↔ Reads clock n := by
  rw [storeContact_eq, Eff.atomic_map]
  exact writeContacts_atomic present

theorem createContact_atomic :
    Atomic (createContact host clock options) s ↔ CreateUndisturbed host clock s options := by
  unfold createContact
  rw [atomic_destructure, Eff.atomic_get_bind]
  simp only [Eff.atomic_check_bind, Eff.atomic_lift_bind]
  constructor
  · rintro atomic new checked ⟨now, read⟩
    obtain ⟨present, given⟩ := checkCreate_found checked
    exact (storeContact_atomic present).mp (atomic given new checked now read)
  · intro undisturbed given new checked now read
    exact (storeContact_atomic (checkCreate_found checked).1).mpr (undisturbed new checked ⟨now, read⟩)

theorem replaceContact_atomic {new : NewContact} {existing : CardDavContact}
    (present : s.addressBooks.get new.book.key = some new.book.state) :
    Atomic (replaceContact host clock new existing) s ↔ (Reads clock 0 → Reads clock 1) := by
  unfold replaceContact
  rw [Eff.atomic_lift_bind]
  constructor
  · rintro atomic ⟨now, read⟩
    exact (storeContact_atomic present).mp (atomic now read)
  · intro undisturbed now read
    exact (storeContact_atomic present).mpr (undisturbed ⟨now, read⟩)

theorem putContact_atomic :
    Atomic (putContact host clock options) s ↔ (CardDavCall.putContact options).Undisturbed host clock s := by
  unfold putContact
  rw [atomic_destructure, Eff.atomic_get_bind, Eff.atomic_check_bind]
  constructor
  · intro atomic put checked
    obtain ⟨given, present⟩ := checkPut_found checked
    have rest := atomic given put checked
    cases put with
    | create options => exact createContact_atomic.mp rest
    | unchanged existing => trivial
    | replace new existing => exact (replaceContact_atomic (present new existing rfl)).mp rest
  · intro undisturbed given put checked
    have rest := undisturbed put checked
    cases put with
    | create options => exact createContact_atomic.mpr rest
    | unchanged existing => exact Eff.atomic_pure _ s
    | replace new existing =>
      exact (replaceContact_atomic ((checkPut_found checked).2 new existing rfl)).mpr rest

theorem openBook_readOnly (options : JsValue) : Eff.ReadOnly (openBook options) :=
  Eff.readOnly_bind (destructure_readOnly options) fun _ =>
    Eff.readOnly_bind Eff.readOnly_get fun _ => Eff.readOnly_check _

theorem openContact_readOnly (options : JsValue) : Eff.ReadOnly (openContact options) :=
  Eff.readOnly_bind (openBook_readOnly options) fun _ =>
    Eff.readOnly_bind (Eff.readOnly_check _) fun _ =>
      Eff.readOnly_bind (Eff.readOnly_check _) fun _ => Eff.readOnly_pure _

theorem openBook_found (h : (openBook options s).1 = .ok book) :
    s.addressBooks.get book.key = some book.state := by
  obtain ⟨_, _, h⟩ := Eff.readOnly_bind_eq_ok (destructure_readOnly options) h
  obtain ⟨_, found, h⟩ := Eff.readOnly_bind_eq_ok Eff.readOnly_get h
  cases found
  exact (getState_found (Eff.check_fst_eq_ok.mp h)).1

theorem openContact_found {href : JsString} (h : (openContact options s).1 = .ok (book, href, contact)) :
    s.addressBooks.get book.key = some book.state ∧ book.state.contacts.get href = some contact := by
  obtain ⟨book', opened, h⟩ := Eff.readOnly_bind_eq_ok (openBook_readOnly options) h
  obtain ⟨href', _, h⟩ := Eff.check_bind_eq_ok h
  obtain ⟨contact', found, h⟩ := Eff.check_bind_eq_ok h
  cases h
  unfold findContact at found
  split at found
  · cases found
  · rename_i stored
    cases found
    exact ⟨openBook_found opened, stored⟩

/-- The rest of `deleteContact`, once its checks are passed. -/
theorem deleteContact_eq : deleteContact host clock options = openContact options >>= fun (book, href, contact) =>
    check (assertIfMatch (options.get "ifMatch") contact.etag "contact") >>= fun _ =>
      writeContacts host clock book (·.delete href) contact .deleted none 0 >>= fun syncToken =>
        pure ⟨href, .deleted, none, syncToken⟩ := rfl

theorem deleteContact_atomic :
    Atomic (deleteContact host clock options) s ↔ (CardDavCall.deleteContact options).Undisturbed host clock s := by
  rw [deleteContact_eq, Eff.atomic_bind (openContact_readOnly options)]
  constructor
  · intro atomic book href contact opened matched
    have rest := Eff.atomic_check_bind.mp (atomic (book, href, contact) opened) () matched
    exact (writeContacts_atomic (openContact_found opened).1).mp (Eff.atomic_map.mp rest)
  · rintro undisturbed ⟨book, href, contact⟩ opened
    refine Eff.atomic_check_bind.mpr ?_
    intro _ matched
    refine Eff.atomic_map.mpr ?_
    exact (writeContacts_atomic (openContact_found opened).1).mpr (undisturbed book href contact opened matched)

theorem createAddressBook_atomic : Atomic (createAddressBook host clock options) s := by
  unfold createAddressBook
  rw [atomic_destructure]
  intro _
  refine Eff.atomic_get_bind.mpr (Eff.atomic_check_bind.mpr ?_)
  intro book _
  refine Eff.atomic_lift_bind.mpr ?_
  intro now _ e throws
  cases throws

theorem deleteAddressBook_atomic : Atomic (deleteAddressBook host options) s := by
  unfold deleteAddressBook
  refine (Eff.atomic_bind (openBook_readOnly options)).mpr ?_
  intro book _
  refine Eff.atomic_check_bind.mpr ?_
  intro _ _ e throws
  cases throws

theorem listAddressBooks_readOnly (options : JsValue) : Eff.ReadOnly (listAddressBooks host options) :=
  Eff.readOnly_bind (destructure_readOnly options) fun _ =>
    Eff.readOnly_bind (Eff.readOnly_check _) fun _ =>
      Eff.readOnly_bind Eff.readOnly_get fun _ => Eff.readOnly_pure _

theorem syncCollection_readOnly (options : JsValue) : Eff.ReadOnly (syncCollection host options) := by
  refine Eff.readOnly_bind (openBook_readOnly options) ?_
  intro book
  dsimp only
  split
  · exact Eff.readOnly_pure _
  · exact Eff.readOnly_bind (Eff.readOnly_check _) fun _ =>
      Eff.readOnly_bind (Eff.readOnly_check _) fun _ => Eff.readOnly_pure _

/-- Calls that only read. -/
def CardDavCall.Reading : CardDavCall → Prop
  | getAddressBook _ | listAddressBooks _ | getContact _ | getContactMetadata _ | listContacts _
  | syncCollection _ | exportAddressBookMetadata _ => True
  | _ => False

theorem run_readOnly {call : CardDavCall} (h : call.Reading) : Eff.ReadOnly (call.run host clock) := by
  cases call with
  | getAddressBook options | listContacts options | exportAddressBookMetadata options =>
    exact Eff.readOnly_bind
      (Eff.readOnly_bind (openBook_readOnly options) fun _ => Eff.readOnly_pure _) fun _ => Eff.readOnly_pure _
  | getContact options | getContactMetadata options =>
    exact Eff.readOnly_bind
      (Eff.readOnly_bind (openContact_readOnly options) fun _ => Eff.readOnly_pure _) fun _ => Eff.readOnly_pure _
  | listAddressBooks options =>
    exact Eff.readOnly_bind (listAddressBooks_readOnly options) fun _ => Eff.readOnly_pure _
  | syncCollection options =>
    exact Eff.readOnly_bind (syncCollection_readOnly options) fun _ => Eff.readOnly_pure _
  | createAddressBook | deleteAddressBook | createContact | putContact | deleteContact => cases h

/-- A call is atomic just where the clock does not fail after its first assignment. -/
theorem run_atomic (call : CardDavCall) :
    Atomic (call.run host clock) s ↔ call.Undisturbed host clock s := by
  cases call with
  | createContact options => exact Eff.atomic_map.trans createContact_atomic
  | putContact options => exact Eff.atomic_map.trans putContact_atomic
  | deleteContact options => exact Eff.atomic_map.trans deleteContact_atomic
  | createAddressBook options => exact iff_of_true (Eff.atomic_map.mpr createAddressBook_atomic) trivial
  | deleteAddressBook options => exact iff_of_true (Eff.atomic_map.mpr deleteAddressBook_atomic) trivial
  | getAddressBook | listAddressBooks | getContact | getContactMetadata | listContacts | syncCollection
  | exportAddressBookMetadata =>
    refine iff_of_true (Eff.atomic_readOnly (run_readOnly ?_) s) trivial
    trivial

/-! ## What is recorded -/

/-- Contacts are stored under their own name. -/
def Named (s : CardDavStore) : Prop :=
  ∀ key b, s.addressBooks.get key = some b → ∀ href c, b.contacts.get href = some c → c.href = href

/-- One contact is put or taken away, and then has that tag. -/
inductive Wrote : (OrderedMap JsString CardDavContact → OrderedMap JsString CardDavContact) → JsString →
    Option JsString → Prop where
  | set (contact : CardDavContact) : Wrote (·.set contact.href contact) contact.href (some contact.etag)
  | delete (href : JsString) : Wrote (·.delete href) href none

theorem Wrote.get {href : JsString} (h : Wrote contacts href etag) (m : OrderedMap JsString CardDavContact)
    (other : JsString) : ((contacts m).get other = m.get other ∧ other ≠ href) ∨
      (other = href ∧ ((contacts m).get other).map (·.etag) = etag ∧
        ∀ c, (contacts m).get other = some c → c.href = other) := by
  cases h with
  | set contact =>
    by_cases same : contact.href = other
    · right
      simp only [OrderedMap.get_set, if_pos same, Option.map_some, Option.some.injEq, true_and]
      refine ⟨same.symm, ?_⟩
      rintro c rfl
      exact same
    · left
      simp only [OrderedMap.get_set, if_neg same, true_and]
      exact fun h => same h.symm
  | delete =>
    by_cases same : other = href
    · right
      simp only [OrderedMap.get_delete, if_pos same, Option.map_none, true_and]
      exact ⟨same, fun c h => by cases h⟩
    · left
      simp only [OrderedMap.get_delete, if_neg same, true_and]
      exact same

/-- How a call ends, with an answer or with a throw. -/
inductive Ends (s : CardDavStore) : Bool → CardDavStore → Prop where
  | same (answered : Bool) : Ends s answered s
  | created (key : JsString) (state : AddressBookState) (fresh : s.addressBooks.get key = none)
      (empty : state.contacts = Table.empty) : Ends s true ⟨s.addressBooks.set key state⟩
  | deleted (key : JsString) : Ends s true ⟨s.addressBooks.delete key⟩
  | recorded {t : CardDavStore} {key now : JsString} {change : CardDavChange}
      {contacts : OrderedMap JsString CardDavContact → OrderedMap JsString CardDavContact}
      (wrote : Wrote contacts change.href change.etag) (adjusted : Adjusted s t key (written contacts change now)) :
      Ends s true t
  | broken {t : CardDavStore} {key href : JsString} {etag : Option JsString}
      {contacts : OrderedMap JsString CardDavContact → OrderedMap JsString CardDavContact}
      (wrote : Wrote contacts href etag) (adjusted : Adjusted s t key (unrecorded contacts)) : Ends s false t

theorem adjusted_named {key href : JsString} {f : AddressBookState → AddressBookState} (named : Named s)
    (wrote : Wrote contacts href etag) (adjusted : Adjusted s t key f)
    (assigned : ∀ b, (f b).contacts = contacts b.contacts) : Named t := by
  intro k b hb other c hc
  rw [adjusted k] at hb
  split at hb
  · obtain ⟨b', hb', rfl⟩ := Option.map_eq_some_iff.mp hb
    rw [assigned] at hc
    rcases wrote.get b'.contacts other with ⟨kept, _⟩ | ⟨_, _, name⟩
    · rw [kept] at hc
      exact named k b' hb' other c hc
    · exact name c hc
  · exact named k b hb other c hc

theorem ends_named {answered : Bool} (ends : Ends s answered t) (named : Named s) : Named t := by
  cases ends with
  | same => exact named
  | created key state fresh empty =>
    intro k b hb href c hc
    simp only [OrderedMap.get_set] at hb
    split at hb
    · cases hb
      rw [empty] at hc
      cases hc
    · exact named k b hb href c hc
  | deleted key =>
    intro k b hb href c hc
    simp only [OrderedMap.get_delete] at hb
    split at hb
    · cases hb
    · exact named k b hb href c hc
  | recorded wrote adjusted => exact adjusted_named named wrote adjusted fun _ => rfl
  | broken wrote adjusted => exact adjusted_named named wrote adjusted fun _ => rfl

theorem ends_recorded (ends : Ends s true t) : Recorded s t := by
  cases ends with
  | same => exact .refl s
  | created key state fresh empty =>
    intro k b b' hb hb' href differs
    simp only [OrderedMap.get_set] at hb'
    split at hb'
    · rename_i same
      rw [← same, fresh] at hb
      cases hb
    · cases hb.symm.trans hb'
      exact absurd rfl differs
  | deleted key =>
    intro k b b' hb hb' href differs
    simp only [OrderedMap.get_delete] at hb'
    split at hb'
    · cases hb'
    · cases hb.symm.trans hb'
      exact absurd rfl differs
  | @recorded _ key now change contacts wrote adjusted =>
    intro k b b' hb hb' href differs version before
    rw [adjusted k, hb] at hb'
    split at hb'
    · cases hb'
      rcases wrote.get b.contacts href with ⟨kept, _⟩ | ⟨rfl, tag, _⟩
      · exact absurd kept differs
      · refine ⟨{ change with version := b.revision + 1 }, ?_, rfl, tag.symm⟩
        refine List.mem_filter.mpr ⟨List.mem_append_right _ List.mem_cons_self, ?_⟩
        exact decide_eq_true (Nat.lt_succ_of_le before)
    · cases hb'
      exact absurd rfl differs

/-! ### Every call -/

theorem ends_readOnly {m : CardDavOp α} (h : Eff.ReadOnly m) : Ends s (m s).1.isOk (m s).2 := by
  rw [h s]
  exact .same _

theorem ends_bind {β : Type} {m : CardDavOp β} {f : β → CardDavOp α} (h : Eff.ReadOnly m)
    (next : ∀ b, (m s).1 = .ok b → Ends s (f b s).1.isOk (f b s).2) :
    Ends s ((m >>= f) s).1.isOk ((m >>= f) s).2 := by
  cases hm : (m s).1 with
  | ok b =>
    rw [Eff.bind_of_readOnly h hm]
    exact next b hm
  | error e =>
    rw [Eff.bind_of_error hm, h s]
    exact .same _

theorem ends_map {β : Type} {m : CardDavOp β} {f : β → α} (h : Ends s (m s).1.isOk (m s).2) :
    Ends s ((m >>= fun b => pure (f b)) s).1.isOk ((m >>= fun b => pure (f b)) s).2 := by
  have run : (m >>= fun b => pure (f b)) s = ((m s).1.map f, (m s).2) := Eff.bind_pure_run
  rw [run]
  cases hm : (m s).1 with
  | ok b =>
    rw [hm] at h
    exact h
  | error e =>
    rw [hm] at h
    exact h

theorem writeContacts_ends (wrote : Wrote contacts contact.href etag) :
    Ends s (writeContacts host clock book contacts contact operation etag n s).1.isOk
      (writeContacts host clock book contacts contact operation etag n s).2 := by
  cases read : reading clock n with
  | ok now =>
    obtain ⟨t, run, adjusted⟩ := writeContacts_ok s read
    rw [run]
    exact .recorded wrote adjusted
  | error e =>
    obtain ⟨t, run, adjusted⟩ := writeContacts_error s read
    rw [run]
    exact .broken wrote adjusted

theorem storeContact_ends : Ends s (storeContact host clock book contact operation n s).1.isOk
    (storeContact host clock book contact operation n s).2 :=
  ends_map (writeContacts_ends (.set contact))

theorem createContact_ends : Ends s (createContact host clock options s).1.isOk
    (createContact host clock options s).2 := by
  refine ends_bind (destructure_readOnly options) fun _ _ => ?_
  refine ends_bind Eff.readOnly_get fun _ _ => ?_
  refine ends_bind (Eff.readOnly_check _) fun new _ => ?_
  refine ends_bind (Eff.readOnly_lift _) fun now _ => ?_
  exact storeContact_ends

theorem putContact_ends : Ends s (putContact host clock options s).1.isOk (putContact host clock options s).2 := by
  refine ends_bind (destructure_readOnly options) fun _ _ => ?_
  refine ends_bind Eff.readOnly_get fun _ _ => ?_
  refine ends_bind (Eff.readOnly_check _) fun put _ => ?_
  cases put with
  | create options => exact createContact_ends
  | unchanged existing => exact .same _
  | replace new existing => exact ends_bind (Eff.readOnly_lift _) fun now _ => storeContact_ends

theorem deleteContact_ends (named : Named s) : Ends s (deleteContact host clock options s).1.isOk
    (deleteContact host clock options s).2 := by
  rw [deleteContact_eq]
  refine ends_bind (openContact_readOnly options) ?_
  rintro ⟨book, href, contact⟩ opened
  obtain ⟨present, stored⟩ := openContact_found opened
  refine ends_bind (Eff.readOnly_check _) fun _ _ => ?_
  apply ends_map
  apply writeContacts_ends
  rw [named _ _ present _ _ stored]
  exact .delete href

theorem createAddressBook_ends : Ends s (createAddressBook host clock options s).1.isOk
    (createAddressBook host clock options s).2 := by
  refine ends_bind (destructure_readOnly options) fun _ _ => ?_
  refine ends_bind Eff.readOnly_get fun s' found => ?_
  cases found
  refine ends_bind (Eff.readOnly_check _) fun book checked => ?_
  refine ends_bind (Eff.readOnly_lift _) fun now _ => ?_
  have fresh : s.addressBooks.get (keyFor book.scope book.addressBookId) = none := by
    obtain ⟨scope, _, checked⟩ := bind_eq_ok.mp (Eff.check_fst_eq_ok.mp checked)
    obtain ⟨addressBookId, _, checked⟩ := bind_eq_ok.mp checked
    obtain ⟨_, new, checked⟩ := bind_eq_ok.mp checked
    obtain ⟨_, _, checked⟩ := bind_eq_ok.mp checked
    obtain ⟨_, _, checked⟩ := bind_eq_ok.mp checked
    obtain ⟨_, _, checked⟩ := bind_eq_ok.mp checked
    cases checked
    simpa using failIf_eq_ok.mp new
  exact .created _ _ fresh rfl

theorem deleteAddressBook_ends : Ends s (deleteAddressBook host options s).1.isOk
    (deleteAddressBook host options s).2 := by
  refine ends_bind (openBook_readOnly options) fun book _ => ?_
  refine ends_bind (Eff.readOnly_check _) fun _ _ => ?_
  exact .deleted _

variable (host clock) in
theorem run_ends (named : Named s) (call : CardDavCall) :
    Ends s (call.run host clock s).1.isOk (call.run host clock s).2 := by
  cases call with
  | createContact options => exact ends_map createContact_ends
  | putContact options => exact ends_map putContact_ends
  | deleteContact options => exact ends_map (deleteContact_ends named)
  | createAddressBook options => exact ends_map createAddressBook_ends
  | deleteAddressBook options => exact ends_map deleteAddressBook_ends
  | getAddressBook | listAddressBooks | getContact | getContactMetadata | listContacts | syncCollection
  | exportAddressBookMetadata =>
    refine ends_readOnly (run_readOnly ?_)
    trivial

/-- What an atomic call changes it records. -/
theorem run_recorded (named : Named s) (call : CardDavCall) (atomic : Atomic (call.run host clock) s) :
    Recorded s (call.run host clock s).2 := by
  have ends := run_ends host clock named call
  cases answered : (call.run host clock s).1 with
  | ok answer =>
    rw [answered] at ends
    exact ends_recorded ends
  | error e =>
    rw [atomic e answered]
    exact .refl s

end

end GuloGulo.CardDav
