import GuloGulo.CardDav.Atomic
import GuloGulo.CardDav.Canonical
import GuloGulo.Data.Machine
import GuloGulo.Js.Sha256

/-!
# What the CardDAV store represents

An address book is a map of contacts, a log of changes and a counter, all kept
by hand. `BookInvariant` says how the three agree; every step keeps it, as long
as the clock answers. That the stored vCard is accepted again as the record it
was stored with is apart (`Revalidates`): it needs lines within the limits.
-/

namespace GuloGulo.CardDav
open Js Data
open Eff (check)

/-- The last change recorded for a name. -/
def lastChange (changes : List CardDavChange) (href : JsString) : Option CardDavChange :=
  changes.reverse.find? fun change => change.href == href

/-- The contact keeps what validating its vCard gave. -/
structure Describes (parsed : ParsedVCard) (c : CardDavContact) : Prop where
  uid : c.uid = parsed.uid
  fullName : c.fullName = parsed.fullName
  vCard : c.vCard = parsed.canonical
  mediaType : c.mediaType = parsed.mediaType
  sizeBytes : c.sizeBytes = byteLength parsed.canonical
  propertyNames : c.propertyNames = parsed.propertyNames
  emailCount : c.emailCount = parsed.emailCount
  telCount : c.telCount = parsed.telCount

/-- The last change recorded for a contact is the one that stored it. -/
def Stored (b : AddressBookState) (href : JsString) (c : CardDavContact) : Prop :=
  ∃ change, lastChange b.changes href = some change ∧ change.version = c.revision ∧
    change.operation ≠ .deleted ∧ change.etag = some c.etag

section
variable (host : Host)

structure BookInvariant (b : AddressBookState) : Prop where
  uids : ∀ href href' c c', b.contacts.get href = some c → b.contacts.get href' = some c' → c.uid = c'.uid →
    href = href'
  hrefs : ∀ href c, b.contacts.get href = some c → c.href = href
  etags : ∀ href c, b.contacts.get href = some c → c.etag = makeEtag host c.vCard
  versions : b.changes.map (·.version) = List.range' 1 b.revision
  recorded : ∀ href c, b.contacts.get href = some c → Stored b href c
  gone : ∀ href change, lastChange b.changes href = some change → change.operation = .deleted →
    b.contacts.get href = none
  validated : ∀ href c, b.contacts.get href = some c →
    ∃ text parsed, validateVCardText host (.string text) = .ok parsed ∧ Describes parsed c

/-- Validating the vCard of a contact gives what the contact keeps. -/
def Revalidates (c : CardDavContact) : Prop :=
  ∃ parsed, validateVCardText host (.string c.vCard) = .ok parsed ∧ Describes parsed c

structure Represents (s : CardDavStore) : Prop where
  books : ∀ key b, s.addressBooks.get key = some b → BookInvariant host b
  contacts : ∀ key b, s.addressBooks.get key = some b → ∀ href c, b.contacts.get href = some c → Revalidates host c

/-- A call with the clock it reads. -/
structure CardDavEvent where
  clock : Clock
  call : CardDavCall

/-- Calls one after another on a new store, with clocks that answer. -/
def cardDavMachine : Machine CardDavStore CardDavEvent where
  Start s := s = .empty
  Step s e s' := (∀ n, Reads e.clock n) ∧ s' = (e.call.run host e.clock s).2

/-- The unfolded lines of the vCard are within the limits. -/
def CardFits (options : JsValue) : Prop :=
  ∀ text, readVCardInput options = .ok (.string text) → FitsVCardLimits (vCardLines text)

/-- A vCard that the call is about to store has unfolded lines within the limits. -/
def CardDavCall.Fits (s : CardDavStore) : CardDavCall → Prop
  | createContact options => (checkCreate host s options).isOk → CardFits options
  | putContact options => ∀ new existing, checkPut host s options = .ok (.replace new existing) → CardFits options
  | _ => True

/-- The contact is what an accepted vCard makes of the next revision of the book. -/
structure Built (state : AddressBookState) (parsed : ParsedVCard) (c : CardDavContact) : Prop where
  accepted : ∃ text, validateVCardText host (.string text) = .ok parsed
  describes : Describes parsed c
  etag : c.etag = makeEtag host c.vCard
  revision : c.revision = state.revision + 1
  unique : findUid state c.uid = none ∨ ∃ old, state.contacts.get c.href = some old ∧ old.uid = c.uid

/-- What a call may do to the store when the clock answers; `fits` is whether
the vCard it stores keeps to the limits. -/
inductive Moves (s : CardDavStore) (fits : Prop) : CardDavStore → Prop where
  | same : Moves s fits s
  | created (key : JsString) (state : AddressBookState) (contacts : state.contacts = Table.empty)
      (revision : state.revision = 0) (changes : state.changes = []) :
      Moves s fits ⟨s.addressBooks.set key state⟩
  | dropped (key : JsString) : Moves s fits ⟨s.addressBooks.delete key⟩
  | stored {t : CardDavStore} {key now : JsString} {state : AddressBookState} {parsed : ParsedVCard} {c : CardDavContact}
      {operation : Operation} (present : s.addressBooks.get key = some state) (built : Built host state parsed c)
      (kept : operation ≠ .deleted) (within : fits → FitsVCardLimits (vCardLines parsed.canonical))
      (adjusted : Adjusted s t key (written (·.set c.href c) ⟨0, operation, c.href, c.uid, some c.etag⟩ now)) :
      Moves s fits t
  | removed {t : CardDavStore} {key now : JsString} {state : AddressBookState} {c : CardDavContact}
      (present : s.addressBooks.get key = some state) (stored : state.contacts.get c.href = some c)
      (adjusted : Adjusted s t key (written (·.delete c.href) ⟨0, .deleted, c.href, c.uid, none⟩ now)) :
      Moves s fits t

section
variable {changes : List CardDavChange} {change : CardDavChange} {href now : JsString} {state : AddressBookState}
  {parsed : ParsedVCard} {c : CardDavContact} {operation : Operation}

theorem lastChange_snoc : lastChange (changes ++ [change]) href =
    if change.href = href then some change else lastChange changes href := by
  unfold lastChange
  rw [List.reverse_append, List.reverse_singleton, List.singleton_append, List.find?_cons]
  by_cases same : change.href = href
  · rw [if_pos same, same, beq_self_eq_true]
  · rw [if_neg same, beq_false_of_ne same]

theorem findUid_eq_none {uid : JsString} (h : findUid state uid = none) (href : JsString) (c : CardDavContact)
    (stored : state.contacts.get href = some c) : c.uid ≠ uid := by
  have differs := List.find?_eq_none.mp h c (OrderedMap.mem_values.mpr ⟨href, stored⟩)
  simpa using differs

/-- A contact of another name has another UID. -/
theorem Built.uid_ne {host : Host} (inv : BookInvariant host state) (built : Built host state parsed c) {href : JsString}
    {other : CardDavContact} (stored : state.contacts.get href = some other) (away : href ≠ c.href) :
    other.uid ≠ c.uid := by
  rcases built.unique with none | ⟨old, here, same⟩
  · exact findUid_eq_none none href other stored
  · intro equal
    exact away (inv.uids href c.href other old stored here (equal.trans same.symm))

theorem versions_snoc (h : state.changes.map (·.version) = List.range' 1 state.revision) :
    (state.changes ++ [{ change with version := state.revision + 1 }]).map CardDavChange.version =
      List.range' 1 (state.revision + 1) := by
  rw [List.map_append, h, List.range'_concat]
  simp only [List.map_cons, List.map_nil, Nat.one_mul, Nat.add_comm]

/-- Storing a contact keeps the three in agreement. -/
theorem BookInvariant.stored {host : Host} (inv : BookInvariant host state) (built : Built host state parsed c)
    (kept : operation ≠ .deleted) :
    BookInvariant host (written (·.set c.href c) ⟨0, operation, c.href, c.uid, some c.etag⟩ now state) := by
  have here {href : JsString} {d : CardDavContact} (h : (state.contacts.set c.href c).get href = some d) :
      (href = c.href ∧ d = c) ∨ (href ≠ c.href ∧ state.contacts.get href = some d) := by
    rw [OrderedMap.get_set] at h
    split at h
    · rename_i same
      exact .inl ⟨same.symm, (Option.some.inj h).symm⟩
    · rename_i other
      exact .inr ⟨fun same => other same.symm, h⟩
  constructor
  · intro href href' d d' hd hd' same
    rcases here hd with ⟨rfl, rfl⟩ | ⟨away, old⟩ <;> rcases here hd' with ⟨rfl, rfl⟩ | ⟨away', old'⟩
    · rfl
    · exact absurd same.symm (built.uid_ne inv old' away')
    · exact absurd same (built.uid_ne inv old away)
    · exact inv.uids href href' d d' old old' same
  · intro href d hd
    rcases here hd with ⟨rfl, rfl⟩ | ⟨_, old⟩
    · rfl
    · exact inv.hrefs href d old
  · intro href d hd
    rcases here hd with ⟨_, rfl⟩ | ⟨_, old⟩
    · exact built.etag
    · exact inv.etags href d old
  · exact versions_snoc inv.versions
  · intro href d hd
    unfold Stored written
    rw [lastChange_snoc]
    rcases here hd with ⟨rfl, rfl⟩ | ⟨away, old⟩
    · rw [if_pos rfl]
      exact ⟨_, rfl, built.revision.symm, kept, rfl⟩
    · rw [if_neg away.symm]
      exact inv.recorded href d old
  · intro href last found deleted
    unfold written at found ⊢
    rw [lastChange_snoc] at found
    split at found
    · cases found
      exact absurd deleted kept
    · rename_i away
      have gone := inv.gone href last found deleted
      rwa [OrderedMap.get_set, if_neg away]
  · intro href d hd
    rcases here hd with ⟨_, rfl⟩ | ⟨_, old⟩
    · obtain ⟨text, accepted⟩ := built.accepted
      exact ⟨text, parsed, accepted, built.describes⟩
    · exact inv.validated href d old

/-- So does deleting one. -/
theorem BookInvariant.removed {host : Host} (inv : BookInvariant host state) :
    BookInvariant host (written (·.delete c.href) ⟨0, .deleted, c.href, c.uid, none⟩ now state) := by
  have here {href : JsString} {d : CardDavContact} (h : (state.contacts.delete c.href).get href = some d) :
      href ≠ c.href ∧ state.contacts.get href = some d := by
    rw [OrderedMap.get_delete] at h
    split at h
    · cases h
    · exact ⟨‹_›, h⟩
  constructor
  · intro href href' d d' hd hd'
    exact inv.uids href href' d d' (here hd).2 (here hd').2
  · intro href d hd
    exact inv.hrefs href d (here hd).2
  · intro href d hd
    exact inv.etags href d (here hd).2
  · exact versions_snoc inv.versions
  · intro href d hd
    obtain ⟨away, old⟩ := here hd
    unfold Stored written
    rw [lastChange_snoc, if_neg away.symm]
    exact inv.recorded href d old
  · intro href last found deleted
    unfold written at found ⊢
    rw [lastChange_snoc] at found
    rw [OrderedMap.get_delete]
    split at found
    · rename_i same
      rw [if_pos same.symm]
    · rename_i away
      rw [if_neg fun same => away same.symm]
      exact inv.gone href last found deleted
  · intro href d hd
    exact inv.validated href d (here hd).2

theorem BookInvariant.fresh {host : Host} (contacts : state.contacts = Table.empty) (revision : state.revision = 0)
    (changes : state.changes = []) : BookInvariant host state := by
  have none (href : JsString) (c : CardDavContact) (h : state.contacts.get href = some c) : False := by
    rw [contacts] at h
    cases h
  constructor
  · exact fun href _ c _ h => (none href c h).elim
  · exact fun href c h => (none href c h).elim
  · exact fun href c h => (none href c h).elim
  · rw [changes, revision]
    rfl
  · exact fun href c h => (none href c h).elim
  · intro href change found
    rw [changes] at found
    cases found
  · exact fun href c h => (none href c h).elim

end

variable {host : Host} {s t : CardDavStore} {fits : Prop} {clock : Clock} {options : JsValue}

theorem moves_books (moves : Moves host s fits t)
    (books : ∀ key b, s.addressBooks.get key = some b → BookInvariant host b) :
    ∀ key b, t.addressBooks.get key = some b → BookInvariant host b := by
  intro k b hb
  cases moves with
  | same => exact books k b hb
  | created key state contacts revision changes =>
    simp only [OrderedMap.get_set] at hb
    split at hb
    · cases hb
      exact .fresh contacts revision changes
    · exact books k b hb
  | dropped key =>
    simp only [OrderedMap.get_delete] at hb
    split at hb
    · cases hb
    · exact books k b hb
  | @stored t key now state parsed c operation present built kept within adjusted =>
    rw [adjusted k] at hb
    split at hb
    · rename_i here
      rw [here, present] at hb
      cases hb
      exact (books key state present).stored built kept
    · exact books k b hb
  | @removed _ key now state c present there adjusted =>
    rw [adjusted k] at hb
    split at hb
    · rename_i here
      rw [here, present] at hb
      cases hb
      exact (books key state present).removed
    · exact books k b hb

theorem Built.revalidates {state : AddressBookState} {parsed : ParsedVCard} {c : CardDavContact}
    (built : Built host state parsed c) (fits : FitsVCardLimits (vCardLines parsed.canonical)) : Revalidates host c := by
  obtain ⟨text, accepted⟩ := built.accepted
  refine ⟨parsed, ?_, built.describes⟩
  rw [built.describes.vCard]
  apply (validateVCardText_canonical accepted).1
  rwa [vCardLines_validated accepted] at fits

theorem moves_contacts (moves : Moves host s fits t) (hfits : fits)
    (contacts : ∀ key b, s.addressBooks.get key = some b → ∀ href c, b.contacts.get href = some c → Revalidates host c) :
    ∀ key b, t.addressBooks.get key = some b → ∀ href c, b.contacts.get href = some c → Revalidates host c := by
  intro k b hb href d hd
  cases moves with
  | same => exact contacts k b hb href d hd
  | created key state empty revision changes =>
    simp only [OrderedMap.get_set] at hb
    split at hb
    · cases hb
      rw [empty] at hd
      cases hd
    · exact contacts k b hb href d hd
  | dropped key =>
    simp only [OrderedMap.get_delete] at hb
    split at hb
    · cases hb
    · exact contacts k b hb href d hd
  | @stored t key now state parsed c operation present built kept within adjusted =>
    rw [adjusted k] at hb
    split at hb
    · rename_i here
      rw [here, present] at hb
      cases hb
      unfold written at hd
      rw [OrderedMap.get_set] at hd
      split at hd
      · cases hd
        exact built.revalidates (within hfits)
      · exact contacts key state present href d hd
    · exact contacts k b hb href d hd
  | @removed _ key now state c present there adjusted =>
    rw [adjusted k] at hb
    split at hb
    · rename_i here
      rw [here, present] at hb
      cases hb
      unfold written at hd
      rw [OrderedMap.get_delete] at hd
      split at hd
      · cases hd
      · exact contacts key state present href d hd
    · exact contacts k b hb href d hd

section
variable {α β : Type}

theorem moves_readOnly {m : CardDavOp α} (h : Eff.ReadOnly m) : Moves host s fits (m s).2 := by
  rw [h s]
  exact .same

theorem moves_bind {m : CardDavOp β} {f : β → CardDavOp α} (h : Eff.ReadOnly m)
    (next : ∀ b, (m s).1 = .ok b → Moves host s fits (f b s).2) : Moves host s fits ((m >>= f) s).2 := by
  cases hm : (m s).1 with
  | ok b =>
    rw [Eff.bind_of_readOnly h hm]
    exact next b hm
  | error e =>
    rw [Eff.bind_of_error hm, h s]
    exact .same

theorem moves_map {m : CardDavOp β} {f : β → α} (h : Moves host s fits (m s).2) :
    Moves host s fits ((m >>= fun b => pure (f b)) s).2 := by
  rw [show (m >>= fun b => pure (f b)) s = ((m s).1.map f, (m s).2) from Eff.bind_pure_run]
  exact h

end

theorem storeContact_moves (reads : ∀ n, Reads clock n) {book : FoundBook} {parsed : ParsedVCard} {c : CardDavContact}
    {operation : Operation} (n : Nat) (present : s.addressBooks.get book.key = some book.state)
    (built : Built host book.state parsed c) (kept : operation ≠ .deleted)
    (within : fits → FitsVCardLimits (vCardLines parsed.canonical)) :
    Moves host s fits (storeContact host clock book c operation n s).2 := by
  rw [storeContact_eq]
  apply moves_map
  obtain ⟨now, read⟩ := reads n
  obtain ⟨t, run, adjusted⟩ := writeContacts_ok s read
  rw [run]
  exact .stored present built kept within adjusted

/-- A contact built of a checked vCard. -/
theorem buildContact_built {new : NewContact} {now createdAt : JsString} (checked : checkContact host s options = .ok new)
    (unique : findUid new.book.state new.parsed.uid = none ∨
      ∃ old, new.book.state.contacts.get new.href = some old ∧ old.uid = new.parsed.uid) :
    Built host new.book.state new.parsed
      { buildContact host new.book new.href new.parsed now with createdAt := createdAt } := by
  obtain ⟨book, _, checked⟩ := bind_eq_ok.mp checked
  obtain ⟨input, _, checked⟩ := bind_eq_ok.mp checked
  obtain ⟨parsed, accepted, checked⟩ := bind_eq_ok.mp checked
  obtain ⟨href, _, checked⟩ := bind_eq_ok.mp checked
  cases checked
  refine ⟨?_, ⟨rfl, rfl, rfl, rfl, rfl, rfl, rfl, rfl⟩, rfl, rfl, unique⟩
  cases input with
  | string text => exact ⟨text, accepted⟩
  | _ => cases accepted

theorem checkContact_fits {new : NewContact} (checked : checkContact host s options = .ok new)
    (fits : CardFits options) : FitsVCardLimits (vCardLines new.parsed.canonical) := by
  obtain ⟨book, _, checked⟩ := bind_eq_ok.mp checked
  obtain ⟨input, given, checked⟩ := bind_eq_ok.mp checked
  obtain ⟨parsed, accepted, checked⟩ := bind_eq_ok.mp checked
  obtain ⟨href, _, checked⟩ := bind_eq_ok.mp checked
  cases checked
  cases input with
  | string text =>
    rw [vCardLines_validated accepted]
    exact fits text given
  | _ => cases accepted

theorem checkCreate_new {new : NewContact} (h : checkCreate host s options = .ok new) :
    checkContact host s options = .ok new ∧ findUid new.book.state new.parsed.uid = none := by
  obtain ⟨new', checked, h⟩ := bind_eq_ok.mp h
  obtain ⟨_, _, h⟩ := bind_eq_ok.mp h
  obtain ⟨_, _, h⟩ := bind_eq_ok.mp h
  obtain ⟨_, free, h⟩ := bind_eq_ok.mp h
  cases h
  exact ⟨checked, by simpa using failIf_eq_ok.mp free⟩

theorem createContact_moves (reads : ∀ n, Reads clock n) (within : ∀ new, checkCreate host s options = .ok new →
    fits → FitsVCardLimits (vCardLines new.parsed.canonical)) :
    Moves host s fits (createContact host clock options s).2 := by
  apply moves_bind (destructure_readOnly options)
  intro _ _
  apply moves_bind Eff.readOnly_get
  rintro s' found
  cases found
  apply moves_bind (Eff.readOnly_check _)
  intro new checked
  have checked := Eff.check_fst_eq_ok.mp checked
  apply moves_bind (Eff.readOnly_lift _)
  intro now _
  obtain ⟨contact, free⟩ := checkCreate_new checked
  exact storeContact_moves reads 1 (checkCreate_found checked).1 (buildContact_built contact (.inl free)) (by decide)
    (within new checked)

/-- A canonical vCard that is accepted again fits. -/
theorem createOptions_fits {new new' : NewContact} (checked : checkContact host s options = .ok new)
    (again : checkCreate host s (createOptions new) = .ok new') :
    FitsVCardLimits (vCardLines new'.parsed.canonical) := by
  obtain ⟨book, _, checked⟩ := bind_eq_ok.mp checked
  obtain ⟨input, _, checked⟩ := bind_eq_ok.mp checked
  obtain ⟨parsed, accepted, checked⟩ := bind_eq_ok.mp checked
  obtain ⟨href, _, checked⟩ := bind_eq_ok.mp checked
  cases checked
  obtain ⟨book', _, again⟩ := bind_eq_ok.mp (checkCreate_new again).1
  obtain ⟨input', same, again⟩ := bind_eq_ok.mp again
  obtain ⟨parsed', accepted', again⟩ := bind_eq_ok.mp again
  obtain ⟨href', _, again⟩ := bind_eq_ok.mp again
  cases again
  obtain rfl : input' = .string parsed.canonical := by
    cases same
    rfl
  cases input with
  | string text =>
    have fits := (validateVCardText_canonical accepted).2 parsed' accepted'
    rw [vCardLines_validated accepted', vCardLines_validated accepted]
    exact fits
  | _ => cases accepted

theorem checkPut_cases {put : Put} (h : checkPut host s options = .ok put) : ∃ new, checkContact host s options = .ok new ∧
    (put = .create (createOptions new) ∨ ∃ existing, new.book.state.contacts.get new.href = some existing ∧
      new.parsed.uid = existing.uid ∧ (put = .unchanged existing ∨ put = .replace new existing)) := by
  obtain ⟨new, checked, h⟩ := bind_eq_ok.mp h
  refine ⟨new, checked, ?_⟩
  split at h
  · obtain ⟨_, _, h⟩ := bind_eq_ok.mp h
    cases h
    exact .inl rfl
  · rename_i existing there
    obtain ⟨_, _, h⟩ := bind_eq_ok.mp h
    obtain ⟨_, _, h⟩ := bind_eq_ok.mp h
    obtain ⟨_, same, h⟩ := bind_eq_ok.mp h
    obtain ⟨_, _, h⟩ := bind_eq_ok.mp h
    refine .inr ⟨existing, there, by simpa using failIf_eq_ok.mp same, ?_⟩
    split at h
    · cases h
      exact .inl rfl
    · cases h
      exact .inr rfl

theorem putContact_moves (reads : ∀ n, Reads clock n) (within : ∀ new existing,
    checkPut host s options = .ok (.replace new existing) → fits → CardFits options) :
    Moves host s fits (putContact host clock options s).2 := by
  apply moves_bind (destructure_readOnly options)
  intro _ _
  apply moves_bind Eff.readOnly_get
  rintro s' found
  cases found
  apply moves_bind (Eff.readOnly_check _)
  intro put checked
  have checked := Eff.check_fst_eq_ok.mp checked
  obtain ⟨new, contact, rfl | ⟨existing, there, uid, rfl | rfl⟩⟩ := checkPut_cases checked
  · apply createContact_moves reads
    intro new' again _
    exact createOptions_fits contact again
  · exact .same
  · apply moves_bind (Eff.readOnly_lift _)
    intro now _
    exact storeContact_moves reads 1 (checkContact_found contact).1
      (buildContact_built contact (.inr ⟨existing, there, uid.symm⟩)) (by decide)
      fun fits => checkContact_fits contact (within new existing checked fits)

theorem deleteContact_moves (reads : ∀ n, Reads clock n)
    (books : ∀ key b, s.addressBooks.get key = some b → BookInvariant host b) :
    Moves host s fits (deleteContact host clock options s).2 := by
  rw [deleteContact_eq]
  apply moves_bind (openContact_readOnly options)
  rintro ⟨book, href, contact⟩ opened
  obtain ⟨present, stored⟩ := openContact_found opened
  have name := (books book.key book.state present).hrefs href contact stored
  apply moves_bind (Eff.readOnly_check _)
  intro _ _
  apply moves_map
  obtain ⟨now, read⟩ := reads 0
  obtain ⟨t, run, adjusted⟩ := writeContacts_ok s read
  rw [run]
  rw [← name] at stored adjusted
  exact .removed present stored adjusted

theorem createAddressBook_moves : Moves host s fits (createAddressBook host clock options s).2 := by
  apply moves_bind (destructure_readOnly options)
  intro _ _
  apply moves_bind Eff.readOnly_get
  intro s' found
  cases found
  apply moves_bind (Eff.readOnly_check _)
  intro book _
  apply moves_bind (Eff.readOnly_lift _)
  intro now _
  exact .created _ (newState book now) rfl rfl rfl

theorem deleteAddressBook_moves : Moves host s fits (deleteAddressBook host options s).2 := by
  apply moves_bind (openBook_readOnly options)
  intro book _
  apply moves_bind (Eff.readOnly_check _)
  intro _ _
  exact .dropped _

theorem run_moves (reads : ∀ n, Reads clock n) (call : CardDavCall)
    (books : ∀ key b, s.addressBooks.get key = some b → BookInvariant host b) :
    Moves host s (call.Fits host s) (call.run host clock s).2 := by
  cases call with
  | createContact options => 
    apply moves_map (createContact_moves reads ?_)
    intro new checked fits
    exact checkContact_fits (checkCreate_new checked).1 (fits (isOk_of_eq checked))
  | putContact options =>
    exact moves_map (putContact_moves reads fun new existing checked fits => fits new existing checked)
  | deleteContact options => exact moves_map (deleteContact_moves reads books)
  | createAddressBook options => exact moves_map createAddressBook_moves
  | deleteAddressBook options => exact moves_map deleteAddressBook_moves
  | getAddressBook | listAddressBooks | getContact | getContactMetadata | listContacts | syncCollection
  | exportAddressBookMetadata =>
    apply moves_readOnly (run_readOnly ?_)
    trivial

theorem run_books {past : List CardDavEvent} (run : (cardDavMachine host).Run past s) :
    ∀ key b, s.addressBooks.get key = some b → BookInvariant host b := by
  refine run.invariant (P := fun _ s => ∀ key b, s.addressBooks.get key = some b → BookInvariant host b) ?_ ?_
  · rintro s rfl key b h
    cases h
  · rintro _ s e s' books ⟨reads, rfl⟩
    exact moves_books (run_moves reads e.call books) books

/-- The maps, the logs and the counters agree in every run. Where the vCards
that a run stores have unfolded lines within the limits, every contact also is
what its vCard says. -/
theorem run_represents (host : Host) :
    (∀ past s, (cardDavMachine host).Run past s → ∀ key b, s.addressBooks.get key = some b → BookInvariant host b) ∧
    ∀ past s, ((cardDavMachine host).restrict fun s e => e.call.Fits host s).Run past s → Represents host s := by
  refine ⟨fun _ _ run => run_books run, ?_⟩
  intro past s run
  refine ⟨run_books run.unrestricted, ?_⟩
  have both : Represents host s := by
    apply run.invariant (P := fun _ s => Represents host s)
    · rintro s rfl
      exact ⟨fun _ _ h => (nomatch h), fun _ _ h => (nomatch h)⟩
    · rintro _ s e s' represents ⟨⟨reads, rfl⟩, fits⟩
      have moves := run_moves reads e.call represents.books
      exact ⟨moves_books moves represents.books, moves_contacts moves fits represents.contacts⟩
  exact both.contacts

end

/-- The options of a call on Ada's address book. -/
def inContacts (fields : List (String × JsString)) : JsValue :=
  .object ([
    (js "scope", .object [(js "tenantId", .string (js "acme")), (js "userId", .string (js "ada"))]),
    (js "addressBookId", .string (js "contacts"))] ++ fields.map fun f => (js f.1, .string f.2))

def createBook : CardDavCall := .createAddressBook (inContacts [("displayName", js "Contacts")])

def createCard (vCard : JsString) : CardDavCall :=
  .createContact (inContacts [("vCard", vCard), ("ifNoneMatch", js "*")])

/-- The store after calls at noon. -/
def noon : Clock := fun _ => some (.number 1783598400000)

theorem noon_reads (n : Nat) : Reads noon n := by
  have read : (reading noon 0).isOk = true := by decide
  cases answered : reading noon 0 with
  | ok now => exact ⟨now, answered⟩
  | error e =>
    rw [answered] at read
    cases read

def bookStore : CardDavStore := (createBook.run asciiHost noon .empty).2

def cardStore (vCard : JsString) : CardDavStore := ((createCard vCard).run asciiHost noon bookStore).2

theorem cardStore_run (vCard : JsString) :
    (cardDavMachine asciiHost).Run [⟨noon, createCard vCard⟩, ⟨noon, createBook⟩] (cardStore vCard) :=
  .next (.next (.start rfl) ⟨noon_reads, rfl⟩) ⟨noon_reads, rfl⟩

def contactsKey : JsString := keyFor ⟨js "acme", js "ada"⟩ (js "contacts")

def storedCard (s : CardDavStore) (href : JsString) : Option CardDavContact :=
  (s.addressBooks.get contactsKey).bind (·.contacts.get href)

theorem createCard_options (text : JsString) :
    (inContacts [("vCard", text), ("ifNoneMatch", js "*")]).get "vCard" = .string text ∧
      (inContacts [("vCard", text), ("ifNoneMatch", js "*")]).get "ifNoneMatch" = .string (js "*") ∧
      (inContacts [("vCard", text), ("ifNoneMatch", js "*")]).get "href" = .undefined := by
  have keys : (js "scope" == js "vCard") = false ∧ (js "addressBookId" == js "vCard") = false ∧
      (js "scope" == js "ifNoneMatch") = false ∧ (js "addressBookId" == js "ifNoneMatch") = false ∧
      (js "vCard" == js "ifNoneMatch") = false ∧ (js "scope" == js "href") = false ∧
      (js "addressBookId" == js "href") = false ∧ (js "vCard" == js "href") = false ∧
      (js "ifNoneMatch" == js "href") = false := by decide
  simp [inContacts, JsValue.get, keys]

theorem createCard_input (text : JsString) :
    readVCardInput (inContacts [("vCard", text), ("ifNoneMatch", js "*")]) = .ok (.string text) := by
  unfold readVCardInput
  rw [(createCard_options text).1]
  rfl

/-- A contact is created, and is what its vCard says. -/
theorem run_represents_bob : Represents asciiHost (cardStore (sampleVCard "bob" "Bob")) ∧
    (storedCard (cardStore (sampleVCard "bob" "Bob")) (js "bob.vcf")).isSome := by
  have fits : (createCard (sampleVCard "bob" "Bob")).Fits asciiHost bookStore := by
    intro _ text given
    rw [createCard_input] at given
    cases given
    have limits : (∀ l ∈ vCardLines (sampleVCard "bob" "Bob"), l.length ≤ maxVCardLineLength) ∧
        ((vCardLines (sampleVCard "bob" "Bob")).map fun l => byteLength l + 2).sum ≤ maxVCardBytes := by
      decide
    exact ⟨limits.1, limits.2⟩
  have run : ((cardDavMachine asciiHost).restrict fun s e => e.call.Fits asciiHost s).Run
      [⟨noon, createCard (sampleVCard "bob" "Bob")⟩, ⟨noon, createBook⟩] (cardStore (sampleVCard "bob" "Bob")) :=
    .next (.next (.start rfl) ⟨⟨noon_reads, rfl⟩, trivial⟩) ⟨⟨noon_reads, rfl⟩, fits⟩
  exact ⟨(run_represents asciiHost).2 _ _ run, by decide +kernel⟩

theorem parse_note {value : JsString} (line : value.any isLineTerminator = false) (control : hasRawControl value = false) :
    parseVCardProperty (js "NOTE:" ++ value) = .ok ⟨js "NOTE", [], value⟩ := by
  have found : matchVCardProperty (js "NOTE:" ++ value) = some ⟨js "NOTE", [], value⟩ := by
    have shape : matchVCardProperty (js "NOTE:" ++ value) =
        if !value.any isLineTerminator then some ⟨js "NOTE", [], value⟩ else none := rfl
    rw [shape, line]
    rfl
  have none : (hasRawControl [] || hasRawControl value) = false := control
  unfold parseVCardProperty
  rw [found]
  simp only [none, failIf, throwIf_false, ok_bind]
  rfl

/-- A vCard whose note is folded once, with `n` letters on either line. -/
def foldedLines (n : Nat) : List JsString :=
  [js "BEGIN:VCARD", js "VERSION:4.0", js "UID:bob", js "FN:Bob", js "NOTE:" ++ List.replicate n 97,
    32 :: List.replicate n 97, js "END:VCARD"]

def unfoldedLines (n : Nat) : List JsString :=
  [js "BEGIN:VCARD", js "VERSION:4.0", js "UID:bob", js "FN:Bob", js "NOTE:" ++ List.replicate n 97 ++ List.replicate n 97,
    js "END:VCARD"]

theorem validateLines_unfolded (n : Nat) : ∃ parsed, validateLines asciiHost (unfoldedLines n) = .ok parsed ∧
    parsed.uid = js "bob" := by
  have note : parseVCardProperty (js "NOTE:" ++ List.replicate n 97 ++ List.replicate n 97) =
      .ok ⟨js "NOTE", [], List.replicate n 97 ++ List.replicate n 97⟩ := by
    rw [List.append_assoc]
    apply parse_note
    · simp [isLineTerminator]
    · simp [hasRawControl, isControl]
  have properties : (unfoldedLines n).mapM parseVCardProperty = .ok [⟨js "BEGIN", [], js "VCARD"⟩,
      ⟨js "VERSION", [], js "4.0"⟩, ⟨js "UID", [], js "bob"⟩, ⟨js "FN", [], js "Bob"⟩,
      ⟨js "NOTE", [], List.replicate n 97 ++ List.replicate n 97⟩, ⟨js "END", [], js "VCARD"⟩] := by
    have rest : [js "BEGIN:VCARD", js "VERSION:4.0", js "UID:bob", js "FN:Bob"].mapM parseVCardProperty =
      .ok [⟨js "BEGIN", [], js "VCARD"⟩, ⟨js "VERSION", [], js "4.0"⟩, ⟨js "UID", [], js "bob"⟩, ⟨js "FN", [], js "Bob"⟩] := by
      decide
    have last : [js "END:VCARD"].mapM parseVCardProperty = .ok [⟨js "END", [], js "VCARD"⟩] := by decide
    have parts : unfoldedLines n = [js "BEGIN:VCARD", js "VERSION:4.0", js "UID:bob", js "FN:Bob"] ++
      ([js "NOTE:" ++ List.replicate n 97 ++ List.replicate n 97] ++ [js "END:VCARD"]) := rfl
    rw [parts, List.mapM_append, rest, List.mapM_append, last, List.mapM_cons, note]
    rfl
  unfold validateLines
  rw [properties]
  exact ⟨_, rfl, rfl⟩

theorem foldedLines_unit (n : Nat) : ∀ l ∈ foldedLines n, ∀ u ∈ l, u < 128 ∧ u ≠ 0 ∧ u ≠ 10 ∧ u ≠ 13 := by
  have units : (foldedLines n).all (fun l => l.all fun u => decide (u < 128) && u != 0 && u != 10 && u != 13) = true := by
    simp only [foldedLines, List.all_cons, List.all_nil, List.all_append, List.all_replicate]
    split <;> decide
  simpa [and_assoc] using units

theorem foldedLines_length (n : Nat) : (foldedLines n).map List.length = [11, 11, 7, 6, 5 + n, n + 1, 9] := by
  simp only [foldedLines, List.map_cons, List.map_nil, List.length_append, List.length_replicate, List.length_cons]
  rfl

/-- Two lines within the limit, one line beyond it. -/
theorem validateVCardText_folded {n : Nat} (h : n ≤ 16379) : ∃ parsed,
    validateVCardText asciiHost (.string ((foldedLines n).flatMap (· ++ crlf))) = .ok parsed ∧ parsed.uid = js "bob" ∧
      vCardLines ((foldedLines n).flatMap (· ++ crlf)) = unfoldedLines n := by
  have lines : splitLines (replaceAll (replaceAll ((foldedLines n).flatMap (· ++ crlf)) crlf lf) cr lf) =
      foldedLines n := by
    apply splitLines_terminated_crlf
    intro l hl
    have unit := foldedLines_unit n l hl
    exact ⟨fun inside => (unit 10 inside).2.2.1 rfl, fun inside => (unit 13 inside).2.2.2 rfl⟩
  have short : ∀ l ∈ foldedLines n, l.length ≤ maxVCardLineLength := by
    intro l hl
    have length := List.mem_map_of_mem (f := List.length) hl
    simp only [foldedLines_length, List.mem_cons, List.not_mem_nil, or_false] at length
    rw [maxVCardLineLength]
    omega
  have small : ¬ maxVCardBytes < ((foldedLines n).map fun l => byteLength l + 2).sum := by
    have bytes : ((foldedLines n).map fun l => byteLength l + 2) = ((foldedLines n).map List.length).map (· + 2) := by
      rw [List.map_map]
      apply List.map_congr_left
      intro l hl
      rw [byteLength_ascii fun u hu => (foldedLines_unit n l hl u hu).1]
      rfl
    rw [bytes, foldedLines_length]
    simp only [List.map_cons, List.map_nil, List.sum_cons, List.sum_nil, maxVCardBytes]
    omega
  have noNul : ((foldedLines n).flatMap (· ++ crlf)).contains 0 = false := by
    rw [Bool.eq_false_iff, ne_eq, List.contains_iff_mem]
    intro inside
    obtain ⟨l, hl, inside⟩ := List.mem_flatMap.mp inside
    rcases List.mem_append.mp inside with inside | inside
    · exact (foldedLines_unit n l hl 0 inside).2.1 rfl
    · exact absurd inside (by decide)
  have unfolded : unfoldVCardLines ((foldedLines n).flatMap (· ++ crlf)) = .ok (unfoldedLines n) := by
    have folded : (foldedLines n).foldlM unfoldVCardLine [] = .ok (unfoldedLines n).reverse :=
      foldlM_unfoldVCardLine.mpr ⟨short, rfl⟩
    simp only [unfoldVCardLines, lines, folded, ok_bind]
    rfl
  obtain ⟨parsed, valid, uid⟩ := validateLines_unfolded n
  refine ⟨parsed, ?_, uid, (unfoldVCardLines_eq_ok unfolded).2.1.symm⟩
  rw [validateVCardText_eq, byteLength_lines, decide_eq_false small, noNul, unfolded]
  simp only [failIf, throwIf_false, ok_bind]
  exact valid

/-- A contact that is created is stored with its canonical vCard. -/
theorem createContact_stored {host : Host} {s : CardDavStore} {clock : Clock} {options : JsValue} (reads : ∀ n, Reads clock n)
    {new : NewContact} (checked : checkCreate host s options = .ok new) :
    ∃ b c, (createContact host clock options s).2.addressBooks.get new.book.key = some b ∧
      b.contacts.get new.href = some c ∧ c.vCard = new.parsed.canonical := by
  obtain ⟨present, given⟩ := checkCreate_found checked
  obtain ⟨now, read⟩ := reads 0
  obtain ⟨later, readAgain⟩ := reads 1
  let contact := buildContact host new.book new.href new.parsed now
  let change : CardDavChange := ⟨0, .created, contact.href, contact.uid, some contact.etag⟩
  obtain ⟨t, run, adjusted⟩ : ∃ t, writeContacts host clock new.book (·.set contact.href contact) contact .created
        (some contact.etag) 1 s =
      (.ok (makeSyncToken host new.book.scope new.book.addressBookId (new.book.state.revision + 1)), t) ∧
      Adjusted s t new.book.key (written (·.set contact.href contact) change later) := writeContacts_ok s readAgain
  have stored : (createContact host clock options s).2 = t := by
    have opened : (destructure options s).1 = .ok () := by
      unfold destructure
      split
      · exact absurd rfl given
      · rfl
    unfold createContact
    have first : (Eff.lift (ε := Thrown CardDavError) (reading clock 0) s).1 = .ok now := read
    rw [Eff.bind_of_readOnly (destructure_readOnly options) opened, Eff.bind_of_readOnly Eff.readOnly_get rfl,
      Eff.bind_of_readOnly (Eff.readOnly_check _) (Eff.check_fst_eq_ok.mpr checked),
      Eff.bind_of_readOnly (Eff.readOnly_lift _) first, storeContact_eq, Eff.bind_pure_run, run]
  refine ⟨written (·.set contact.href contact) change later new.book.state, contact, ?_, ?_, rfl⟩
  · rw [stored, adjusted, if_pos rfl, present]
    rfl
  · simp only [written, OrderedMap.get_set]
    exact if_pos rfl

theorem checkCreate_card {text : JsString} {parsed : ParsedVCard}
    (accepted : validateVCardText asciiHost (.string text) = .ok parsed) (uid : parsed.uid = js "bob") :
    ∃ new, checkCreate asciiHost bookStore (inContacts [("vCard", text), ("ifNoneMatch", js "*")]) = .ok new ∧
      new.parsed = parsed := by
  have opened : (getState bookStore (.object [(js "tenantId", .string (js "acme")), (js "userId", .string (js "ada"))])
      (.string (js "contacts"))).map (fun book => book.state.contacts.rows.isEmpty) = .ok true := by decide
  obtain ⟨book, opened, empty⟩ := map_eq_ok.mp opened
  obtain ⟨_, ifNoneMatch, unnamed⟩ := createCard_options text
  have named : normalizeHref (.string (js "bob" ++ js ".vcf")) = .ok (js "bob.vcf") := by decide
  have contacts : book.state.contacts = Table.empty := Table.eq_of_rows (List.isEmpty_iff.mp empty)
  have href : hrefOf (inContacts [("vCard", text), ("ifNoneMatch", js "*")]) parsed = .ok (js "bob.vcf") := by
    unfold hrefOf
    rw [uid, unnamed]
    exact named
  have free : findUid book.state parsed.uid = none := by
    rw [findUid, contacts]
    rfl
  have absent : book.state.contacts.get (js "bob.vcf") = none := by
    rw [contacts]
    rfl
  refine ⟨⟨book, js "bob.vcf", parsed⟩, ?_, rfl⟩
  have contact : checkContact asciiHost bookStore (inContacts [("vCard", text), ("ifNoneMatch", js "*")]) =
      .ok ⟨book, js "bob.vcf", parsed⟩ := by
    unfold checkContact
    rw [createCard_input]
    simp only [ok_bind, accepted, href]
    exact bind_eq_ok.mpr ⟨book, opened, rfl⟩
  unfold checkCreate
  rw [contact, ok_bind, ifNoneMatch]
  have star : (!(JsValue.string (js "*")).isString (js "*")) = false := by decide
  simp only [absent, free, star]
  rfl

theorem cardStore_eq (vCard : JsString) : cardStore vCard =
    (createContact asciiHost noon (inContacts [("vCard", vCard), ("ifNoneMatch", js "*")]) bookStore).2 := by
  show ((createContact asciiHost noon _ >>= fun c => pure (CardDavAnswer.contact c)) bookStore).2 = _
  rw [Eff.bind_pure_run]

theorem foldedLines_not_represented {n : Nat} (short : n ≤ 16379) (long : maxVCardLineLength < 5 + n + n) :
    ¬ Represents asciiHost (cardStore ((foldedLines n).flatMap (· ++ crlf))) := by
  intro represents
  obtain ⟨parsed, accepted, uid, lines⟩ := validateVCardText_folded short
  obtain ⟨new, checked, rfl⟩ := checkCreate_card accepted uid
  obtain ⟨b, c, hb, hc, vCard⟩ := createContact_stored noon_reads checked
  rw [← cardStore_eq] at hb
  obtain ⟨parsed, again, _⟩ := represents.contacts _ b hb new.href c hc
  rw [vCard] at again
  have fits := (validateVCardText_canonical accepted).2 parsed again
  rw [lines] at fits
  have within := fits.line (js "NOTE:" ++ List.replicate n 97 ++ List.replicate n 97)
    (List.mem_append_right [_, _, _, _] List.mem_cons_self)
  have five : (js "NOTE:").length = 5 := by decide
  simp only [List.length_append, List.length_replicate, five] at within
  omega

/-- Two lines within the limit make one beyond it, and the vCard that is stored
is none that the validator accepts. -/
theorem foldedNote_not_represented : ¬ ∀ past s, (cardDavMachine asciiHost).Run past s → Represents asciiHost s := by
  intro represents
  have short {n : Nat} (within : n ≤ 16379) : 5 + n + n ≤ maxVCardLineLength := by
    by_contra long
    exact foldedLines_not_represented within (Nat.lt_of_not_le long) (represents _ _ (cardStore_run _))
  exact absurd (short (show 8200 ≤ 16379 by decide)) (by decide)

end GuloGulo.CardDav
