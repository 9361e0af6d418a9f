import GuloGulo.CalDav.Atomic
import GuloGulo.CardDav.Atomic

/-!
# Operations of the in-memory DAV stores

A call of either store with callbacks that may fail. It is atomic, and what it
changes is recorded, just where no callback fails after its first assignment.
-/

namespace GuloGulo.Dav
open Js
open CalDav (CalDavCall CalDavConfig CalDavStore Callbacks)
open CardDav (CardDavCall CardDavStore Clock)

/-- The in-memory stores of one tenant. -/
structure DavStores where
  calDav : CalDavStore
  cardDav : CardDavStore

inductive DavCall where
  | calDav (call : CalDavCall)
  | cardDav (call : CardDavCall)

/-- What the callbacks do during one call. -/
structure DavCallbacks where
  calDav : Callbacks
  cardDav : Clock

section
variable (cfg : CalDavConfig) (cb : DavCallbacks)

/-- Whether a call returns, and the stores it leaves. -/
def DavCall.run (s : DavStores) : DavCall → Bool × DavStores
  | calDav call =>
    let (answer, t) := call.run cfg cb.calDav s.calDav
    (answer.isOk, { s with calDav := t })
  | cardDav call =>
    let (answer, t) := call.run cfg.host cb.cardDav s.cardDav
    (answer.isOk, { s with cardDav := t })

/-- Every call before, with any callbacks, whether it returned or threw. -/
inductive Reachable : DavStores → Prop where
  | created : Reachable ⟨⟨Data.Table.empty, [], 0⟩, .empty⟩
  | call {s : DavStores} (before : Reachable s) (cb : DavCallbacks) (call : DavCall) :
      Reachable (call.run cfg cb s).2

/-- A throw finds the stores as they were, and no object or contact is added,
replaced or removed without a change that later syncs report. -/
structure DavCall.Atomic (s : DavStores) (call : DavCall) : Prop where
  unchanged : (call.run cfg cb s).1 = false → (call.run cfg cb s).2 = s
  objects : CalDav.Recorded s.calDav (call.run cfg cb s).2.calDav
  contacts : CardDav.Recorded s.cardDav (call.run cfg cb s).2.cardDav

/-- No callback fails once the call has changed a store. -/
def DavCall.Undisturbed (s : DavStores) : DavCall → Prop
  | calDav call => call.Undisturbed cfg cb.calDav s.calDav
  | cardDav call => call.Undisturbed cfg.host cb.cardDav s.cardDav

end

variable {cfg : CalDavConfig} {cb : DavCallbacks} {s : DavStores}

theorem reachable_sound (reachable : Reachable cfg s) : CalDav.Keyed cfg s.calDav ∧ CardDav.Named s.cardDav := by
  induction reachable with
  | created =>
    constructor
    · constructor
      · intro k c stored
        cases stored
      · intro k c stored
        cases stored
      · intro k c stored
        cases stored
      · intro k c stored
        cases stored
    · intro k b stored
      cases stored
  | @call s before cb call ih =>
    obtain ⟨keyed, named⟩ := ih
    cases call with
    | calDav call =>
      have effects : CalDav.Effects cfg s.calDav _ _ _ := CalDav.run_effects cb.calDav keyed call
      exact ⟨CalDav.changes_keyed effects.1 keyed, named⟩
    | cardDav call => exact ⟨keyed, CardDav.ends_named (CardDav.run_ends cfg.host cb.cardDav named call) named⟩

theorem isOk_of_error {ε α : Type} {r : Except ε α} {e : ε} (h : r = .error e) : r.isOk = false := by
  rw [h]
  rfl

theorem error_of_isOk {ε α : Type} {r : Except ε α} (h : r.isOk = false) : ∃ e, r = .error e := by
  cases r with
  | ok a => cases h
  | error e => exact ⟨e, rfl⟩

theorem calDav_atomic (keyed : CalDav.Keyed cfg s.calDav) (call : CalDavCall) :
    (DavCall.calDav call).Atomic cfg cb s ↔ Eff.Atomic (call.run cfg cb.calDav) s.calDav := by
  constructor
  · intro atomic e throws
    exact congrArg DavStores.calDav (atomic.unchanged (isOk_of_error throws))
  · intro atomic
    have effects : CalDav.Effects cfg s.calDav _ _ _ := CalDav.run_effects cb.calDav keyed call
    refine ⟨?_, CalDav.changes_recorded effects.1, .refl _⟩
    intro throws
    obtain ⟨e, throws⟩ := error_of_isOk throws
    exact congrArg (fun t => ({ s with calDav := t } : DavStores)) (atomic e throws)

theorem cardDav_atomic (named : CardDav.Named s.cardDav) (call : CardDavCall) :
    (DavCall.cardDav call).Atomic cfg cb s ↔ Eff.Atomic (call.run cfg.host cb.cardDav) s.cardDav := by
  constructor
  · intro atomic e throws
    exact congrArg DavStores.cardDav (atomic.unchanged (isOk_of_error throws))
  · intro atomic
    refine ⟨?_, .refl _, CardDav.run_recorded named call atomic⟩
    intro throws
    obtain ⟨e, throws⟩ := error_of_isOk throws
    exact congrArg (fun t => ({ s with cardDav := t } : DavStores)) (atomic e throws)

/-- Any call of either store. -/
theorem dav_atomic_iff (reachable : Reachable cfg s) (cb : DavCallbacks) (call : DavCall) :
    call.Atomic cfg cb s ↔ call.Undisturbed cfg cb s := by
  obtain ⟨keyed, named⟩ := reachable_sound reachable
  cases call with
  | calDav call => exact (calDav_atomic keyed call).trans (CalDav.run_atomic keyed call)
  | cardDav call => exact (cardDav_atomic named call).trans (CardDav.run_atomic call)

def ada : JsValue := CalDav.sampleOptions [("tenantId", js "acme"), ("userId", js "ada")]

/-- The options of a call on Ada's address book. -/
def inFriends (fields : List (String × JsString)) : JsValue :=
  .object ([(js "scope", ada), (js "addressBookId", .string (js "friends"))] ++
    fields.map fun f => (js f.1, .string f.2))

def createFriends : DavCall := .cardDav (.createAddressBook (inFriends [("displayName", js "Friends")]))

def createBob : DavCall :=
  .cardDav (.createContact (inFriends [("vCard", CardDav.sampleVCard "bob" "Bob"), ("ifNoneMatch", js "*")]))

/-- A clock that answers the given number of readings. -/
def readings (n : Nat) : DavCallbacks :=
  ⟨CalDav.sampleCallbacks, fun i => some (if i < n then .number 1783598400000 else .nonFinite)⟩

def friendsBook : DavStores :=
  (createFriends.run CalDav.sampleConfig (readings 1) ⟨⟨Data.Table.empty, [], 0⟩, .empty⟩).2

theorem friendsBook_reachable : Reachable CalDav.sampleConfig friendsBook := .call .created (readings 1) createFriends

def friendsKey : JsString := CardDav.keyFor ⟨js "acme", js "ada"⟩ (js "friends")

/-- The second reading fails: the call throws, the contact is there, and no sync reports it. -/
theorem createContact_unreported :
    ∃ s call, Reachable CalDav.sampleConfig s ∧ ¬ DavCall.Atomic CalDav.sampleConfig (readings 1) s call ∧
      (call.run CalDav.sampleConfig (readings 1) s).1 = false ∧
      ¬ CardDav.Recorded s.cardDav (call.run CalDav.sampleConfig (readings 1) s).2.cardDav := by
  have threw : (createBob.run CalDav.sampleConfig (readings 1) friendsBook).1 = false := by decide +kernel
  have before : (friendsBook.cardDav.addressBooks.get friendsKey).map (fun b =>
      (b.contacts.get (js "bob.vcf")).isSome) = some false := by decide
  have after : ((createBob.run CalDav.sampleConfig (readings 1) friendsBook).2.cardDav.addressBooks.get friendsKey).map
      (fun b => ((b.contacts.get (js "bob.vcf")).isSome, (b.since 0).length)) = some (true, 0) := by decide +kernel
  have unrecorded : ¬ CardDav.Recorded friendsBook.cardDav
      (createBob.run CalDav.sampleConfig (readings 1) friendsBook).2.cardDav := by
    intro recorded
    obtain ⟨b, hb, absent⟩ := Option.map_eq_some_iff.mp before
    obtain ⟨b', hb', stored⟩ := Option.map_eq_some_iff.mp after
    obtain ⟨present, none⟩ := Prod.mk.inj stored
    have differs : b'.contacts.get (js "bob.vcf") ≠ b.contacts.get (js "bob.vcf") := by
      intro same
      rw [same, absent] at present
      cases present
    obtain ⟨c, reported, _⟩ := recorded friendsKey b b' hb hb' (js "bob.vcf") differs 0 (Nat.zero_le _)
    rw [List.length_eq_zero_iff.mp none] at reported
    cases reported
  exact ⟨friendsBook, createBob, friendsBook_reachable, fun atomic => unrecorded atomic.contacts, threw, unrecorded⟩

/-- The clock is read twice. -/
theorem createContact_reported : DavCall.Atomic CalDav.sampleConfig (readings 2) friendsBook createBob := by
  refine (dav_atomic_iff friendsBook_reachable (readings 2) createBob).mpr ?_
  intro new _ _
  have read : (CardDav.reading (readings 2).cardDav 1).isOk = true := by decide
  cases answered : CardDav.reading (readings 2).cardDav 1 with
  | ok now => exact ⟨now, answered⟩
  | error e =>
    rw [answered] at read
    cases read

end GuloGulo.Dav
