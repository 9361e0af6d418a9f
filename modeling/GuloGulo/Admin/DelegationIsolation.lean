import GuloGulo.Admin.DelegationRuns
import GuloGulo.Data.Isolation

/-!
# One delegation store for several tenants

The map has the owner's id alone for its key, and `create` does not look at the
tenant of the record that it finds there. Tenants are told nothing of each
other as long as no call comes upon another tenant's record in this way.
-/

namespace GuloGulo.Admin
open Js Data Integrations Actor

namespace Delegation

/-- The tenant of the actor of a call. -/
def caller (host : Host) (asked : Call × Answer) : Option JsString :=
  (normalizeActor host asked.1.actor).toOption.map (·.tenantId)

/-- The call is made by an actor of a tenant. -/
def madeBy (host : Host) (A : JsString) (asked : Call × Answer) : Bool := caller host asked == some A

/-- What `update` and `revoke` have established before they look at the record
of the owner. -/
def assertManaged (host : Host) (clock : Answer) (actor ownerUserId input : JsValue) :
    Except (Thrown AdminError) (AdminActor × JsString × Int) := do
  let _ ← parameter input
  let (canonical, owner) ← check (assertTenantOwner host actor ownerUserId)
  let timestamp ← now host clock
  return (canonical, owner, timestamp)

/-- The record under the owner of a call is another tenant's and is active, or
is one that a `create` is about to replace. -/
def crosses (host : Host) (s : DelegationState) : Call × Answer → Bool
  | (.create actor input, clock) =>
    match parameter input >>= assertDraft host clock actor with
    | .ok draft => (s.records.get draft.owner).any fun record =>
        record.tenantId != draft.canonical.tenantId &&
          (isActive record draft.timestamp || (requestedPermissions input).toBool)
    | .error _ => false
  | (.update actor owner input, clock) | (.revoke actor owner input, clock) =>
    match assertManaged host clock actor owner input with
    | .ok (canonical, owner, timestamp) => (s.records.get owner).any fun record =>
        record.tenantId != canonical.tenantId && isActive record timestamp
    | .error _ => false
  | _ => false

/-- The store without what belongs to other tenants. -/
def ownView (A : JsString) (s : DelegationState) : DelegationState :=
  ⟨s.records.deleteWhere fun p => p.2.tenantId != A, s.history.filter fun event => event.tenantId = A⟩

section
variable {host : Host} {A : JsString} {s : DelegationState} {clock : Answer}

theorem get_ownView (owner : JsString) :
    (ownView A s).records.get owner = (s.records.get owner).filter fun record => record.tenantId = A := by
  show ((s.records.deleteWhere _).lookup owner).map Prod.snd = _
  rw [Table.lookup_deleteWhere]
  show _ = ((s.records.lookup owner).map Prod.snd).filter _
  cases s.records.lookup owner with
  | none => rfl
  | some row => by_cases own : row.2.tenantId = A <;> simp [Option.filter, own]

theorem values_ownView : (ownView A s).records.values = s.records.values.filter fun record => record.tenantId = A := by
  show (s.records.rows.filter fun p => !(p.2.tenantId != A)).map Prod.snd = (s.records.rows.map Prod.snd).filter _
  rw [List.filter_map]
  congr 2
  funext p
  by_cases own : p.2.tenantId = A <;> simp [own]

/-- A change of the tenant's own, where no other tenant's record stands. -/
theorem ownView_write_own {change : Change} (record : change.record.tenantId = A) (event : change.event.tenantId = A)
    (clear : ∀ previous, s.records.get change.owner = some previous → previous.tenantId = A) :
    ownView A (write s change) = write (ownView A s) change := by
  have records : (s.records.set change.owner change.record).deleteWhere (fun p => p.2.tenantId != A) =
      OrderedMap.set (s.records.deleteWhere fun p => p.2.tenantId != A) change.owner change.record := by
    apply Table.deleteWhere_put_kept
    · simp [record]
    · intro row found
      have here : s.records.get change.owner = some row.2 := by
        show (s.records.lookup change.owner).map Prod.snd = _
        rw [found]
        rfl
      simp [clear _ here]
  have history : (s.history ++ [change.event]).filter (fun event => event.tenantId = A) =
      s.history.filter (fun event => event.tenantId = A) ++ [change.event] := by
    simp [event]
  exact congrArg₂ DelegationState.mk records history

/-- A change of another tenant's, where no record of this one stands. -/
theorem ownView_write_other {change : Change} {B : JsString} (other : B ≠ A) (record : change.record.tenantId = B)
    (event : change.event.tenantId = B)
    (clear : ∀ previous, s.records.get change.owner = some previous → previous.tenantId = B) :
    ownView A (write s change) = ownView A s := by
  have records : (s.records.set change.owner change.record).deleteWhere (fun p => p.2.tenantId != A) =
      s.records.deleteWhere fun p => p.2.tenantId != A := by
    apply Table.deleteWhere_put_gone
    · simp [record, other]
    · intro row found
      have here : s.records.get change.owner = some row.2 := by
        show (s.records.lookup change.owner).map Prod.snd = _
        rw [found]
        rfl
      simp [clear _ here, other]
  have history : (s.history ++ [change.event]).filter (fun event => event.tenantId = A) =
      s.history.filter fun event => event.tenantId = A := by
    simp [event, other]
  exact congrArg₂ DelegationState.mk records history

/-! ## What a clear call finds -/

/-- A `create` that goes through finds no record of another tenant. -/
theorem creates_clear {actor input : JsValue} {change : Change} {draft : Draft}
    (creates : Creates host s.records clock actor input change draft)
    (clear : crosses host s (.create actor input, clock) = false) (accepted : parameter input = .ok input)
    {previous : DelegationRecord} (held : s.records.get change.owner = some previous) :
    previous.tenantId = draft.canonical.tenantId := by
  simp only [crosses, accepted, ok_bind, creates.drafted, creates.owner, held, Option.any_some, creates.permitted,
    Bool.or_true, Bool.and_true, bne_eq_false_iff_eq] at clear
  exact clear

theorem create_accepted {actor input : JsValue} {records : OrderedMap JsString DelegationRecord} {change : Change}
    (h : create host records clock actor input = .ok change) : parameter input = .ok input := by
  obtain ⟨v, accepted, _⟩ := bind_eq_ok.mp h
  cases parameter_eq_ok accepted
  exact accepted

/-! ## The calls of the tenant -/

/-- A `create` does the same without the records of other tenants. -/
theorem create_ownView {actor input : JsValue}
    (own : ∀ c, normalizeActor host actor = .ok c → c.tenantId = A)
    (clear : crosses host s (.create actor input, clock) = false) :
    create host s.records clock actor input = create host (ownView A s).records clock actor input := by
  cases accepted : parameter input with
  | error e => simp only [create, accepted, bind, Except.bind]
  | ok v =>
    have same := parameter_eq_ok accepted
    subst same
    cases drafted : assertDraft host clock actor v with
    | error e => simp only [create, accepted, drafted, bind, Except.bind]
    | ok draft =>
      have tenant := own _ (assertDraft_eq_ok drafted).1
      have occupied : ((s.records.get draft.owner).any fun existing => isActive existing draft.timestamp) =
          ((ownView A s).records.get draft.owner).any fun existing => isActive existing draft.timestamp := by
        rw [get_ownView]
        simp only [crosses, accepted, ok_bind, drafted, tenant] at clear
        cases held : s.records.get draft.owner with
        | none => rfl
        | some record =>
          rw [held, Option.any_some] at clear
          by_cases mine : record.tenantId = A
          · rw [Option.filter_some, if_pos (decide_eq_true mine)]
          · rw [Option.filter_some, if_neg (by simpa using mine)]
            have active : (isActive record draft.timestamp || (requestedPermissions v).toBool) = false := by
              simpa [mine] using clear
            exact (Bool.or_eq_false_iff.mp active).1
      simp only [create, accepted, ok_bind, drafted, occupied]

theorem assertManaged_eq_ok {actor owner input : JsValue} {c : AdminActor} {o : JsString} {t : Int}
    (accepted : parameter input = .ok input) (owned : assertTenantOwner host actor owner = .ok (c, o))
    (reads : now host clock = .ok t) : assertManaged host clock actor owner input = .ok (c, o, t) := by
  unfold assertManaged
  rw [accepted, ok_bind, check_eq_ok.mpr owned, ok_bind]
  show (now host clock >>= _) = _
  rw [reads]
  rfl

/-- The active record of an owner is the tenant's own, or there is none. -/
theorem lookupActive_ownView {owner : JsString} {t : Int} (c : AdminActor) (verb : String)
    (clear : (s.records.get owner).any (fun record => record.tenantId != A && isActive record t) = false) :
    lookupActive s.records c owner t verb = lookupActive (ownView A s).records c owner t verb := by
  have found : (s.records.get owner).filter (fun record => isActive record t) =
      ((ownView A s).records.get owner).filter fun record => isActive record t := by
    rw [get_ownView]
    cases held : s.records.get owner with
    | none => rfl
    | some record =>
      rw [held, Option.any_some] at clear
      by_cases mine : record.tenantId = A
      · simp [Option.filter, mine]
      · have inactive : isActive record t = false := by
          simpa [mine] using clear
        simp [Option.filter, mine, inactive]
  unfold lookupActive
  rw [found]

/-- An `update` or a `revoke` that gets to its record finds it in the view. -/
theorem managed_clear {actor owner input : JsValue} {c : AdminActor} {o : JsString} {t : Int}
    (own : ∀ c, normalizeActor host actor = .ok c → c.tenantId = A)
    (clear : (match assertManaged host clock actor owner input with
      | .ok (canonical, owner, timestamp) => (s.records.get owner).any fun record =>
          record.tenantId != canonical.tenantId && isActive record timestamp
      | .error _ => false) = false)
    (accepted : parameter input = .ok input) (owned : assertTenantOwner host actor owner = .ok (c, o))
    (reads : now host clock = .ok t) :
    (s.records.get o).any (fun record => record.tenantId != A && isActive record t) = false := by
  rw [assertManaged_eq_ok accepted owned reads] at clear
  rw [← own c (assertTenantOwner_eq_ok owned).1]
  exact clear

theorem update_ownView {actor owner input : JsValue} (own : ∀ c, normalizeActor host actor = .ok c → c.tenantId = A)
    (clear : crosses host s (.update actor owner input, clock) = false) :
    update host s.records clock actor owner input = update host (ownView A s).records clock actor owner input := by
  cases accepted : parameter input with
  | error e => simp only [update, accepted, bind, Except.bind]
  | ok v =>
    have same := parameter_eq_ok accepted
    subst same
    cases owned : assertTenantOwner host actor owner with
    | error e => simp only [update, accepted, owned, check, Except.mapError, bind, Except.bind]
    | ok managed =>
      obtain ⟨c, o⟩ := managed
      cases reads : now host clock with
      | error e => simp only [update, accepted, owned, reads, check, Except.mapError, bind, Except.bind]
      | ok t =>
        have looked := lookupActive_ownView c "change" (managed_clear own clear accepted owned reads)
        simp only [update, accepted, ok_bind, check_eq_ok.mpr owned, reads, looked]

theorem revoke_ownView {actor owner input : JsValue} (own : ∀ c, normalizeActor host actor = .ok c → c.tenantId = A)
    (clear : crosses host s (.revoke actor owner input, clock) = false) :
    revoke host s.records clock actor owner input = revoke host (ownView A s).records clock actor owner input := by
  cases accepted : parameter input with
  | error e => simp only [revoke, accepted, bind, Except.bind]
  | ok v =>
    have same := parameter_eq_ok accepted
    subst same
    cases owned : assertTenantOwner host actor owner with
    | error e => simp only [revoke, accepted, owned, check, Except.mapError, bind, Except.bind]
    | ok managed =>
      obtain ⟨c, o⟩ := managed
      cases reads : now host clock with
      | error e => simp only [revoke, accepted, owned, reads, check, Except.mapError, bind, Except.bind]
      | ok t =>
        have looked := lookupActive_ownView c "revoke" (managed_clear own clear accepted owned reads)
        simp only [revoke, accepted, ok_bind, check_eq_ok.mpr owned, reads, looked]

/-- A look at one record sees it only if it is the tenant's. -/
theorem filter_get_ownView {c : AdminActor} (tenant : c.tenantId = A) (owner : JsString)
    (p : DelegationRecord → Bool) :
    (s.records.get owner).filter (fun record => record.tenantId = c.tenantId && p record) =
      ((ownView A s).records.get owner).filter fun record => record.tenantId = c.tenantId && p record := by
  rw [get_ownView, tenant, Option.filter_filter]
  congr 1
  funext record
  by_cases mine : record.tenantId = A <;> simp [mine]

theorem canAccess_ownView {actor owner permission : JsValue}
    (own : ∀ c, normalizeActor host actor = .ok c → c.tenantId = A) :
    canAccess host s.records clock actor owner permission =
      canAccess host (ownView A s).records clock actor owner permission := by
  unfold canAccess
  cases known : normalizeActor host actor with
  | error e => rfl
  | ok c =>
    cases assertSafeUserId owner "ownerUserId" with
    | error e => rfl
    | ok o =>
      cases (permission.orDefault (.string (js "read"))).asString? with
      | none => rfl
      | some p =>
        have found := filter_get_ownView (s := s) (own c known) o fun record => c.userId = some record.delegateUserId
        simp only [found]

theorem get_call_ownView {actor owner : JsValue} (own : ∀ c, normalizeActor host actor = .ok c → c.tenantId = A) :
    get host s.records clock actor owner = get host (ownView A s).records clock actor owner := by
  cases known : normalizeActor host actor with
  | error e => simp only [get, known, check, Except.mapError, bind, Except.bind]
  | ok c =>
    have found (o : JsString) : (s.records.get o).filter (fun record => record.tenantId = c.tenantId) =
        ((ownView A s).records.get o).filter fun record => record.tenantId = c.tenantId := by
      simpa using filter_get_ownView (s := s) (own c known) o fun _ => true
    simp only [get, check_eq_ok.mpr known, ok_bind, found]

theorem list_ownView {actor : JsValue} (own : ∀ c, normalizeActor host actor = .ok c → c.tenantId = A) :
    list host s.records clock actor = list host (ownView A s).records clock actor := by
  cases known : normalizeActor host actor with
  | error e => simp only [list, known, check, Except.mapError, bind, Except.bind]
  | ok c =>
    have rows : s.records.values.filter (fun record => record.tenantId = c.tenantId) =
        (ownView A s).records.values.filter fun record => record.tenantId = c.tenantId := by
      rw [values_ownView, own c known, List.filter_filter]
      simp
    simp only [list, check_eq_ok.mpr known, ok_bind, rows]

theorem events_ownView {actor input : JsValue} (own : ∀ c, normalizeActor host actor = .ok c → c.tenantId = A) :
    events host s.history actor input = events host (ownView A s).history actor input := by
  cases known : normalizeActor host actor with
  | error e => simp only [events, known, check, Except.mapError, bind, Except.bind]
  | ok c =>
    have entries : s.history.filter (fun event => event.tenantId = c.tenantId) =
        (ownView A s).history.filter fun event => event.tenantId = c.tenantId := by
      show _ = (s.history.filter fun event => event.tenantId = A).filter _
      rw [own c known, List.filter_filter]
      simp
    simp only [events, check_eq_ok.mpr known, ok_bind, entries]

/-- A change that the tenant makes: made in the view, and the view of the
change. -/
theorem apply_ownView {made : Except (Thrown AdminError) Change}
    (own : ∀ change, made = .ok change → change.record.tenantId = A ∧ change.event.tenantId = A ∧
      ∀ previous, s.records.get change.owner = some previous → previous.tenantId = A) :
    (apply s made).1 = (apply (ownView A s) made).1 ∧ ownView A (apply s made).2 = (apply (ownView A s) made).2 := by
  cases made with
  | error e => exact ⟨rfl, rfl⟩
  | ok change =>
    obtain ⟨record, event, clear⟩ := own change rfl
    exact ⟨rfl, ownView_write_own record event clear⟩

theorem madeBy_iff {asked : Call × Answer} : madeBy host A asked = true ↔
    ∃ c, normalizeActor host asked.1.actor = .ok c ∧ c.tenantId = A := by
  simp only [madeBy, caller, beq_iff_eq]
  cases normalizeActor host asked.1.actor <;> simp [Except.toOption]

/-- A clear call of the tenant does in the view what it does in the store. -/
theorem step_own {asked : Call × Answer} (mine : madeBy host A asked = true) (clear : crosses host s asked = false) :
    (step host s asked).1 = (step host (ownView A s) asked).1 ∧
      ownView A (step host s asked).2 = (step host (ownView A s) asked).2 := by
  obtain ⟨c, known, tenant⟩ := madeBy_iff.mp mine
  have own (c' : AdminActor) (h : normalizeActor host asked.1.actor = .ok c') : c'.tenantId = A := by
    cases known.symm.trans h
    exact tenant
  have edited {actor owner : JsValue} {clock : Answer} {change : Change} {c : AdminActor} {previous : DelegationRecord}
      (edits : Edits host s.records clock actor owner change c previous) (tenant : c.tenantId = A) :
      change.record.tenantId = A ∧ change.event.tenantId = A ∧
        ∀ previous, s.records.get change.owner = some previous → previous.tenantId = A := by
    have here := edits.tenant.trans tenant
    refine ⟨edits.tenantId.trans here, edits.event.trans here, ?_⟩
    intro r held
    cases edits.found.symm.trans held
    exact here
  obtain ⟨call, clock⟩ := asked
  cases call with
  | create actor input =>
    show (apply s (create host s.records clock actor input)).1 =
        (apply (ownView A s) (create host (ownView A s).records clock actor input)).1 ∧
      ownView A (apply s (create host s.records clock actor input)).2 =
        (apply (ownView A s) (create host (ownView A s).records clock actor input)).2
    have here : ∀ c, normalizeActor host actor = .ok c → c.tenantId = A := own
    rw [← create_ownView here clear]
    apply apply_ownView
    intro change made
    obtain ⟨draft, creates⟩ := create_eq_ok made
    have tenant := own _ creates.known
    refine ⟨creates.tenantId.trans tenant, creates.event.trans tenant, ?_⟩
    intro previous held
    exact (creates_clear creates clear (create_accepted made) held).trans tenant
  | update actor owner input =>
    show (apply s (update host s.records clock actor owner input)).1 =
        (apply (ownView A s) (update host (ownView A s).records clock actor owner input)).1 ∧
      ownView A (apply s (update host s.records clock actor owner input)).2 =
        (apply (ownView A s) (update host (ownView A s).records clock actor owner input)).2
    have here : ∀ c, normalizeActor host actor = .ok c → c.tenantId = A := own
    rw [← update_ownView here clear]
    apply apply_ownView
    intro change made
    obtain ⟨c, previous, edits, _⟩ := update_eq_ok made
    exact edited edits (own c edits.known)
  | revoke actor owner input =>
    show (apply s (revoke host s.records clock actor owner input)).1 =
        (apply (ownView A s) (revoke host (ownView A s).records clock actor owner input)).1 ∧
      ownView A (apply s (revoke host s.records clock actor owner input)).2 =
        (apply (ownView A s) (revoke host (ownView A s).records clock actor owner input)).2
    have here : ∀ c, normalizeActor host actor = .ok c → c.tenantId = A := own
    rw [← revoke_ownView here clear]
    apply apply_ownView
    intro change made
    obtain ⟨c, previous, edits, _⟩ := revoke_eq_ok made
    exact edited edits (own c edits.known)
  | canAccess actor owner permission => exact ⟨congrArg (·.map Reply.access) (canAccess_ownView own), rfl⟩
  | get actor owner => exact ⟨congrArg (·.map Reply.delegation) (get_call_ownView own), rfl⟩
  | list actor => exact ⟨congrArg (·.map Reply.delegations) (list_ownView own), rfl⟩
  | events actor input => exact ⟨congrArg (·.map Reply.events) (events_ownView own), rfl⟩

/-- A clear call of another tenant leaves the view alone. -/
theorem step_other {asked : Call × Answer} (notMine : madeBy host A asked = false)
    (clear : crosses host s asked = false) : ownView A (step host s asked).2 = ownView A s := by
  have foreign (c : AdminActor) (known : normalizeActor host asked.1.actor = .ok c) : c.tenantId ≠ A := by
    intro tenant
    rw [madeBy_iff.mpr ⟨c, known, tenant⟩] at notMine
    cases notMine
  have edited {actor owner : JsValue} {clock : Answer} {change : Change} {c : AdminActor} {previous : DelegationRecord}
      (edits : Edits host s.records clock actor owner change c previous) (other : c.tenantId ≠ A) :
      ownView A (write s change) = ownView A s := by
    apply ownView_write_other other (edits.tenantId.trans edits.tenant) (edits.event.trans edits.tenant)
    intro r held
    cases edits.found.symm.trans held
    exact edits.tenant
  obtain ⟨call, clock⟩ := asked
  cases call with
  | create actor input =>
    show ownView A (apply s (create host s.records clock actor input)).2 = _
    cases made : create host s.records clock actor input with
    | error e => rfl
    | ok change =>
      obtain ⟨draft, creates⟩ := create_eq_ok made
      apply ownView_write_other (foreign _ creates.known) creates.tenantId creates.event
      intro previous held
      exact creates_clear creates clear (create_accepted made) held
  | update actor owner input =>
    show ownView A (apply s (update host s.records clock actor owner input)).2 = _
    cases made : update host s.records clock actor owner input with
    | error e => rfl
    | ok change =>
      obtain ⟨c, previous, edits, _⟩ := update_eq_ok made
      exact edited edits (foreign c edits.known)
  | revoke actor owner input =>
    show ownView A (apply s (revoke host s.records clock actor owner input)).2 = _
    cases made : revoke host s.records clock actor owner input with
    | error e => rfl
    | ok change =>
      obtain ⟨c, previous, edits, _⟩ := revoke_eq_ok made
      exact edited edits (foreign c edits.known)
  | canAccess | get | list | events => rfl

/-- No call comes upon another tenant's record. -/
def Clear (host : Host) (s : DelegationState) (asked : Call × Answer) : Prop := crosses host s asked = false

instance (host : Host) (s : DelegationState) (asked : Call × Answer) : Decidable (Clear host s asked) :=
  inferInstanceAs (Decidable (_ = _))

theorem store_isolates (host : Host) (A : JsString) :
    Isolates (step host) (madeBy host A) (Clear host) (ownView A) where
  others _ _ notMine clear := step_other notMine clear
  own s t asked mine clear clear' views := by
    obtain ⟨answer, after⟩ := step_own mine clear
    obtain ⟨answer', after'⟩ := step_own mine clear'
    rw [answer, answer', after, after', views]
    exact ⟨rfl, rfl⟩

end

/-- Two runs of one store in which the actors of a tenant make the same calls
answer them the same, if no call of either crosses. -/
theorem tenants_isolated (host : Host) (A : JsString) {calls calls' : List (Call × Answer)}
    (same : calls.filter (madeBy host A) = calls'.filter (madeBy host A))
    (clear : Meets (step host) (Clear host) created calls) (clear' : Meets (step host) (Clear host) created calls') :
    answers (step host) (madeBy host A) created calls = answers (step host) (madeBy host A) created calls' :=
  (store_isolates host A).answers_eq same rfl clear clear'

theorem filter_delegates {other own : Call × Answer} (notMine : madeBy asciiHost (js "acme") other = false) :
    [other, own].filter (madeBy asciiHost (js "acme")) = [own].filter (madeBy asciiHost (js "acme")) := by
  rw [List.filter_cons, notMine, if_neg Bool.false_ne_true]

/-- Tenants whose users have different ids stay out of each other's way. -/
theorem tenants_isolated_alice :
    answers (step asciiHost) (madeBy asciiHost (js "acme")) created
        [delegates "beta" "carol" "dave", delegates "acme" "alice" "bob"] =
      answers (step asciiHost) (madeBy asciiHost (js "acme")) created [delegates "acme" "alice" "bob"] := by
  apply tenants_isolated asciiHost (js "acme")
  · exact filter_delegates (by decide)
  · exact ⟨by decide, by decide, trivial⟩
  · exact ⟨by decide, trivial⟩

/-- The delegation of another tenant's `alice` keeps this one from making hers. -/
theorem tenants_meet : ¬ ∀ (A : JsString) (calls calls' : List (Call × Answer)),
    calls.filter (madeBy asciiHost A) = calls'.filter (madeBy asciiHost A) →
      answers (step asciiHost) (madeBy asciiHost A) created calls =
        answers (step asciiHost) (madeBy asciiHost A) created calls' := by
  intro isolated
  have same := isolated (js "acme") [delegates "beta" "alice" "dave", delegates "acme" "alice" "bob"]
    [delegates "acme" "alice" "bob"] (filter_delegates (by decide))
  have refused : (answers (step asciiHost) (madeBy asciiHost (js "acme")) created
      [delegates "beta" "alice" "dave", delegates "acme" "alice" "bob"]).map (·.2.toBool) = [false] := by
    decide
  have accepted : (answers (step asciiHost) (madeBy asciiHost (js "acme")) created
      [delegates "acme" "alice" "bob"]).map (·.2.toBool) = [true] := by
    decide
  rw [same, accepted] at refused
  cases refused

end Delegation

end GuloGulo.Admin
