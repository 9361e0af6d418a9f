import GuloGulo.Js.Sha256
import GuloGulo.Mail.ImapIdle
import Mathlib.Data.List.Nodup

/-!
# What the broker delivers

While `notify` loops over the subscriptions, the handlers it calls close some
and create others. `Progress` relates the slots at each turn to those at the
start of the loop.
-/

namespace GuloGulo.Mail
open Js Data Integrations

namespace Idle

def Step.closes (id : JsString) : Step → Bool
  | .close k => k == id
  | .subscribe .. => false

def closes (steps : List Step) (id : JsString) : Bool := steps.any (Step.closes id)

/-- Some delivery closed `id`. -/
def closedBy (ds : List Delivery) (id : JsString) : Bool := ds.any fun d => closes d.reaction.steps id

/-- The ids in use are ids that were given out. -/
def Issued (s : BrokerState) : Prop :=
  ∀ p ∈ s.subscriptions.entries, ∃ n ≤ s.subscriptionSequence, p.1 = subscriptionId n

/-- The subscriptions among `entries` are served by `ds`: in order, each that
concerns the event, but for those an earlier one closed. -/
structure Handed (event : ImapIdleEvent) (entries : List (JsString × Subscription)) (ds : List Delivery) : Prop where
  only : ∀ d ∈ ds, d.event = event ∧ concerns event d.subscription ∧ (d.id, d.subscription) ∈ entries
  order : (ds.map Delivery.id).Sublist (entries.map Prod.fst)
  every : ∀ before id subscription after, entries = before ++ (id, subscription) :: after →
    concerns event subscription → (id ∈ ds.map Delivery.id ↔
      ∀ d ∈ ds, d.id ∈ before.map Prod.fst → closes d.reaction.steps id = false)

section
variable (host : Host) (handlers : Handlers) (event : ImapIdleEvent)

/-- The loop at one slot, and whether it threw. -/
def turn (slot : Nat) (s : BrokerState) : Bool × BrokerState :=
  match s.subscriptions.slots[slot]? with
  | some (some (id, subscription)) =>
    if concerns event subscription then
      let (r, s') := onEvent host handlers id subscription event s
      (!r.isOk, s')
    else (false, s)
  | _ => (false, s)

/-- The first turns, none of which is left out after a throw. -/
def turns : Nat → BrokerState → Bool × BrokerState
  | 0, s => (false, s)
  | slot + 1, s =>
    let (threw, s') := turns slot s
    let (threw', s'') := turn host handlers event slot s'
    (threw || threw', s'')

/-- All turns over the subscriptions there are. -/
def round (s : BrokerState) : Bool × BrokerState := turns host handlers event s.subscriptions.slots.length s

/-- No handler throws in its turn, and what the handlers create for the event
they close again. -/
structure Quiet (s : BrokerState) : Prop where
  returns : (round host handlers event s).1 = false
  closed : ∀ p ∈ ((round host handlers event s).2.subscriptions.slots.drop
    s.subscriptions.slots.length).reduceOption, concerns event p.2 = false

end

section
variable {host : Host} {clock : Nat → Reading} {handlers : Handlers}

/-! ## What steps do to the slots -/

/-- From `s` to `t` some were closed and new ones added. -/
structure Grown (gone : JsString → Bool) (s t : BrokerState) : Prop where
  sequence : s.subscriptionSequence ≤ t.subscriptionSequence
  events : t.eventSequence = s.eventSequence
  deliveries : t.deliveries = s.deliveries
  slots : ∃ added, t.subscriptions.slots = s.subscriptions.slots.map (LiveMap.kept gone) ++ added ∧
    ∀ p ∈ added.reduceOption, ∃ n, s.subscriptionSequence < n ∧ n ≤ t.subscriptionSequence ∧ p.1 = subscriptionId n

theorem kept_none (slots : List (Option (JsString × Subscription))) :
    slots.map (LiveMap.kept fun _ => false) = slots := by
  refine (List.map_congr_left ?_).trans (List.map_id _)
  intro slot _
  cases slot with
  | none => rfl
  | some p => rfl

theorem grown_same {s t : BrokerState} (sequence : s.subscriptionSequence ≤ t.subscriptionSequence)
    (events : t.eventSequence = s.eventSequence) (deliveries : t.deliveries = s.deliveries)
    (subscriptions : t.subscriptions = s.subscriptions) : Grown (fun _ => false) s t where
  sequence := sequence
  events := events
  deliveries := deliveries
  slots := ⟨[], by rw [subscriptions, kept_none, List.append_nil], nofun⟩

theorem Grown.trans {gone also : JsString → Bool} {s t u : BrokerState} (first : Grown gone s t)
    (second : Grown also t u) : Grown (fun k => gone k || also k) s u where
  sequence := Nat.le_trans first.sequence second.sequence
  events := second.events.trans first.events
  deliveries := second.deliveries.trans first.deliveries
  slots := by
    obtain ⟨added, slots, fresh⟩ := first.slots
    obtain ⟨added', slots', fresh'⟩ := second.slots
    refine ⟨added.map (LiveMap.kept also) ++ added', ?_, ?_⟩
    · rw [slots', slots, List.map_append, List.map_map, List.append_assoc]
      congr 1
      exact List.map_congr_left fun slot _ => LiveMap.kept_kept gone also slot
    · intro p hp
      rw [List.reduceOption_append, List.mem_append, LiveMap.reduceOption_kept] at hp
      rcases hp with hp | hp
      · obtain ⟨n, low, high, is⟩ := fresh p (List.mem_filter.mp hp).1
        exact ⟨n, low, Nat.le_trans high second.sequence, is⟩
      · obtain ⟨n, low, high, is⟩ := fresh' p hp
        exact ⟨n, Nat.lt_of_le_of_lt first.sequence low, high, is⟩

theorem Grown.issued {gone : JsString → Bool} {s t : BrokerState} (grown : Grown gone s t) (issued : Issued s) :
    Issued t := by
  intro p hp
  obtain ⟨added, slots, fresh⟩ := grown.slots
  rw [LiveMap.entries, slots, List.reduceOption_append, List.mem_append, LiveMap.reduceOption_kept] at hp
  rcases hp with hp | hp
  · obtain ⟨n, bound, is⟩ := issued p (List.mem_filter.mp hp).1
    exact ⟨n, Nat.le_trans bound grown.sequence, is⟩
  · obtain ⟨n, _, bound, is⟩ := fresh p hp
    exact ⟨n, bound, is⟩

theorem subscriptionId_injective {m n : Nat} (h : subscriptionId m = subscriptionId n) : m = n :=
  pad_injective (List.append_cancel_left h)

theorem get_next {s : BrokerState} (issued : Issued s) :
    s.subscriptions.get (subscriptionId (s.subscriptionSequence + 1)) = none := by
  rw [LiveMap.get_eq_none]
  intro p hp same
  obtain ⟨n, bound, is⟩ := issued p hp
  have := subscriptionId_injective (same.symm.trans is)
  omega

theorem subscribe_grown (context : JsValue) (options : ImapIdleSubscribeOptions) {s : BrokerState} (issued : Issued s) :
    Eff.wp (subscribe host context options) s fun _ t => Grown (fun _ => false) s t := by
  have same : Grown (fun _ => false) s s := grown_same (Nat.le_refl _) rfl rfl rfl
  refine Eff.wp_lift_bind.mpr ⟨fun _ _ => same, fun canonical _ => ?_⟩
  refine Eff.wp_lift_bind.mpr ⟨fun _ _ => same, fun userId _ => ?_⟩
  cases options.onEvent with
  | none => exact same
  | some onEvent =>
    refine Eff.wp_lift_bind.mpr ⟨fun _ _ => same, fun _ _ => ?_⟩
    refine Eff.wp_modify_bind.mpr (Eff.wp_get_bind.mpr (Eff.wp_lift_bind.mpr ⟨?_, ?_⟩))
    · intro _ _
      exact grown_same (Nat.le_succ _) rfl rfl rfl
    · intro mailbox _
      exact {
        sequence := Nat.le_succ _
        events := rfl
        deliveries := rfl
        slots := by
          refine ⟨[some (subscriptionId (s.subscriptionSequence + 1), ⟨canonical.tenantId, userId, mailbox, onEvent⟩)],
            ?_, ?_⟩
          · rw [kept_none]
            exact LiveMap.slots_set (get_next issued)
          · intro p hp
            have is : p = (subscriptionId (s.subscriptionSequence + 1), ⟨canonical.tenantId, userId, mailbox, onEvent⟩) := by
              simpa [List.reduceOption] using hp
            exact ⟨s.subscriptionSequence + 1, Nat.lt_succ_self _, Nat.le_refl _, by rw [is]⟩ }

theorem applyStep_grown (step : Step) {s : BrokerState} (issued : Issued s) :
    Grown (fun id => step.closes id) s (applyStep host s step) := by
  cases step with
  | subscribe context options => exact subscribe_grown context options issued
  | close id =>
    have same : (fun k => decide (k = id)) = fun k => (Step.close id).closes k := by
      funext k
      rw [Step.closes, Bool.eq_iff_iff, decide_eq_true_iff, beq_iff_eq, eq_comm]
    exact {
      sequence := Nat.le_refl _
      events := rfl
      deliveries := rfl
      slots := ⟨[], by rw [← same, List.append_nil]; rfl, nofun⟩ }

theorem steps_grown (host : Host) (steps : List Step) {s : BrokerState} (issued : Issued s) :
    Grown (closes steps) s (steps.foldl (applyStep host) s) := by
  induction steps generalizing s with
  | nil => exact grown_same (Nat.le_refl _) rfl rfl rfl
  | cons step steps ih =>
    have first : Grown _ s (applyStep host s step) := applyStep_grown step issued
    exact first.trans (ih (first.issued issued))

/-! ## The turns -/

/-- The call of a handler is recorded, and then it does what it does. -/
theorem onEvent_grown (host : Host) (handlers : Handlers) (id : JsString) (subscription : Subscription) (event : ImapIdleEvent) {s : BrokerState}
    (issued : Issued s) :
    ∃ reaction t, reaction = handlers s.deliveries subscription event ∧
      onEvent host handlers id subscription event s = (throwIf reaction.throws .foreign, t) ∧
      t.deliveries = s.deliveries ++ [⟨id, subscription, event, reaction⟩] ∧
      Grown (closes reaction.steps) { s with deliveries := t.deliveries } t := by
  let recorded : BrokerState := { s with
    deliveries := s.deliveries ++ [⟨id, subscription, event, handlers s.deliveries subscription event⟩] }
  have grown : Grown _ recorded _ := steps_grown host (handlers s.deliveries subscription event).steps issued
  refine ⟨_, _, rfl, rfl, grown.deliveries, ?_⟩
  rw [grown.deliveries]
  exact grown

/-- What has been done when the first slots have had their turn. -/
structure Progress (event : ImapIdleEvent) (s : BrokerState) (slot : Nat) (t : BrokerState) (ds : List Delivery) :
    Prop where
  deliveries : t.deliveries = s.deliveries ++ ds
  grown : Grown (closedBy ds) { s with deliveries := t.deliveries } t
  handed : Handed event (s.subscriptions.slots.take slot).reduceOption ds

theorem progress_start (event : ImapIdleEvent) (s : BrokerState) : Progress event s 0 s [] where
  deliveries := (List.append_nil _).symm
  grown := grown_same (Nat.le_refl _) rfl rfl rfl
  handed := {
    only := nofun
    order := List.nil_sublist _
    every := by
      intro before id subscription after split
      cases before <;> cases split }

/-- A slot that is empty, emptied or of no concern. -/
theorem handed_skip {event : ImapIdleEvent} {entries : List (JsString × Subscription)} {ds : List Delivery}
    (handed : Handed event entries ds) {id : JsString} {subscription : Subscription}
    (nodup : ((entries ++ [(id, subscription)]).map Prod.fst).Nodup)
    (skipped : concerns event subscription → closedBy ds id = true) :
    Handed event (entries ++ [(id, subscription)]) ds := by
  have fresh : id ∉ entries.map Prod.fst := by
    rw [List.map_append, List.nodup_append] at nodup
    intro member
    exact nodup.2.2 id member id (List.mem_singleton.mpr rfl) rfl
  constructor
  · intro d hd
    obtain ⟨same, concerned, member⟩ := handed.only d hd
    exact ⟨same, concerned, List.mem_append_left _ member⟩
  · rw [List.map_append]
    exact handed.order.trans (List.sublist_append_left _ _)
  · intro before id' subscription' after split concerned
    rcases List.eq_nil_or_concat after with rfl | ⟨after', last, rfl⟩
    · obtain ⟨rfl, same⟩ := List.append_inj' split rfl
      cases same
      obtain ⟨d, hd, gone⟩ := List.any_eq_true.mp (skipped concerned)
      constructor
      · intro member
        exact absurd (handed.order.subset member) fresh
      · intro open'
        have early : d.id ∈ entries.map Prod.fst := List.mem_map_of_mem (handed.only d hd).2.2
        rw [open' d hd early] at gone
        cases gone
    · rw [List.concat_eq_append, ← List.cons_append, ← List.append_assoc] at split
      obtain ⟨split, _⟩ := List.append_inj' split rfl
      exact handed.every before id' subscription' after' split concerned

theorem handed_call {event : ImapIdleEvent} {entries : List (JsString × Subscription)} {ds : List Delivery}
    (handed : Handed event entries ds) {id : JsString} {subscription : Subscription} {reaction : Reaction}
    (nodup : ((entries ++ [(id, subscription)]).map Prod.fst).Nodup) (concerned : concerns event subscription)
    (kept : closedBy ds id = false) :
    Handed event (entries ++ [(id, subscription)]) (ds ++ [⟨id, subscription, event, reaction⟩]) := by
  have fresh : id ∉ entries.map Prod.fst := by
    rw [List.map_append, List.nodup_append] at nodup
    intro member
    exact nodup.2.2 id member id (List.mem_singleton.mpr rfl) rfl
  constructor
  · intro d hd
    rcases List.mem_append.mp hd with hd | hd
    · obtain ⟨same, concerned, member⟩ := handed.only d hd
      exact ⟨same, concerned, List.mem_append_left _ member⟩
    · rw [List.mem_singleton.mp hd]
      exact ⟨rfl, concerned, List.mem_append_right _ (List.mem_singleton.mpr rfl)⟩
  · rw [List.map_append, List.map_append]
    exact handed.order.append (List.Sublist.refl _)
  · intro before id' subscription' after split concerned'
    rcases List.eq_nil_or_concat after with rfl | ⟨after', last, rfl⟩
    · obtain ⟨rfl, same⟩ := List.append_inj' split rfl
      cases same
      constructor
      · intro _ d hd early
        rcases List.mem_append.mp hd with hd | hd
        · cases gone : closes d.reaction.steps id with
          | false => rfl
          | true =>
            have closed : closedBy ds id = true := List.any_eq_true.mpr ⟨d, hd, gone⟩
            rw [kept] at closed
            cases closed
        · rw [List.mem_singleton.mp hd] at early
          exact absurd early fresh
      · intro _
        rw [List.map_append]
        exact List.mem_append_right _ (List.mem_singleton.mpr rfl)
    · rw [List.concat_eq_append, ← List.cons_append, ← List.append_assoc] at split
      obtain ⟨split, same⟩ := List.append_inj' split rfl
      have every := handed.every before id' subscription' after' split concerned'
      have member : id' ∈ entries.map Prod.fst := by
        rw [split]
        simp
      have later : id ∉ before.map Prod.fst := by
        intro early
        apply fresh
        rw [split, List.map_append]
        exact List.mem_append_left _ early
      have other : id' ≠ id := by
        rintro rfl
        exact fresh member
      rw [List.map_append, List.mem_append, List.map_singleton, List.mem_singleton]
      constructor
      · intro served d hd early
        rcases List.mem_append.mp hd with hd | hd
        · exact every.mp (served.resolve_right other) d hd early
        · rw [List.mem_singleton.mp hd] at early
          exact absurd early later
      · intro open'
        exact .inl (every.mpr fun d hd early => open' d (List.mem_append_left _ hd) early)

theorem closedBy_append (ds : List Delivery) (d : Delivery) :
    closedBy (ds ++ [d]) = fun k => closedBy ds k || closes d.reaction.steps k := by
  funext k
  rw [closedBy, List.any_append, List.any_cons, List.any_nil, Bool.or_false]
  rfl

namespace Progress
variable {event : ImapIdleEvent} {s t : BrokerState} {slot : Nat} {ds : List Delivery}

theorem issued (progress : Progress event s slot t ds) (issued : Issued s) : Issued t :=
  progress.grown.issued issued

/-- A slot there was holds its subscription until it is closed. -/
theorem slot_eq (progress : Progress event s slot t ds) (i : Nat) (within : i < s.subscriptions.slots.length) :
    t.subscriptions.slots[i]? = some (LiveMap.kept (closedBy ds) s.subscriptions.slots[i]) := by
  obtain ⟨added, slots, _⟩ := progress.grown.slots
  have inside : i < (s.subscriptions.slots.map (LiveMap.kept (closedBy ds))).length := by
    rw [List.length_map]
    exact within
  rw [slots, List.getElem?_append_left inside, List.getElem?_map, List.getElem?_eq_getElem within]
  rfl

/-- The slots after those there were are new. -/
theorem slots_new (progress : Progress event s slot t ds) :
    ∀ p ∈ (t.subscriptions.slots.drop s.subscriptions.slots.length).reduceOption,
      ∃ n, s.subscriptionSequence < n ∧ p.1 = subscriptionId n := by
  obtain ⟨added, slots, fresh⟩ := progress.grown.slots
  have rest : t.subscriptions.slots.drop s.subscriptions.slots.length = added := by
    rw [slots, List.drop_left' (List.length_map _)]
  rw [rest]
  intro p hp
  obtain ⟨n, low, _, is⟩ := fresh p hp
  exact ⟨n, low, is⟩

end Progress

theorem take_entries (slots : List (Option (JsString × Subscription))) {slot : Nat} (within : slot < slots.length) :
    (slots.take (slot + 1)).reduceOption = (slots.take slot).reduceOption ++ slots[slot].toList := by
  rw [List.take_succ_eq_append_getElem within, List.reduceOption_append, List.reduceOption_singleton]

theorem take_nodup (m : LiveMap JsString Subscription) (slot : Nat) :
    ((m.slots.take slot).reduceOption.map Prod.fst).Nodup :=
  m.nodup.sublist (((List.take_sublist slot m.slots).filterMap id).map Prod.fst)

/-- What a turn does, and how the loop goes on after it. -/
def GoesOn (host : Host) (handlers : Handlers) (event : ImapIdleEvent) (s t : BrokerState) (slot : Nat)
    (ds : List Delivery) : Prop :=
  ∃ more, Progress event s (slot + 1) (turn host handlers event slot t).2 (ds ++ more) ∧
    ∀ fuel delivered, deliverFrom host handlers event (fuel + 1) slot delivered t =
      if (turn host handlers event slot t).1 then some (.error .foreign, (turn host handlers event slot t).2)
      else deliverFrom host handlers event fuel (slot + 1) (delivered + more.length)
        (turn host handlers event slot t).2

section
variable {event : ImapIdleEvent} {s t : BrokerState} {slot : Nat} {ds : List Delivery}

theorem goesOn_pass (progress : Progress event s slot t ds)
    (handed : Handed event (s.subscriptions.slots.take (slot + 1)).reduceOption ds)
    (turned : turn host handlers event slot t = (false, t))
    (loop : ∀ fuel delivered, deliverFrom host handlers event (fuel + 1) slot delivered t =
      deliverFrom host handlers event fuel (slot + 1) delivered t) : GoesOn host handlers event s t slot ds := by
  rw [GoesOn, turned]
  refine ⟨[], ?_, loop⟩
  rw [List.append_nil]
  exact ⟨progress.deliveries, progress.grown, handed⟩

attribute [local simp] deliverFrom in
theorem goesOn_call (issued : Issued s) (progress : Progress event s slot t ds)
    (within : slot < s.subscriptions.slots.length) {id : JsString} {subscription : Subscription}
    (there : t.subscriptions.slots[slot]? = some (some (id, subscription)))
    (first : s.subscriptions.slots[slot] = some (id, subscription)) (concerned : concerns event subscription)
    (gone : closedBy ds id = false) : GoesOn host handlers event s t slot ds := by
  have entries := take_entries s.subscriptions.slots within
  have nodup := take_nodup s.subscriptions (slot + 1)
  rw [first] at entries
  rw [entries] at nodup
  obtain ⟨reaction, t', _, called, deliveries, grown⟩ :=
    onEvent_grown host handlers id subscription event (progress.issued issued)
  have turned : turn host handlers event slot t = (reaction.throws, t') := by
    rw [turn, there]
    simp only [concerned, called, if_true]
    cases reaction.throws <;> rfl
  rw [GoesOn, turned]
  refine ⟨[⟨id, subscription, event, reaction⟩], ?_, ?_⟩
  · have before : Grown (closedBy ds) { s with deliveries := t'.deliveries } { t with deliveries := t'.deliveries } :=
      { progress.grown with deliveries := rfl }
    constructor
    · rw [deliveries, progress.deliveries, List.append_assoc]
    · rw [closedBy_append]
      exact before.trans grown
    · rw [entries]
      exact handed_call progress.handed nodup concerned gone
  · intro fuel delivered
    rw [deliverFrom, there]
    simp only [concerned, called, if_true]
    cases reaction.throws <;> rfl

theorem progress_turn (issued : Issued s) (progress : Progress event s slot t ds)
    (within : slot < s.subscriptions.slots.length) : GoesOn host handlers event s t slot ds := by
  have there := progress.slot_eq slot within
  have entries := take_entries s.subscriptions.slots within
  have nodup := take_nodup s.subscriptions (slot + 1)
  rw [entries] at nodup
  cases hs : s.subscriptions.slots[slot] with
  | none =>
    rw [hs] at there entries
    apply goesOn_pass progress
    · rw [entries, Option.toList_none, List.append_nil]
      exact progress.handed
    · rw [turn, there]
      rfl
    · intro fuel delivered
      rw [deliverFrom, there]
      rfl
  | some p =>
    obtain ⟨id, subscription⟩ := p
    rw [hs] at there entries nodup
    rw [LiveMap.kept_some] at there
    cases gone : closedBy ds id with
    | true =>
      rw [gone, if_pos rfl] at there
      apply goesOn_pass progress
      · rw [entries]
        exact handed_skip progress.handed nodup fun _ => gone
      · rw [turn, there]
      · intro fuel delivered
        rw [deliverFrom, there]
    | false =>
      rw [gone, if_neg Bool.false_ne_true] at there
      cases concerned : concerns event subscription with
      | true => exact goesOn_call issued progress within there hs concerned gone
      | false =>
        apply goesOn_pass progress
        · rw [entries]
          refine handed_skip progress.handed nodup fun h => ?_
          rw [concerned] at h
          cases h
        · rw [turn, there]
          simp [concerned]
        · intro fuel delivered
          rw [deliverFrom, there]
          simp [concerned]

/-! ## The loop -/

/-- The loop is as far as the turns are, unless one of them threw. -/
theorem loop_turns (host : Host) (handlers : Handlers) (event : ImapIdleEvent) (issued : Issued s) (slot : Nat) (within : slot ≤ s.subscriptions.slots.length) :
    ∃ ds, Progress event s slot (turns host handlers event slot s).2 ds ∧
      ((turns host handlers event slot s).1 = true →
        ∃ fuel s', deliverFrom host handlers event fuel 0 0 s = some (.error .foreign, s')) ∧
      ((turns host handlers event slot s).1 = false →
        ∀ fuel, deliverFrom host handlers event (fuel + slot) 0 0 s =
          deliverFrom host handlers event fuel slot ds.length (turns host handlers event slot s).2) := by
  induction slot with
  | zero => exact ⟨[], progress_start event s, nofun, fun _ _ => rfl⟩
  | succ slot ih =>
    obtain ⟨ds, progress, stops, loop⟩ := ih (Nat.le_of_succ_le within)
    have turned : GoesOn host handlers event s _ slot ds := progress_turn issued progress within
    obtain ⟨more, progress', goesOn⟩ := turned
    refine ⟨ds ++ more, progress', ?_, ?_⟩
    · intro threw
      cases before : (turns host handlers event slot s).1 with
      | true => exact stops before
      | false =>
        have here : (turn host handlers event slot (turns host handlers event slot s).2).1 = true := by
          simpa [turns, before] using threw
        have stopped := goesOn 0 ds.length
        rw [if_pos here] at stopped
        exact ⟨0 + 1 + slot, _, (loop before (0 + 1)).trans stopped⟩
    · intro threw
      have split : ((turns host handlers event slot s).1 ||
          (turn host handlers event slot (turns host handlers event slot s).2).1) = false := threw
      rw [Bool.or_eq_false_iff] at split
      obtain ⟨before, here⟩ := split
      intro fuel
      rw [Nat.add_succ, ← Nat.succ_add, loop before, goesOn, here, if_neg Bool.false_ne_true, List.length_append]
      rfl

theorem deliverFrom_succ {fuel delivered : Nat} {r : Except (Thrown CodedError) ImapIdleNotification × BrokerState}
    (h : deliverFrom host handlers event fuel slot delivered s = some r) :
    deliverFrom host handlers event (fuel + 1) slot delivered s = some r := by
  induction fuel generalizing slot delivered s with
  | zero => cases h
  | succ fuel ih =>
    rw [deliverFrom] at h ⊢
    split at h
    · exact h
    · exact ih h
    · split at h
      · rename_i concerned
        rw [if_pos concerned]
        split at h
        · exact h
        · exact ih h
      · rename_i concerned
        rw [if_neg concerned]
        exact ih h

theorem deliverFrom_fuel (n : Nat) {fuel delivered : Nat}
    {r : Except (Thrown CodedError) ImapIdleNotification × BrokerState}
    (h : deliverFrom host handlers event fuel slot delivered s = some r) :
    deliverFrom host handlers event (fuel + n) slot delivered s = some r := by
  induction n with
  | zero => exact h
  | succ n ih => exact deliverFrom_succ ih

/-- How a loop ends does not depend on the fuel. -/
theorem deliverFrom_unique {fuel fuel' delivered : Nat}
    {r r' : Except (Thrown CodedError) ImapIdleNotification × BrokerState}
    (h : deliverFrom host handlers event fuel slot delivered s = some r)
    (h' : deliverFrom host handlers event fuel' slot delivered s = some r') : r = r' := by
  have first := deliverFrom_fuel fuel' h
  have second := deliverFrom_fuel fuel h'
  rw [Nat.add_comm, first] at second
  exact Option.some.inj second

/-- Slots that hold nothing for the event end the loop. -/
theorem deliverFrom_ends (host : Host) (handlers : Handlers) (delivered : Nat)
    (none' : ∀ p ∈ (s.subscriptions.slots.drop slot).reduceOption, concerns event p.2 = false) :
    ∃ fuel, deliverFrom host handlers event fuel slot delivered s = some (.ok ⟨event, delivered⟩, s) := by
  generalize left : s.subscriptions.slots.length - slot = n
  induction n generalizing slot with
  | zero =>
    have outside : s.subscriptions.slots[slot]? = none := List.getElem?_eq_none (by omega)
    refine ⟨1, ?_⟩
    rw [deliverFrom, outside]
  | succ n ih =>
    have within : slot < s.subscriptions.slots.length := by omega
    rw [List.drop_eq_getElem_cons within] at none'
    have later : ∀ p ∈ (s.subscriptions.slots.drop (slot + 1)).reduceOption, concerns event p.2 = false := by
      intro p hp
      apply none'
      rw [List.reduceOption_mem_iff] at hp ⊢
      exact List.mem_cons_of_mem _ hp
    obtain ⟨fuel, ends⟩ := ih later (by omega)
    refine ⟨fuel + 1, ?_⟩
    rw [deliverFrom, List.getElem?_eq_getElem within]
    cases hs : s.subscriptions.slots[slot] with
    | none => exact ends
    | some p =>
      have unconcerned : concerns event p.2 = false := by
        apply none'
        rw [List.reduceOption_mem_iff, hs]
        exact List.mem_cons_self
      simp only [unconcerned, Bool.false_eq_true, ↓reduceIte]
      exact ends

/-- What a loop keeps, however it ends. -/
structure Kept (s s' : BrokerState) : Prop where
  issued : Issued s'
  events : s'.eventSequence = s.eventSequence
  deliveries : ∃ ds, s'.deliveries = s.deliveries ++ ds

theorem Kept.after {s t s' : BrokerState} {d : Delivery} {gone : JsString → Bool} (kept : Kept t s')
    (deliveries : t.deliveries = s.deliveries ++ [d]) (grown : Grown gone { s with deliveries := t.deliveries } t) :
    Kept s s' where
  issued := kept.issued
  events := kept.events.trans grown.events
  deliveries := by
    obtain ⟨ds, more⟩ := kept.deliveries
    exact ⟨[d] ++ ds, by rw [more, deliveries, List.append_assoc]⟩

theorem kept_self (issued : Issued s) : Kept s s := ⟨issued, rfl, [], (List.append_nil _).symm⟩

theorem deliverFrom_keeps (issued : Issued s) {fuel delivered : Nat}
    {r : Except (Thrown CodedError) ImapIdleNotification} {s' : BrokerState}
    (h : deliverFrom host handlers event fuel slot delivered s = some (r, s')) : Kept s s' := by
  induction fuel generalizing slot delivered s with
  | zero => cases h
  | succ fuel ih =>
    rw [deliverFrom] at h
    split at h
    · cases h
      exact kept_self issued
    · exact ih issued h
    · rename_i id subscription there
      split at h
      · obtain ⟨reaction, t, _, called, deliveries, grown⟩ :=
          onEvent_grown host handlers id subscription event issued
        have issued' : Issued t := grown.issued issued
        rw [called] at h
        cases throws : reaction.throws with
        | true =>
          rw [throws] at h
          cases h
          exact (kept_self issued').after deliveries grown
        | false =>
          rw [throws] at h
          exact (ih issued' h).after deliveries grown
      · exact ih issued h

/-- A slot that holds something for the event is served, if the loop ends. -/
theorem deliverFrom_serves (issued : Issued s) {fuel delivered : Nat}
    {r : Except (Thrown CodedError) ImapIdleNotification} {s' : BrokerState}
    (h : deliverFrom host handlers event fuel slot delivered s = some (r, s'))
    {p : JsString × Subscription} (hp : p ∈ (s.subscriptions.slots.drop slot).reduceOption)
    (concerned : concerns event p.2) :
    ∃ d ds, s'.deliveries = s.deliveries ++ d :: ds ∧
      (d.id, d.subscription) ∈ (s.subscriptions.slots.drop slot).reduceOption := by
  induction fuel generalizing slot delivered with
  | zero => cases h
  | succ fuel ih =>
    by_cases within : slot < s.subscriptions.slots.length
    · have cut := List.drop_eq_getElem_cons within
      have later {q : JsString × Subscription} (hq : q ∈ (s.subscriptions.slots.drop (slot + 1)).reduceOption) :
          q ∈ (s.subscriptions.slots.drop slot).reduceOption := by
        rw [List.reduceOption_mem_iff] at hq ⊢
        rw [cut]
        exact List.mem_cons_of_mem _ hq
      rw [List.reduceOption_mem_iff, cut, List.mem_cons] at hp
      rw [deliverFrom, List.getElem?_eq_getElem within] at h
      cases hs : s.subscriptions.slots[slot] with
      | none =>
        rw [hs] at h hp
        have rest := hp.resolve_left nofun
        obtain ⟨d, ds, deliveries, member⟩ := ih h (List.reduceOption_mem_iff.mpr rest)
        exact ⟨d, ds, deliveries, later member⟩
      | some q =>
        obtain ⟨id, subscription⟩ := q
        rw [hs] at h hp cut
        cases here : concerns event subscription with
        | true =>
          obtain ⟨reaction, t, _, called, deliveries, grown⟩ := onEvent_grown host handlers id subscription event issued
          have member : (id, subscription) ∈ (s.subscriptions.slots.drop slot).reduceOption := by
            rw [List.reduceOption_mem_iff, cut]
            exact List.mem_cons_self
          simp only [here, called, if_true] at h
          cases throws : reaction.throws with
          | true =>
            rw [throws] at h
            cases h
            exact ⟨_, [], deliveries, member⟩
          | false =>
            rw [throws] at h
            have kept := deliverFrom_keeps (grown.issued issued) h
            obtain ⟨ds, more⟩ := kept.deliveries
            exact ⟨_, ds, by rw [more, deliveries, List.append_assoc]; rfl, member⟩
        | false =>
          simp only [here, Bool.false_eq_true, ↓reduceIte] at h
          have rest : some p ∈ s.subscriptions.slots.drop (slot + 1) := by
            apply hp.resolve_left
            intro same
            cases same
            rw [here] at concerned
            cases concerned
          obtain ⟨d, ds, deliveries, member⟩ := ih h (List.reduceOption_mem_iff.mpr rest)
          exact ⟨d, ds, deliveries, later member⟩
    · rw [List.drop_eq_nil_of_le (by omega)] at hp
      cases hp

/-- The loop does what is promised exactly when the handlers are quiet. -/
theorem deliverFrom_iff (issued : Issued s) :
    (∃ fuel ds s', deliverFrom host handlers event fuel 0 0 s = some (.ok ⟨event, ds.length⟩, s') ∧
      s'.deliveries = s.deliveries ++ ds ∧ Handed event s.subscriptions.entries ds) ↔ Quiet host handlers event s := by
  obtain ⟨ds, progress, stops, loop⟩ :=
    loop_turns host handlers event issued s.subscriptions.slots.length (Nat.le_refl _)
  constructor
  · rintro ⟨fuel, ds', s', ends, deliveries, handed⟩
    have returns : (round host handlers event s).1 = false := by
      cases threw : (round host handlers event s).1 with
      | false => rfl
      | true =>
        obtain ⟨fuel', s'', stopped⟩ := stops threw
        cases deliverFrom_unique ends stopped
    refine ⟨returns, ?_⟩
    intro p hp
    by_contra concerned
    have concerned : concerns event p.2 = true := by simpa using concerned
    have ends' := deliverFrom_fuel s.subscriptions.slots.length ends
    rw [loop returns] at ends'
    obtain ⟨d, more, served, member⟩ := deliverFrom_serves (progress.issued issued) ends' hp concerned
    obtain ⟨n, low, is⟩ := progress.slots_new _ member
    rw [served, progress.deliveries, List.append_assoc] at deliveries
    have same := List.append_cancel_left deliveries
    have there : d ∈ ds' := by
      rw [← same]
      exact List.mem_append_right _ List.mem_cons_self
    obtain ⟨_, _, entry⟩ := handed.only d there
    obtain ⟨m, bound, is'⟩ := issued _ entry
    have := subscriptionId_injective (is.symm.trans is')
    omega
  · rintro ⟨returns, closed⟩
    obtain ⟨fuel, ends⟩ := deliverFrom_ends host handlers ds.length closed
    refine ⟨fuel + s.subscriptions.slots.length, ds, _, (loop returns fuel).trans ends, progress.deliveries, ?_⟩
    have handed := progress.handed
    rw [List.take_length] at handed
    exact handed

end

/-! ## Runs -/

inductive Run (host : Host) (clock : Nat → Reading) (handlers : Handlers) : List ImapIdleEvent → BrokerState → Prop where
  | created : Run host clock handlers [] Idle.created
  | subscribe {events : List ImapIdleEvent} {s : BrokerState} (run : Run host clock handlers events s)
      (context : JsValue) (options : ImapIdleSubscribeOptions) :
      Run host clock handlers events (Idle.subscribe host context options s).2
  | close {events : List ImapIdleEvent} {s : BrokerState} (run : Run host clock handlers events s) (id : JsString) :
      Run host clock handlers events (Idle.close id s)
  | notify {events : List ImapIdleEvent} {s : BrokerState} (run : Run host clock handlers events s) (fuel : Nat)
      (context : JsValue) (options : ImapIdleNotifyOptions) (r : Except (Thrown CodedError) ImapIdleNotification)
      (s' : BrokerState) (ends : Idle.notify host clock handlers fuel context options s = some (r, s')) :
      Run host clock handlers (events ++ (makeEvent host clock context options s).1.toOption.toList) s'

/-- What `makeEvent` leaves of the state, and the event. -/
structure Announced (s s' : BrokerState) (r : Except (Thrown CodedError) ImapIdleEvent) : Prop where
  subscriptions : s'.subscriptions = s.subscriptions
  issued : s'.subscriptionSequence = s.subscriptionSequence
  deliveries : s'.deliveries = s.deliveries
  sequence : s.eventSequence ≤ s'.eventSequence
  event : ∀ event, r = .ok event → s.eventSequence < event.sequence ∧ event.sequence ≤ s'.eventSequence ∧
    event.eventId = eventId event.sequence

theorem makeEvent_announced (context : JsValue) (options : ImapIdleNotifyOptions) (s : BrokerState) :
    Eff.wp (makeEvent host clock context options) s fun r s' => Announced s s' r := by
  have same (e : Thrown CodedError) : Announced s s (.error e) := ⟨rfl, rfl, rfl, Nat.le_refl _, nofun⟩
  have counted (e : Thrown CodedError) :
      Announced s { s with eventSequence := s.eventSequence + 1, readings := s.readings + 1 } (.error e) :=
    ⟨rfl, rfl, rfl, Nat.le_succ _, nofun⟩
  refine Eff.wp_lift_bind.mpr ⟨fun e _ => same e, fun canonical _ => ?_⟩
  refine Eff.wp_lift_bind.mpr ⟨fun e _ => same e, fun userId _ => ?_⟩
  refine Eff.wp_lift_bind.mpr ⟨fun e _ => same e, fun mailbox _ => ?_⟩
  refine Eff.wp_modify_bind.mpr (Eff.wp_get_bind.mpr (Eff.wp_modify_bind.mpr ?_))
  refine Eff.wp_lift_bind.mpr ⟨fun e _ => counted e, fun time _ => ?_⟩
  refine Eff.wp_lift_bind.mpr ⟨fun e _ => counted e, fun occurredAt _ => ?_⟩
  refine ⟨rfl, rfl, rfl, Nat.le_succ _, ?_⟩
  intro event made
  cases made
  exact ⟨Nat.lt_succ_self _, Nat.le_refl _, rfl⟩

/-- The events of a run, and the count of them. -/
structure Numbered (events : List ImapIdleEvent) (s : BrokerState) : Prop where
  increasing : (events.map ImapIdleEvent.sequence).Pairwise (· < ·)
  bound : ∀ event ∈ events, event.sequence ≤ s.eventSequence
  ids : ∀ event ∈ events, event.eventId = eventId event.sequence

theorem numbered_announced {events : List ImapIdleEvent} {s s' s'' : BrokerState}
    {r : Except (Thrown CodedError) ImapIdleEvent} (numbered : Numbered events s) (announced : Announced s s' r)
    (count : s''.eventSequence = s'.eventSequence) : Numbered (events ++ r.toOption.toList) s'' := by
  have sequence := announced.sequence
  cases r with
  | error e =>
    rw [show (Except.error e : Except (Thrown CodedError) ImapIdleEvent).toOption.toList = [] from rfl,
      List.append_nil]
    refine ⟨numbered.increasing, ?_, numbered.ids⟩
    intro event he
    have := numbered.bound event he
    omega
  | ok event =>
    obtain ⟨low, high, id⟩ := announced.event event rfl
    rw [show (Except.ok event : Except (Thrown CodedError) ImapIdleEvent).toOption.toList = [event] from rfl]
    constructor
    · rw [List.map_append, List.pairwise_append]
      refine ⟨numbered.increasing, List.pairwise_singleton .., ?_⟩
      intro a ha b hb
      obtain ⟨e, he, rfl⟩ := List.mem_map.mp ha
      have last : b = event.sequence := List.mem_singleton.mp hb
      have := numbered.bound e he
      omega
    · intro e he
      rcases List.mem_append.mp he with he | he
      · have := numbered.bound e he
        omega
      · rw [List.mem_singleton.mp he]
        omega
    · intro e he
      rcases List.mem_append.mp he with he | he
      · exact numbered.ids e he
      · rw [List.mem_singleton.mp he]
        exact id

theorem run_keeps {events : List ImapIdleEvent} {s : BrokerState} (run : Run host clock handlers events s) :
    Issued s ∧ Numbered events s := by
  induction run with
  | created => exact ⟨nofun, List.Pairwise.nil, nofun, nofun⟩
  | subscribe run context options ih =>
    obtain ⟨issued, numbered⟩ := ih
    have grown : Grown _ _ (Idle.subscribe host context options _).2 := subscribe_grown context options issued
    refine ⟨grown.issued issued, numbered.increasing, ?_, numbered.ids⟩
    rw [grown.events]
    exact numbered.bound
  | close run id ih =>
    obtain ⟨issued, numbered⟩ := ih
    have grown : Grown _ _ (applyStep host _ (.close id)) := applyStep_grown (.close id) issued
    exact ⟨grown.issued issued, numbered.increasing, numbered.bound, numbered.ids⟩
  | @notify events s run fuel context options r s' ends ih =>
    obtain ⟨issued, numbered⟩ := ih
    have announced : Announced s (makeEvent host clock context options s).2
      (makeEvent host clock context options s).1 := makeEvent_announced context options s
    rw [Idle.notify] at ends
    generalize makeEvent host clock context options s = made at announced ends
    obtain ⟨event, s₁⟩ := made
    have issued₁ : Issued s₁ := by
      intro p hp
      rw [announced.subscriptions] at hp
      rw [announced.issued]
      exact issued p hp
    cases event with
    | error e =>
      cases ends
      exact ⟨issued₁, numbered_announced numbered announced rfl⟩
    | ok event =>
      have kept := deliverFrom_keeps issued₁ ends
      exact ⟨kept.issued, numbered_announced numbered announced kept.events⟩

/-- In every run the events are numbered upwards and no id comes twice; and a
call of `notify` that has its event ends and hands it to every subscription
there was for it, once, but for those that were closed before, and to no other,
exactly when the handlers are quiet. -/
theorem notify_delivers_iff {events : List ImapIdleEvent} {s : BrokerState} (run : Run host clock handlers events s) :
    (events.map ImapIdleEvent.sequence).Pairwise (· < ·) ∧ (events.map ImapIdleEvent.eventId).Nodup ∧
      ∀ context options event s₁, makeEvent host clock context options s = (.ok event, s₁) →
        ((∃ fuel ds s', notify host clock handlers fuel context options s = some (.ok ⟨event, ds.length⟩, s') ∧
          s'.deliveries = s.deliveries ++ ds ∧ Handed event s.subscriptions.entries ds) ↔
            Quiet host handlers event s₁) := by
  obtain ⟨issued, numbered⟩ := run_keeps run
  refine ⟨numbered.increasing, ?_, ?_⟩
  · have ids : events.map ImapIdleEvent.eventId = (events.map ImapIdleEvent.sequence).map eventId := by
      rw [List.map_map]
      exact List.map_congr_left numbered.ids
    rw [ids]
    apply List.Nodup.map
    · intro m n same
      exact pad_injective (List.append_cancel_left same)
    · exact numbered.increasing.imp Nat.ne_of_lt
  · intro context options event s₁ made
    have announced : Announced s (makeEvent host clock context options s).2
      (makeEvent host clock context options s).1 := makeEvent_announced context options s
    rw [made] at announced
    have issued₁ : Issued s₁ := by
      intro p hp
      rw [announced.subscriptions] at hp
      rw [announced.issued]
      exact issued p hp
    have loops (fuel : Nat) : notify host clock handlers fuel context options s =
        deliverFrom host handlers event fuel 0 0 s₁ := by
      rw [notify, made]
    simp only [loops, ← announced.deliveries, ← announced.subscriptions]
    exact deliverFrom_iff issued₁

end

/-! ### Samples -/

def alice : JsValue := Actor.userContext (js "acme") (js "acme.test") (js "alice")

def sampleClock : Nat → Reading := fun _ => .time 0

/-- The handlers with odd numbers throw. -/
def sampleHandlers : Handlers := fun _ subscription _ => ⟨[], subscription.onEvent % 2 = 1⟩

def sampleBroker (first second : Nat) : BrokerState :=
  let subscribed := (subscribe asciiHost alice ⟨.string (js "alice"), .undefined, some first⟩ created).2
  (subscribe asciiHost alice ⟨.string (js "alice"), .undefined, some second⟩ subscribed).2

theorem sampleBroker_run (first second : Nat) :
    Run asciiHost sampleClock sampleHandlers [] (sampleBroker first second) :=
  .subscribe (.subscribe .created alice _) alice _

def sampleNotify : ImapIdleNotifyOptions := ⟨.string (js "alice"), .undefined, .undefined, .number 10⟩

def sampleEvent : ImapIdleEvent := ⟨js "idle-event-00000001", 1, js "acme", js "alice", js "INBOX", js "exists",
  some 10, js "1970-01-01T00:00:00.000Z"⟩

/-- The first of two handlers throws: the second is not called. -/
theorem notify_throws : Run asciiHost sampleClock sampleHandlers [] (sampleBroker 1 2) ∧
    (makeEvent asciiHost sampleClock alice sampleNotify (sampleBroker 1 2)).1 = .ok sampleEvent ∧
    ¬ ∃ fuel ds s', notify asciiHost sampleClock sampleHandlers fuel alice sampleNotify (sampleBroker 1 2) =
        some (.ok ⟨sampleEvent, ds.length⟩, s') ∧ s'.deliveries = (sampleBroker 1 2).deliveries ++ ds ∧
      Handed sampleEvent (sampleBroker 1 2).subscriptions.entries ds := by
  have made : (makeEvent asciiHost sampleClock alice sampleNotify (sampleBroker 1 2)).1 = .ok sampleEvent := by
    decide
  refine ⟨sampleBroker_run 1 2, made, ?_⟩
  rintro ⟨fuel, ds, s', ends, _, _⟩
  have stops : ((notify asciiHost sampleClock sampleHandlers 1 alice sampleNotify (sampleBroker 1 2)).map
      fun r => r.1.isOk) = some false := by decide
  obtain ⟨r, stopped, failed⟩ := Option.map_eq_some_iff.mp stops
  have pair : makeEvent asciiHost sampleClock alice sampleNotify (sampleBroker 1 2) =
      (.ok sampleEvent, (makeEvent asciiHost sampleClock alice sampleNotify (sampleBroker 1 2)).2) := by
    rw [← made]
  rw [notify, pair] at ends stopped
  rw [deliverFrom_unique stopped ends] at failed
  cases failed

/-- Two handlers that return: both are called. -/
theorem notify_delivers_iff_alice :
    ∃ fuel ds s', notify asciiHost sampleClock sampleHandlers fuel alice sampleNotify (sampleBroker 2 4) =
        some (.ok ⟨sampleEvent, ds.length⟩, s') ∧ s'.deliveries = (sampleBroker 2 4).deliveries ++ ds ∧
      Handed sampleEvent (sampleBroker 2 4).subscriptions.entries ds := by
  have made : (makeEvent asciiHost sampleClock alice sampleNotify (sampleBroker 2 4)).1 = .ok sampleEvent := by
    decide
  have pair : makeEvent asciiHost sampleClock alice sampleNotify (sampleBroker 2 4) =
      (.ok sampleEvent, (makeEvent asciiHost sampleClock alice sampleNotify (sampleBroker 2 4)).2) := by
    rw [← made]
  obtain ⟨_, _, delivers⟩ := notify_delivers_iff (sampleBroker_run 2 4)
  apply (delivers alice sampleNotify sampleEvent _ pair).mpr
  constructor
  · decide
  · decide

end Idle

end GuloGulo.Mail
