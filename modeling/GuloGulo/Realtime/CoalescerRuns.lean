import GuloGulo.Data.Machine
import GuloGulo.Js.Sha256
import GuloGulo.Realtime.Coalescer
import Mathlib.Algebra.GroupWithZero.Nat
import Mathlib.Data.List.Nodup

/-!
# What the coalescer does with the events

A run is any sequence of pushes, flushes and timers that fire. Every event that
is accepted is counted in one that is flushed or still pending, with events of
its own key only.
-/

namespace GuloGulo.Realtime
open Js Data

/-- An event whose key shows where the tenant and the user end, and whether there
is a user and a resource. -/
structure Plain (e : NormalizedRealtimeEvent) : Prop where
  tenant : 47 ∉ e.tenantId
  user : ∀ u, e.userId = some u → 47 ∉ u
  named : e.userId ≠ some (js "-")
  resource : e.resource ≠ some (js "-")

/-- Events of one tenant, user, type and resource. -/
structure Alike (e e' : NormalizedRealtimeEvent) : Prop where
  tenant : e.tenantId = e'.tenantId
  user : e.userId = e'.userId
  type : e.type = e'.type
  resource : e.resource = e'.resource

theorem text_injective {t t' : RealtimeEventType} (h : t.text = t'.text) : t = t' := by
  cases t <;> cases t' <;> first | rfl | exact absurd h (by decide)

theorem slash_not_mem_text (t : RealtimeEventType) : 47 ∉ t.text := by
  cases t <;> decide

theorem getD_injective {a b : Option JsString} (ha : a ≠ some (js "-")) (hb : b ≠ some (js "-"))
    (h : a.getD (js "-") = b.getD (js "-")) : a = b := by
  cases a with
  | none =>
    cases b with
    | none => rfl
    | some t => exact absurd (congrArg some h.symm) hb
  | some s =>
    cases b with
    | none => exact absurd (congrArg some h) ha
    | some t => exact congrArg some h

theorem slash_not_mem_getD {a : Option JsString} (ha : ∀ s, a = some s → 47 ∉ s) : 47 ∉ a.getD (js "-") := by
  cases a with
  | none =>
    rw [Option.getD_none]
    decide
  | some s => exact ha s rfl

/-- The key of a plain event tells what it is of. -/
theorem alike_of_key {e e' : NormalizedRealtimeEvent} (plain : Plain e) (plain' : Plain e')
    (h : coalescingKey e = coalescingKey e') : Alike e e' := by
  have slash : js "/" = [47] := by decide
  simp only [coalescingKey, slash, List.append_assoc, List.singleton_append] at h
  obtain ⟨tenant, h⟩ := append_separator_injective plain.tenant plain'.tenant h
  obtain ⟨user, h⟩ := append_separator_injective (slash_not_mem_getD plain.user) (slash_not_mem_getD plain'.user) h
  obtain ⟨type, resource⟩ := append_separator_injective (slash_not_mem_text _) (slash_not_mem_text _) h
  exact ⟨tenant, getD_injective plain.named plain'.named user, text_injective type,
    getD_injective plain.resource plain'.resource resource⟩

abbrev Group := NormalizedRealtimeEvent × List NormalizedRealtimeEvent

/-- What an event stands for: as many as it counts, of its key. -/
structure Fair (g : Group) : Prop where
  counted : g.1.coalescedCount = some g.2.length
  keyed : ∀ e ∈ g.2, coalescingKey e = coalescingKey g.1

def total (events : List NormalizedRealtimeEvent) : Nat := (events.map fun e => e.coalescedCount.getD 0).sum

theorem total_of_fair {groups : List Group} (fair : ∀ g ∈ groups, Fair g) :
    total (groups.map Prod.fst) = (groups.flatMap Prod.snd).length := by
  induction groups with
  | nil => rfl
  | cons g groups ih =>
    rw [List.forall_mem_cons] at fair
    have rest := ih fair.2
    simp only [total, List.map_cons, List.sum_cons, List.flatMap_cons, List.length_append, fair.1.counted,
      Option.getD_some] at rest ⊢
    omega

theorem total_perm {a b : List NormalizedRealtimeEvent} (h : a.Perm b) : total a = total b :=
  (h.map _).sum_nat

/-- An event joins the group of its key. -/
def join (key : JsString) (merged event : NormalizedRealtimeEvent) (g : Group) : Group :=
  if coalescingKey g.1 = key then (merged, event :: g.2) else g

theorem join_of_ne {key : JsString} {groups : List Group} (h : ∀ g ∈ groups, coalescingKey g.1 ≠ key)
    (merged event : NormalizedRealtimeEvent) : groups.map (join key merged event) = groups := by
  induction groups with
  | nil => rfl
  | cons g groups ih =>
    rw [List.forall_mem_cons] at h
    rw [List.map_cons, ih h.2, join, if_neg h.1]

theorem join_members {key : JsString} {groups : List Group} {g : Group}
    (nodup : (groups.map fun g => coalescingKey g.1).Nodup) (hg : g ∈ groups) (hk : coalescingKey g.1 = key)
    (merged event : NormalizedRealtimeEvent) :
    ((groups.map (join key merged event)).flatMap Prod.snd).Perm (event :: groups.flatMap Prod.snd) := by
  induction groups with
  | nil => cases hg
  | cons first groups ih =>
    rw [List.map_cons, List.nodup_cons] at nodup
    rw [List.map_cons, List.flatMap_cons, List.flatMap_cons]
    by_cases here : coalescingKey first.1 = key
    · have others : ∀ g ∈ groups, coalescingKey g.1 ≠ key := by
        intro other member same
        apply nodup.1
        rw [here, ← same]
        exact List.mem_map_of_mem member
      rw [join_of_ne others, join, if_pos here]
      exact List.Perm.refl _
    · rw [join, if_neg here]
      rcases List.mem_cons.mp hg with rfl | hg
      · exact absurd hk here
      · exact ((ih nodup.2 hg).append_left first.2).trans List.perm_middle

theorem coalesce_key (previous : Option NormalizedRealtimeEvent) (event : NormalizedRealtimeEvent) :
    coalescingKey (coalesce previous event) = coalescingKey event := by
  cases previous with
  | none => rfl
  | some previous => rfl

theorem coalesce_count {g : Group} (fair : Fair g) {event : NormalizedRealtimeEvent}
    (h : coalescingKey g.1 = coalescingKey event) : Fair (coalesce (some g.1) event, event :: g.2) := by
  constructor
  · show some (g.1.coalescedCount.getD 1 + 1) = some (event :: g.2).length
    rw [fair.counted]
    rfl
  · intro e he
    show coalescingKey e = coalescingKey event
    rcases List.mem_cons.mp he with rfl | he
    · rfl
    · exact (fair.keyed e he).trans h

theorem coalesce_first (event : NormalizedRealtimeEvent) : Fair (coalesce none event, [event]) := by
  constructor
  · rfl
  · intro e he
    rw [List.mem_singleton.mp he]
    rfl

theorem mem_remember {seen : List JsString} {eventId id : JsString} (h : id ∈ remember seen eventId) :
    id ∈ seen ∨ id = eventId := by
  have inside : id ∈ seen ++ [eventId] := by
    unfold remember at h
    dsimp only at h
    split at h
    · exact List.mem_of_mem_drop h
    · exact h
  rw [List.mem_append, List.mem_singleton] at inside
  exact inside

inductive CoalescerEvent where
  | pushed (event : NormalizedRealtimeEvent) (result : Except RealtimeEventError PushResult)
  | flushed (events : List NormalizedRealtimeEvent)
  | fired (events : List NormalizedRealtimeEvent)

def coalescer (host : Host) : Machine Coalescer CoalescerEvent where
  Start s := s = .new
  Step s e s' :=
    match e with
    | .pushed event result => push s event = (result, s')
    | .flushed events => flush host s = (events, s')
    | .fired events => (s.windowTimer || s.maxTimer) = true ∧ flush host s = (events, s')

def CoalescerEvent.acceptedEvent : CoalescerEvent → Option NormalizedRealtimeEvent
  | pushed event (.ok (.accepted _ _)) => some event
  | _ => none

def CoalescerEvent.flushedEvents : CoalescerEvent → List NormalizedRealtimeEvent
  | flushed events | fired events => events
  | pushed _ _ => []

def accepted (past : List CoalescerEvent) : List NormalizedRealtimeEvent := past.filterMap CoalescerEvent.acceptedEvent

def flushedEvents (past : List CoalescerEvent) : List NormalizedRealtimeEvent :=
  past.flatMap CoalescerEvent.flushedEvents

/-- The groups of the events flushed and of those pending. -/
structure Shares (past : List CoalescerEvent) (s : Coalescer) (done waiting : List Group) : Prop where
  flushed : (done.map Prod.fst).Perm (flushedEvents past)
  pending : waiting.map Prod.fst = s.pending.values
  members : ((done ++ waiting).flatMap Prod.snd).Perm (accepted past)
  fair : ∀ g ∈ done ++ waiting, Fair g
  keyed : ∀ r ∈ s.pending.rows, r.1 = coalescingKey r.2
  known : ∀ id ∈ s.seen, ∃ e ∈ accepted past, e.eventId = id

section
variable {past : List CoalescerEvent} {s s' : Coalescer} {done waiting : List Group}

theorem Shares.waiting_nodup (h : Shares past s done waiting) : (waiting.map fun g => coalescingKey g.1).Nodup := by
  have keys : waiting.map (fun g => coalescingKey g.1) = s.pending.rows.map Prod.fst := by
    have first : waiting.map (fun g => coalescingKey g.1) = (waiting.map Prod.fst).map coalescingKey := by
      rw [List.map_map]
      rfl
    rw [first, h.pending, OrderedMap.values, List.map_map]
    exact List.map_congr_left fun r hr => (h.keyed r hr).symm
  rw [keys]
  exact s.pending.nodup

attribute [local simp] CoalescerEvent.flushedEvents accepted in
theorem Shares.unaccepted (h : Shares past s done waiting) {e : CoalescerEvent} (none : e.acceptedEvent = none)
    (nothing : e.flushedEvents = []) : Shares (e :: past) s done waiting := by
  have same : accepted (e :: past) = accepted past := by rw [accepted, List.filterMap_cons, none, accepted]
  refine ⟨?_, h.pending, ?_, h.fair, h.keyed, ?_⟩
  · rw [flushedEvents, List.flatMap_cons, nothing]
    exact h.flushed
  · rw [same]
    exact h.members
  · rw [same]
    exact h.known

/-- An accepted event joins the group of its key, or begins one. -/
theorem Shares.push (h : Shares past s done waiting) {event : NormalizedRealtimeEvent} {coalesced : Bool} {n : Nat}
    (ended : Realtime.push s event = (.ok (.accepted coalesced n), s')) :
    ∃ waiting', Shares (.pushed event (.ok (.accepted coalesced n)) :: past) s' done waiting' := by
  unfold Realtime.push at ended
  split at ended
  · cases ended
  · split at ended
    · cases ended
    · dsimp only at ended
      cases ended
      have known : ∀ id ∈ remember s.seen event.eventId, ∃ e ∈ event :: accepted past, e.eventId = id := by
        intro id hid
        rcases mem_remember hid with hid | rfl
        · obtain ⟨e, he, same⟩ := h.known id hid
          exact ⟨e, List.mem_cons_of_mem _ he, same⟩
        · exact ⟨event, List.mem_cons_self, rfl⟩
      cases previous : s.pending.get (coalescingKey event) with
      | none =>
        refine ⟨waiting ++ [(coalesce none event, [event])], h.flushed, ?_, ?_, ?_, ?_, known⟩
        · rw [OrderedMap.values, OrderedMap.rows_set_fresh previous, List.map_append, List.map_append, h.pending]
          rfl
        · rw [← List.append_assoc, List.flatMap_append]
          exact (h.members.append_right [event]).trans List.perm_append_comm
        · intro g hg
          rw [← List.append_assoc, List.mem_append, List.mem_singleton] at hg
          rcases hg with hg | rfl
          · exact h.fair g hg
          · exact coalesce_first event
        · intro r hr
          rw [OrderedMap.rows_set_fresh previous, List.mem_append, List.mem_singleton] at hr
          rcases hr with hr | rfl
          · exact h.keyed r hr
          · rfl
      | some old =>
        have present : (coalescingKey event, old) ∈ s.pending.rows := OrderedMap.mem_rows.mpr previous
        have oldKey : coalescingKey event = coalescingKey old := h.keyed _ present
        have among : old ∈ waiting.map Prod.fst := by
          rw [h.pending]
          exact List.mem_map_of_mem present
        obtain ⟨g, hg, rfl⟩ := List.mem_map.mp among
        have only : ∀ g' ∈ waiting, coalescingKey g'.1 = coalescingKey event → g' = g := by
          intro g' hg' same
          exact List.inj_on_of_nodup_map h.waiting_nodup hg' hg (same.trans oldKey)
        refine ⟨waiting.map (Realtime.join (coalescingKey event) (coalesce (some g.1) event) event), h.flushed, ?_, ?_, ?_, ?_,
          known⟩
        · rw [OrderedMap.values, OrderedMap.rows_set_present previous, List.map_map, List.map_map]
          have split : waiting.map (Prod.fst ∘ Realtime.join (coalescingKey event) (coalesce (some g.1) event) event) =
              (waiting.map Prod.fst).map fun e =>
                if coalescingKey e = coalescingKey event then coalesce (some g.1) event else e := by
            rw [List.map_map]
            apply List.map_congr_left
            intro g' _
            simp only [Function.comp, Realtime.join]
            split <;> rfl
          rw [split, h.pending, OrderedMap.values, List.map_map]
          apply List.map_congr_left
          intro r hr
          simp only [Function.comp, h.keyed r hr]
          split <;> rfl
        · rw [List.flatMap_append]
          have joined := join_members h.waiting_nodup hg oldKey.symm (coalesce (some g.1) event) event
          have all := h.members
          rw [List.flatMap_append] at all
          exact ((joined.append_left _).trans List.perm_middle).trans (all.cons event)
        · intro g' hg'
          rcases List.mem_append.mp hg' with hg' | hg'
          · exact h.fair g' (List.mem_append_left _ hg')
          · obtain ⟨g'', hg'', rfl⟩ := List.mem_map.mp hg'
            unfold Realtime.join
            split
            · rename_i same
              rw [only g'' hg'' same]
              exact coalesce_count (h.fair g (List.mem_append_right _ hg)) oldKey.symm
            · exact h.fair g'' (List.mem_append_right _ hg'')
        · intro r hr
          rw [OrderedMap.rows_set_present previous] at hr
          obtain ⟨r', hr', rfl⟩ := List.mem_map.mp hr
          split
          · exact (coalesce_key _ _).symm
          · exact h.keyed r' hr'

theorem Shares.flush {host : Host} (h : Shares past s done waiting) {e : CoalescerEvent}
    {events : List NormalizedRealtimeEvent} (none : e.acceptedEvent = none) (all : e.flushedEvents = events)
    (ended : Realtime.flush host s = (events, s')) : Shares (e :: past) s' (waiting ++ done) [] := by
  cases ended
  have same : accepted (e :: past) = accepted past := by rw [accepted, List.filterMap_cons, none, accepted]
  refine ⟨?_, rfl, ?_, ?_, nofun, ?_⟩
  · rw [flushedEvents, List.flatMap_cons, all, List.map_append, h.pending]
    exact (List.mergeSort_perm _ _).symm.append h.flushed
  · rw [same, List.append_nil]
    exact (List.perm_append_comm.flatMap_right _).trans h.members
  · intro g hg
    rw [List.append_nil] at hg
    exact h.fair g (List.perm_append_comm.mem_iff.mp hg)
  · rw [same]
    exact h.known

end

theorem run_shares {host : Host} {past : List CoalescerEvent} {s : Coalescer} (run : (coalescer host).Run past s) :
    ∃ done waiting, Shares past s done waiting := by
  apply run.invariant (P := fun past s => ∃ done waiting, Shares past s done waiting)
  · intro s start
    rw [show s = .new from start]
    exact ⟨[], [], .refl _, rfl, .refl _, nofun, nofun, nofun⟩
  · intro past s e s' ⟨done, waiting, shares⟩ step
    cases e with
    | pushed event result =>
      have ended : push s event = (result, s') := step
      cases result with
      | error =>
        have kept : s' = s := by
          unfold push at ended
          split at ended
          · cases ended
            rfl
          · split at ended <;> cases ended
        rw [kept]
        exact ⟨done, waiting, shares.unaccepted rfl rfl⟩
      | ok result =>
        cases result with
        | duplicate =>
          have kept : s' = s := by
            unfold push at ended
            split at ended
            · cases ended
            · split at ended
              · cases ended
                rfl
              · cases ended
          rw [kept]
          exact ⟨done, waiting, shares.unaccepted rfl rfl⟩
        | accepted coalesced n =>
          obtain ⟨waiting', shares'⟩ := shares.push ended
          exact ⟨done, waiting', shares'⟩
    | flushed events => exact ⟨waiting ++ done, [], shares.flush rfl rfl step⟩
    | fired events => exact ⟨waiting ++ done, [], shares.flush rfl rfl step.2⟩

/-- The id that the frame of an event gives. -/
def explicitId (parseJson : JsString → Option JsValue) (input : JsValue) :
    Except RealtimeEventError (Option JsString) := do
  let payload ← parseObject parseJson input
  token ((payload.get "eventId").orElse (payload.get "id")) "eventId" false

theorem normalize_default {parseJson : JsString → Option JsValue} {host : Host} {input : JsValue}
    {context : RealtimeContext} {ev : NormalizedRealtimeEvent}
    (h : normalizeRealtimeEvent parseJson host input context = .ok ev) (unnamed : explicitId parseJson input = .ok none) :
    ev.eventId = defaultEventId ev.source ev.tenantId ev.userId ev.sequence ev.occurredAt ∧
      ∃ time, ev.occurredAt = isoString time := by
  unfold normalizeRealtimeEvent at h
  split at h
  · cases h
  · rename_i source _
    obtain ⟨tenantId, _, h⟩ := bind_eq_ok.mp h
    obtain ⟨userId, _, h⟩ := bind_eq_ok.mp h
    obtain ⟨payload, parsed, h⟩ := bind_eq_ok.mp h
    obtain ⟨_, _, h⟩ := bind_eq_ok.mp h
    obtain ⟨_, _, h⟩ := bind_eq_ok.mp h
    obtain ⟨type, _, h⟩ := bind_eq_ok.mp h
    obtain ⟨sequence, _, h⟩ := bind_eq_ok.mp h
    obtain ⟨occurredAt, dated, h⟩ := bind_eq_ok.mp h
    obtain ⟨eventId, named, h⟩ := bind_eq_ok.mp h
    obtain ⟨resource, _, h⟩ := bind_eq_ok.mp h
    cases h
    rw [explicitId, parsed, ok_bind, named] at unnamed
    cases unnamed
    refine ⟨rfl, ?_⟩
    unfold validDate at dated
    split at dated
    · rename_i time _
      cases dated
      exact ⟨time, rfl⟩
    · cases dated

theorem decimal_injective {m n : Nat} (h : decimal m = decimal n) : m = n := by
  rw [← parseDecimal_decimal m, h, parseDecimal_decimal]

/-- A time is no number. -/
theorem decimal_ne_isoString (n : Nat) (time : Int) : decimal n ≠ isoString time := by
  intro same
  have inside : (84 : UInt16) ∈ isoString time := by
    have t : js "T" = [84] := by decide
    simp only [isoString, t, List.mem_append, List.mem_singleton, true_or, or_true]
  rw [← same] at inside
  have digits := isDigits_decimal n
  rw [isDigits, Bool.and_eq_true, List.all_eq_true] at digits
  exact absurd (digits.2 84 inside) (by decide)

/-- Frames of one subscription without an id get one id only if their sequence
numbers are the same and, where they have none, their times. -/
def DefaultIds (parseJson : JsString → Option JsValue) (host : Host) : Prop :=
  ∀ input input' context context' ev ev', normalizeRealtimeEvent parseJson host input context = .ok ev →
    normalizeRealtimeEvent parseJson host input' context' = .ok ev' → explicitId parseJson input = .ok none →
    explicitId parseJson input' = .ok none → ev.source = ev'.source → ev.tenantId = ev'.tenantId →
    ev.userId = ev'.userId → ev.eventId = ev'.eventId →
    ev.sequence = ev'.sequence ∧ (ev.sequence = none → ev.occurredAt = ev'.occurredAt)

theorem defaultIds (parseJson : JsString → Option JsValue) (host : Host) : DefaultIds parseJson host := by
  intro input input' context context' ev ev' made made' unnamed unnamed' source tenant user same
  obtain ⟨id, time, dated⟩ := normalize_default made unnamed
  obtain ⟨id', time', dated'⟩ := normalize_default made' unnamed'
  rw [id, id', source, tenant, user, defaultEventId, defaultEventId] at same
  have ends := List.append_cancel_left same
  cases first : ev.sequence with
  | none =>
    cases second : ev'.sequence with
    | none =>
      rw [first, second] at ends
      exact ⟨rfl, fun _ => ends⟩
    | some n =>
      rw [first, second, dated] at ends
      exact absurd ends.symm (decimal_ne_isoString n time)
  | some m =>
    cases second : ev'.sequence with
    | none =>
      rw [first, second, dated'] at ends
      exact absurd ends (decimal_ne_isoString m time')
    | some n =>
      rw [first, second] at ends
      exact ⟨congrArg some (decimal_injective ends), nofun⟩

/-- Every accepted event is counted once, merged only under its own key, so with
its like, and what is refused has an id that was accepted. -/
structure Accounted (past : List CoalescerEvent) (s : Coalescer) : Prop where
  sum : total (flushedEvents past) + total s.pending.values = (accepted past).length
  merged : ∃ groups : List Group, (groups.map Prod.fst).Perm (flushedEvents past ++ s.pending.values) ∧
    (groups.flatMap Prod.snd).Perm (accepted past) ∧
    ∀ g ∈ groups, g.1.coalescedCount = some g.2.length ∧ (∀ e ∈ g.2, coalescingKey e = coalescingKey g.1) ∧
      ∀ e ∈ g.2, ∀ e' ∈ g.2, Plain e → Plain e' → Alike e e'
  refused : ∀ later e n earlier, past = later ++ .pushed e (.ok (.duplicate n)) :: earlier →
    ∃ e' ∈ accepted earlier, e'.eventId = e.eventId

theorem total_append (a b : List NormalizedRealtimeEvent) : total (a ++ b) = total a + total b := by
  rw [total, List.map_append, List.sum_append]
  rfl

theorem events_accounted {host : Host} {parseJson : JsString → Option JsValue} {past : List CoalescerEvent}
    {s : Coalescer} (run : (coalescer host).Run past s) : Accounted past s ∧ DefaultIds parseJson host := by
  obtain ⟨done, waiting, shares⟩ := run_shares run
  have events : ((done ++ waiting).map Prod.fst).Perm (flushedEvents past ++ s.pending.values) := by
    rw [List.map_append, shares.pending]
    exact shares.flushed.append_right _
  refine ⟨⟨?_, ?_, ?_⟩, defaultIds parseJson host⟩
  · rw [← total_append, ← total_perm events, total_of_fair shares.fair]
    exact shares.members.length_eq
  · refine ⟨done ++ waiting, events, shares.members, ?_⟩
    intro g hg
    have fair := shares.fair g hg
    refine ⟨fair.counted, fair.keyed, ?_⟩
    intro e he e' he' plain plain'
    exact alike_of_key plain plain' ((fair.keyed e he).trans (fair.keyed e' he').symm)
  · intro later e n earlier split
    obtain ⟨before, after, prior, step⟩ := run.happened split
    obtain ⟨done, waiting, shares⟩ := run_shares prior
    have ended : push before e = (.ok (.duplicate n), after) := step
    unfold push at ended
    split at ended
    · cases ended
    · split at ended
      · rename_i seen
        exact shares.known _ seen
      · cases ended

def change (eventId tenantId userId : String) (type : RealtimeEventType) : NormalizedRealtimeEvent :=
  ⟨js eventId, .sse, type, js tenantId, some (js userId), none, none, js "2026-08-22T12:00:00.000Z", [], none, none⟩

theorem events_accounted_two : Accounted [.flushed [coalesce none (change "1" "acme" "alice" .mailChanged)],
    .pushed (change "1" "acme" "alice" .mailChanged) (.ok (.duplicate 1)),
    .pushed (change "1" "acme" "alice" .mailChanged) (.ok (.accepted false 1))] ⟨Table.empty, [js "1"], false, false⟩ ∧
      DefaultIds (fun _ => none) asciiHost := by
  apply events_accounted
  apply Machine.Run.next (s := ⟨⟨[(_, coalesce none (change "1" "acme" "alice" .mailChanged))], by simp⟩, [js "1"], true, true⟩)
  · apply Machine.Run.next (.next (.start rfl) rfl)
    rfl
  · show flush asciiHost _ = _
    simp [flush, OrderedMap.values]

theorem push_fresh {s : Coalescer} {event : NormalizedRealtimeEvent} (named : event.eventId ≠ [])
    (fresh : event.eventId ∉ s.seen) :
    push s event = (.ok (.accepted (s.pending.get (coalescingKey event)).isSome
        (s.pending.set (coalescingKey event) (coalesce (s.pending.get (coalescingKey event)) event)).size),
      ⟨s.pending.set (coalescingKey event) (coalesce (s.pending.get (coalescingKey event)) event),
        remember s.seen event.eventId, true, true⟩) := by
  rw [push, if_neg (by rwa [List.isEmpty_iff]), if_neg fresh]

theorem push_seen {s : Coalescer} {event : NormalizedRealtimeEvent} (named : event.eventId ≠ [])
    (seen : event.eventId ∈ s.seen) : push s event = (.ok (.duplicate s.pending.size), s) := by
  rw [push, if_neg (by rwa [List.isEmpty_iff]), if_pos seen]

/-- Of two events with one id the second is refused, whatever they are of. -/
theorem second_refused (host : Host) {e e' : NormalizedRealtimeEvent} (named : e.eventId ≠ [])
    (same : e'.eventId = e.eventId) :
    ∃ s, (coalescer host).Run [.pushed e' (.ok (.duplicate 1)), .pushed e (.ok (.accepted false 1))] s := by
  have first : push .new e = _ := push_fresh named nofun
  have seen : e'.eventId ∈ remember [] e.eventId := by
    rw [same]
    exact List.mem_singleton.mpr rfl
  have second := push_seen (s := (push .new e).2) (by rwa [same]) (by rw [first]; exact seen)
  have size : (push .new e).2.pending.size = 1 := by
    rw [first]
    rfl
  rw [size] at second
  have began : (coalescer host).Run [.pushed e (.ok (.accepted false 1))] (push .new e).2 := by
    apply Machine.Run.next (.start rfl)
    show push .new e = _
    rw [first]
    rfl
  exact ⟨_, .next began second⟩

theorem defaultEventId_ne_nil (source : RealtimeSource) (tenantId : JsString) (userId : Option JsString)
    (sequence : Option Nat) (occurredAt : JsString) : defaultEventId source tenantId userId sequence occurredAt ≠ [] := by
  have colon : js ":" = [58] := by decide
  simp [defaultEventId, colon]

def subscription : RealtimeContext := ⟨some .sse, .string (js "acme"), .string (js "alice"), some 1787400000000⟩

def mailFrame : JsValue := .object [(js "type", .string (js "mail.changed")), (js "mailbox", .string (js "INBOX"))]

def calendarFrame : JsValue := .object [(js "type", .string (js "calendar.changed")), (js "resource", .string (js "work"))]

/-- Events of different users are merged, and of two changes at one time the second is refused. -/
theorem events_mixed_up :
    (∃ s, (coalescer asciiHost).Run [.pushed (change "2" "acme" "sales/alice" .mailChanged) (.ok (.accepted true 1)),
        .pushed (change "1" "acme/sales" "alice" .mailChanged) (.ok (.accepted false 1))] s) ∧
      ¬ Alike (change "1" "acme/sales" "alice" .mailChanged) (change "2" "acme" "sales/alice" .mailChanged) ∧
      ∃ ev ev', normalizeRealtimeEvent (fun _ => none) asciiHost mailFrame subscription = .ok ev ∧
        normalizeRealtimeEvent (fun _ => none) asciiHost calendarFrame subscription = .ok ev' ∧
        explicitId (fun _ => none) mailFrame = .ok none ∧ explicitId (fun _ => none) calendarFrame = .ok none ∧
        ev.type ≠ ev'.type ∧ ev.resource ≠ ev'.resource ∧
        ∃ s, (coalescer asciiHost).Run [.pushed ev' (.ok (.duplicate 1)), .pushed ev (.ok (.accepted false 1))] s := by
  refine ⟨⟨_, .next (.next (.start rfl) rfl) rfl⟩, ?_, _, _, rfl, rfl, rfl, rfl, by decide, by decide, ?_⟩
  · intro alike
    exact absurd alike.tenant (by decide)
  · exact second_refused asciiHost (defaultEventId_ne_nil _ _ _ _ _) rfl

end GuloGulo.Realtime
