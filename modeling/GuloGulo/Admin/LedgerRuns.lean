import GuloGulo.Admin.Ledger
import GuloGulo.Js.Sha256

/-!
# The ledger over a run

Allocations, reservations and releases in any order: the usage of a user is what
they had at first and what they reserved and did not release.
-/

namespace GuloGulo.Admin
open Js Data

namespace Quota

/-- An accepted reservation. -/
structure Granted where
  reservationId : JsString
  userId : JsString
  sizeBytes : Int

/-- A call, and what it answered, if it did. -/
structure Made where
  call : Call
  answer : Option Answer

namespace Made

def granted (made : Made) : Option Granted :=
  match made.answer with
  | some (.reserve (.accepted id _ userId size)) => some ⟨id, userId, size⟩
  | _ => none

def released (made : Made) : Option JsString :=
  match made.answer with
  | some (.release ⟨true, _, id⟩) => some id
  | _ => none

end Made

def granted (made : List Made) : List Granted := made.filterMap Made.granted

def released (made : List Made) : List JsString := made.filterMap Made.released

/-- The bytes of a user that were reserved and not released. -/
def outstanding (granted : List Granted) (released : List JsString) (userId : JsString) : Int :=
  ((granted.filter fun r => r.userId = userId ∧ r.reservationId ∉ released).map Granted.sizeBytes).sum

inductive Run (host : Host) (ledger : QuotaLedger) (created : LedgerState) : List Made → LedgerState → Prop where
  | created : Run host ledger created [] created
  | call {made : List Made} {s : LedgerState} (run : Run host ledger created made s) (call : Call) :
      Run host ledger created (made ++ [⟨call, (call.run host ledger s).1.toOption⟩]) (call.run host ledger s).2

/-- What ties the reservations of the state to the history of a run. -/
structure Recorded (ledger : QuotaLedger) (made : List Made) (s : LedgerState) : Prop where
  rows : s.reservations.rows = (granted made).map fun r =>
    (r.reservationId, ⟨ledger.tenantId, r.userId, r.sizeBytes, decide (r.reservationId ∈ released made)⟩)
  issued : ∀ r ∈ granted made, ∃ n ≤ s.reservationSequence, r.reservationId = reservationId n
  sizes : ∀ r ∈ granted made, 0 ≤ r.sizeBytes
  returned : ∀ id ∈ released made, ∃ r ∈ granted made, r.reservationId = id
  known : ∀ r ∈ granted made, s.allocations.get r.userId ≠ none

structure Accounted (ledger : QuotaLedger) (created : LedgerState) (made : List Made) (s : LedgerState) : Prop extends
    Recorded ledger made s where
  usage : ∀ u, used s u = used created u + outstanding (granted made) (released made) u

section
variable {host : Host} {ledger : QuotaLedger} {created s : LedgerState} {made : List Made}

theorem outstanding_cons (r : Granted) (rs : List Granted) (released : List JsString) (u : JsString) :
    outstanding (r :: rs) released u =
      (if r.userId = u ∧ r.reservationId ∉ released then r.sizeBytes else 0) + outstanding rs released u := by
  by_cases h : r.userId = u ∧ r.reservationId ∉ released
  · simp [outstanding, h]
  · rw [if_neg h, Int.zero_add]
    simp only [outstanding]
    rw [List.filter_cons_of_neg (by simpa using h)]

theorem outstanding_append (rs : List Granted) (r : Granted) (released : List JsString) (u : JsString) :
    outstanding (rs ++ [r]) released u = outstanding rs released u +
      (if r.userId = u ∧ r.reservationId ∉ released then r.sizeBytes else 0) := by
  induction rs with
  | nil =>
    rw [List.nil_append, outstanding_cons]
    exact Int.add_comm _ _
  | cons x rs ih =>
    rw [List.cons_append, outstanding_cons, outstanding_cons, ih]
    omega

theorem outstanding_other {rs : List Granted} {id : JsString} (released : List JsString) (u : JsString)
    (other : ∀ r ∈ rs, r.reservationId ≠ id) : outstanding rs (released ++ [id]) u = outstanding rs released u := by
  have same : rs.filter (fun r => r.userId = u ∧ r.reservationId ∉ released ++ [id]) =
      rs.filter fun r => r.userId = u ∧ r.reservationId ∉ released := by
    apply List.filter_congr
    intro r hr
    simp [other r hr]
  rw [outstanding, same]
  rfl

/-- A release takes off what was reserved. -/
theorem outstanding_release {rs : List Granted} {r : Granted} {released : List JsString} (u : JsString)
    (distinct : (rs.map Granted.reservationId).Nodup) (member : r ∈ rs) (unreleased : r.reservationId ∉ released) :
    outstanding rs (released ++ [r.reservationId]) u =
      outstanding rs released u - if r.userId = u then r.sizeBytes else 0 := by
  induction rs with
  | nil => cases member
  | cons x rs ih =>
    rw [List.map_cons, List.nodup_cons] at distinct
    rw [outstanding_cons, outstanding_cons]
    rcases List.mem_cons.mp member with rfl | member
    · have other : ∀ y ∈ rs, y.reservationId ≠ r.reservationId := fun y hy same =>
        distinct.1 (List.mem_map.mpr ⟨y, hy, same⟩)
      rw [outstanding_other _ _ other]
      by_cases hu : r.userId = u
      · simp [hu, unreleased]
      · simp [hu]
    · have other : x.reservationId ≠ r.reservationId := fun same =>
        distinct.1 (List.mem_map.mpr ⟨r, member, same.symm⟩)
      rw [ih distinct.2 member]
      simp only [List.mem_append, List.mem_singleton, other, or_false]
      omega

theorem outstanding_nonneg {rs : List Granted} (released : List JsString) (u : JsString)
    (sizes : ∀ r ∈ rs, 0 ≤ r.sizeBytes) : 0 ≤ outstanding rs released u := by
  apply List.sum_nonneg
  intro n hn
  obtain ⟨r, hr, rfl⟩ := List.mem_map.mp hn
  exact sizes r (List.mem_filter.mp hr).1

theorem outstanding_ge {rs : List Granted} {r : Granted} {released : List JsString}
    (sizes : ∀ r ∈ rs, 0 ≤ r.sizeBytes) (member : r ∈ rs) (unreleased : r.reservationId ∉ released) :
    r.sizeBytes ≤ outstanding rs released r.userId := by
  induction rs with
  | nil => cases member
  | cons x rs ih =>
    rw [List.forall_mem_cons] at sizes
    rw [outstanding_cons]
    rcases List.mem_cons.mp member with rfl | member
    · have rest := outstanding_nonneg released r.userId sizes.2
      rw [if_pos ⟨rfl, unreleased⟩]
      omega
    · have rest := ih sizes.2 member
      have here := sizes.1
      split <;> omega

theorem granted_append (made : List Made) (m : Made) : granted (made ++ [m]) = granted made ++ m.granted.toList := by
  simp only [granted, List.filterMap_append, List.filterMap_cons, List.filterMap_nil]
  cases m.granted <;> rfl

theorem released_append (made : List Made) (m : Made) : released (made ++ [m]) = released made ++ m.released.toList := by
  simp only [released, List.filterMap_append, List.filterMap_cons, List.filterMap_nil]
  cases m.released <;> rfl

theorem used_withAllocation (s : LedgerState) (target : JsString) (n : Int) (u : JsString) :
    used (withAllocation s target n) u = used s u := by
  simp only [used, withAllocation]
  split
  · rename_i fresh
    rw [OrderedMap.get_set]
    split
    · rename_i same
      rw [← same, Option.isNone_iff_eq_none.mp fresh]
      rfl
    · rfl
  · rfl

theorem reservationId_injective {m n : Nat} (h : reservationId m = reservationId n) : m = n :=
  pad_injective (List.append_cancel_left h)

theorem granted_nothing {m : Made} (nothing : m.granted = none) : granted (made ++ [m]) = granted made := by
  rw [granted_append, nothing]
  exact List.append_nil _

theorem released_nothing {m : Made} (nothing : m.released = none) : released (made ++ [m]) = released made := by
  rw [released_append, nothing]
  exact List.append_nil _

section
variable (recorded : Recorded ledger made s)
include recorded

theorem distinct_of_rows : ((granted made).map Granted.reservationId).Nodup := by
  have nodup := s.reservations.nodup
  rw [recorded.rows, List.map_map] at nodup
  exact nodup

/-- A reservation of the state is one of the history. -/
theorem granted_of_present {id : JsString} {reservation : Reservation}
    (present : s.reservations.get id = some reservation) : ∃ r ∈ granted made, r.reservationId = id ∧
      reservation = ⟨ledger.tenantId, r.userId, r.sizeBytes, decide (id ∈ released made)⟩ := by
  have row := OrderedMap.mem_rows.mpr present
  rw [recorded.rows] at row
  obtain ⟨r, member, same⟩ := List.mem_map.mp row
  cases same
  exact ⟨r, member, rfl, rfl⟩

theorem fresh_of_issued : s.reservations.get (reservationId (s.reservationSequence + 1)) = none := by
  by_contra present
  obtain ⟨reservation, present⟩ := Option.ne_none_iff_exists'.mp present
  obtain ⟨r, member, same, _⟩ := granted_of_present recorded present
  obtain ⟨n, bound, issued⟩ := recorded.issued r member
  have := reservationId_injective (same.symm.trans issued)
  omega

theorem next_unreleased : reservationId (s.reservationSequence + 1) ∉ released made := by
  intro member
  obtain ⟨r, hr, same⟩ := recorded.returned _ member
  obtain ⟨n, bound, issued⟩ := recorded.issued r hr
  have := reservationId_injective (same.symm.trans issued)
  omega

/-- A call that reserves and releases nothing. -/
theorem recorded_kept {s' : LedgerState} {m : Made} (nothing : m.granted = none ∧ m.released = none)
    (reservations : s'.reservations = s.reservations) (sequence : s.reservationSequence ≤ s'.reservationSequence)
    (known : ∀ u, s.allocations.get u ≠ none → s'.allocations.get u ≠ none) : Recorded ledger (made ++ [m]) s' := by
  have grants : granted (made ++ [m]) = granted made := granted_nothing nothing.1
  have releases : released (made ++ [m]) = released made := released_nothing nothing.2
  constructor
  · rw [reservations, grants, releases]
    exact recorded.rows
  · rw [grants]
    intro r hr
    obtain ⟨n, bound, issued⟩ := recorded.issued r hr
    exact ⟨n, bound.trans sequence, issued⟩
  · rw [grants]
    exact recorded.sizes
  · rw [grants, releases]
    exact recorded.returned
  · rw [grants]
    exact fun r hr => known _ (recorded.known r hr)

theorem recorded_reserved {s' : LedgerState} {m : Made} {target : JsString} {size : Int}
    (grants : m.granted = some ⟨reservationId (s.reservationSequence + 1), target, size⟩) (releases : m.released = none)
    (known : s.allocations.get target ≠ none) (low : 0 ≤ size)
    (after : s' = { s with
      usage := s.usage.set target (used s target + size)
      reservationSequence := s.reservationSequence + 1
      reservations := s.reservations.set (reservationId (s.reservationSequence + 1))
        ⟨ledger.tenantId, target, size, false⟩ }) : Recorded ledger (made ++ [m]) s' := by
  have fresh := fresh_of_issued recorded
  have unreleased := next_unreleased recorded
  have grants : granted (made ++ [m]) = granted made ++ [⟨reservationId (s.reservationSequence + 1), target, size⟩] := by
    rw [granted_append, grants]
    rfl
  have releases : released (made ++ [m]) = released made := released_nothing releases
  subst after
  constructor
  · have absent : s.reservations.lookup (reservationId (s.reservationSequence + 1)) = none := by
      simpa [OrderedMap.get] using fresh
    show (s.reservations.set _ _).rows = _
    rw [OrderedMap.set, Table.rows_put, if_pos absent, grants, releases, List.map_append, recorded.rows,
      List.map_singleton, decide_eq_false unreleased]
  · rw [grants]
    intro r hr
    rcases List.mem_append.mp hr with hr | hr
    · obtain ⟨n, bound, issued⟩ := recorded.issued r hr
      exact ⟨n, Nat.le_succ_of_le bound, issued⟩
    · cases List.mem_singleton.mp hr
      exact ⟨_, Nat.le_refl _, rfl⟩
  · rw [grants]
    intro r hr
    rcases List.mem_append.mp hr with hr | hr
    · exact recorded.sizes r hr
    · cases List.mem_singleton.mp hr
      exact low
  · rw [grants, releases]
    intro id hid
    obtain ⟨r, hr, same⟩ := recorded.returned id hid
    exact ⟨r, List.mem_append_left _ hr, same⟩
  · rw [grants]
    intro r hr
    rcases List.mem_append.mp hr with hr | hr
    · exact recorded.known r hr
    · cases List.mem_singleton.mp hr
      exact known

theorem recorded_released {s' : LedgerState} {m : Made} {id : JsString} {reservation : Reservation}
    (grants : m.granted = none) (releases : m.released = some id) (present : s.reservations.get id = some reservation)
    (after : s' = { s with
      usage := s.usage.set reservation.userId (usageAfter s reservation)
      reservations := s.reservations.set id { reservation with released := true } }) :
    Recorded ledger (made ++ [m]) s' := by
  obtain ⟨r, member, rfl, rfl⟩ := granted_of_present recorded present
  have distinct := distinct_of_rows recorded
  have grants : granted (made ++ [m]) = granted made := granted_nothing grants
  have releases : released (made ++ [m]) = released made ++ [r.reservationId] := by
    rw [released_append, releases]
    rfl
  subst after
  constructor
  · have there : s.reservations.lookup r.reservationId ≠ none := by
      intro absent
      rw [OrderedMap.get, absent] at present
      cases present
    show (s.reservations.set _ _).rows = _
    rw [OrderedMap.set, Table.rows_put, if_neg there, grants, releases, recorded.rows, List.map_map]
    apply List.map_congr_left
    intro x hx
    by_cases same : x.reservationId = r.reservationId
    · cases List.inj_on_of_nodup_map distinct hx member same
      simp
    · simp [same]
  · rw [grants]
    exact recorded.issued
  · rw [grants]
    exact recorded.sizes
  · rw [grants, releases]
    intro id hid
    rcases List.mem_append.mp hid with hid | hid
    · exact recorded.returned id hid
    · exact ⟨r, member, (List.mem_singleton.mp hid).symm⟩
  · rw [grants]
    exact recorded.known

end

theorem accounted_kept (accounted : Accounted ledger created made s) {s' : LedgerState} {m : Made}
    (nothing : m.granted = none ∧ m.released = none) (reservations : s'.reservations = s.reservations)
    (sequence : s.reservationSequence ≤ s'.reservationSequence)
    (known : ∀ u, s.allocations.get u ≠ none → s'.allocations.get u ≠ none) (usage : ∀ u, used s' u = used s u) :
    Accounted ledger created (made ++ [m]) s' := by
  refine ⟨recorded_kept accounted.toRecorded nothing reservations sequence known, fun u => ?_⟩
  rw [usage, granted_nothing nothing.1, released_nothing nothing.2]
  exact accounted.usage u

theorem accounted_reserved (accounted : Accounted ledger created made s) {s' : LedgerState} {m : Made}
    {target : JsString} {size : Int}
    (grants : m.granted = some ⟨reservationId (s.reservationSequence + 1), target, size⟩) (releases : m.released = none)
    (known : s.allocations.get target ≠ none) (low : 0 ≤ size)
    (after : s' = { s with
      usage := s.usage.set target (used s target + size)
      reservationSequence := s.reservationSequence + 1
      reservations := s.reservations.set (reservationId (s.reservationSequence + 1))
        ⟨ledger.tenantId, target, size, false⟩ }) :
    Accounted ledger created (made ++ [m]) s' := by
  have unreleased := next_unreleased accounted.toRecorded
  refine ⟨recorded_reserved accounted.toRecorded grants releases known low after, fun u => ?_⟩
  have grants : granted (made ++ [m]) = granted made ++ [⟨reservationId (s.reservationSequence + 1), target, size⟩] := by
    rw [granted_append, grants]
    rfl
  have releases : released (made ++ [m]) = released made := released_nothing releases
  subst after
  have usage : used { s with
      usage := s.usage.set target (used s target + size)
      reservationSequence := s.reservationSequence + 1
      reservations := s.reservations.set (reservationId (s.reservationSequence + 1))
        ⟨ledger.tenantId, target, size, false⟩ } u = if target = u then used s target + size else used s u := by
    simp only [used, OrderedMap.get_set]
    split <;> rfl
  rw [usage, grants, releases, outstanding_append]
  have before := accounted.usage u
  by_cases hu : target = u
  · subst hu
    have added : (if target = target ∧ reservationId (s.reservationSequence + 1) ∉ released made then size else 0) =
        size := if_pos ⟨rfl, unreleased⟩
    rw [if_pos rfl]
    dsimp only
    rw [added]
    omega
  · rw [if_neg hu, if_neg fun h => hu h.1]
    omega

theorem usageAfter_eq (balanced : Balanced ledger created) (accounted : Accounted ledger created made s)
    {id : JsString} {reservation : Reservation} (present : s.reservations.get id = some reservation)
    (unreleased : reservation.released = false) :
    0 ≤ used s reservation.userId - reservation.sizeBytes ∧
      usageAfter s reservation = used s reservation.userId - reservation.sizeBytes := by
  obtain ⟨r, member, rfl, rfl⟩ := granted_of_present accounted.toRecorded present
  have initial := (balanced.used_bounds r.userId).1
  have usage := accounted.usage r.userId
  have enough := outstanding_ge accounted.sizes member (of_decide_eq_false unreleased)
  have low : 0 ≤ used s r.userId - r.sizeBytes := by omega
  exact ⟨low, max_eq_right low⟩

theorem accounted_released (balanced : Balanced ledger created) (accounted : Accounted ledger created made s)
    {s' : LedgerState} {m : Made} {id : JsString} {reservation : Reservation} (grants : m.granted = none)
    (releases : m.released = some id) (present : s.reservations.get id = some reservation)
    (unreleased : reservation.released = false)
    (after : s' = { s with
      usage := s.usage.set reservation.userId (usageAfter s reservation)
      reservations := s.reservations.set id { reservation with released := true } }) :
    Accounted ledger created (made ++ [m]) s' := by
  refine ⟨recorded_released accounted.toRecorded grants releases present after, fun u => ?_⟩
  have clamp := (usageAfter_eq balanced accounted present unreleased).2
  obtain ⟨r, member, rfl, rfl⟩ := granted_of_present accounted.toRecorded present
  have distinct := distinct_of_rows accounted.toRecorded
  have unreleased : r.reservationId ∉ released made := of_decide_eq_false unreleased
  have grants : granted (made ++ [m]) = granted made := granted_nothing grants
  have releases : released (made ++ [m]) = released made ++ [r.reservationId] := by
    rw [released_append, releases]
    rfl
  subst after
  have usage : used { s with
      usage := s.usage.set r.userId (used s r.userId - r.sizeBytes)
      reservations := s.reservations.set r.reservationId ⟨ledger.tenantId, r.userId, r.sizeBytes, true⟩ } u =
      if r.userId = u then used s r.userId - r.sizeBytes else used s u := by
    simp only [used, OrderedMap.get_set]
    split <;> rfl
  have before := accounted.usage u
  rw [grants, releases, outstanding_release u distinct member unreleased]
  dsimp only at clamp ⊢
  rw [clamp, usage]
  by_cases hu : r.userId = u
  · subst hu
    rw [if_pos rfl, if_pos rfl]
    omega
  · rw [if_neg hu, if_neg hu]
    omega

theorem known_withAllocation (s : LedgerState) (target : JsString) (n : Int) (u : JsString)
    (h : s.allocations.get u ≠ none) : (withAllocation s target n).allocations.get u ≠ none := by
  rw [show (withAllocation s target n).allocations = s.allocations.set target n from rfl, OrderedMap.get_set]
  split
  · exact Option.some_ne_none _
  · exact h

/-- One call keeps both. -/
theorem call_keeps (initial : Balanced ledger created) (balanced : Balanced ledger s)
    (accounted : Accounted ledger created made s) (call : Call) :
    Balanced ledger (call.run host ledger s).2 ∧
      Accounted ledger created (made ++ [⟨call, (call.run host ledger s).1.toOption⟩]) (call.run host ledger s).2 := by
  have outcome : Outcome ledger s call (call.run host ledger s).1 (call.run host ledger s).2 :=
    call_outcome balanced call
  generalize (call.run host ledger s).1 = r at outcome
  generalize (call.run host ledger s).2 = s' at outcome
  cases outcome with
  | threw => exact ⟨balanced, accounted_kept accounted ⟨rfl, rfl⟩ rfl le_rfl (fun _ h => h) fun _ => rfl⟩
  | refused => exact ⟨balanced, accounted_kept accounted ⟨rfl, rfl⟩ rfl le_rfl (fun _ h => h) fun _ => rfl⟩
  | alreadyReleased => exact ⟨balanced, accounted_kept accounted ⟨rfl, rfl⟩ rfl le_rfl (fun _ h => h) fun _ => rfl⟩
  | allocated target n answer requests known fits =>
    exact ⟨balanced.withAllocation known fits,
      accounted_kept accounted ⟨rfl, rfl⟩ rfl le_rfl (known_withAllocation s target n) (used_withAllocation s target n)⟩
  | reserved context input target size _ is known low room after =>
    have bounds := balanced.used_bounds target
    have high : used s target + size ≤ allocated s target := by omega
    constructor
    · apply balanced.withUsage known _ high
      · rw [after]
      · rw [after]
      · omega
    · exact accounted_reserved accounted rfl rfl known low after
  | released context id reservation _ is present unreleased after =>
    obtain ⟨low, clamp⟩ := usageAfter_eq initial accounted present unreleased
    constructor
    · obtain ⟨r, member, same, rfl⟩ := granted_of_present accounted.toRecorded present
      have bounds := balanced.used_bounds r.userId
      have size := accounted.sizes r member
      dsimp only at low clamp after
      have high : used s r.userId - r.sizeBytes ≤ allocated s r.userId := by omega
      apply balanced.withUsage (accounted.known r member) low high
      · rw [after]
      · rw [after]
        exact congrArg (s.usage.set r.userId) clamp
    · exact accounted_released initial accounted rfl rfl present unreleased after

theorem recorded_empty (empty : s.reservations = Table.empty) : Recorded ledger [] s where
  rows := by rw [empty]; rfl
  issued := nofun
  sizes := nofun
  returned := nofun
  known := nofun

theorem run_keeps (initial : Balanced ledger created) (empty : created.reservations = Table.empty)
    (run : Run host ledger created made s) : Balanced ledger s ∧ Accounted ledger created made s := by
  induction run with
  | created =>
    refine ⟨initial, ?_⟩
    exact ⟨recorded_empty empty, fun u => (Int.add_zero _).symm⟩
  | call run call ih => exact call_keeps initial ih.1 ih.2 call

theorem addInitial_keeps (balanced : Balanced ledger s) (empty : s.reservations = Table.empty) (initial : JsValue) :
    Eff.wp (addInitial ledger initial) s fun r s' =>
      r.isOk → Balanced ledger s' ∧ s'.reservations = Table.empty := by
  refine Eff.wp_check_bind.mpr ⟨fun _ _ ok => absurd ok Bool.false_ne_true, fun _ _ => ?_⟩
  refine Eff.wp_check_bind.mpr ⟨fun _ _ ok => absurd ok Bool.false_ne_true, fun target _ => ?_⟩
  rw [Eff.wp_get_bind]
  refine Eff.wp_check_bind.mpr ⟨fun _ _ ok => absurd ok Bool.false_ne_true, fun _ fresh => ?_⟩
  have fresh := throwIf_eq_ok.mp fresh
  rw [Option.isSome_eq_false_iff, Option.isNone_iff_eq_none] at fresh
  have unused : used s target = 0 := by rw [used, balanced.users target fresh, Option.getD_none]
  apply wp_setAllocation_bind balanced
  · intro _ _ ok
    exact absurd ok Bool.false_ne_true
  · intro _ _ _ ok
    exact absurd ok Bool.false_ne_true
  · intro n hn fits
    have low := (assertBytes_bounds hn).1
    have set := balanced.withAllocation (by omega) fits
    refine Eff.wp_check_bind.mpr ⟨fun _ _ ok => absurd ok Bool.false_ne_true, fun initialUsed hu => ?_⟩
    rw [Eff.wp_get_bind]
    refine Eff.wp_check_bind.mpr ⟨fun _ _ ok => absurd ok Bool.false_ne_true, fun _ within => ?_⟩
    have within := not_lt.mp (of_decide_eq_false (throwIf_eq_ok.mp within))
    have known : (withAllocation s target n).allocations.get target ≠ none := by
      rw [show (withAllocation s target n).allocations = s.allocations.set target n from rfl, OrderedMap.get_set,
        if_pos rfl]
      exact Option.some_ne_none _
    intro _
    exact ⟨set.withUsage known (assertBytes_bounds hu).1 within rfl rfl, empty⟩

theorem addInitials_keeps (initials : List JsValue) (balanced : Balanced ledger s)
    (empty : s.reservations = Table.empty) :
    Eff.wp (addInitials ledger initials) s fun r s' =>
      r.isOk → Balanced ledger s' ∧ s'.reservations = Table.empty := by
  induction initials generalizing s with
  | nil => exact fun _ => ⟨balanced, empty⟩
  | cons initial rest ih =>
    rw [addInitials, Eff.wp_bind]
    apply Eff.wp_mono (addInitial_keeps balanced empty initial)
    intro r s' keeps
    cases r with
    | error e => nofun
    | ok u =>
      obtain ⟨balanced, empty⟩ := keeps rfl
      exact ih balanced empty

theorem assertBytes_positive {value : JsValue} {field : String} {n : Int}
    (h : assertBytes value field true = .ok n) : 0 < n ∧ n ≤ maxSafeInteger := by
  unfold assertBytes at h
  split at h
  · split at h
    · rename_i holds
      cases h
      rw [isBytes, Bool.and_eq_true] at holds
      exact ⟨of_decide_eq_true holds.2, (of_decide_eq_true holds.1).2⟩
    · cases h
  · cases h

theorem create_keeps {options : QuotaLedgerOptions} (h : createQuotaLedger options = .ok (ledger, created)) :
    Balanced ledger created ∧ created.reservations = Table.empty := by
  obtain ⟨tenantId, _, h⟩ := bind_eq_ok.mp h
  obtain ⟨gross, hg, h⟩ := bind_eq_ok.mp h
  obtain ⟨positive, bound⟩ := assertBytes_positive (mapError_eq_ok.mp hg)
  have start : Balanced ⟨tenantId, gross⟩ ⟨Table.empty, Table.empty, 0, Table.empty⟩ :=
    ⟨bound, positive.le, nofun, fun _ _ => rfl⟩
  have keeps := addInitials_keeps options.initialUsers start rfl
  dsimp only at h
  obtain ⟨_, added, h⟩ := bind_eq_ok.mp h
  cases h
  exact keeps (isOk_of_eq added)

/-- What holds in a state of the ledger. -/
structure Sound (ledger : QuotaLedger) (created : LedgerState) (made : List Made) (s : LedgerState) : Prop where
  total : s.allocations.values.sum ≤ ledger.gross
  within : ∀ u, 0 ≤ used s u ∧ used s u ≤ allocated s u
  usage : ∀ u, used s u = used created u + outstanding (granted made) (released made) u
  clamp : ∀ id reservation, s.reservations.get id = some reservation → reservation.released = false →
    0 ≤ used s reservation.userId - reservation.sizeBytes
  adds : ∀ exclude, (totalAllocated s exclude).isOk
  overflow : ∀ target value, (setAllocation ledger target value s).1 = .error (.contract quotaOverflow) ↔
    ∃ n, assertBytes value "allocatedQuotaBytes" = .ok n ∧ Overflows s target n

/-- What holds of the next call. -/
structure Settles (host : Host) (ledger : QuotaLedger) (made : List Made) (s : LedgerState) (call : Call) : Prop where
  counted : ∀ tenantId userId,
    (call.run host ledger s).1 ≠ .ok (.reserve (.refused "quota_overflow" tenantId userId))
  overflow : (call.run host ledger s).1 = .error (.contract quotaOverflow) →
    ∃ target n, call.Requests target n ∧ Overflows s target n
  threw : ∀ e, (call.run host ledger s).1 = .error e → (call.run host ledger s).2 = s
  refused : ∀ reason tenantId userId, (call.run host ledger s).1 = .ok (.reserve (.refused reason tenantId userId)) →
    (call.run host ledger s).2 = s
  twice : ∀ context id, call = .release context (.string id) → id ∈ released made →
    (call.run host ledger s).2 = s

theorem setAllocation_overflows (balanced : Balanced ledger s) (target : JsString) (value : JsValue) :
    (setAllocation ledger target value s).1 = .error (.contract quotaOverflow) ↔
      ∃ n, assertBytes value "allocatedQuotaBytes" = .ok n ∧ Overflows s target n := by
  apply wp_setAllocation (Q := fun r _ => r = .error (.contract quotaOverflow) ↔
    ∃ n, assertBytes value "allocatedQuotaBytes" = .ok n ∧ Overflows s target n) balanced
  · intro e ordinary within
    constructor
    · intro same
      exact absurd (Thrown.contract.inj (Except.error.inj same)) ordinary
    · rintro ⟨n, hn, beyond⟩
      exact absurd beyond (within n hn)
  · intro n hn beyond
    exact ⟨fun _ => ⟨n, hn, beyond⟩, fun _ => rfl⟩
  · intro n hn fits
    constructor
    · nofun
    · rintro ⟨m, hm, beyond⟩
      cases hn.symm.trans hm
      have beyond : (maxSafeInteger : Int) < s.allocations.sumExcept target + n := beyond
      have gross := balanced.gross
      omega

theorem sound_of (initial : Balanced ledger created) (balanced : Balanced ledger s)
    (accounted : Accounted ledger created made s) : Sound ledger created made s := by
  constructor
  · exact balanced.total
  · exact balanced.used_bounds
  · exact accounted.usage
  · intro id reservation present unreleased
    exact (usageAfter_eq initial accounted present unreleased).1
  · intro exclude
    cases exclude with
    | none => exact isOk_of_eq balanced.totalAllocated_none
    | some target => exact isOk_of_eq (balanced.totalAllocated_eq target)
  · exact setAllocation_overflows balanced

theorem settles_of (balanced : Balanced ledger s) (accounted : Accounted ledger created made s) (call : Call) :
    Settles host ledger made s call := by
  have outcome : Outcome ledger s call (call.run host ledger s).1 (call.run host ledger s).2 :=
    call_outcome balanced call
  generalize result : call.run host ledger s = p at outcome
  obtain ⟨r, s'⟩ := p
  constructor
  all_goals rw [result]
  · intro tenantId userId same
    cases outcome with
    | refused => simp at same
    | _ => cases same
  · rintro rfl
    cases outcome with
    | threw _ overflow => exact overflow rfl
  · rintro e rfl
    cases outcome
    rfl
  · rintro reason tenantId userId rfl
    cases outcome
    rfl
  · intro context id is member
    cases outcome with
    | threw => rfl
    | refused => rfl
    | alreadyReleased => rfl
    | allocated target n answer requests =>
      rw [is] at requests
      cases requests
    | reserved context' input target size _ is' =>
      cases is.symm.trans is'
    | released context' id' reservation _ is' present unreleased =>
      cases is.symm.trans is'
      obtain ⟨r, _, rfl, rfl⟩ := granted_of_present accounted.toRecorded present
      exact absurd member (of_decide_eq_false unreleased)

/-- After any run of a ledger that was accepted, the allocations fit the gross
quota, the usage of a user is what it was at first and what is reserved, within
the allocation, and nothing that adds up leaves the safe integers; only a
request that is itself too large for them is refused with that error. What the
next call throws or refuses changes nothing, and neither does a second release. -/
theorem ledger_sound {options : QuotaLedgerOptions} (accepted : createQuotaLedger options = .ok (ledger, created))
    (run : Run host ledger created made s) :
    Sound ledger created made s ∧ ∀ call : Call, Settles host ledger made s call := by
  obtain ⟨initial, empty⟩ := create_keeps accepted
  obtain ⟨balanced, accounted⟩ := run_keeps initial empty run
  exact ⟨sound_of initial balanced accounted, settles_of balanced accounted⟩

end

/-- `alice` has one of ten bytes, `bob` none. -/
def sampleOptions : QuotaLedgerOptions := ⟨.string (js "acme"), .number 10,
  [.object [(js "userId", .string (js "alice")), (js "allocatedQuotaBytes", .number 1)],
    .object [(js "userId", .string (js "bob"))]]⟩

def sampleLedger : QuotaLedger := ⟨js "acme", 10⟩

def sampleCreated : LedgerState :=
  (addInitials sampleLedger sampleOptions.initialUsers ⟨Table.empty, Table.empty, 0, Table.empty⟩).2

theorem sample_accepted : createQuotaLedger sampleOptions = .ok (sampleLedger, sampleCreated) := by
  have tenant : assertTenantId sampleOptions.tenantId = .ok (js "acme") := by decide
  have gross : assertBytes sampleOptions.grossQuotaBytes "grossQuotaBytes" true = .ok 10 := by decide
  have added : (addInitials sampleLedger sampleOptions.initialUsers
      ⟨Table.empty, Table.empty, 0, Table.empty⟩).1 = .ok () := by decide
  rw [createQuotaLedger, tenant, mapError_ok, ok_bind, gross, mapError_ok, ok_bind]
  show (addInitials sampleLedger sampleOptions.initialUsers ⟨Table.empty, Table.empty, 0, Table.empty⟩).1 >>= _ = _
  rw [added]
  rfl

def provider : JsValue := .object [(js "tenantId", .string (js "acme")), (js "domain", .string (js "acme.test")),
  (js "actorId", .string (js "root")), (js "role", .string (js "provider"))]

/-- The provider asks for as many bytes for `bob` as there are safe integers. -/
def greedy : Call := .allocate provider
  (.object [(js "userId", .string (js "bob")), (js "allocatedQuotaBytes", .number 9007199254740991)])

/-- The guard against an overflow is reached. -/
theorem allocate_overflows : createQuotaLedger sampleOptions = .ok (sampleLedger, sampleCreated) ∧
    Run asciiHost sampleLedger sampleCreated [] sampleCreated ∧
    (greedy.run asciiHost sampleLedger sampleCreated).1 = .error (.contract quotaOverflow) :=
  ⟨sample_accepted, .created, by decide⟩

/-- The ledger after `alice` has reserved a byte. -/
theorem ledger_sound_alice : ∃ made s, Run asciiHost sampleLedger sampleCreated made s ∧
    Sound sampleLedger sampleCreated made s ∧ Settles asciiHost sampleLedger made s greedy := by
  have run : Run asciiHost sampleLedger sampleCreated _ _ :=
    .call .created (.reserve provider (.object [(js "userId", .string (js "alice")), (js "sizeBytes", .number 1)]))
  obtain ⟨sound, settles⟩ := ledger_sound sample_accepted run
  exact ⟨_, _, run, sound, settles greedy⟩

end Quota

end GuloGulo.Admin
