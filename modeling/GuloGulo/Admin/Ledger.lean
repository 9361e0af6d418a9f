import GuloGulo.Admin.Quota
import Mathlib.Algebra.Order.BigOperators.Group.List
import Mathlib.Algebra.Order.Group.Int

/-!
# What a call does to the ledger

`Balanced` is what every call needs and keeps of the allocations and the usage,
`Outcome` what a call can do to them.
-/

namespace GuloGulo.Admin
open Js Data Integrations Actor

namespace Quota

structure Balanced (ledger : QuotaLedger) (s : LedgerState) : Prop where
  gross : ledger.gross ≤ maxSafeInteger
  total : s.allocations.values.sum ≤ ledger.gross
  within : ∀ u a, s.allocations.get u = some a → ∃ n, s.usage.get u = some n ∧ 0 ≤ n ∧ n ≤ a
  users : ∀ u, s.allocations.get u = none → s.usage.get u = none

/-- The state with an allocation set, as `setAllocation` leaves it. -/
def withAllocation (s : LedgerState) (target : JsString) (allocated : Int) : LedgerState := { s with
  allocations := s.allocations.set target allocated
  usage := if (s.usage.get target).isNone then s.usage.set target 0 else s.usage }

/-- With `n` for the target the allocations leave the safe integers. -/
def Overflows (s : LedgerState) (target : JsString) (n : Int) : Prop :=
  maxSafeInteger < s.allocations.sumExcept target + n

inductive Call where
  | registerUser (actor input : JsValue)
  | allocate (actor input : JsValue)
  | reserve (context input : JsValue)
  | release (context reservationId : JsValue)

inductive Answer where
  | allocation (allocation : QuotaAllocation)
  | reserve (result : ReserveResult)
  | release (result : ReleaseResult)
  deriving DecidableEq

namespace Call
variable (host : Host) (ledger : QuotaLedger)

def run : Call → LedgerM Answer
  | registerUser actor input => Quota.registerUser host ledger actor input >>= fun a => pure (.allocation a)
  | allocate actor input => Quota.allocate host ledger actor input >>= fun a => pure (.allocation a)
  | reserve context input => Quota.reserve host ledger context input >>= fun r => pure (.reserve r)
  | release context id => Quota.release host ledger context id >>= fun r => pure (.release r)

/-- The user and the bytes of a call that sets an allocation. -/
def Requests (target : JsString) (n : Int) : Call → Prop
  | registerUser _ input => input.get "userId" = .string target ∧
      assertBytes ((input.get "allocatedQuotaBytes").orDefault (.number 0)) "allocatedQuotaBytes" = .ok n
  | allocate _ input => input.get "userId" = .string target ∧
      assertBytes (input.get "allocatedQuotaBytes") "allocatedQuotaBytes" = .ok n
  | reserve .. | release .. => False

end Call

/-- How a call ends: it throws, it refuses, or it does the one thing it is for. -/
inductive Outcome (ledger : QuotaLedger) (s : LedgerState) (call : Call) :
    Except (Thrown AdminError) Answer → LedgerState → Prop where
  | threw (e : Thrown AdminError)
      (overflow : e = .contract quotaOverflow → ∃ target n, call.Requests target n ∧ Overflows s target n) :
      Outcome ledger s call (.error e) s
  | refused (target : JsString) :
      Outcome ledger s call (.ok (.reserve (.refused "quota_exceeded" ledger.tenantId target))) s
  | alreadyReleased (context : JsValue) (id : JsString) (is : call = .release context (.string id)) :
      Outcome ledger s call (.ok (.release ⟨false, true, id⟩)) s
  | allocated (target : JsString) (n : Int) (answer : QuotaAllocation) (requests : call.Requests target n)
      (known : used s target ≤ n) (fits : s.allocations.sumExcept target + n ≤ ledger.gross) :
      Outcome ledger s call (.ok (.allocation answer)) (withAllocation s target n)
  | reserved (context input : JsValue) (target : JsString) (size : Int) (s' : LedgerState)
      (is : call = .reserve context input) (known : s.allocations.get target ≠ none)
      (low : 0 ≤ size) (room : size ≤ allocated s target - used s target)
      (after : s' = { s with
        usage := s.usage.set target (used s target + size)
        reservationSequence := s.reservationSequence + 1
        reservations := s.reservations.set (reservationId (s.reservationSequence + 1))
          ⟨ledger.tenantId, target, size, false⟩ }) :
      Outcome ledger s call
        (.ok (.reserve (.accepted (reservationId (s.reservationSequence + 1)) ledger.tenantId target size))) s'
  | released (context : JsValue) (id : JsString) (reservation : Reservation) (s' : LedgerState)
      (is : call = .release context (.string id)) (present : s.reservations.get id = some reservation)
      (unreleased : reservation.released = false)
      (after : s' = { s with
        usage := s.usage.set reservation.userId (usageAfter s reservation)
        reservations := s.reservations.set id { reservation with released := true } }) :
      Outcome ledger s call (.ok (.release ⟨true, false, id⟩)) s'

section
variable {host : Host} {ledger : QuotaLedger} {s : LedgerState}

theorem addAllocations_eq {exclude : Option JsString} {rows : List (JsString × Int)} {total : Int}
    (positive : ∀ p ∈ rows, 0 ≤ p.2) (start : 0 ≤ total)
    (bound : total + ((rows.filter fun p => some p.1 ≠ exclude).map Prod.snd).sum ≤ maxSafeInteger) :
    addAllocations exclude total rows =
      .ok (total + ((rows.filter fun p => some p.1 ≠ exclude).map Prod.snd).sum) := by
  induction rows generalizing total with
  | nil => simp [addAllocations]
  | cons p rows ih =>
    obtain ⟨userId, allocated⟩ := p
    rw [List.forall_mem_cons] at positive
    obtain ⟨here, positive⟩ := positive
    by_cases same : some userId = exclude
    · have skipped : ((userId, allocated) :: rows).filter (fun p => some p.1 ≠ exclude) =
          rows.filter fun p => some p.1 ≠ exclude := by simp [same]
      rw [skipped] at bound ⊢
      rw [addAllocations, if_pos same]
      exact ih positive start bound
    · have kept : ((userId, allocated) :: rows).filter (fun p => some p.1 ≠ exclude) =
          (userId, allocated) :: rows.filter fun p => some p.1 ≠ exclude := by simp [same]
      rw [kept, List.map_cons, List.sum_cons] at bound ⊢
      have rest : 0 ≤ ((rows.filter fun p => some p.1 ≠ exclude).map Prod.snd).sum := by
        apply List.sum_nonneg
        intro a ha
        obtain ⟨p, hp, rfl⟩ := List.mem_map.mp ha
        exact positive p (List.mem_filter.mp hp).1
      have safe : isSafeInteger (total + allocated) = true := decide_eq_true (by omega)
      rw [addAllocations, if_neg same, safe, Bool.not_true, throwIf_false, ok_bind,
        ih positive (by omega) (by omega)]
      congr 1
      omega

theorem sum_split (s : LedgerState) (target : JsString) :
    s.allocations.values.sum = s.allocations.sumExcept target + allocated s target :=
  s.allocations.sum_values target

namespace Balanced
variable (balanced : Balanced ledger s)
include balanced

theorem positive {u : JsString} {a : Int} (h : (u, a) ∈ s.allocations.rows) : 0 ≤ a := by
  obtain ⟨n, _, low, high⟩ := balanced.within u a (OrderedMap.mem_rows.mp h)
  exact low.trans high

theorem sumExcept_nonneg (target : JsString) : 0 ≤ s.allocations.sumExcept target := by
  apply List.sum_nonneg
  intro a ha
  obtain ⟨⟨u, b⟩, hp, rfl⟩ := List.mem_map.mp ha
  exact balanced.positive (List.mem_filter.mp hp).1

theorem used_bounds (u : JsString) : 0 ≤ used s u ∧ used s u ≤ allocated s u := by
  cases ha : s.allocations.get u with
  | none => simp [used, allocated, ha, balanced.users u ha]
  | some a =>
    obtain ⟨n, hn, low, high⟩ := balanced.within u a ha
    simpa [used, allocated, ha, hn] using And.intro low high

theorem allocated_le (target : JsString) : allocated s target ≤ ledger.gross := by
  have split := sum_split s target
  have others := balanced.sumExcept_nonneg target
  have total := balanced.total
  omega

/-- Adding up never leaves the safe integers. -/
theorem totalAllocated_eq (target : JsString) :
    totalAllocated s (some target) = .ok (s.allocations.sumExcept target) := by
  have split := sum_split s target
  have bounds := balanced.used_bounds target
  have total := balanced.total
  have gross := balanced.gross
  have others : ((s.allocations.rows.filter fun p => some p.1 ≠ some target).map Prod.snd).sum =
      s.allocations.sumExcept target := by
    simp only [OrderedMap.sumExcept, ne_eq, Option.some.injEq]
  have bound : 0 + ((s.allocations.rows.filter fun p => some p.1 ≠ some target).map Prod.snd).sum ≤
      maxSafeInteger := by
    rw [Int.zero_add, others]
    omega
  have added := addAllocations_eq (fun p hp => balanced.positive hp) (Int.le_refl 0) bound
  rw [Int.zero_add, others] at added
  exact added

theorem totalAllocated_none : totalAllocated s none = .ok s.allocations.values.sum := by
  have total := balanced.total
  have gross := balanced.gross
  have all : ((s.allocations.rows.filter fun p => some p.1 ≠ none).map Prod.snd).sum =
      s.allocations.values.sum := by
    simp [OrderedMap.values]
  have bound : 0 + ((s.allocations.rows.filter fun p => some p.1 ≠ none).map Prod.snd).sum ≤ maxSafeInteger := by
    rw [Int.zero_add, all]
    omega
  have added := addAllocations_eq (fun p hp => balanced.positive hp) (Int.le_refl 0) bound
  rw [Int.zero_add, all] at added
  exact added

theorem withAllocation {target : JsString} {n : Int} (known : used s target ≤ n)
    (fits : s.allocations.sumExcept target + n ≤ ledger.gross) : Balanced ledger (withAllocation s target n) := by
  obtain ⟨low, _⟩ := balanced.used_bounds target
  have usage (u : JsString) : (Quota.withAllocation s target n).usage.get u =
      if u = target then some (used s target) else s.usage.get u := by
    simp only [Quota.withAllocation]
    split
    · rename_i fresh
      rw [Option.isNone_iff_eq_none] at fresh
      rw [OrderedMap.get_set]
      simp only [used, fresh, Option.getD_none, eq_comm]
    · rename_i present
      obtain ⟨m, hm⟩ := Option.ne_none_iff_exists'.mp (by simpa using present)
      split
      · rename_i same
        rw [same, used, hm]
        rfl
      · rfl
  constructor
  · exact balanced.gross
  · show (s.allocations.set target n).values.sum ≤ ledger.gross
    rw [OrderedMap.sum_set]
    exact fits
  · intro u a ha
    rw [usage]
    rw [show (Quota.withAllocation s target n).allocations = s.allocations.set target n from rfl,
      OrderedMap.get_set] at ha
    by_cases hu : u = target
    · rw [if_pos hu.symm] at ha
      cases ha
      rw [if_pos hu]
      exact ⟨used s target, rfl, low, known⟩
    · rw [if_neg (Ne.symm hu)] at ha
      rw [if_neg hu]
      exact balanced.within u a ha
  · intro u ha
    rw [usage]
    rw [show (Quota.withAllocation s target n).allocations = s.allocations.set target n from rfl,
      OrderedMap.get_set] at ha
    by_cases hu : u = target
    · rw [if_pos hu.symm] at ha
      cases ha
    · rw [if_neg (Ne.symm hu)] at ha
      rw [if_neg hu]
      exact balanced.users u ha

/-- A change of the usage of one user within the allocation. -/
theorem withUsage {s' : LedgerState} {target : JsString} {n : Int} (known : s.allocations.get target ≠ none)
    (low : 0 ≤ n) (high : n ≤ allocated s target) (allocations : s'.allocations = s.allocations)
    (usage : s'.usage = s.usage.set target n) : Balanced ledger s' := by
  constructor
  · exact balanced.gross
  · rw [allocations]
    exact balanced.total
  · intro u a ha
    rw [allocations] at ha
    rw [usage, OrderedMap.get_set]
    by_cases hu : target = u
    · rw [if_pos hu]
      rw [hu, allocated, ha] at high
      exact ⟨n, rfl, low, high⟩
    · rw [if_neg hu]
      exact balanced.within u a ha
  · intro u ha
    rw [allocations] at ha
    have other : target ≠ u := by
      rintro rfl
      exact known ha
    rw [usage, OrderedMap.get_set, if_neg other]
    exact balanced.users u ha

end Balanced

def Ordinary (e : AdminError) : Prop := e ≠ quotaOverflow

theorem ordinary_named {e : AdminError} (h : Named e) : Ordinary e := by
  rintro rfl
  exact absurd (show "QuotaError" = "AdminAuthorizationError" from h) (by decide)

theorem ordinary_code {e : AdminError} (h : e.code ≠ "QUOTA_OVERFLOW") : Ordinary e := by
  rintro rfl
  exact h rfl

attribute [local simp] assertBytes in
theorem ordinary_assertBytes {value : JsValue} {field : String} {positive : Bool} :
    Fails Ordinary (assertBytes value field positive) := by
  have invalid : Ordinary (invalidQuota field positive) := by
    apply ordinary_code
    show "INVALID_QUOTA" ≠ "QUOTA_OVERFLOW"
    decide
  unfold assertBytes
  split
  · split
    · exact fails_ok
    · exact fails_error invalid
  · exact fails_error invalid

theorem ordinary_ledgerActor {actor : JsValue} : Fails Ordinary (ledgerActor host ledger actor) := by
  apply fails_bind (fails_mono (named_normalizeActor actor) fun _ => ordinary_named)
  intro canonical
  exact fails_bind (fails_throwIf (ordinary_code (by decide))) fun _ => fails_ok

theorem ordinary_requireKnownUser {userId : JsValue} : Fails Ordinary (requireKnownUser s userId) := by
  apply fails_bind (fails_mono named_assertSafeUserId fun _ => ordinary_named)
  intro canonical
  exact fails_bind (fails_throwIf (ordinary_code (by decide))) fun _ => fails_ok

theorem ordinary_assertSameTenant {context : JsValue} : Fails Ordinary (assertSameTenant host ledger context) := by
  have authenticated (known : Except Unit Actor.TenantContext) :
      Fails Ordinary (known.mapError fun _ =>
        quotaError "authenticated tenant context is required" "AUTHENTICATION_REQUIRED" 401) :=
    fails_mapError fun _ => ordinary_code (by decide)
  apply fails_bind (authenticated _)
  intro canonical
  exact fails_bind (fails_throwIf (ordinary_code (by decide))) fun _ => fails_ok

theorem ordinary_lookupReservation {id : JsValue} : Fails Ordinary (lookupReservation ledger s id) := by
  unfold lookupReservation
  split
  · apply fails_bind (fails_throwIf (ordinary_code (by decide)))
    intro _
    split
    · exact fails_ok
    · exact fails_error (ordinary_code (by decide))
  · exact fails_error (ordinary_code (by decide))

theorem assertBytes_bounds {value : JsValue} {field : String} {n : Int}
    (h : assertBytes value field false = .ok n) : 0 ≤ n ∧ n ≤ maxSafeInteger := by
  unfold assertBytes at h
  split at h
  · split at h
    · rename_i holds
      cases h
      rw [isBytes, Bool.and_eq_true] at holds
      exact ⟨of_decide_eq_true holds.2, (of_decide_eq_true holds.1).2⟩
    · cases h
  · cases h

theorem assertBytes_number {n : Int} {field : String} (bounds : 0 ≤ n ∧ n ≤ maxSafeInteger) :
    assertBytes (.number n) field false = .ok n := by
  have integer : JsValue.asInteger? (.number (n : Rat)) = some n := by
    simp [JsValue.asInteger?]
  have safe : isSafeInteger n = true := decide_eq_true (by omega)
  have bytes : isBytes n false = true := by simp [isBytes, safe, bounds.1]
  rw [assertBytes, integer]
  exact if_pos bytes

/-- Only a sum beyond the safe integers overflows. -/
theorem wp_setAllocation {target : JsString} {value : JsValue} {Q : Except (Thrown AdminError) Unit → LedgerState → Prop}
    (balanced : Balanced ledger s)
    (refused : ∀ e, Ordinary e → (∀ n, assertBytes value "allocatedQuotaBytes" = .ok n → ¬ Overflows s target n) →
      Q (.error (.contract e)) s)
    (overflow : ∀ n, assertBytes value "allocatedQuotaBytes" = .ok n → Overflows s target n →
      Q (.error (.contract quotaOverflow)) s)
    (set : ∀ n, assertBytes value "allocatedQuotaBytes" = .ok n →
      s.allocations.sumExcept target + n ≤ ledger.gross → Q (.ok ()) (withAllocation s target n)) :
    Eff.wp (setAllocation ledger target value) s Q := by
  rw [setAllocation]
  refine Eff.wp_check_bind.mpr ⟨fun e he => ?_, fun n hn => ?_⟩
  · apply refused e (ordinary_assertBytes e he)
    intro n hn
    cases he.symm.trans hn
  · rw [Eff.wp_get_bind, balanced.totalAllocated_eq]
    have low := (assertBytes_bounds hn).1
    have others := balanced.sumExcept_nonneg target
    refine Eff.wp_check_bind.mpr ⟨nofun, fun total ht => ?_⟩
    cases ht
    refine Eff.wp_check_bind.mpr ⟨fun e he => ?_, fun _ safe => ?_⟩
    · cases hs : isSafeInteger (s.allocations.sumExcept target + n) with
      | true =>
        rw [hs] at he
        cases he
      | false =>
        rw [hs] at he
        cases he
        apply overflow n hn
        have outside := of_decide_eq_false hs
        show (maxSafeInteger : Int) < _
        omega
    · have safe : isSafeInteger (s.allocations.sumExcept target + n) = true := by simpa using throwIf_eq_ok.mp safe
      refine Eff.wp_check_bind.mpr ⟨fun e he => ?_, fun _ fits => ?_⟩
      · apply refused e
        · exact fails_throwIf (ordinary_code (by decide)) e he
        · intro m hm beyond
          cases hn.symm.trans hm
          have beyond : (maxSafeInteger : Int) < s.allocations.sumExcept target + n := beyond
          have safe := of_decide_eq_true safe
          omega
      · exact set n hn (not_lt.mp (of_decide_eq_false (throwIf_eq_ok.mp fits)))

theorem wp_setAllocation_bind {α : Type} {target : JsString} {value : JsValue} {f : Unit → LedgerM α}
    {Q : Except (Thrown AdminError) α → LedgerState → Prop} (balanced : Balanced ledger s)
    (refused : ∀ e, Ordinary e → Q (.error (.contract e)) s)
    (overflow : ∀ n, assertBytes value "allocatedQuotaBytes" = .ok n → Overflows s target n →
      Q (.error (.contract quotaOverflow)) s)
    (set : ∀ n, assertBytes value "allocatedQuotaBytes" = .ok n →
      s.allocations.sumExcept target + n ≤ ledger.gross → Eff.wp (f ()) (withAllocation s target n) Q) :
    Eff.wp (setAllocation ledger target value >>= f) s Q := by
  rw [Eff.wp_bind]
  exact wp_setAllocation balanced (fun e he _ => refused e he) overflow set

theorem ledgerActor_eq_ok {actor : JsValue} {c : AdminActor} (h : ledgerActor host ledger actor = .ok c) :
    Canonical host c ∧ c.tenantId = ledger.tenantId := by
  obtain ⟨canonical, known, h⟩ := bind_eq_ok.mp h
  obtain ⟨_, same, h⟩ := bind_eq_ok.mp h
  cases h
  exact ⟨normalizeActor_canonical known, bne_eq_false_iff_eq.mp (throwIf_eq_ok.mp same)⟩

theorem ledgerActor_value {c : AdminActor} (canonical : Canonical host c) (tenant : c.tenantId = ledger.tenantId) :
    ledgerActor host ledger c.value = .ok c := by
  rw [ledgerActor, assertAdminActor, normalizeActor_value canonical, ok_bind, assertLedgerTenant, tenant,
    bne_self_eq_false, throwIf_false]
  rfl

theorem requireKnownUser_eq_ok {userId : JsValue} {target : JsString} :
    requireKnownUser s userId = .ok target ↔
      userId = .string target ∧ actorIdPattern target ∧ s.allocations.get target ≠ none := by
  constructor
  · intro h
    obtain ⟨canonical, safe, h⟩ := bind_eq_ok.mp h
    obtain ⟨_, known, h⟩ := bind_eq_ok.mp h
    cases h
    obtain ⟨is, pattern⟩ := assertSafeUserId_eq_ok.mp safe
    have known := throwIf_eq_ok.mp known
    rw [Option.isNone_eq_false_iff, Option.isSome_iff_ne_none] at known
    exact ⟨is, pattern, known⟩
  · rintro ⟨rfl, pattern, known⟩
    have safe : assertSafeUserId (.string target) = .ok target := assertSafeUserId_eq_ok.mpr ⟨rfl, pattern⟩
    rw [← Option.isSome_iff_ne_none, ← Option.isNone_eq_false_iff] at known
    rw [requireKnownUser, safe, ok_bind, known, throwIf_false]
    rfl

/-- The roles that may change an allocation. -/
def Manages (role : TenantRole) : Prop := role = .provider ∨ role = .tenantMaster

theorem manages_of_authorized {c : AdminActor} {request : AuthorizationRequest} {permission : String}
    {decision : AuthorizationDecision} (canonical : Canonical host c)
    (is : request.permission = .string (js permission))
    (users : grants userPermissions (js permission) = false)
    (monitors : grants monitorPermissions (js permission) = false)
    (h : authorize host c.value request = .ok decision) : Manages c.role := by
  obtain ⟨c', p, requested, decides⟩ := authorize_eq_ok.mp h
  have same := decides.known
  rw [normalizeActor_value canonical] at same
  cases same
  have wellFormed := decides.wellFormed
  rw [is] at wellFormed
  have same : p = js permission := (JsValue.string.inj (assertPermission_eq_ok.mp wellFormed).1).symm
  have granted := decides.granted
  rw [same] at granted
  cases role : c.role with
  | provider => exact .inl rfl
  | tenantMaster => exact .inr rfl
  | user =>
    rw [role] at granted
    rw [show permissionMatrix .user = userPermissions from rfl, users] at granted
    cases granted
  | monitor =>
    rw [role] at granted
    rw [show permissionMatrix .monitor = monitorPermissions from rfl, monitors] at granted
    cases granted

/-- Who may change an allocation may read it. -/
theorem authorize_read {c : AdminActor} {target : JsString} (canonical : Canonical host c) (role : Manages c.role)
    (safe : actorIdPattern target) :
    ∃ decision, authorize host c.value {
        permission := .string (js "quota.read"), targetUserId := .string target,
        resource := some (js "quota") } = .ok decision := by
  have requested : requestedUser (.string target) = .ok (some target) := by
    have safe : assertSafeUserId (.string target) "targetUserId" = .ok target :=
      assertSafeUserId_eq_ok.mpr ⟨rfl, safe⟩
    show (assertSafeUserId (.string target) "targetUserId").map some = _
    rw [safe]
    rfl
  have content : isContentRequest (js "quota.read") (some (js "quota")) false = false := by decide
  have wellFormed : assertPermission (.string (js "quota.read")) = .ok (js "quota.read") := by decide
  have master : masterScope (js "quota.read") (.object []) none = .ok () := by decide
  refine ⟨_, authorize_eq_ok.mpr ⟨c, js "quota.read", some target, normalizeActor_value canonical, wellFormed,
    requested, ?_, ?_, ?_, ?_, rfl⟩⟩
  · exact beq_self_eq_true c.tenantId
  · intro isContent
    rw [content] at isContent
    cases isContent
  · rcases role with role | role <;> rw [role] <;> decide
  · rcases role with role | role <;> rw [roleScope, role]
    exact master

theorem read_eq {c : AdminActor} {target : JsString} (canonical : Canonical host c)
    (tenant : c.tenantId = ledger.tenantId) (role : Manages c.role) (safe : actorIdPattern target)
    (known : s.allocations.get target ≠ none) :
    read host ledger c.value (userInput target) s = (.ok (cloneAllocation ledger s target), s) := by
  obtain ⟨decision, authorized⟩ := authorize_read canonical role safe
  have found : requireKnownUser s (((userInput target).get "userId").orDefault (c.userId.elim .null .string)) =
      .ok target := requireKnownUser_eq_ok.mpr ⟨rfl, safe, known⟩
  rw [read, show parameter (userInput target) = .ok (userInput target) from rfl, Eff.lift_ok_bind,
    ledgerActor_value canonical tenant, Eff.check_ok_bind, Eff.get_bind, found, Eff.check_ok_bind, authorized,
    Eff.check_ok_bind]
  rfl

theorem parameter_eq_ok {input v : JsValue} (h : parameter input = .ok v) : v = input := by
  unfold parameter at h
  split at h
  · cases h
  · cases h
    rfl

theorem parameter_foreign {input : JsValue} {e : Thrown AdminError} (h : parameter input = .error e) :
    e ≠ .contract quotaOverflow := by
  unfold parameter at h
  split at h <;> cases h
  nofun

/-- A call that throws an ordinary error. -/
theorem outcome_ordinary {call : Call} {e : AdminError} (h : Ordinary e) :
    Outcome ledger s call (.error (.contract e)) s :=
  .threw _ fun same => absurd (Thrown.contract.inj same) h

theorem registerUser_outcome (balanced : Balanced ledger s) (actor input : JsValue) :
    Eff.wp ((Call.registerUser actor input).run host ledger) s (Outcome ledger s (.registerUser actor input)) := by
  show Eff.wp (registerUser host ledger actor input >>= _) s _
  rw [Eff.wp_bind, registerUser]
  refine Eff.wp_lift_bind.mpr ⟨fun e he => .threw _ fun same => absurd same (parameter_foreign he), fun v hv => ?_⟩
  cases parameter_eq_ok hv
  refine Eff.wp_check_bind.mpr ⟨fun e he => outcome_ordinary (ordinary_ledgerActor e he), fun c known => ?_⟩
  obtain ⟨canonical, tenant⟩ := ledgerActor_eq_ok known
  refine Eff.wp_check_bind.mpr
    ⟨fun e he => outcome_ordinary (ordinary_named (named_assertSafeUserId e he)), fun target safe => ?_⟩
  obtain ⟨is, safe⟩ := assertSafeUserId_eq_ok.mp safe
  refine Eff.wp_check_bind.mpr
    ⟨fun e he => outcome_ordinary (ordinary_named (named_authorize _ _ e he)), fun decision authorized => ?_⟩
  have role : Manages c.role := manages_of_authorized canonical rfl (by decide) (by decide) authorized
  rw [Eff.wp_get_bind]
  refine Eff.wp_check_bind.mpr ⟨fun e he => outcome_ordinary ?_, fun _ fresh => ?_⟩
  · exact fails_throwIf (ordinary_code (by decide)) e he
  · have fresh : s.allocations.get target = none := by
      have fresh := throwIf_eq_ok.mp fresh
      rwa [Option.isSome_eq_false_iff, Option.isNone_iff_eq_none] at fresh
    have unused : used s target = 0 := by rw [used, balanced.users target fresh, Option.getD_none]
    apply wp_setAllocation_bind balanced
    · exact fun e he => outcome_ordinary he
    · intro n hn beyond
      exact .threw _ fun _ => ⟨target, n, ⟨is, hn⟩, beyond⟩
    · intro n hn fits
      have known : (withAllocation s target n).allocations.get target ≠ none := by
        rw [show (withAllocation s target n).allocations = s.allocations.set target n from rfl, OrderedMap.get_set,
          if_pos rfl]
        nofun
      rw [Eff.wp, read_eq canonical tenant role safe known]
      exact .allocated target n _ ⟨is, hn⟩ (by rw [unused]; exact (assertBytes_bounds hn).1) fits

theorem allocate_outcome (balanced : Balanced ledger s) (actor input : JsValue) :
    Eff.wp ((Call.allocate actor input).run host ledger) s (Outcome ledger s (.allocate actor input)) := by
  show Eff.wp (allocate host ledger actor input >>= _) s _
  rw [Eff.wp_bind, allocate]
  refine Eff.wp_lift_bind.mpr ⟨fun e he => .threw _ fun same => absurd same (parameter_foreign he), fun v hv => ?_⟩
  cases parameter_eq_ok hv
  refine Eff.wp_check_bind.mpr ⟨fun e he => outcome_ordinary (ordinary_ledgerActor e he), fun c known => ?_⟩
  obtain ⟨canonical, tenant⟩ := ledgerActor_eq_ok known
  rw [Eff.wp_get_bind]
  refine Eff.wp_check_bind.mpr ⟨fun e he => outcome_ordinary (ordinary_requireKnownUser e he), fun target found => ?_⟩
  obtain ⟨is, safe, found⟩ := requireKnownUser_eq_ok.mp found
  refine Eff.wp_check_bind.mpr
    ⟨fun e he => outcome_ordinary (ordinary_named (named_authorize _ _ e he)), fun decision authorized => ?_⟩
  have role : Manages c.role := manages_of_authorized canonical rfl (by decide) (by decide) authorized
  refine Eff.wp_check_bind.mpr ⟨fun e he => outcome_ordinary (ordinary_assertBytes e he), fun n hn => ?_⟩
  refine Eff.wp_check_bind.mpr ⟨fun e he => outcome_ordinary ?_, fun _ enough => ?_⟩
  · exact fails_throwIf (ordinary_code (by decide)) e he
  · have enough : used s target ≤ n := not_lt.mp (of_decide_eq_false (throwIf_eq_ok.mp enough))
    have again : assertBytes (.number n) "allocatedQuotaBytes" = .ok n := assertBytes_number (assertBytes_bounds hn)
    apply wp_setAllocation_bind balanced
    · exact fun e he => outcome_ordinary he
    · intro m hm beyond
      cases again.symm.trans hm
      exact .threw _ fun _ => ⟨target, n, ⟨is, hn⟩, beyond⟩
    · intro m hm fits
      cases again.symm.trans hm
      have known : (withAllocation s target n).allocations.get target ≠ none := by
        rw [show (withAllocation s target n).allocations = s.allocations.set target n from rfl, OrderedMap.get_set,
          if_pos rfl]
        nofun
      rw [Eff.wp, read_eq canonical tenant role safe known]
      exact .allocated target n _ ⟨is, hn⟩ enough fits

theorem reserve_outcome (balanced : Balanced ledger s) (context input : JsValue) :
    Eff.wp ((Call.reserve context input).run host ledger) s (Outcome ledger s (.reserve context input)) := by
  show Eff.wp (reserve host ledger context input >>= _) s _
  rw [Eff.wp_bind, reserve]
  refine Eff.wp_lift_bind.mpr ⟨fun e he => .threw _ fun same => absurd same (parameter_foreign he), fun v hv => ?_⟩
  refine Eff.wp_check_bind.mpr ⟨fun e he => outcome_ordinary (ordinary_assertSameTenant e he), fun c known => ?_⟩
  rw [Eff.wp_get_bind]
  refine Eff.wp_check_bind.mpr ⟨fun e he => outcome_ordinary (ordinary_requireKnownUser e he), fun target found => ?_⟩
  obtain ⟨_, _, found⟩ := requireKnownUser_eq_ok.mp found
  refine Eff.wp_check_bind.mpr ⟨fun e he => outcome_ordinary (ordinary_assertBytes e he), fun size hs => ?_⟩
  obtain ⟨low, high⟩ := balanced.used_bounds target
  have limit := balanced.allocated_le target
  have gross := balanced.gross
  have positive := (assertBytes_bounds hs).1
  dsimp only
  by_cases room : allocated s target - used s target < size
  · rw [if_pos room]
    exact .refused target
  · have safe : isSafeInteger (used s target + size) = true := decide_eq_true (by omega)
    rw [if_neg room, safe, Bool.not_true, if_neg Bool.false_ne_true]
    exact .reserved context input target size _ rfl found positive (not_lt.mp room) rfl

theorem lookupReservation_eq_ok {value : JsValue} {id : JsString} {reservation : Reservation}
    (h : lookupReservation ledger s value = .ok (id, reservation)) :
    value = .string id ∧ s.reservations.get id = some reservation := by
  unfold lookupReservation at h
  split at h
  · rename_i text
    obtain ⟨_, _, h⟩ := bind_eq_ok.mp h
    split at h
    · rename_i r found
      cases h
      exact ⟨rfl, (Option.filter_eq_some_iff.mp found).1⟩
    · cases h
  · cases h

theorem release_outcome (context value : JsValue) :
    Eff.wp ((Call.release context value).run host ledger) s (Outcome ledger s (.release context value)) := by
  show Eff.wp (release host ledger context value >>= _) s _
  rw [Eff.wp_bind, release]
  refine Eff.wp_check_bind.mpr ⟨fun e he => outcome_ordinary (ordinary_assertSameTenant e he), fun c known => ?_⟩
  rw [Eff.wp_get_bind]
  refine Eff.wp_check_bind.mpr ⟨fun e he => outcome_ordinary (ordinary_lookupReservation e he), ?_⟩
  rintro ⟨id, reservation⟩ found
  obtain ⟨rfl, present⟩ := lookupReservation_eq_ok found
  dsimp only
  cases released : reservation.released with
  | true => exact .alreadyReleased context id rfl
  | false => exact .released context id reservation _ rfl present released rfl

theorem call_outcome (balanced : Balanced ledger s) (call : Call) :
    Outcome ledger s call (call.run host ledger s).1 (call.run host ledger s).2 := by
  cases call with
  | registerUser actor input => exact registerUser_outcome balanced actor input
  | allocate actor input => exact allocate_outcome balanced actor input
  | reserve context input => exact reserve_outcome balanced context input
  | release context id => exact release_outcome context id

end

end Quota

end GuloGulo.Admin
