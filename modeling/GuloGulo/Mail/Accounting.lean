import GuloGulo.Mail.FailClosed
import GuloGulo.Mail.Relay
import Mathlib.Data.List.Nodup

/-!
# What an inbound call delivers and reserves

The trace of a call counts the reservations the quota accepted and the copies
LMTP took, per user. The call accounts for them exactly when nothing goes
wrong after the first reservation was accepted: a failure later on leaves a
reservation without a copy, or copies behind a call that throws.
-/

namespace GuloGulo.Mail
open Js Data Integrations

def CoreEvent.acceptedFor (userId : JsString) : CoreEvent → Bool
  | .reserve own outcome => own == userId && isAccepted outcome
  | _ => false

def CoreEvent.deliveredTo (userId : JsString) : CoreEvent → Bool
  | .deliver input outcome => input.userId == userId && hasStatus "delivered" outcome
  | _ => false

def accepted (trace : Trace) (userId : JsString) : Nat := trace.countP (CoreEvent.acceptedFor userId)

/-- The copies LMTP took for a user. -/
def copies (trace : Trace) (userId : JsString) : Nat := trace.countP (CoreEvent.deliveredTo userId)

@[simp] theorem accepted_append (a b : Trace) (userId : JsString) :
    accepted (a ++ b) userId = accepted a userId + accepted b userId := List.countP_append

@[simp] theorem copies_append (a b : Trace) (userId : JsString) :
    copies (a ++ b) userId = copies a userId + copies b userId := List.countP_append

section
variable (core : CoreOptions) (options : MailEnvelopeOptions)

/-- A call after a clean scan accounts for what it did: one copy for each user
at most; a retry for the users without one; no accepted reservation without a
copy; and no copy if it throws or reports the message as rejected. -/
structure Accounted (authorization : InboundAuthorization) (r : Except (Thrown CodedError) MailResult)
    (trace : Trace) : Prop where
  once : ∀ userId, copies trace userId ≤ 1
  retry : ∀ entry, .enqueue entry ∈ trace → ∃ again,
    resolveRecipients core.host core.policy (.array (entry.recipients.map .string)) options.users
      options.aliases = .ok again ∧
    ∀ userId, (∃ x ∈ again.resolved, x.userId = userId) ↔
      (∃ x ∈ authorization.recipients.resolved, x.userId = userId) ∧ copies trace userId = 0
  reserved : ∀ userId, accepted trace userId ≤ copies trace userId
  nothing : (∀ result, r = .ok result → result.status = .rejected) → ∀ userId, copies trace userId = 0

def reservationAt (t : Trace) (x : ResolvedRecipient) : Outcome :=
  core.services.reserve t x.userId (messageSize options)

def deliveryAt (t : Trace) (x : ResolvedRecipient) : Outcome :=
  core.services.deliver (t ++ [.reserve x.userId (reservationAt core options t x)])
    (lmtpInput core options x)

/-- The trace of one recipient up to LMTP's answer. -/
def answeredTrace (t : Trace) (x : ResolvedRecipient) : Trace :=
  t ++ [.reserve x.userId (reservationAt core options t x),
    .deliver (lmtpInput core options x) (deliveryAt core options t x)]

def Outcome.answer : Outcome → JsValue
  | .returned v => v
  | .threw => .undefined

def notifyAt (t : Trace) (x : ResolvedRecipient) : Outcome :=
  core.services.notify (answeredTrace core options t x)
    (notification x (deliveryAt core options t x).answer)

/-- The trace of one recipient that was delivered. -/
def deliveredTrace (t : Trace) (x : ResolvedRecipient) : Trace :=
  answeredTrace core options t x ++
    [.notify (notification x (deliveryAt core options t x).answer) (notifyAt core options t x)]

def Outcome.isReturned : Outcome → Bool
  | .returned _ => true
  | .threw => false

/-- The quota accepts, LMTP delivers, and the event is sent. -/
structure Succeeds (t : Trace) (x : ResolvedRecipient) : Prop where
  accepted : isAccepted (reservationAt core options t x) = true
  delivered : hasStatus "delivered" (deliveryAt core options t x) = true
  notified : (notifyAt core options t x).isReturned = true

def AllSucceed : Trace → List ResolvedRecipient → Prop
  | _, [] => True
  | t, x :: rest => Succeeds core options t x ∧ AllSucceed (deliveredTrace core options t x) rest

def happyTrace : Trace → List ResolvedRecipient → Trace :=
  List.foldl (deliveredTrace core options)

end

variable {core : CoreOptions} {options : MailEnvelopeOptions}

theorem allSucceed_append {t : Trace} {pre post : List ResolvedRecipient} :
    AllSucceed core options t (pre ++ post) ↔
      AllSucceed core options t pre ∧ AllSucceed core options (happyTrace core options t pre) post := by
  induction pre generalizing t with
  | nil => simp [AllSucceed, happyTrace]
  | cons x pre ih =>
    rw [List.cons_append, AllSucceed, ih, AllSucceed, and_assoc]
    rfl

theorem accepted_reserve (own : JsString) (outcome : Outcome) (userId : JsString) :
    accepted [.reserve own outcome] userId = if own = userId ∧ isAccepted outcome = true then 1 else 0 := by
  simp [accepted, CoreEvent.acceptedFor, List.countP_singleton]

variable (core options) in
theorem counts_answeredTrace (t : Trace) (x : ResolvedRecipient) (userId : JsString) :
    accepted (answeredTrace core options t x) userId = accepted t userId +
        (if x.userId = userId ∧ isAccepted (reservationAt core options t x) = true then 1 else 0) ∧
      copies (answeredTrace core options t x) userId = copies t userId +
        (if x.userId = userId ∧ hasStatus "delivered" (deliveryAt core options t x) = true
          then 1 else 0) := by
  simp [answeredTrace, accepted, copies, CoreEvent.acceptedFor, CoreEvent.deliveredTo, List.countP_cons,
    lmtpInput]

variable (core options) in
theorem counts_deliveredTrace (t : Trace) (x : ResolvedRecipient) (userId : JsString) :
    accepted (deliveredTrace core options t x) userId = accepted (answeredTrace core options t x) userId ∧
      copies (deliveredTrace core options t x) userId = copies (answeredTrace core options t x) userId := by
  rw [deliveredTrace, accepted_append, copies_append]
  exact ⟨rfl, rfl⟩

/-- Where all goes well, every recipient is one reservation and one copy. -/
theorem counts_happyTrace {t : Trace} {xs : List ResolvedRecipient} (h : AllSucceed core options t xs)
    (userId : JsString) :
    accepted (happyTrace core options t xs) userId =
        accepted t userId + xs.countP (fun x => x.userId = userId) ∧
      copies (happyTrace core options t xs) userId =
        copies t userId + xs.countP (fun x => x.userId = userId) := by
  induction xs generalizing t with
  | nil => exact ⟨rfl, rfl⟩
  | cons x xs ih =>
    obtain ⟨own, rest⟩ := h
    obtain ⟨reserved, delivered⟩ := ih rest
    obtain ⟨answered, answered'⟩ := counts_answeredTrace core options t x userId
    obtain ⟨same, same'⟩ := counts_deliveredTrace core options t x userId
    rw [own.accepted] at answered
    rw [own.delivered] at answered'
    rw [happyTrace, List.foldl_cons]
    change accepted (happyTrace core options _ xs) userId = _ ∧ copies (happyTrace core options _ xs) userId = _
    rw [reserved, delivered, same, same', answered, answered', List.countP_cons]
    by_cases user : x.userId = userId
    · simp only [user, and_self, decide_true, ↓reduceIte]
      omega
    · simp [user]

/-- How one recipient can end, on the trace `t`. -/
inductive DeliveredTo (core : CoreOptions) (options : MailEnvelopeOptions) (t : Trace) (x : ResolvedRecipient) :
    Except (Thrown CodedError) Delivery → Trace → Prop where
  | refused (e : Thrown CodedError) (no : isAccepted (reservationAt core options t x) = false) :
      DeliveredTo core options t x (.error e) (t ++ [.reserve x.userId (reservationAt core options t x)])
  | failed (r : Except (Thrown CodedError) Delivery)
      (yes : isAccepted (reservationAt core options t x) = true)
      (no : hasStatus "delivered" (deliveryAt core options t x) = false) (other : r ≠ .ok .delivered) :
      DeliveredTo core options t x r (answeredTrace core options t x)
  | unnotified (e : Thrown CodedError) (yes : isAccepted (reservationAt core options t x) = true)
      (delivered : hasStatus "delivered" (deliveryAt core options t x) = true)
      (no : (notifyAt core options t x).isReturned = false) :
      DeliveredTo core options t x (.error e) (deliveredTrace core options t x)
  | delivered (yes : Succeeds core options t x) :
      DeliveredTo core options t x (.ok .delivered) (deliveredTrace core options t x)

theorem hasStatus_exclusive {outcome : Outcome} (h : hasStatus "temporary_failure" outcome = true) :
    hasStatus "delivered" outcome = false := by
  cases outcome with
  | threw => rfl
  | returned v =>
    simp only [hasStatus] at h ⊢
    cases status : v.get "status" with
    | string s =>
      rw [status] at h
      rw [show s = js "temporary_failure" from eq_of_beq h]
      decide
    | _ => rfl

section
variable {α : Type} {s : CoreState} {Q : Except (Thrown CodedError) α → CoreState → Prop}

/-- The rule for the value of a service's answer. -/
theorem wp_value_bind {outcome : Outcome} {f : JsValue → CoreM α} :
    Eff.wp (Eff.lift outcome.value >>= f) s Q ↔
      (outcome.isReturned = false → Q (.error .foreign) s) ∧
        (outcome.isReturned = true → Eff.wp (f outcome.answer) s Q) := by
  cases outcome with
  | threw => exact ⟨fun h => ⟨fun _ => h, nofun⟩, fun h => h.1 rfl⟩
  | returned v => exact ⟨fun h => ⟨nofun, fun _ => h⟩, fun h => h.2 rfl⟩

end

theorem isReturned_of_isAccepted {outcome : Outcome} (h : outcome.isReturned = false) :
    isAccepted outcome = false ∧ hasStatus "delivered" outcome = false := by
  cases outcome with
  | threw => exact ⟨rfl, rfl⟩
  | returned v => cases h

variable (core options) in
theorem deliverTo_spec (x : ResolvedRecipient) (s : CoreState) :
    Eff.wp (deliverTo core options x) s fun r s' => DeliveredTo core options s.trace x r s'.trace := by
  unfold deliverTo
  rw [Eff.wp_get_bind]
  change Eff.wp (record (.reserve x.userId (reservationAt core options s.trace x)) >>= fun _ => _) s _
  rw [wp_record_bind, wp_await_bind, wp_value_bind]
  refine ⟨fun threw => .refused _ (isReturned_of_isAccepted threw).1, fun _ => ?_⟩
  refine Eff.wp_lift_bind.mpr ⟨fun e no => ?_, fun _ yes => ?_⟩
  · refine .refused e ?_
    cases answer : isAccepted (reservationAt core options s.trace x) with
    | false => rfl
    | true =>
      change throwIf (!isAccepted (reservationAt core options s.trace x)) _ = _ at no
      rw [answer] at no
      cases no
  have yes : isAccepted (reservationAt core options s.trace x) = true := by
    change throwIf (!isAccepted (reservationAt core options s.trace x)) _ = _ at yes
    simpa using throwIf_eq_ok.mp yes
  generalize first : awaited core _ = s₁
  have asked : s₁.trace = s.trace ++ [.reserve x.userId (reservationAt core options s.trace x)] := by
    rw [← first]; rfl
  rw [Eff.wp_get_bind, asked]
  change Eff.wp (record (.deliver (lmtpInput core options x) (deliveryAt core options s.trace x)) >>=
    fun _ => _) _ _
  rw [wp_record_bind, wp_await_bind, wp_value_bind]
  generalize second : awaited core _ = s₂
  have answered : s₂.trace = answeredTrace core options s.trace x := by
    rw [← second, answeredTrace]
    show s₁.trace ++ _ = _
    rw [asked, List.append_assoc]
    rfl
  refine ⟨fun threw => answered ▸ .failed _ yes (isReturned_of_isAccepted threw).2 (by simp), fun _ => ?_⟩
  change Eff.wp (if hasStatus "temporary_failure" (deliveryAt core options s.trace x) = true then _ else
    if (!hasStatus "delivered" (deliveryAt core options s.trace x)) = true then _ else _) _ _
  split
  · rename_i temporary
    rw [Eff.wp_pure, answered]
    exact .failed _ yes (hasStatus_exclusive temporary) (by simp)
  · split
    · rename_i failed
      rw [Eff.wp_pure, answered]
      exact .failed _ yes (by simpa using failed) (by simp)
    · rename_i delivered
      have delivered : hasStatus "delivered" (deliveryAt core options s.trace x) = true := by
        simpa using delivered
      rw [Eff.wp_get_bind, answered]
      change Eff.wp (record (.notify _ (notifyAt core options s.trace x)) >>= fun _ => _) _ _
      rw [wp_record_bind, wp_value_bind, answered]
      exact ⟨fun threw => .unnotified _ yes delivered threw,
        fun notified => .delivered ⟨yes, delivered, notified⟩⟩

/-- A trace does not count more copies than accepted reservations. -/
def Covered (trace : Trace) : Prop := ∀ userId, copies trace userId ≤ accepted trace userId

/-- Where the loop leaves the good path: at `x`, after the recipients `before`
were all delivered. -/
inductive Fault (core : CoreOptions) (options : MailEnvelopeOptions) (t : Trace)
    (before : List ResolvedRecipient) (x : ResolvedRecipient) :
    Except (Thrown CodedError) Deliveries → Trace → Prop where
  | refused (e : Thrown CodedError)
      (no : isAccepted (reservationAt core options (happyTrace core options t before) x) = false) :
      Fault core options t before x (.error e) (happyTrace core options t before ++
        [.reserve x.userId (reservationAt core options (happyTrace core options t before) x)])
  | failed (r : Except (Thrown CodedError) Deliveries) (more : Trace) (covered : Covered more)
      (yes : isAccepted (reservationAt core options (happyTrace core options t before) x) = true)
      (no : hasStatus "delivered" (deliveryAt core options (happyTrace core options t before) x) = false) :
      Fault core options t before x r
        (answeredTrace core options (happyTrace core options t before) x ++ more)
  | unnotified (e : Thrown CodedError)
      (yes : isAccepted (reservationAt core options (happyTrace core options t before) x) = true)
      (delivered : hasStatus "delivered" (deliveryAt core options (happyTrace core options t before) x) = true)
      (no : (notifyAt core options (happyTrace core options t before) x).isReturned = false) :
      Fault core options t before x (.error e)
        (deliveredTrace core options (happyTrace core options t before) x)

theorem fault_cons {t t' : Trace} {x y : ResolvedRecipient} {before : List ResolvedRecipient}
    {r : Except (Thrown CodedError) Deliveries}
    (h : Fault core options (deliveredTrace core options t x) before y r t') :
    Fault core options t (x :: before) y r t' := by
  cases h with
  | refused e no => exact .refused e no
  | failed _ more covered yes no => exact .failed r more covered yes no
  | unnotified e yes delivered no => exact .unnotified e yes delivered no

theorem covered_nil : Covered [] := fun _ => Nat.le_refl _

theorem covered_append {a b : Trace} (ha : Covered a) (hb : Covered b) : Covered (a ++ b) := by
  intro userId
  rw [copies_append, accepted_append]
  exact Nat.add_le_add (ha userId) (hb userId)

/-- Each recipient is a reservation before it is a copy. -/
theorem covered_answered {x : ResolvedRecipient} {reservation : Outcome} (yes : isAccepted reservation = true)
    (delivery : Outcome) :
    Covered [.reserve x.userId reservation, .deliver (lmtpInput core options x) delivery] := by
  intro userId
  have reserved : accepted [.reserve x.userId reservation, .deliver (lmtpInput core options x) delivery] userId =
      if x.userId = userId then 1 else 0 := by
    simp [accepted, CoreEvent.acceptedFor, List.countP_cons, yes]
  have delivered : copies [.reserve x.userId reservation, .deliver (lmtpInput core options x) delivery] userId =
      if x.userId = userId ∧ hasStatus "delivered" delivery = true then 1 else 0 := by
    simp [copies, CoreEvent.deliveredTo, List.countP_cons, lmtpInput]
  rw [reserved, delivered]
  by_cases user : x.userId = userId
  · simp only [user, true_and, ↓reduceIte]
    split <;> omega
  · simp [user]

theorem deliverTo_covered {t t' : Trace} {x : ResolvedRecipient} {r : Except (Thrown CodedError) Delivery}
    (h : DeliveredTo core options t x r t') : ∃ more, t' = t ++ more ∧ Covered more := by
  have quiet (n : Notification) (o : Outcome) : Covered [.notify n o] := fun _ => Nat.le_refl _
  have complete (yes : isAccepted (reservationAt core options t x) = true) :
      ∃ more, deliveredTrace core options t x = t ++ more ∧ Covered more := by
    rw [deliveredTrace, answeredTrace, List.append_assoc]
    exact ⟨_, rfl, covered_append (covered_answered yes _) (quiet _ _)⟩
  cases h with
  | refused e no => exact ⟨_, rfl, fun userId => Nat.zero_le _⟩
  | failed _ yes no _ => exact ⟨_, rfl, covered_answered yes _⟩
  | unnotified e yes delivered no => exact complete yes
  | delivered yes => exact complete yes.accepted

variable (core options) in
theorem deliverAll_covered (xs delivered : List ResolvedRecipient) (deferred : List JsString) (s : CoreState) :
    Eff.wp (deliverAll core options xs delivered deferred) s fun _ s' =>
      ∃ more, s'.trace = s.trace ++ more ∧ Covered more := by
  induction xs generalizing delivered deferred s with
  | nil => exact ⟨[], (List.append_nil _).symm, covered_nil⟩
  | cons x xs ih =>
    rw [deliverAll, Eff.wp_bind]
    apply Eff.wp_mono (deliverTo_spec core options x s)
    intro r s₁ h
    obtain ⟨first, trace, covered⟩ := deliverTo_covered h
    have continued (delivered' : List ResolvedRecipient) (deferred' : List JsString) :
        Eff.wp (deliverAll core options xs delivered' deferred') s₁ fun _ s' =>
          ∃ more, s'.trace = s.trace ++ more ∧ Covered more := by
      apply Eff.wp_mono (ih delivered' deferred' s₁)
      rintro _ s₂ ⟨second, trace', covered'⟩
      exact ⟨first ++ second, by rw [trace', trace, List.append_assoc], covered_append covered covered'⟩
    cases r with
    | error e => exact ⟨first, trace, covered⟩
    | ok delivery =>
      cases delivery with
      | delivered => exact continued _ _
      | temporary => exact continued _ _
      | failed => exact ⟨first, trace, covered⟩

variable (core options) in
/-- Either every recipient is delivered, or the loop leaves the good path at
one of them. -/
theorem deliverAll_spec (xs delivered : List ResolvedRecipient) (deferred : List JsString) (s : CoreState) :
    Eff.wp (deliverAll core options xs delivered deferred) s fun r s' =>
      (AllSucceed core options s.trace xs ∧ r = .ok (.finished (delivered ++ xs) deferred) ∧
        s'.trace = happyTrace core options s.trace xs) ∨
      ∃ before x after, xs = before ++ x :: after ∧ AllSucceed core options s.trace before ∧
        Fault core options s.trace before x r s'.trace := by
  induction xs generalizing delivered s with
  | nil => exact .inl ⟨trivial, by rw [List.append_nil]; rfl, rfl⟩
  | cons x xs ih =>
    rw [deliverAll, Eff.wp_bind]
    apply Eff.wp_mono (deliverTo_spec core options x s)
    intro r s₁ h
    generalize trace : s₁.trace = t at h
    cases h with
    | refused e no => 
      have fault : Fault core options s.trace [] x (.error e) _ := .refused e no
      exact .inr ⟨[], x, xs, rfl, trivial, fault⟩
    | failed _ yes no other =>
      have here (r : Except (Thrown CodedError) Deliveries) (more : Trace) (covered : Covered more) :
          Fault core options s.trace [] x r (answeredTrace core options s.trace x ++ more) :=
        .failed r more covered yes no
      have stopped (r : Except (Thrown CodedError) Deliveries) :
          Fault core options s.trace [] x r (answeredTrace core options s.trace x) := by
        have fault := here r [] covered_nil
        rw [List.append_nil] at fault
        exact fault
      cases r with
      | error e => exact .inr ⟨[], x, xs, rfl, trivial, stopped _⟩
      | ok delivery =>
        cases delivery with
        | delivered => exact absurd rfl other
        | failed => exact .inr ⟨[], x, xs, rfl, trivial, trace ▸ stopped _⟩
        | temporary =>
          apply Eff.wp_mono (deliverAll_covered core options xs delivered _ s₁)
          rintro r s₂ ⟨more, trace', covered⟩
          refine .inr ⟨[], x, xs, rfl, trivial, ?_⟩
          rw [trace', trace]
          exact here r more covered
    | unnotified e yes delivered no =>
      have fault : Fault core options s.trace [] x (.error e) _ := .unnotified e yes delivered no
      exact .inr ⟨[], x, xs, rfl, trivial, fault⟩
    | delivered yes =>
      apply Eff.wp_mono (ih (delivered ++ [x]) s₁)
      rw [trace]
      rintro r s₂ (⟨all, finished, happy⟩ | ⟨before, y, after, rfl, all, fault⟩)
      · exact .inl ⟨⟨yes, all⟩, by rw [finished, List.append_assoc]; rfl, happy⟩
      · exact .inr ⟨x :: before, y, after, rfl, ⟨yes, all⟩, fault_cons fault⟩

theorem audit_fst {host : Host} {reading : Reading} {context eventType result reason details : JsValue}
    {canonical : Actor.TenantContext} {e r : JsString} (asserted : assertContext host context = .ok canonical)
    (he : requiredString eventType "eventType" = .ok e) (hr : requiredString result "result" = .ok r)
    (p : PolicyState) :
    (audit host (fun _ => reading) eventType context result reason details p).1 =
      (reading.date >>= isoText).map fun time =>
        ⟨e, canonical.tenantId, canonical.actorId, r, reason, details, time⟩ := by
  unfold audit
  rw [asserted, he, hr]
  cases reading <;> rfl

theorem date_isoText {reading : Reading} :
    (∃ text, (reading.date >>= isoText) = .ok text) ↔ ∃ t, reading = .time t := by
  cases reading <;> simp [Reading.date, isoText]

/-- The record of a call that was authorised is written if the clock gives a
date. -/
theorem auditCall_ok_iff {context result : JsValue} {eventType : String} (reason : String)
    (details : List (String × JsValue)) {canonical : Actor.TenantContext} {e r : JsString}
    (asserted : assertContext core.host context = .ok canonical)
    (he : requiredString (text eventType) "eventType" = .ok e) (hr : requiredString result "result" = .ok r)
    (s : CoreState) :
    (∃ record, (auditCall core context eventType result reason details s).1 = .ok record) ↔
      ∃ time, core.services.policyClock s.trace = .time time := by
  have same : (auditCall core context eventType result reason details s).1 =
      (audit core.host (fun _ => core.services.policyClock s.trace) (text eventType) context result
        (text reason) (.object (details.map fun d => (js d.1, d.2))) s.policy).1 := rfl
  rw [same, audit_fst asserted he hr, ← date_isoText]
  constructor
  · rintro ⟨record, h⟩
    obtain ⟨time, ok, _⟩ := map_eq_ok.mp h
    exact ⟨time, ok⟩
  · rintro ⟨time, ok⟩
    exact ⟨_, map_eq_ok.mpr ⟨time, ok, rfl⟩⟩

section
variable (core : CoreOptions) (options : MailEnvelopeOptions)

/-- The first reservation is not accepted. -/
def FirstRefused (t : Trace) (xs : List ResolvedRecipient) : Prop :=
  ∃ x rest, xs = x :: rest ∧ isAccepted (reservationAt core options t x) = false

/-- All goes well for every recipient, no user is one twice, and the audit
record gets its date. -/
structure Spotless (t : Trace) (xs : List ResolvedRecipient) : Prop where
  all : AllSucceed core options t xs
  distinct : (xs.map (·.userId)).Nodup
  dated : ∃ time, core.services.policyClock (happyTrace core options t xs) = .time time

end

theorem nodup_users {xs : List ResolvedRecipient} :
    (xs.map (·.userId)).Nodup ↔ ∀ userId, xs.countP (fun x => x.userId = userId) ≤ 1 := by
  rw [List.nodup_iff_count_le_one]
  apply forall_congr'
  intro userId
  rw [List.count, List.countP_map]
  have same : ((fun x => x == userId) ∘ fun x : ResolvedRecipient => x.userId) =
      fun x => decide (x.userId = userId) := by
    funext x
    exact beq_eq_decide _ _
  rw [same]

/-- Queue entries are neither reservations nor copies. -/
theorem counts_enqueues {more : Trace} (h : ∀ e ∈ more, e.isEnqueue = true) (userId : JsString) :
    accepted more userId = 0 ∧ copies more userId = 0 := by
  rw [accepted, copies, List.countP_eq_zero, List.countP_eq_zero]
  constructor <;> intro e he <;> have kind := h e he <;>
    cases e <;> simp_all [CoreEvent.isEnqueue, CoreEvent.acceptedFor, CoreEvent.deliveredTo]

/-- The trace the deliveries start from: the two scans. -/
structure AfterScan (t : Trace) : Prop where
  accepted : ∀ userId, accepted t userId = 0
  copies : ∀ userId, copies t userId = 0
  enqueue : ∀ entry, .enqueue entry ∉ t

theorem not_enqueue_happyTrace {t : Trace} (start : AfterScan t) (xs : List ResolvedRecipient)
    (entry : QueueEntry) : .enqueue entry ∉ happyTrace core options t xs := by
  have grows : ∀ (xs : List ResolvedRecipient) (t : Trace), .enqueue entry ∉ t →
      .enqueue entry ∉ happyTrace core options t xs := by
    intro xs
    induction xs with
    | nil => exact fun t none => none
    | cons x xs ih =>
      intro t none
      apply ih
      rw [deliveredTrace, answeredTrace]
      simp [none]
  exact grows xs t (start.enqueue entry)

theorem copies_pos_of_before {t : Trace} {before : List ResolvedRecipient} {y : ResolvedRecipient}
    (all : AllSucceed core options t (y :: before)) :
    0 < copies (happyTrace core options t (y :: before)) y.userId := by
  rw [(counts_happyTrace all y.userId).2, List.countP_cons, if_pos (by simp)]
  omega

/-- The good path accounts for everything exactly if no user is reached twice
and the audit record gets its date. -/
theorem accounted_happy {t : Trace} {authorization : InboundAuthorization}
    {r : Except (Thrown CodedError) MailResult} (start : AfterScan t)
    (all : AllSucceed core options t authorization.recipients.resolved)
    (some : authorization.recipients.resolved ≠ [])
    (reported : ∀ result, r = .ok result → result.status = .delivered) :
    Accounted core options authorization r (happyTrace core options t authorization.recipients.resolved) ↔
      (authorization.recipients.resolved.map (·.userId)).Nodup ∧ ∃ result, r = .ok result := by
  have counts := counts_happyTrace all
  simp only [start.accepted, start.copies, Nat.zero_add] at counts
  rw [nodup_users]
  constructor
  · intro h
    refine ⟨fun userId => (counts userId).2 ▸ h.once userId, ?_⟩
    cases r with
    | ok result => exact ⟨result, rfl⟩
    | error e =>
      obtain ⟨x, rest, same⟩ := List.exists_cons_of_ne_nil some
      have none := h.nothing nofun x.userId
      rw [(counts x.userId).2, same, List.countP_cons, if_pos (by simp)] at none
      omega
  · rintro ⟨distinct, result, rfl⟩
    refine ⟨fun userId => (counts userId).2 ▸ distinct userId, ?_, ?_, ?_⟩
    · intro entry mem
      exact absurd mem (not_enqueue_happyTrace start _ entry)
    · intro userId
      rw [(counts userId).1, (counts userId).2]
    · intro rejected
      have status := reported result rfl
      rw [rejected result rfl] at status
      cases status

/-- A fault after an accepted reservation breaks the accounts. -/
theorem accounted_fault {t t' : Trace} {before : List ResolvedRecipient} {x : ResolvedRecipient}
    {loop : Except (Thrown CodedError) Deliveries} (authorization : InboundAuthorization)
    (r : Except (Thrown CodedError) MailResult) (more : Trace) (start : AfterScan t)
    (all : AllSucceed core options t before) (fault : Fault core options t before x loop t')
    (failed : ∀ e, loop = .error e → r = .error e ∧ more = [])
    (enqueues : ∀ e ∈ more, e.isEnqueue = true) :
    Accounted core options authorization r (t' ++ more) ↔
      before = [] ∧ isAccepted (reservationAt core options t x) = false := by
  have counts := counts_happyTrace all
  simp only [start.accepted, start.copies, Nat.zero_add] at counts
  have later := counts_enqueues enqueues
  cases fault with
  | refused e no =>
    obtain ⟨rfl, rfl⟩ := failed e rfl
    rw [List.append_nil]
    cases before with
    | nil =>
      refine ⟨fun _ => ⟨rfl, no⟩, fun _ => ?_⟩
      change Accounted core options authorization _ (t ++ [.reserve x.userId (reservationAt core options t x)])
      have none (userId : JsString) :
          copies (t ++ [.reserve x.userId (reservationAt core options t x)]) userId = 0 := by
        rw [copies_append, start.copies]
        rfl
      refine ⟨fun userId => by rw [none]; omega, ?_, fun userId => ?_, fun _ => none⟩
      · intro entry mem
        rcases List.mem_append.mp mem with mem | mem
        · exact absurd mem (start.enqueue entry)
        · cases List.mem_singleton.mp mem
      · change isAccepted (reservationAt core options t x) = false at no
        rw [none, accepted_append, start.accepted, accepted_reserve, no]
        simp
    | cons y before =>
      constructor
      · intro h
        have none := h.nothing nofun y.userId
        rw [copies_append] at none
        have some := copies_pos_of_before all
        omega
      · rintro ⟨none, _⟩
        cases none
  | failed _ rest covered yes no =>
    constructor
    · intro h
      have reserved := h.reserved x.userId
      obtain ⟨answered, answered'⟩ :=
        counts_answeredTrace core options (happyTrace core options t before) x x.userId
      rw [yes] at answered
      rw [no] at answered'
      simp only [and_self, ↓reduceIte, Bool.false_eq_true, and_false, Nat.add_zero] at answered answered'
      have least := covered x.userId
      rw [accepted_append, accepted_append, copies_append, copies_append, answered, answered',
        (counts x.userId).1, (counts x.userId).2, (later x.userId).1, (later x.userId).2] at reserved
      omega
    · rintro ⟨rfl, refused⟩
      change isAccepted (reservationAt core options t x) = true at yes
      rw [refused] at yes
      cases yes
  | unnotified e yes delivered no =>
    obtain ⟨rfl, rfl⟩ := failed e rfl
    constructor
    · intro h
      have none := h.nothing nofun x.userId
      obtain ⟨_, answered⟩ :=
        counts_answeredTrace core options (happyTrace core options t before) x x.userId
      rw [delivered] at answered
      simp only [and_self, ↓reduceIte] at answered
      rw [List.append_nil, (counts_deliveredTrace core options _ x x.userId).2, answered] at none
      omega
    · rintro ⟨rfl, refused⟩
      change isAccepted (reservationAt core options t x) = true at yes
      rw [refused] at yes
      cases yes

theorem not_succeeds_of_fault {t t' : Trace} {before : List ResolvedRecipient} {x : ResolvedRecipient}
    {loop : Except (Thrown CodedError) Deliveries} (fault : Fault core options t before x loop t') :
    ¬ Succeeds core options (happyTrace core options t before) x := by
  intro succeeds
  cases fault with
  | refused e no =>
    rw [succeeds.accepted] at no
    cases no
  | failed _ more covered yes no =>
    rw [succeeds.delivered] at no
    cases no
  | unnotified e yes delivered no =>
    rw [succeeds.notified] at no
    cases no

theorem firstRefused_iff {t : Trace} {before after : List ResolvedRecipient} {x : ResolvedRecipient}
    (all : AllSucceed core options t before) :
    FirstRefused core options t (before ++ x :: after) ↔
      before = [] ∧ isAccepted (reservationAt core options t x) = false := by
  cases before with
  | nil => simp [FirstRefused]
  | cons y before =>
    constructor
    · rintro ⟨first, rest, same, no⟩
      cases same
      rw [all.1.accepted] at no
      cases no
    · rintro ⟨none, _⟩
      cases none

variable (core options) in
theorem answerInbound_accounted (context : JsValue) (authorization : InboundAuthorization) (result : ScanResult)
    (s : CoreState) (passed : result.status = .accepted) (start : AfterScan s.trace)
    {canonical : Actor.TenantContext} (asserted : assertContext core.host context = .ok canonical)
    (some : authorization.recipients.resolved ≠ []) :
    (Eff.wp (answerInbound core context options authorization result) s fun r s' =>
      Accounted core options authorization r s'.trace) ↔
      FirstRefused core options s.trace authorization.recipients.resolved ∨
        Spotless core options s.trace authorization.recipients.resolved := by
  unfold answerInbound
  rw [passed]
  dsimp only
  have loop := deliverAll_spec core options authorization.recipients.resolved [] [] s
  unfold Eff.wp at loop
  rcases outcome : deliverAll core options authorization.recipients.resolved [] [] s with ⟨r, s₁⟩
  rw [outcome] at loop
  rw [Eff.wp_bind_eq outcome]
  rcases loop with ⟨all, rfl, trace⟩ | ⟨before, x, after, same, all, fault⟩
  · -- All were delivered: what is left is the audit record.
    dsimp only at trace ⊢
    have never : ¬ FirstRefused core options s.trace authorization.recipients.resolved := by
      rintro ⟨x, rest, same, no⟩
      rw [same] at all
      rw [all.1.accepted] at no
      cases no
    have event : requiredString (text "mail.delivery.accepted") "eventType" =
        .ok (js "mail.delivery.accepted") := rfl
    have accepted : requiredString (text "accepted") "result" = .ok (js "accepted") := rfl
    rw [List.nil_append, settle]
    generalize [("path", text "inbound"), ("recipientCount", _), ("sizeBytes", _)] = details
    have dated := auditCall_ok_iff "delivered" details asserted event accepted s₁
    have quiet : (auditCall core context "mail.delivery.accepted" (text "accepted") "delivered" details s₁).2.trace =
      s₁.trace := rfl
    rcases written : auditCall core context "mail.delivery.accepted" (text "accepted") "delivered" details s₁
      with ⟨record, s₂⟩
    rw [written] at dated quiet
    rw [Eff.wp_bind_eq written]
    dsimp only at quiet dated
    rw [trace] at dated quiet
    have spotless : Spotless core options s.trace authorization.recipients.resolved ↔
        (authorization.recipients.resolved.map (·.userId)).Nodup ∧ ∃ r, record = .ok r :=
      ⟨fun h => ⟨h.distinct, dated.mpr h.dated⟩, fun h => ⟨all, h.1, dated.mp h.2⟩⟩
    rw [or_iff_right never, spotless]
    cases record with
    | error e =>
      show Accounted core options authorization (.error e) s₂.trace ↔ _
      rw [quiet, accounted_happy start all some (fun result h => by cases h)]
      simp
    | ok record =>
      show Accounted core options authorization (.ok _) s₂.trace ↔ _
      rw [quiet, accounted_happy start all some (fun result h => by cases h; rfl)]
      simp
  · -- Something failed at `x`, and what follows adds queue entries at most.
    have notAll : ¬ Spotless core options s.trace authorization.recipients.resolved := by
      intro spotless
      have all' := spotless.all
      rw [same, allSucceed_append] at all'
      exact not_succeeds_of_fault fault all'.2.1
    have first : FirstRefused core options s.trace authorization.recipients.resolved ↔
        before = [] ∧ isAccepted (reservationAt core options s.trace x) = false := by
      rw [same]
      exact firstRefused_iff all
    rw [or_iff_left notAll, first]
    cases r with
    | error e =>
      have iff := accounted_fault authorization (.error e) [] start all fault
        (fun e' h => by cases h; exact ⟨rfl, rfl⟩) (by simp)
      rw [List.append_nil] at iff
      exact iff
    | ok deliveries =>
      have adds (details : List (String × JsValue)) : Adds (fun e => e.isEnqueue = true)
          (settle core context options details deliveries) := adds_settle _ _ _ fun _ => rfl
      obtain ⟨more, trace, enqueues⟩ := adds _ s₁
      show Accounted core options authorization _ (settle core context options _ deliveries s₁).2.trace ↔ _
      rw [trace]
      exact accounted_fault authorization _ more start all fault nofun enqueues

/-- Where both scanners pass, the scan is accepted. -/
theorem scan_passed {s : CoreState} (rspamd : rspamdPasses (rspamdAt core options s.trace) = true)
    (clamav : clamavPasses (clamavAt core options (rspamdTrace core options s.trace)) = true) :
    ∃ result s', scan core options s = (.ok result, s') ∧ result.status = .accepted ∧
      s'.trace = scannedTrace core options s.trace := by
  have spec := scan_spec core options s
  unfold Eff.wp at spec
  rcases outcome : scan core options s with ⟨r, s'⟩
  rw [outcome] at spec
  dsimp only at spec
  generalize trace : s'.trace = t at spec
  cases spec with
  | stopped _ fails _ =>
    rw [rspamd] at fails
    cases fails
  | refused _ fails _ =>
    rw [clamav] at fails
    cases fails
  | passed result _ _ accepted => exact ⟨result, s', rfl, accepted, trace⟩

/-- After a clean scan, the call accounts for what it reserves and delivers
exactly if the first reservation is refused, or nothing goes wrong at all and
no user is reached twice. -/
theorem receiveInbound_accounted_iff (core : CoreOptions) (context : JsValue) (options : MailEnvelopeOptions)
    (p : PolicyState) (q : QueueState) (authorization : InboundAuthorization)
    (authorized : authorizeInbound core.host core.policy context options = .ok authorization)
    (rspamd : rspamdPasses (rspamdAt core options []) = true)
    (clamav : clamavPasses (clamavAt core options (rspamdTrace core options [])) = true) :
    (Eff.wp (receiveInbound core context options) ⟨p, q, []⟩ fun r s' =>
      Accounted core options authorization r s'.trace) ↔
      FirstRefused core options (scannedTrace core options []) authorization.recipients.resolved ∨
        Spotless core options (scannedTrace core options []) authorization.recipients.resolved := by
  obtain ⟨canonical, asserted, _⟩ := bind_eq_ok.mp authorized
  obtain ⟨result, s', scanned, status, trace⟩ := scan_passed (s := ⟨p, q, []⟩) rspamd clamav
  have start : AfterScan s'.trace := by
    rw [trace]
    exact ⟨fun _ => rfl, fun _ => rfl, by simp [scannedTrace, rspamdTrace]⟩
  have some := (authorizeInbound_sound authorized).resolved.1
  have run := answerInbound_accounted core options context authorization result s' status start asserted some
  rw [trace] at run
  rw [← run, receiveInbound, authorized]
  show Eff.wp (scan core options >>= _) _ _ ↔ _
  rw [Eff.wp_bind_eq scanned]

/-- Services that accept, deliver and answer everything. -/
def sampleServices : CoreServices where
  rspamd := some fun _ _ => .returned (.object [(js "action", text "accept")])
  clamav := some fun _ _ => .returned (text "clean")
  reserve _ _ _ := .returned (.object [(js "accepted", .bool true)])
  deliver _ _ := .returned (.object [(js "status", text "delivered"), (js "mailbox", text "INBOX"),
    (js "uidNext", .number 2)])
  notify _ _ := .returned .undefined
  warn _ := .returned .undefined
  policyClock _ := .time 0
  queue := ⟨fun _ => .time 0, defaultId⟩
  meanwhile _ s := s

def sampleCore : CoreOptions :=
  ⟨asciiHost, samplePolicy, sampleQueueOptions, sampleServices⟩

def sampleQueue : QueueState := ⟨Table.empty, 0, 0⟩

def sampleResolved : List ResolvedRecipient :=
  [⟨js "alice@example.test", js "alice", .alias (js "sales@example.test")⟩,
    ⟨js "bob@example.test", js "bob", .alias (js "sales@example.test")⟩]

/-- To the alias of both users, all goes well. -/
theorem receiveInbound_accounted_alias :
    Eff.wp (receiveInbound sampleCore sampleContext sampleInbound) ⟨.initial, sampleQueue, []⟩ fun r s' =>
      Accounted sampleCore sampleInbound
        ⟨js "sender@example.net", [js "sales@example.test"], sampleResolved, []⟩ r s'.trace := by
  apply (receiveInbound_accounted_iff sampleCore sampleContext sampleInbound .initial sampleQueue _
    (by decide +kernel) (by decide +kernel) (by decide +kernel)).mpr
  exact .inr ⟨⟨⟨rfl, by decide +kernel, rfl⟩, ⟨rfl, by decide +kernel, rfl⟩, trivial⟩, by decide, 0, rfl⟩

/-- To a user directly and through the alias as well. -/
def sampleTwice : MailEnvelopeOptions :=
  { sampleInbound with
    recipients := .array [.string (js "alice@example.test"), .string (js "sales@example.test")] }

/-- The user gets the message twice. -/
theorem receiveInbound_delivers_twice :
    ∃ authorization, authorizeInbound asciiHost samplePolicy sampleContext sampleTwice = .ok authorization ∧
      rspamdPasses (rspamdAt sampleCore sampleTwice []) = true ∧
      clamavPasses (clamavAt sampleCore sampleTwice (rspamdTrace sampleCore sampleTwice [])) = true ∧
      ¬ Eff.wp (receiveInbound sampleCore sampleContext sampleTwice) ⟨.initial, sampleQueue, []⟩ fun r s' =>
        Accounted sampleCore sampleTwice authorization r s'.trace := by
  have twice : copies (receiveInbound sampleCore sampleContext sampleTwice
      ⟨.initial, sampleQueue, []⟩).2.trace (js "alice") = 2 := by decide +kernel
  refine ⟨⟨js "sender@example.net", [js "alice@example.test", js "sales@example.test"],
    ⟨js "alice@example.test", js "alice", .mailbox⟩ :: sampleResolved, []⟩,
    by decide +kernel, by decide +kernel, by decide +kernel, fun accounted => ?_⟩
  have once := accounted.once (js "alice")
  rw [twice] at once
  omega

end GuloGulo.Mail
