import GuloGulo.Mail.QueueRuns

/-!
# When an entry is tried again

`defer` writes the state of the entry before it computes the next attempt, a
date that doubles with every attempt and has an end.
-/

namespace GuloGulo.Mail
open Js Data Integrations

namespace Queue

/-- A date before the year 10000. -/
def InEra (t : Int) : Prop := -maxTime ≤ t ∧ t < 253402300800000

/-- The call gets past the checks of `defer`. -/
structure Defers (host : Host) (s : QueueState) (id : JsString) (context : JsValue) (e : QueueEntry) : Prop where
  present : s.entries.get id = some e
  access : (assertAccess host context e.tenantId).isOk
  pending : e.state = .queued ∨ e.state = .delivering ∨ e.state = .deferred

/-- The entry is to be tried at a date from now on, and no earlier than with
fewer attempts. -/
structure Postponed (options : MailQueueOptions) (now : Int) (attempts : Nat) (e : QueueEntry) (time : Int) : Prop where
  text : e.nextAttemptAt = isoString time
  date : -maxTime ≤ time ∧ time ≤ maxTime
  later : now ≤ time
  grows : ∀ more, attempts ≤ more → ∀ time', nextAttempt options more (some now) = some time' → time ≤ time'

/-- A call of `defer` leaves everything as it was and throws, or it returns with
the entry postponed. -/
def Total (options : MailQueueOptions) (services : QueueServices) (s : QueueState) (id : JsString)
    (r : Except (Thrown CodedError) QueueEntry) (s' : QueueState) : Prop :=
  (∃ error, r = .error error ∧ s' = s) ∨
    ∃ e now e' time, s.entries.get id = some e ∧ services.clock s.readings = .time now ∧ r = .ok e' ∧
      s'.entries.get id = some e' ∧ Postponed options now e.attempts e' time

section
variable {host : Host} {options : MailQueueOptions} {services : QueueServices} {s : QueueState} {id : JsString}
  {context : JsValue} {reason : JsString} {e : QueueEntry}

theorem nextAttempt_eq_some {attempts : Nat} {now time : Int} : nextAttempt options attempts (some now) = some time ↔
    time = now + Int.ofNat (options.retryBaseMs * Nat.pow 2 (attempts - 1)) ∧ -maxTime ≤ time ∧ time ≤ maxTime := by
  constructor
  · intro h
    exact timeClip_eq_some h
  · rintro ⟨rfl, inside⟩
    exact if_pos inside

theorem wait_mono {a b : Nat} (fewer : a ≤ b) :
    options.retryBaseMs * Nat.pow 2 (a - 1) ≤ options.retryBaseMs * Nat.pow 2 (b - 1) := by
  apply Nat.mul_le_mul_left
  exact Nat.pow_le_pow_right (by decide) (by omega)

theorem postponed_of {now time : Int} {e' : QueueEntry} {attempts : Nat}
    (next : nextAttempt options attempts (some now) = some time) (text : e'.nextAttemptAt = isoString time) :
    Postponed options now attempts e' time := by
  obtain ⟨same, date⟩ := nextAttempt_eq_some.mp next
  refine ⟨text, date, ?_, ?_⟩
  · rw [same]
    exact Int.le_add_of_nonneg_right (Int.natCast_nonneg _)
  · intro more fewer time' next'
    rw [same, (nextAttempt_eq_some.mp next').1]
    exact Int.add_le_add_left (Int.ofNat_le.mpr (wait_mono fewer)) now

theorem wp_readClock_time {α : Type} {Q : Except (Thrown CodedError) α → QueueState → Prop} {f : Option Int → QueueM α}
    {now : Int} (shows : services.clock s.readings = .time now)
    (reads : Eff.wp (f (some now)) { s with readings := s.readings + 1 } Q) : Eff.wp (readClock services >>= f) s Q := by
  have read : readClock services s = (.ok (some now), { s with readings := s.readings + 1 }) := by
    show ((services.clock s.readings).date, _) = _
    rw [shows]
    rfl
  exact (Eff.wp_bind_eq read).mpr reads

/-- A call that is refused has done nothing. -/
theorem defer_refused (refused : ∀ e, ¬ Defers host s id context e) :
    Eff.wp (defer host options services id context reason) s fun r s' => ∃ error, r = .error error ∧ s' = s := by
  apply wp_get_bind
  · exact fun error => ⟨error, rfl, rfl⟩
  · intro e present
    refine Eff.wp_lift_bind.mpr ⟨fun error _ => ⟨error, rfl, rfl⟩, fun canonical known => ?_⟩
    refine Eff.wp_lift_bind.mpr ⟨fun error _ => ⟨error, rfl, rfl⟩, fun _ deferrable => ?_⟩
    have deferrable := throwIf_eq_ok.mp deferrable
    simp only [Bool.and_eq_false_iff, bne_eq_false_iff_eq, or_assoc] at deferrable
    exact absurd ⟨present, isOk_of_eq known, deferrable⟩ (refused e)

theorem wp_get_present {α : Type} {Q : Except (Thrown CodedError) α → QueueState → Prop} {f : QueueEntry → QueueM α}
    (present : s.entries.get id = some e) (rest : Eff.wp (f e) s Q) : Eff.wp (get id >>= f) s Q := by
  rw [Eff.wp_bind, get, Eff.wp_get_bind, present]
  exact rest

/-- A call that is not refused comes to the date: it throws there, or goes on to
the time of the update. -/
theorem defer_accepted {now updated : Int} {Q : Except (Thrown CodedError) QueueEntry → QueueState → Prop}
    (defers : Defers host s id context e) (shows : services.clock s.readings = .time now)
    (shows' : services.clock (s.readings + 1) = .time updated)
    (throws : nextAttempt options e.attempts (some now) = none →
      ∀ error s', s'.readings = s.readings + 1 → Q (.error error) s')
    (returns : ∀ time, nextAttempt options e.attempts (some now) = some time →
      ∀ e' s', s'.entries.get id = some e' → e'.nextAttemptAt = isoString time → Q (.ok e') s') :
    Eff.wp (defer host options services id context reason) s Q := by
  obtain ⟨present, access, pending⟩ := defers
  obtain ⟨canonical, known⟩ := eq_ok_of_toBool access
  apply wp_get_present present
  refine Eff.wp_lift_bind.mpr ⟨fun error failed => absurd access (not_isOk_of_eq failed), fun _ _ => ?_⟩
  have deferrable : (e.state != .queued && e.state != .delivering && e.state != .deferred) = false := by
    rcases pending with state | state | state
    · rw [state]
      rfl
    · rw [state]
      rfl
    · rw [state]
      rfl
  rw [deferrable]
  refine Eff.wp_lift_bind.mpr ⟨nofun, fun _ _ => ?_⟩
  dsimp only
  generalize (if e.attempts ≥ options.maxAttempts then MailQueueState.bounced else .deferred) = state
  have first := only_adjust (only_self present) fun e => { e with
    state := state, reason := safeReason (if state = .bounced then js "retry_exhausted" else reason) }
  refine wp_assign_bind.mpr (wp_readClock_time shows ?_)
  cases next : nextAttempt options e.attempts (some now) with
  | none => exact Eff.wp_lift_bind.mpr ⟨fun error _ => throws next error _ rfl, nofun⟩
  | some time =>
    refine Eff.wp_lift_bind.mpr ⟨nofun, fun text same => ?_⟩
    cases same
    have second := only_adjust first fun e => { e with nextAttemptAt := isoString time }
    refine wp_assign_bind.mpr ?_
    rw [Eff.wp_bind, Queue.now]
    apply wp_readClock_time shows'
    have third := only_adjust second fun e => { e with updatedAt := isoString updated }
    exact wp_assign_bind.mpr (wp_get (only_get third) (returns time next _ _ (only_get third) rfl))

/-- A date beyond the last one is found too late. -/
theorem defer_late {now updated : Int} (defers : Defers host s id context e) (shows : services.clock s.readings = .time now)
    (shows' : services.clock (s.readings + 1) = .time updated)
    (total : Eff.wp (defer host options services id context reason) s (Total options services s id)) :
    now + Int.ofNat (options.retryBaseMs * Nat.pow 2 (e.attempts - 1)) ≤ maxTime := by
  by_contra beyond
  have none : nextAttempt options e.attempts (some now) = none := by
    cases next : nextAttempt options e.attempts (some now) with
    | none => rfl
    | some time =>
      obtain ⟨rfl, _, high⟩ := nextAttempt_eq_some.mp next
      exact absurd high beyond
  have throws : Eff.wp (defer host options services id context reason) s fun r s' =>
      ∃ error, r = .error error ∧ s'.readings = s.readings + 1 := by
    apply defer_accepted defers shows shows'
    · exact fun _ error s' readings => ⟨error, rfl, readings⟩
    · intro time next
      rw [none] at next
      cases next
  obtain ⟨error, thrown, readings⟩ := throws
  rcases total with ⟨_, _, same⟩ | ⟨_, _, _, _, _, _, returned, _⟩
  · rw [same] at readings
    omega
  · rw [returned] at thrown
    cases thrown

theorem defer_total {now updated : Int} (shows : services.clock s.readings = .time now) (era : InEra now)
    (shows' : services.clock (s.readings + 1) = .time updated)
    (fits : ∀ e, Defers host s id context e →
      now + Int.ofNat (options.retryBaseMs * Nat.pow 2 (e.attempts - 1)) ≤ maxTime) :
    Eff.wp (defer host options services id context reason) s (Total options services s id) := by
  by_cases defers : ∃ e, Defers host s id context e
  · obtain ⟨e, defers⟩ := defers
    have high := fits e defers
    have wait := Int.natCast_nonneg (options.retryBaseMs * Nat.pow 2 (e.attempts - 1))
    have low : -maxTime ≤ now + Int.ofNat (options.retryBaseMs * Nat.pow 2 (e.attempts - 1)) :=
      Int.le_trans era.1 (Int.le_add_of_nonneg_right wait)
    apply defer_accepted defers shows shows'
    · intro none
      rw [nextAttempt_eq_some.mpr ⟨rfl, low, high⟩] at none
      cases none
    · intro time next e' s' present text
      exact .inr ⟨e, now, e', time, defers.present, shows, rfl, present, postponed_of next text⟩
  · apply Eff.wp_mono (defer_refused fun e accepted => defers ⟨e, accepted⟩)
    exact fun _ _ refused => .inl refused

/-- In any state, the call does what it is for if and only if the date is not
beyond the last one there is. -/
theorem defer_total_iff (host : Host) (options : MailQueueOptions) (services : QueueServices) (s : QueueState)
    (id : JsString) (context : JsValue) (reason : JsString) (clock : ∀ n, ∃ t, services.clock n = .time t ∧ InEra t) :
    Eff.wp (defer host options services id context reason) s (Total options services s id) ↔
      ∀ e now, Defers host s id context e → services.clock s.readings = .time now →
        now + Int.ofNat (options.retryBaseMs * Nat.pow 2 (e.attempts - 1)) ≤ maxTime := by
  obtain ⟨now, shows, era⟩ := clock s.readings
  obtain ⟨updated, shows', _⟩ := clock (s.readings + 1)
  constructor
  · intro total e now defers shows
    exact defer_late defers shows shows' total
  · exact fun fits => defer_total shows era shows' fun e defers => fits e now defers shows

end

/-- What calls in any order lead to. -/
inductive Reached (queue : MailQueue) : QueueState → Prop where
  | created : Reached queue ⟨Table.empty, 0, 0⟩
  | call {s : QueueState} (reached : Reached queue s) (call : Call) : Reached queue (call.run queue s).2

theorem reached_bound {queue : MailQueue} {s : QueueState} (reached : Reached queue s) (id : JsString) (e : QueueEntry)
    (present : s.entries.get id = some e) : e.attempts ≤ queue.options.maxAttempts ∧
      (e.state = .queued ∨ e.state = .deferred → e.attempts < queue.options.maxAttempts) := by
  induction reached generalizing id e with
  | created => cases present
  | @call s reached call ih =>
    have outcome := call_outcome queue call s
    generalize (call.run queue s).1 = r at outcome
    generalize (call.run queue s).2 = s' at outcome present
    cases outcome with
    | refused _ _ entries =>
      rw [entries] at present
      exact ih id e present
    | enqueued input canonical e' _ is known tenant state attempts new ids entries =>
      rw [entries, OrderedMap.get_set] at present
      split at present
      · cases present
        have := queue.options.attemptsBound
        rw [attempts]
        omega
      · exact ih id e present
    | moved id' canonical e' e'' _ _ is present' known moves mail only ids =>
      rw [only] at present
      split at present
      · cases present
        exact moves_bound moves (ih id' e' present')
      · exact ih id e present

/-- With a base that is small for the attempts, no call of a queue goes wrong. -/
theorem defers_total {queue : MailQueue} {s : QueueState} (reached : Reached queue s)
    (clock : ∀ n, ∃ t, queue.clock n = .time t ∧ InEra t)
    (fits : 253402300800000 + Int.ofNat (queue.options.retryBaseMs * Nat.pow 2 (queue.options.maxAttempts - 1)) ≤ maxTime)
    (id : JsString) (context : JsValue) (reason : JsString) :
    Eff.wp (defer queue.host queue.options queue.services id context reason) s
      (Total queue.options queue.services s id) := by
  obtain ⟨now, shows, era⟩ := clock s.readings
  obtain ⟨updated, shows', _⟩ := clock (s.readings + 1)
  have shows : queue.services.clock s.readings = .time now := shows
  apply defer_total shows era shows'
  intro e defers
  have few := (reached_bound reached id e defers.present).1
  have wait : Int.ofNat (queue.options.retryBaseMs * Nat.pow 2 (e.attempts - 1)) ≤
      Int.ofNat (queue.options.retryBaseMs * Nat.pow 2 (queue.options.maxAttempts - 1)) := Int.ofNat_le.mpr (wait_mono few)
  have before := era.2
  omega

theorem patient_attempts : 1 ≤ 5 ∧ 5 ≤ 100 := ⟨by omega, by omega⟩

theorem patient_retry : 1000 ≤ 9007199254740991 ∧ 9007199254740991 ≤ maxSafeInteger :=
  ⟨by omega, Nat.le_refl _⟩

/-- The largest base that is accepted. -/
def patientQueue : MailQueue := { sampleMailQueue with options := ⟨5, 9007199254740991, patient_attempts, patient_retry⟩ }

/-- The date is beyond the last one already for the first attempt, and the entry
is deferred all the same. -/
theorem patient_defer_throws : ¬ ∀ (queue : MailQueue) (s : QueueState) (id : JsString) (context : JsValue)
    (reason : JsString), Reached queue s → (∀ n, ∃ t, queue.clock n = .time t ∧ InEra t) →
      Eff.wp (defer queue.host queue.options queue.services id context reason) s (Total queue.options queue.services s id) := by
  intro always
  have reached : Reached patientQueue (enqueueSample.run patientQueue ⟨Table.empty, 0, 0⟩).2 := .call .created _
  have total := always patientQueue _ (js "q-00000001") alice (js "busy") reached fun _ => ⟨0, rfl, by decide, by decide⟩
  have thrown : (defer patientQueue.host patientQueue.options patientQueue.services (js "q-00000001") alice (js "busy")
      (enqueueSample.run patientQueue ⟨Table.empty, 0, 0⟩).2).1.isOk = false := by decide
  have reads : (defer patientQueue.host patientQueue.options patientQueue.services (js "q-00000001") alice (js "busy")
      (enqueueSample.run patientQueue ⟨Table.empty, 0, 0⟩).2).2.readings = 2 := by decide
  have before : (enqueueSample.run patientQueue ⟨Table.empty, 0, 0⟩).2.readings = 1 := by decide
  rcases total with ⟨_, _, same⟩ | ⟨_, _, _, _, _, _, returned, _⟩
  · rw [same, before] at reads
    cases reads
  · rw [returned] at thrown
    cases thrown

theorem defer_total_sample : Eff.wp (defer sampleMailQueue.host sampleMailQueue.options sampleMailQueue.services
    (js "q-00000001") alice (js "busy")) enqueuedSample
      (Total sampleMailQueue.options sampleMailQueue.services enqueuedSample (js "q-00000001")) := by
  apply (defer_total_iff sampleMailQueue.host sampleMailQueue.options sampleMailQueue.services enqueuedSample
    (js "q-00000001") alice (js "busy") fun _ => ⟨0, rfl, by decide, by decide⟩).mpr
  intro e now defers shows
  have attempts : (enqueuedSample.entries.get (js "q-00000001")).map (fun e => e.attempts) = some 0 := by decide
  rw [defers.present, Option.map_some] at attempts
  cases shows
  rw [Option.some.inj attempts]
  decide

end Queue

end GuloGulo.Mail
