import GuloGulo.Js.Sha256
import GuloGulo.Mail.Queue

/-!
# The states of a queue entry

Any number of workers call the queue, in any order and more than once. `Outcome`
says what a call can do to the entries; `Counted` is what all calls keep.
-/

namespace GuloGulo.Mail
open Js Data Integrations

def MailQueueState.isTerminal : MailQueueState → Bool
  | delivered | bounced | quarantined => true
  | queued | delivering | deferred => false

namespace Queue

/-- A queue with the id factory it has by default. -/
structure MailQueue where
  host : Host
  options : MailQueueOptions
  clock : Nat → Reading

namespace MailQueue

def services (queue : MailQueue) : QueueServices := ⟨queue.clock, defaultId⟩

end MailQueue

inductive Call where
  | enqueue (context : JsValue) (input : QueueEnqueueOptions)
  | claim (queueId : JsString) (context : JsValue)
  | defer (queueId : JsString) (context : JsValue) (reason : JsString)
  | complete (queueId : JsString) (context : JsValue) (state : MailQueueState) (reason : JsString)

namespace Call
variable (queue : MailQueue)

def run : Call → QueueM QueueEntry
  | enqueue context input => Queue.enqueue queue.host queue.services context input
  | claim queueId context => Queue.claim queue.host queue.services queueId context
  | defer queueId context reason => Queue.defer queue.host queue.options queue.services queueId context reason
  | complete queueId context state reason => Queue.complete queue.host queue.services queueId context state reason

def context : Call → JsValue
  | enqueue context _ | claim _ context | defer _ context _ | complete _ context _ _ => context

/-- The entry a call is about. -/
def queueId : Call → Option JsString
  | enqueue .. => none
  | claim queueId _ | defer queueId _ _ | complete queueId _ _ _ => some queueId

end Call

/-- What does not change about an entry. -/
structure SameMail (e e' : QueueEntry) : Prop where
  queueId : e'.queueId = e.queueId
  tenantId : e'.tenantId = e.tenantId
  sender : e'.sender = e.sender
  recipients : e'.recipients = e.recipients
  sizeBytes : e'.sizeBytes = e.sizeBytes
  createdAt : e'.createdAt = e.createdAt
  messageRef : e'.messageRef = e.messageRef

/-- What a call makes of the state and the attempts of its entry. -/
def Moves (options : MailQueueOptions) (returns : Bool) (e e' : QueueEntry) : Call → Prop
  | .enqueue .. => False
  | .claim .. => (e.state = .queued ∨ e.state = .deferred) ∧ e'.state = .delivering ∧
      e'.attempts = e.attempts + returns.toNat
  | .defer .. => (e.state = .queued ∨ e.state = .delivering ∨ e.state = .deferred) ∧
      e'.state = (if e.attempts ≥ options.maxAttempts then .bounced else .deferred) ∧ e'.attempts = e.attempts
  | .complete _ _ state _ => state.isTerminal ∧ e'.state = state ∧ e'.attempts = e.attempts

/-- The entries with one of them changed. -/
def Only (before : OrderedMap JsString QueueEntry) (id : JsString) (e : QueueEntry)
    (entries : OrderedMap JsString QueueEntry) : Prop :=
  ∀ k, entries.get k = if k = id then some e else before.get k

/-- How a call ends: the entries are what they were, or there is a new one, or
the one the call is about has changed. -/
inductive Outcome (queue : MailQueue) (s : QueueState) (call : Call) :
    Except (Thrown CodedError) QueueEntry → QueueState → Prop where
  | refused (e : Thrown CodedError) (s' : QueueState) (entries : s'.entries = s.entries) (ids : s.ids ≤ s'.ids) :
      Outcome queue s call (.error e) s'
  | enqueued (input : QueueEnqueueOptions) (canonical : Actor.TenantContext) (e : QueueEntry) (s' : QueueState)
      (is : call = .enqueue call.context input)
      (known : assertContext queue.host call.context = .ok canonical) (tenant : e.tenantId = canonical.tenantId)
      (state : e.state = .queued) (attempts : e.attempts = 0)
      (id : defaultId s.ids = some e.queueId) (ids : s'.ids = s.ids + 1)
      (entries : s'.entries = s.entries.set e.queueId e) : Outcome queue s call (.ok e) s'
  | moved (id : JsString) (canonical : Actor.TenantContext) (e e' : QueueEntry)
      (r : Except (Thrown CodedError) QueueEntry) (s' : QueueState) (is : call.queueId = some id)
      (present : s.entries.get id = some e)
      (known : assertAccess queue.host call.context e.tenantId = .ok canonical)
      (moves : Moves queue.options r.isOk e e' call) (same : SameMail e e')
      (only : Only s.entries id e' s'.entries) (ids : s'.ids = s.ids) : Outcome queue s call r s'

section
variable {queue : MailQueue} {s : QueueState} {α : Type}
  {Q : Except (Thrown CodedError) α → QueueState → Prop}

/-! ## The steps of a call -/

theorem wp_readClock_bind {services : QueueServices} {f : Option Int → QueueM α}
    (throws : ∀ e s', s'.entries = s.entries → s'.ids = s.ids → Q (.error e) s')
    (reads : ∀ time s', s'.entries = s.entries → s'.ids = s.ids → Eff.wp (f time) s' Q) :
    Eff.wp (readClock services >>= f) s Q := by
  have read : readClock services s =
      ((services.clock s.readings).date, { s with readings := s.readings + 1 }) := rfl
  generalize (services.clock s.readings).date = r at read
  refine (Eff.wp_bind_eq read).mpr ?_
  cases r with
  | error e => exact throws e _ rfl rfl
  | ok time => exact reads time _ rfl rfl

theorem wp_now_bind {services : QueueServices} {f : JsString → QueueM α}
    (throws : ∀ e s', s'.entries = s.entries → s'.ids = s.ids → Q (.error e) s')
    (reads : ∀ text s', s'.entries = s.entries → s'.ids = s.ids → Eff.wp (f text) s' Q) :
    Eff.wp (now services >>= f) s Q := by
  rw [Eff.wp_bind, now]
  apply wp_readClock_bind
  · exact throws
  · intro time s' entries ids
    rw [Eff.wp_lift]
    cases isoText time with
    | error e => exact throws e s' entries ids
    | ok text => exact reads text s' entries ids

theorem wp_get_bind {id : JsString} {f : QueueEntry → QueueM α} (absent : ∀ e, Q (.error e) s)
    (present : ∀ e, s.entries.get id = some e → Eff.wp (f e) s Q) : Eff.wp (get id >>= f) s Q := by
  rw [Eff.wp_bind, get, Eff.wp_get_bind]
  cases he : s.entries.get id with
  | none => exact absent _
  | some e => exact present e he

/-- Reading the entry back at the end of a call. -/
theorem wp_get {id : JsString} {e : QueueEntry} {Q : Except (Thrown CodedError) QueueEntry → QueueState → Prop}
    (present : s.entries.get id = some e) (h : Q (.ok e) s) : Eff.wp (get id) s Q := by
  rw [get, Eff.wp_get_bind, present]
  exact h

theorem wp_assign_bind {id : JsString} {g : QueueEntry → QueueEntry} {f : Unit → QueueM α} :
    Eff.wp (assign id g >>= f) s Q ↔ Eff.wp (f ()) { s with entries := s.entries.adjust id g } Q := Iff.rfl

theorem only_adjust {before entries : OrderedMap JsString QueueEntry} {id : JsString} {e : QueueEntry}
    (only : Only before id e entries) (g : QueueEntry → QueueEntry) : Only before id (g e) (entries.adjust id g) := by
  intro k
  rw [OrderedMap.get_adjust, only]
  split <;> rfl

theorem only_self {entries : OrderedMap JsString QueueEntry} {id : JsString} {e : QueueEntry}
    (present : entries.get id = some e) : Only entries id e entries := by
  intro k
  split
  · rename_i hk
    rw [hk, present]
  · rfl

theorem only_get {before entries : OrderedMap JsString QueueEntry} {id : JsString} {e : QueueEntry}
    (only : Only before id e entries) : entries.get id = some e :=
  (only id).trans (if_pos rfl)

theorem only_of_eq {before entries entries' : OrderedMap JsString QueueEntry} {id : JsString} {e : QueueEntry}
    (only : Only before id e entries) (same : entries' = entries) : Only before id e entries' := by
  rw [same]
  exact only

theorem enqueue_outcome (context : JsValue) (input : QueueEnqueueOptions) :
    Eff.wp (enqueue queue.host queue.services context input) s (Outcome queue s (.enqueue context input)) := by
  have same (e : Thrown CodedError) : Outcome queue s (.enqueue context input) (.error e) s :=
    .refused e s rfl (Nat.le_refl _)
  refine Eff.wp_lift_bind.mpr ⟨fun e _ => same e, fun canonical known => ?_⟩
  refine Eff.wp_lift_bind.mpr ⟨fun e _ => same e, ?_⟩
  rintro ⟨sender, recipients⟩ _
  refine Eff.wp_lift_bind.mpr ⟨fun e _ => same e, fun sizeBytes _ => ?_⟩
  apply wp_now_bind
  · intro e s' entries ids
    exact .refused e s' entries (Nat.le_of_eq ids.symm)
  · intro timestamp s' entries ids
    have made : makeId queue.services s' =
        (.ok (js "q-" ++ pad 8 (s'.ids + 1)), { s' with ids := s'.ids + 1 }) := rfl
    refine (Eff.wp_bind_eq made).mpr (Eff.wp_modify_bind.mpr ?_)
    refine .enqueued input canonical _ _ rfl known rfl rfl rfl ?_ ?_ ?_
    · rw [← ids]
      rfl
    · rw [← ids]
      rfl
    · rw [← entries]
      rfl

theorem claim_outcome (id : JsString) (context : JsValue) :
    Eff.wp (claim queue.host queue.services id context) s (Outcome queue s (.claim id context)) := by
  have same (e : Thrown CodedError) : Outcome queue s (.claim id context) (.error e) s :=
    .refused e s rfl (Nat.le_refl _)
  apply wp_get_bind same
  intro e present
  refine Eff.wp_lift_bind.mpr ⟨fun e _ => same e, fun canonical known => ?_⟩
  refine Eff.wp_lift_bind.mpr ⟨fun e _ => same e, fun _ claimable => ?_⟩
  have state : e.state = .queued ∨ e.state = .deferred := by
    have claimable := throwIf_eq_ok.mp claimable
    simp only [Bool.and_eq_false_iff, bne_eq_false_iff_eq] at claimable
    exact claimable
  have first := only_adjust (only_self present) fun e => { e with state := .delivering }
  refine wp_assign_bind.mpr ?_
  apply wp_now_bind
  · intro err s' entries ids
    have first := only_of_eq first entries
    exact .moved id canonical e { e with state := .delivering } _ s' rfl present known ⟨state, rfl, rfl⟩
      ⟨rfl, rfl, rfl, rfl, rfl, rfl, rfl⟩ first ids
  · intro time s' entries ids
    have first := only_of_eq first entries
    have second := only_adjust first fun e => { e with updatedAt := time, attempts := e.attempts + 1 }
    refine wp_assign_bind.mpr (wp_get (only_get second) ?_)
    exact .moved id canonical e { e with state := .delivering, updatedAt := time, attempts := e.attempts + 1 } _ _ rfl
      present known ⟨state, rfl, rfl⟩ ⟨rfl, rfl, rfl, rfl, rfl, rfl, rfl⟩ second ids

theorem defer_outcome (id : JsString) (context : JsValue) (reason : JsString) :
    Eff.wp (defer queue.host queue.options queue.services id context reason) s
      (Outcome queue s (.defer id context reason)) := by
  have same (e : Thrown CodedError) : Outcome queue s (.defer id context reason) (.error e) s :=
    .refused e s rfl (Nat.le_refl _)
  apply wp_get_bind same
  intro e present
  refine Eff.wp_lift_bind.mpr ⟨fun e _ => same e, fun canonical known => ?_⟩
  refine Eff.wp_lift_bind.mpr ⟨fun e _ => same e, fun _ deferrable => ?_⟩
  have state : e.state = .queued ∨ e.state = .delivering ∨ e.state = .deferred := by
    have deferrable := throwIf_eq_ok.mp deferrable
    simp only [Bool.and_eq_false_iff, bne_eq_false_iff_eq, or_assoc] at deferrable
    exact deferrable
  have moved {e' : QueueEntry} {r : Except (Thrown CodedError) QueueEntry} {s' : QueueState}
      (only : Only s.entries id e' s'.entries) (ids : s'.ids = s.ids)
      (state' : e'.state = if e.attempts ≥ queue.options.maxAttempts then .bounced else .deferred)
      (attempts : e'.attempts = e.attempts) (mail : SameMail e e') :
      Outcome queue s (.defer id context reason) r s' :=
    .moved id canonical e e' r s' rfl present known ⟨state, state', attempts⟩ mail only ids
  dsimp only
  generalize hstate : (if e.attempts ≥ queue.options.maxAttempts then MailQueueState.bounced else .deferred) = state' at moved
  have first := only_adjust (only_self present) fun e => { e with
    state := state', reason := safeReason (if state' = .bounced then js "retry_exhausted" else reason) }
  refine wp_assign_bind.mpr ?_
  apply wp_readClock_bind
  · intro err s₁ entries ids
    have first := only_of_eq first entries
    exact moved first ids rfl rfl ⟨rfl, rfl, rfl, rfl, rfl, rfl, rfl⟩
  · intro start s₁ entries ids
    have first := only_of_eq first entries
    refine Eff.wp_lift_bind.mpr ⟨?_, ?_⟩
    · intro err _
      exact moved first ids rfl rfl ⟨rfl, rfl, rfl, rfl, rfl, rfl, rfl⟩
    · intro next _
      have second := only_adjust first fun e => { e with nextAttemptAt := next }
      refine wp_assign_bind.mpr ?_
      apply wp_now_bind
      · intro err s₂ entries₂ ids₂
        have second := only_of_eq second entries₂
        exact moved second (ids₂.trans ids) rfl rfl ⟨rfl, rfl, rfl, rfl, rfl, rfl, rfl⟩
      · intro time s₂ entries₂ ids₂
        have second := only_of_eq second entries₂
        have third := only_adjust second fun e => { e with updatedAt := time }
        refine wp_assign_bind.mpr (wp_get (only_get third) ?_)
        exact moved third (ids₂.trans ids) rfl rfl ⟨rfl, rfl, rfl, rfl, rfl, rfl, rfl⟩

theorem complete_outcome (id : JsString) (context : JsValue) (state : MailQueueState) (reason : JsString) :
    Eff.wp (complete queue.host queue.services id context state reason) s
      (Outcome queue s (.complete id context state reason)) := by
  have same (e : Thrown CodedError) : Outcome queue s (.complete id context state reason) (.error e) s :=
    .refused e s rfl (Nat.le_refl _)
  apply wp_get_bind same
  intro e present
  refine Eff.wp_lift_bind.mpr ⟨fun e _ => same e, fun canonical known => ?_⟩
  refine Eff.wp_lift_bind.mpr ⟨fun e _ => same e, fun _ supported => ?_⟩
  have terminal : state.isTerminal := by
    have supported := throwIf_eq_ok.mp supported
    revert supported
    cases state <;> decide
  have first := only_adjust (only_self present) fun e => { e with state := state, reason := safeReason reason }
  refine wp_assign_bind.mpr ?_
  apply wp_now_bind
  · intro err s' entries ids
    have first := only_of_eq first entries
    exact .moved id canonical e { e with state := state, reason := safeReason reason } _ s' rfl present known
      ⟨terminal, rfl, rfl⟩ ⟨rfl, rfl, rfl, rfl, rfl, rfl, rfl⟩ first ids
  · intro time s' entries ids
    have first := only_of_eq first entries
    have second := only_adjust first fun e => { e with updatedAt := time }
    refine wp_assign_bind.mpr (wp_get (only_get second) ?_)
    exact .moved id canonical e { e with state := state, reason := safeReason reason, updatedAt := time } _ _ rfl
      present known ⟨terminal, rfl, rfl⟩ ⟨rfl, rfl, rfl, rfl, rfl, rfl, rfl⟩ second ids

theorem call_outcome (queue : MailQueue) (call : Call) (s : QueueState) :
    Outcome queue s call (call.run queue s).1 (call.run queue s).2 := by
  cases call with
  | enqueue context input => exact enqueue_outcome context input
  | claim id context => exact claim_outcome id context
  | defer id context reason => exact defer_outcome id context reason
  | complete id context state reason => exact complete_outcome id context state reason

end

/-! ## Runs -/

/-- A call, and the entry it returned, if it did. -/
structure Made where
  call : Call
  returned : Option QueueEntry

namespace Made

def claims (id : JsString) (made : Made) : Bool :=
  match made.call with
  | .claim queueId _ => queueId == id && made.returned.isSome
  | _ => false

/-- The entry that was enqueued. -/
def entry (made : Made) : Option QueueEntry :=
  match made.call with
  | .enqueue .. => made.returned
  | _ => none

end Made

/-- A completion that gets past its checks finds an entry that is not terminal
yet, and one that is claimed if it is to be delivered. -/
def Call.Meets (queue : MailQueue) (s : QueueState) : Call → Prop
  | complete id context state _ => state.isTerminal → ∀ e, s.entries.get id = some e →
      (assertAccess queue.host context e.tenantId).isOk →
        e.state.isTerminal = false ∧ (state = .delivered → e.state = .delivering)
  | _ => True

inductive Run (queue : MailQueue) : List Made → QueueState → Prop where
  | created : Run queue [] ⟨Table.empty, 0, 0⟩
  | call {made : List Made} {s : QueueState} (run : Run queue made s) (call : Call) (meets : call.Meets queue s) :
      Run queue (made ++ [⟨call, (call.run queue s).1.toOption⟩]) (call.run queue s).2

def claims (made : List Made) (id : JsString) : Nat := made.countP (·.claims id)

/-- The entries that were enqueued, as they were then. -/
def enqueued (made : List Made) : List QueueEntry := made.filterMap (·.entry)

/-- The entries are those that were enqueued, each under an id of its own, and
their attempts are the claims that were granted. -/
structure Counted (queue : MailQueue) (made : List Made) (s : QueueState) : Prop where
  kept : ∀ e₀ ∈ enqueued made, ∃ e, s.entries.get e₀.queueId = some e ∧ SameMail e₀ e
  known : ∀ id e, s.entries.get id = some e → e.queueId = id ∧ id ∈ (enqueued made).map (·.queueId)
  distinct : ((enqueued made).map (·.queueId)).Nodup
  issued : ∀ id ∈ (enqueued made).map (·.queueId), ∃ n, n < s.ids ∧ defaultId n = some id
  attempts : ∀ id e, s.entries.get id = some e → e.attempts = claims made id
  bound : ∀ id e, s.entries.get id = some e → e.attempts ≤ queue.options.maxAttempts ∧
    (e.state = .queued ∨ e.state = .deferred → e.attempts < queue.options.maxAttempts)
  unclaimed : ∀ id, s.entries.get id = none → claims made id = 0

/-- What one more call does. -/
structure Sound (queue : MailQueue) (s : QueueState) (call : Call) : Prop where
  /-- A terminal entry stays as it is. -/
  final : ∀ id e, s.entries.get id = some e → e.state.isTerminal → (call.run queue s).2.entries.get id = some e
  /-- An entry that is delivered was claimed, or delivered already. -/
  delivered : ∀ id e', (call.run queue s).2.entries.get id = some e' → e'.state = .delivered →
    ∃ e, s.entries.get id = some e ∧ (e.state = .delivering ∨ e = e')
  /-- A context of another tenant changes nothing of an entry, and cannot call for it. -/
  foreign : ∀ id e, s.entries.get id = some e →
    (∀ canonical, assertContext queue.host call.context = .ok canonical → canonical.tenantId ≠ e.tenantId) →
      (call.run queue s).2.entries.get id = some e ∧
        (call.queueId = some id → ∃ error, (call.run queue s).1 = .error error)

section
variable {queue : MailQueue} {made : List Made} {s : QueueState}

theorem claims_append (made : List Made) (m : Made) (id : JsString) :
    claims (made ++ [m]) id = claims made id + (m.claims id).toNat := by
  rw [claims, List.countP_append, List.countP_singleton, claims]
  cases m.claims id <;> rfl

theorem enqueued_append (made : List Made) (m : Made) :
    enqueued (made ++ [m]) = enqueued made ++ m.entry.toList := by
  rw [enqueued, List.filterMap_append, enqueued]
  cases h : m.entry <;> simp [List.filterMap, h]

theorem defaultId_injective {m n : Nat} (h : defaultId m = defaultId n) : m = n := by
  have same := List.append_cancel_left (Option.some.inj h)
  have := pad_injective same
  omega

theorem sameMail_refl (e : QueueEntry) : SameMail e e := ⟨rfl, rfl, rfl, rfl, rfl, rfl, rfl⟩

theorem sameMail_trans {e e' e'' : QueueEntry} (first : SameMail e e') (second : SameMail e' e'') :
    SameMail e e'' :=
  ⟨second.queueId.trans first.queueId, second.tenantId.trans first.tenantId, second.sender.trans first.sender,
    second.recipients.trans first.recipients, second.sizeBytes.trans first.sizeBytes,
    second.createdAt.trans first.createdAt, second.messageRef.trans first.messageRef⟩

theorem access_known {host : Host} {context : JsValue} {tenantId : JsString} {canonical : Actor.TenantContext}
    (h : assertAccess host context tenantId = .ok canonical) :
    assertContext host context = .ok canonical ∧ canonical.tenantId = tenantId := by
  obtain ⟨known, tenant⟩ := Actor.assertTenantAccess_eq_ok (mapError_eq_ok.mp h)
  exact ⟨mapError_eq_ok.mpr known, tenant⟩

/-- The id of a new entry is fresh. -/
theorem counted_fresh (counted : Counted queue made s) {id : JsString} (new : defaultId s.ids = some id) :
    s.entries.get id = none := by
  cases present : s.entries.get id with
  | none => rfl
  | some e =>
    obtain ⟨n, lt, old⟩ := counted.issued id (counted.known id e present).2
    have same := defaultId_injective (old.trans new.symm)
    omega

/-- What a call makes of the counts of its entry. -/
theorem moves_bound {options : MailQueueOptions} {returns : Bool} {e e' : QueueEntry} {call : Call}
    (moves : Moves options returns e e' call)
    (bound : e.attempts ≤ options.maxAttempts ∧
      (e.state = .queued ∨ e.state = .deferred → e.attempts < options.maxAttempts)) :
    e'.attempts ≤ options.maxAttempts ∧
      (e'.state = .queued ∨ e'.state = .deferred → e'.attempts < options.maxAttempts) := by
  obtain ⟨le, lt⟩ := bound
  cases call with
  | enqueue => cases moves
  | claim =>
    obtain ⟨state, state', attempts⟩ := moves
    have := lt state
    have : returns.toNat ≤ 1 := Bool.toNat_le returns
    refine ⟨by omega, ?_⟩
    rw [state']
    rintro (h | h) <;> cases h
  | defer =>
    obtain ⟨state, state', attempts⟩ := moves
    refine ⟨by omega, ?_⟩
    rw [state', attempts]
    split
    · rintro (h | h) <;> cases h
    · omega
  | complete _ _ state =>
    obtain ⟨terminal, state', attempts⟩ := moves
    refine ⟨by omega, ?_⟩
    rw [state']
    rintro (rfl | rfl) <;> cases terminal

theorem moves_attempts {options : MailQueueOptions} {e e' : QueueEntry} {call : Call} {id : JsString}
    {r : Except (Thrown CodedError) QueueEntry} (is : call.queueId = some id)
    (moves : Moves options r.isOk e e' call) : e'.attempts = e.attempts + (Made.claims id ⟨call, r.toOption⟩).toNat := by
  cases call with
  | enqueue => cases moves
  | claim =>
    cases is
    rw [moves.2.2, Made.claims]
    cases r <;> simp [Except.isOk, Except.toBool, Except.toOption]
  | defer => exact moves.2.2
  | complete => exact moves.2.2

theorem claims_other {call : Call} {id k : JsString} {returned : Option QueueEntry} (is : call.queueId = some id)
    (other : k ≠ id) : Made.claims k ⟨call, returned⟩ = false := by
  cases call with
  | claim queueId =>
    cases is
    have different : (id == k) = false := beq_false_of_ne (Ne.symm other)
    show (id == k && returned.isSome) = false
    rw [different, Bool.false_and]
  | enqueue | defer | complete => rfl

theorem entry_moved {call : Call} {id : JsString} {returned : Option QueueEntry} (is : call.queueId = some id) :
    Made.entry ⟨call, returned⟩ = none := by
  cases call with
  | enqueue => cases is
  | claim | defer | complete => rfl

section
variable (counted : Counted queue made s) {s' : QueueState} {m : Made}
include counted

theorem counted_refused (noEntry : m.entry = none) (noClaim : ∀ id, m.claims id = false)
    (entries : s'.entries = s.entries) (ids : s.ids ≤ s'.ids) : Counted queue (made ++ [m]) s' := by
  have same : enqueued (made ++ [m]) = enqueued made := by
    rw [enqueued_append, noEntry]
    exact List.append_nil _
  have count (id : JsString) : claims (made ++ [m]) id = claims made id := by
    rw [claims_append, noClaim]
    rfl
  constructor
  · rw [same, entries]
    exact counted.kept
  · rw [same, entries]
    exact counted.known
  · rw [same]
    exact counted.distinct
  · rw [same]
    intro id hid
    obtain ⟨n, lt, old⟩ := counted.issued id hid
    exact ⟨n, Nat.lt_of_lt_of_le lt ids, old⟩
  · simp only [count, entries]
    exact counted.attempts
  · rw [entries]
    exact counted.bound
  · simp only [count, entries]
    exact counted.unclaimed

theorem counted_enqueued {e : QueueEntry} (entry : m.entry = some e) (noClaim : ∀ id, m.claims id = false)
    (attempts : e.attempts = 0) (id : defaultId s.ids = some e.queueId) (ids : s'.ids = s.ids + 1)
    (entries : s'.entries = s.entries.set e.queueId e) : Counted queue (made ++ [m]) s' := by
  have fresh := counted_fresh counted id
  have same : enqueued (made ++ [m]) = enqueued made ++ [e] := by
    rw [enqueued_append, entry]
    rfl
  have count (k : JsString) : claims (made ++ [m]) k = claims made k := by
    rw [claims_append, noClaim]
    rfl
  have there (k : JsString) : s'.entries.get k = if e.queueId = k then some e else s.entries.get k := by
    rw [entries, OrderedMap.get_set]
  have ids' : ((enqueued made ++ [e]).map (·.queueId)) = (enqueued made).map (·.queueId) ++ [e.queueId] :=
    List.map_append
  constructor
  · rw [same, List.forall_mem_append]
    constructor
    · intro e₀ he₀
      obtain ⟨e₁, present, mail⟩ := counted.kept e₀ he₀
      refine ⟨e₁, ?_, mail⟩
      rw [there, if_neg, present]
      intro equal
      rw [← equal, fresh] at present
      cases present
    · intro e₀ he₀
      cases List.mem_singleton.mp he₀
      exact ⟨e, (there _).trans (if_pos rfl), sameMail_refl e⟩
  · intro k e' he'
    rw [same, ids', List.mem_append, List.mem_singleton]
    rw [there] at he'
    split at he'
    · rename_i hk
      cases he'
      exact ⟨hk, .inr hk.symm⟩
    · obtain ⟨own, member⟩ := counted.known k e' he'
      exact ⟨own, .inl member⟩
  · rw [same, ids', List.nodup_append]
    refine ⟨counted.distinct, by simp, ?_⟩
    rintro k hk _ hk' rfl
    cases List.mem_singleton.mp hk'
    obtain ⟨e₀, he₀, own⟩ := List.mem_map.mp hk
    obtain ⟨e₁, present, _⟩ := counted.kept e₀ he₀
    rw [own, fresh] at present
    cases present
  · rw [same, ids', ids]
    intro k hk
    rcases List.mem_append.mp hk with hk | hk
    · obtain ⟨n, lt, old⟩ := counted.issued k hk
      exact ⟨n, by omega, old⟩
    · cases List.mem_singleton.mp hk
      exact ⟨s.ids, by omega, id⟩
  · intro k e' he'
    rw [count]
    rw [there] at he'
    split at he'
    · rename_i hk
      cases he'
      rw [attempts, ← hk, counted.unclaimed _ fresh]
    · exact counted.attempts k e' he'
  · intro k e' he'
    rw [there] at he'
    split at he'
    · cases he'
      have := queue.options.attemptsBound
      rw [attempts]
      omega
    · exact counted.bound k e' he'
  · intro k hk
    rw [count]
    rw [there] at hk
    split at hk
    · cases hk
    · exact counted.unclaimed k hk

theorem counted_moved {id : JsString} {e e' : QueueEntry} (noEntry : m.entry = none)
    (claimed : ∀ k, k ≠ id → m.claims k = false) (present : s.entries.get id = some e) (mail : SameMail e e')
    (attempts : e'.attempts = e.attempts + (m.claims id).toNat)
    (bound : e'.attempts ≤ queue.options.maxAttempts ∧
      (e'.state = .queued ∨ e'.state = .deferred → e'.attempts < queue.options.maxAttempts))
    (only : Only s.entries id e' s'.entries) (ids : s'.ids = s.ids) : Counted queue (made ++ [m]) s' := by
  have same : enqueued (made ++ [m]) = enqueued made := by
    rw [enqueued_append, noEntry]
    exact List.append_nil _
  have other (k : JsString) (hk : k ≠ id) : claims (made ++ [m]) k = claims made k := by
    rw [claims_append, claimed k hk]
    rfl
  constructor
  · rw [same]
    intro e₀ he₀
    obtain ⟨e₁, present₁, mail₁⟩ := counted.kept e₀ he₀
    by_cases hk : e₀.queueId = id
    · rw [hk, present] at present₁
      cases present₁
      exact ⟨e', (only _).trans (if_pos hk), sameMail_trans mail₁ mail⟩
    · exact ⟨e₁, (only _).trans ((if_neg hk).trans present₁), mail₁⟩
  · rw [same]
    intro k e₁ he₁
    rw [only] at he₁
    split at he₁
    · rename_i hk
      cases he₁
      obtain ⟨own, member⟩ := counted.known id e present
      rw [hk]
      exact ⟨mail.queueId.trans own, member⟩
    · exact counted.known k e₁ he₁
  · rw [same]
    exact counted.distinct
  · rw [same, ids]
    exact counted.issued
  · intro k e₁ he₁
    rw [only] at he₁
    split at he₁
    · rename_i hk
      cases he₁
      rw [hk, claims_append, attempts, counted.attempts id e present]
    · rename_i hk
      rw [other k hk]
      exact counted.attempts k e₁ he₁
  · intro k e₁ he₁
    rw [only] at he₁
    split at he₁
    · cases he₁
      exact bound
    · exact counted.bound k e₁ he₁
  · intro k hk
    rw [only] at hk
    split at hk
    · cases hk
    · rename_i other'
      rw [other k other']
      exact counted.unclaimed k hk

end

theorem counted_call (counted : Counted queue made s) (call : Call) :
    Counted queue (made ++ [⟨call, (call.run queue s).1.toOption⟩]) (call.run queue s).2 := by
  have outcome := call_outcome queue call s
  generalize (call.run queue s).1 = r at outcome
  generalize (call.run queue s).2 = s' at outcome
  cases outcome with
  | refused e _ entries ids =>
    apply counted_refused counted _ _ entries ids
    · cases call <;> rfl
    · intro id
      cases call with
      | claim queueId => exact Bool.and_false _
      | enqueue | defer | complete => rfl
  | enqueued input canonical e _ is known tenant state attempts id ids entries =>
    apply counted_enqueued counted _ _ attempts id ids entries
    · rw [is]
      rfl
    · intro k
      rw [is]
      rfl
  | moved id canonical e e' _ _ is present known moves mail only ids =>
    exact counted_moved counted (entry_moved is) (fun k other => claims_other is other) present mail
      (moves_attempts is moves) (moves_bound moves (counted.bound id e present)) only ids

theorem run_counted (run : Run queue made s) : Counted queue made s := by
  induction run with
  | created =>
    exact {
      kept := by simp [enqueued]
      known := by
        intro id e he
        cases he
      distinct := List.nodup_nil
      issued := by simp [enqueued]
      attempts := by
        intro id e he
        cases he
      bound := by
        intro id e he
        cases he
      unclaimed := fun _ _ => rfl }
  | call run call meets ih => exact counted_call ih call

theorem isTerminal_moves {options : MailQueueOptions} {returns : Bool} {e e' : QueueEntry} {call : Call}
    (moves : Moves options returns e e' call) (terminal : e.state.isTerminal) :
    ∃ id context state reason, call = .complete id context state reason := by
  cases call with
  | enqueue => cases moves
  | claim =>
    rcases moves.1 with h | h <;> rw [h] at terminal <;> cases terminal
  | defer =>
    rcases moves.1 with h | h | h <;> rw [h] at terminal <;> cases terminal
  | complete id context state reason => exact ⟨id, context, state, reason, rfl⟩

theorem sound_call (counted : Counted queue made s) {call : Call} (meets : call.Meets queue s) :
    Sound queue s call := by
  have outcome := call_outcome queue call s
  constructor
  · intro k e present terminal
    generalize (call.run queue s).1 = r at outcome
    generalize (call.run queue s).2 = s' at outcome
    cases outcome with
    | refused _ _ entries => rw [entries, present]
    | enqueued input canonical e₁ _ is known tenant state attempts id ids entries =>
      rw [entries, OrderedMap.get_set, if_neg, present]
      rintro rfl
      rw [counted_fresh counted id] at present
      cases present
    | moved id canonical e₁ e' _ _ is present₁ known moves mail only ids =>
      by_cases hk : k = id
      · subst hk
        cases present.symm.trans present₁
        obtain ⟨id', context, state, reason, rfl⟩ := isTerminal_moves moves terminal
        cases is
        have pending := (meets moves.1 e present (isOk_of_eq known)).1
        rw [pending] at terminal
        cases terminal
      · rw [only, if_neg hk, present]
  · intro k e' he' delivered
    generalize (call.run queue s).1 = r at outcome
    generalize (call.run queue s).2 = s' at outcome he'
    cases outcome with
    | refused _ _ entries =>
      rw [entries] at he'
      exact ⟨e', he', .inr rfl⟩
    | enqueued input canonical e₁ _ is known tenant state attempts id ids entries =>
      rw [entries, OrderedMap.get_set] at he'
      split at he'
      · cases he'
        rw [state] at delivered
        cases delivered
      · exact ⟨e', he', .inr rfl⟩
    | moved id canonical e₁ e₂ _ _ is present known moves mail only ids =>
      rw [only] at he'
      split at he'
      · rename_i hk
        cases he'
        rw [hk]
        cases call with
        | enqueue => cases moves
        | claim =>
          rw [moves.2.1] at delivered
          cases delivered
        | defer =>
          rw [moves.2.1] at delivered
          split at delivered <;> cases delivered
        | complete =>
          cases is
          have state := moves.2.1.symm.trans delivered
          exact ⟨e₁, present, .inl ((meets moves.1 e₁ present (isOk_of_eq known)).2 state)⟩
      · exact ⟨e', he', .inr rfl⟩
  · intro k e present foreign
    generalize (call.run queue s).1 = r at outcome
    generalize (call.run queue s).2 = s' at outcome
    cases outcome with
    | refused error _ entries => exact ⟨by rw [entries, present], fun _ => ⟨error, rfl⟩⟩
    | enqueued input canonical e₁ _ is known tenant state attempts id ids entries =>
      constructor
      · rw [entries, OrderedMap.get_set, if_neg, present]
        rintro rfl
        rw [counted_fresh counted id] at present
        cases present
      · intro same
        rw [is] at same
        cases same
    | moved id canonical e₁ e₂ _ _ is present₁ known moves mail only ids =>
      have other : k ≠ id := by
        rintro rfl
        cases present.symm.trans present₁
        obtain ⟨context, tenant⟩ := access_known known
        exact foreign canonical context tenant
      constructor
      · rw [only, if_neg other, present]
      · intro same
        cases is.symm.trans same
        exact absurd rfl other

/-- In every run whose completions find a pending entry, and a claimed one to
deliver, no entry is lost or doubled, its attempts are its claims and stay
within the limit; and whatever is called next, a terminal entry stays, a
delivered one was claimed, and another tenant's context does nothing to it. -/
theorem run_sound (run : Run queue made s) :
    Counted queue made s ∧ ∀ call : Call, call.Meets queue s → Sound queue s call :=
  ⟨run_counted run, fun _ meets => sound_call (run_counted run) meets⟩

end

/-! ### Samples -/

def sampleMailQueue : MailQueue := ⟨asciiHost, sampleQueueOptions, fun _ => .time 0⟩

def alice : JsValue := Actor.userContext (js "acme") (js "acme.test") (js "alice")

/-- A message of `alice` is enqueued. -/
def enqueueSample : Call :=
  .enqueue alice ⟨.string (js "alice@acme.test"), some [js "bob@other.test"], .undefined, .undefined, js "accepted"⟩

def enqueuedSample : QueueState := (enqueueSample.run sampleMailQueue ⟨Table.empty, 0, 0⟩).2

theorem enqueuedSample_run : ∃ made, Run sampleMailQueue made enqueuedSample :=
  ⟨_, .call .created enqueueSample trivial⟩

/-- A completion without a claim: a queued entry becomes delivered. -/
theorem complete_unclaimed :
    (∃ made, Run sampleMailQueue made enqueuedSample) ∧
      ¬ Sound sampleMailQueue enqueuedSample (.complete (js "q-00000001") alice .delivered (js "completed")) := by
  refine ⟨enqueuedSample_run, ?_⟩
  have facts : (((Call.complete (js "q-00000001") alice .delivered (js "completed")).run sampleMailQueue
        enqueuedSample).2.entries.get (js "q-00000001")).map (·.state) = some .delivered ∧
      (enqueuedSample.entries.get (js "q-00000001")).map (·.state) = some .queued := by
    decide
  obtain ⟨after, before⟩ := facts
  intro sound
  obtain ⟨e', he', delivered⟩ := Option.map_eq_some_iff.mp after
  obtain ⟨e, present, claimed | rfl⟩ := sound.delivered _ e' he' delivered
  · rw [present, Option.map_some, claimed] at before
    cases before
  · rw [present, Option.map_some, delivered] at before
    cases before

/-- A queue with one entry, and a claim of it next. -/
theorem run_sound_alice : ∃ made s, Run sampleMailQueue made s ∧ Counted sampleMailQueue made s ∧
    Sound sampleMailQueue s (.claim (js "q-00000001") alice) := by
  obtain ⟨made, run⟩ := enqueuedSample_run
  obtain ⟨counted, sound⟩ := run_sound run
  exact ⟨made, enqueuedSample, run, counted, sound (.claim (js "q-00000001") alice) trivial⟩

end Queue

end GuloGulo.Mail
