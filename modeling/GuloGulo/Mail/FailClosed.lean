import GuloGulo.Mail.Core

/-!
# Scanning is fail-closed

A message reaches LMTP, or the queue as a submission, only after both scanners
have answered this call and the answers read as a pass. `Adds` follows what a
part of a call may add to its trace.
-/

namespace GuloGulo.Mail
open Js Data Integrations

section
variable {α β : Type} {P : CoreEvent → Prop}

/-- The computation adds events of one kind only. -/
def Adds (P : CoreEvent → Prop) (m : CoreM α) : Prop :=
  ∀ s, ∃ new, (m s).2.trace = s.trace ++ new ∧ ∀ e ∈ new, P e

theorem adds_of_quiet {m : CoreM α} (h : ∀ s, (m s).2.trace = s.trace) : Adds P m :=
  fun s => ⟨[], by rw [h s, List.append_nil], by simp⟩

theorem adds_lift (x : Except (Thrown CodedError) α) : Adds P (Eff.lift x) := adds_of_quiet fun _ => rfl

theorem adds_pure (a : α) : Adds P (pure a) := adds_of_quiet fun _ => rfl

theorem adds_get : Adds P (Eff.get : CoreM CoreState) := adds_of_quiet fun _ => rfl

theorem adds_await (core : CoreOptions) : Adds P (await core) := adds_of_quiet fun _ => rfl

theorem adds_onPolicy (m : PolicyM α) : Adds P (onPolicy m) := adds_of_quiet fun _ => rfl

theorem adds_onQueue (m : QueueM α) : Adds P (onQueue m) := adds_of_quiet fun _ => rfl

theorem adds_record {e : CoreEvent} (h : P e) : Adds P (record e) :=
  fun _ => ⟨[e], rfl, by simpa using h⟩

theorem adds_bind {m : CoreM β} {f : β → CoreM α} (hm : Adds P m) (hf : ∀ b, Adds P (f b)) :
    Adds P (m >>= f) := by
  intro s
  show ∃ new, (Eff.bind m f s).2.trace = _ ∧ _
  obtain ⟨first, trace, kind⟩ := hm s
  rcases outcome : m s with ⟨r, s'⟩
  rw [outcome] at trace
  dsimp only at trace
  cases r with
  | error e =>
    simp only [Eff.bind, outcome]
    exact ⟨first, trace, kind⟩
  | ok b =>
    simp only [Eff.bind, outcome]
    obtain ⟨second, trace', kind'⟩ := hf b s'
    refine ⟨first ++ second, by rw [trace', trace, List.append_assoc], fun e he => ?_⟩
    rcases List.mem_append.mp he with he | he
    · exact kind e he
    · exact kind' e he

theorem adds_warn (core : CoreOptions) : Adds P (warn core) :=
  adds_bind adds_get fun _ => adds_bind (adds_lift _) fun _ => adds_pure _

end

/-- The state after an `await`. -/
def awaited (core : CoreOptions) (s : CoreState) : CoreState := (await core s).2

section
variable {α : Type} {s : CoreState} {Q : Except (Thrown CodedError) α → CoreState → Prop}

theorem wp_await_bind {core : CoreOptions} {f : Unit → CoreM α} :
    Eff.wp (await core >>= f) s Q ↔ Eff.wp (f ()) (awaited core s) Q := Iff.rfl

theorem wp_record_bind {e : CoreEvent} {f : Unit → CoreM α} :
    Eff.wp (record e >>= f) s Q ↔ Eff.wp (f ()) { s with trace := s.trace ++ [e] } Q := Iff.rfl

end

/-! ## Verdicts that pass -/

def rspamdPasses (outcome : Outcome) : Bool :=
  (verdict normalizeRspamdVerdict outcome).any fun v => v.action == .accept || v.action == .noAction

def clamavPasses (outcome : Outcome) : Bool :=
  (verdict normalizeClamAvVerdict outcome).any fun v => v.status == .clean

theorem verdict_eq_some {ν : Type} {normalize : JsValue → Except CodedError ν} {outcome : Outcome} {v : ν} :
    verdict normalize outcome = some v ↔ ∃ value, outcome = .returned value ∧ normalize value = .ok v := by
  cases outcome with
  | threw => simp [verdict]
  | returned value =>
    cases h : normalize value <;> simp [verdict, h, Except.toOption]

theorem rspamdPasses_iff {outcome : Outcome} : rspamdPasses outcome = true ↔ ∃ value v,
    outcome = .returned value ∧ normalizeRspamdVerdict value = .ok v ∧
      (v.action = .accept ∨ v.action = .noAction) := by
  simp only [rspamdPasses, Option.any_eq_true, verdict_eq_some, Bool.or_eq_true, beq_iff_eq]
  constructor
  · rintro ⟨v, ⟨value, returned, ok⟩, action⟩
    exact ⟨value, v, returned, ok, action⟩
  · rintro ⟨value, v, returned, ok, action⟩
    exact ⟨v, ⟨value, returned, ok⟩, action⟩

theorem clamavPasses_iff {outcome : Outcome} : clamavPasses outcome = true ↔ ∃ value v,
    outcome = .returned value ∧ normalizeClamAvVerdict value = .ok v ∧ v.status = .clean := by
  simp only [clamavPasses, Option.any_eq_true, verdict_eq_some, beq_iff_eq]
  constructor
  · rintro ⟨v, ⟨value, returned, ok⟩, status⟩
    exact ⟨value, v, returned, ok, status⟩
  · rintro ⟨value, v, returned, ok, status⟩
    exact ⟨v, ⟨value, returned, ok⟩, status⟩

/-- A verdict a wrapper has made reads as itself. -/
theorem normalizeRspamdVerdict_value (v : RspamdVerdict) :
    ∃ symbols, normalizeRspamdVerdict v.value = .ok ⟨v.action, v.score, symbols⟩ := by
  rcases v with ⟨action, score, symbols⟩
  cases action <;> cases score <;> exact ⟨_, rfl⟩

theorem normalizeClamAvVerdict_value (v : ClamAvVerdict) :
    ∃ signature, normalizeClamAvVerdict v.value = .ok ⟨v.status, signature⟩ := by
  rcases v with ⟨status, signature⟩
  cases status <;> exact ⟨_, rfl⟩

/-- What a wrapper returns is the verdict `unavailable` or the one its endpoint
gave. -/
theorem wrapScan_returned {ν : Type} {normalize : JsValue → Except CodedError ν} {unavailable : ν}
    {value : ν → JsValue} {scan : Option Scanner} {warn : Outcome} {message v : JsValue}
    (h : wrapScan normalize unavailable value scan warn message = .returned v) :
    v = value unavailable ∨ ∃ endpoint answer own, scan = some endpoint ∧
      endpoint (metadataOnly message) = .returned answer ∧ normalize answer = .ok own ∧ v = value own := by
  unfold wrapScan at h
  split at h
  · cases h
    exact .inl rfl
  · rename_i endpoint
    split at h
    · rename_i answer returned
      split at h
      · rename_i own normalized
        cases h
        exact .inr ⟨endpoint, answer, own, rfl, returned, normalized, rfl⟩
      · split at h
        · cases h
        · cases h
          exact .inl rfl
    · split at h
      · cases h
      · cases h
        exact .inl rfl

/-- A wrapped scanner passes only what its endpoint passed. -/
theorem rspamdPasses_wrapped {scan : Option Scanner} {warn : Outcome} {message : JsValue}
    (h : rspamdPasses (createRspamdScanner scan warn message) = true) :
    ∃ endpoint, scan = some endpoint ∧ rspamdPasses (endpoint (metadataOnly message)) = true := by
  obtain ⟨value, v, returned, normalized, action⟩ := rspamdPasses_iff.mp h
  rcases wrapScan_returned returned with rfl | ⟨endpoint, answer, own, some, answered, read, rfl⟩
  · obtain ⟨symbols, unavailable⟩ := normalizeRspamdVerdict_value unavailableRspamdVerdict
    rw [unavailable] at normalized
    cases normalized
    rcases action with action | action <;> cases action
  · obtain ⟨symbols, same⟩ := normalizeRspamdVerdict_value own
    rw [same] at normalized
    cases normalized
    exact ⟨endpoint, some, rspamdPasses_iff.mpr ⟨answer, own, answered, read, action⟩⟩

theorem clamavPasses_wrapped {scan : Option Scanner} {warn : Outcome} {message : JsValue}
    (h : clamavPasses (createClamAvScanner scan warn message) = true) :
    ∃ endpoint, scan = some endpoint ∧ clamavPasses (endpoint (metadataOnly message)) = true := by
  obtain ⟨value, v, returned, normalized, status⟩ := clamavPasses_iff.mp h
  rcases wrapScan_returned returned with rfl | ⟨endpoint, answer, own, some, answered, read, rfl⟩
  · obtain ⟨signature, unavailable⟩ := normalizeClamAvVerdict_value unavailableClamAvVerdict
    rw [unavailable] at normalized
    cases normalized
    cases status
  · obtain ⟨signature, same⟩ := normalizeClamAvVerdict_value own
    rw [same] at normalized
    cases normalized
    exact ⟨endpoint, some, clamavPasses_iff.mpr ⟨answer, own, answered, read, status⟩⟩

/-! ## The scan of a call -/

section
variable (core : CoreOptions) (options : MailEnvelopeOptions)

/-- What the scanners answer a scan that starts on a trace. -/
def rspamdAt (t : Trace) : Outcome := rspamdScanner core t (messageMetadata options)

def clamavAt (t : Trace) : Outcome := clamavScanner core t (messageMetadata options)

def rspamdTrace (t : Trace) : Trace := t ++ [.rspamd (rspamdAt core options t)]

def scannedTrace (t : Trace) : Trace :=
  rspamdTrace core options t ++ [.clamav (clamavAt core options (rspamdTrace core options t))]

/-- How a scan that starts on the trace `t` can end. -/
inductive Scanned (t : Trace) : Except (Thrown CodedError) ScanResult → Trace → Prop where
  | stopped (r : Except (Thrown CodedError) ScanResult) (fails : rspamdPasses (rspamdAt core options t) = false)
      (refused : ∀ result, r = .ok result → result.status ≠ .accepted) :
      Scanned t r (rspamdTrace core options t)
  | refused (r : Except (Thrown CodedError) ScanResult)
      (fails : clamavPasses (clamavAt core options (rspamdTrace core options t)) = false)
      (refused : ∀ result, r = .ok result → result.status ≠ .accepted) :
      Scanned t r (scannedTrace core options t)
  | passed (result : ScanResult) (rspamd : rspamdPasses (rspamdAt core options t) = true)
      (clamav : clamavPasses (clamavAt core options (rspamdTrace core options t)) = true)
      (accepted : result.status = .accepted) :
      Scanned t (.ok result) (scannedTrace core options t)

end

variable (core : CoreOptions) (options : MailEnvelopeOptions) (s : CoreState)

theorem warn_trace : (warn core s).2.trace = s.trace := by
  obtain ⟨new, trace, none⟩ := adds_warn (P := fun _ => False) core s
  rw [trace, List.append_right_eq_self]
  exact List.eq_nil_iff_forall_not_mem.mpr none

/-- A failed scanner is logged, and the scan defers. -/
theorem warn_then (result : ScanResult) (refused : result.status ≠ .accepted) :
    Eff.wp (do warn core; return result) s fun r s' =>
      s'.trace = s.trace ∧ ∀ own, r = .ok own → own.status ≠ .accepted := by
  have trace := warn_trace core s
  rcases outcome : warn core s with ⟨r, s'⟩
  rw [outcome] at trace
  rw [Eff.wp_bind_eq outcome]
  cases r with
  | error e => exact ⟨trace, nofun⟩
  | ok u => exact ⟨trace, fun own h => by cases h; exact refused⟩

theorem scanClamAv_spec (v : RspamdVerdict) :
    Eff.wp (scanClamAv core options v) s fun r s' =>
      s'.trace = s.trace ++ [.clamav (clamavAt core options s.trace)] ∧
      ((clamavPasses (clamavAt core options s.trace) = true ∧
          ∃ result, r = .ok result ∧ result.status = .accepted) ∨
        (clamavPasses (clamavAt core options s.trace) = false ∧
          ∀ result, r = .ok result → result.status ≠ .accepted)) := by
  unfold scanClamAv
  rw [Eff.wp_get_bind]
  change Eff.wp (record (.clamav (clamavAt core options s.trace)) >>= fun _ => _) s _
  rw [wp_record_bind, wp_await_bind]
  generalize state : awaited core _ = s₁
  have trace : s₁.trace = s.trace ++ [.clamav (clamavAt core options s.trace)] := by rw [← state]; rfl
  cases read : verdict normalizeClamAvVerdict (clamavAt core options s.trace) with
  | none =>
    have fails : clamavPasses (clamavAt core options s.trace) = false := by rw [clamavPasses, read]; rfl
    rw [clamavAt] at read
    rw [read]
    apply Eff.wp_mono (warn_then core s₁ _ (by simp))
    rintro r s' ⟨same, refused⟩
    exact ⟨same.trans trace, .inr ⟨fails, refused⟩⟩
  | some own =>
    have passes : clamavPasses (clamavAt core options s.trace) = (own.status == .clean) := by
      rw [clamavPasses, read]; rfl
    rw [clamavAt] at read
    rw [read]
    rcases own with ⟨status, signature⟩
    cases status with
    | clean => exact ⟨trace, .inl ⟨passes, _, rfl, rfl⟩⟩
    | infected | unavailable =>
      refine ⟨trace, .inr ⟨passes, fun result h => ?_⟩⟩
      cases h
      nofun

theorem scan_spec :
    Eff.wp (scan core options) s fun r s' => Scanned core options s.trace r s'.trace := by
  unfold scan
  rw [Eff.wp_get_bind]
  change Eff.wp (record (.rspamd (rspamdAt core options s.trace)) >>= fun _ => _) s _
  rw [wp_record_bind, wp_await_bind]
  generalize state : awaited core _ = s₁
  have trace : s₁.trace = rspamdTrace core options s.trace := by rw [← state]; rfl
  cases read : verdict normalizeRspamdVerdict (rspamdAt core options s.trace) with
  | none =>
    have fails : rspamdPasses (rspamdAt core options s.trace) = false := by rw [rspamdPasses, read]; rfl
    rw [rspamdAt] at read
    rw [read]
    apply Eff.wp_mono (warn_then core s₁ _ (by simp))
    rintro r s' ⟨same, refused⟩
    rw [same, trace]
    exact .stopped r fails refused
  | some own =>
    have passes : rspamdPasses (rspamdAt core options s.trace) =
        (own.action == .accept || own.action == .noAction) := by
      rw [rspamdPasses, read]; rfl
    rw [rspamdAt] at read
    rw [read]
    rcases own with ⟨action, score, symbols⟩
    cases action with
    | accept | noAction =>
      apply Eff.wp_mono (scanClamAv_spec core options s₁ _)
      rw [trace]
      rintro r s' ⟨same, ⟨clean, result, rfl, accepted⟩ | ⟨fails, refused⟩⟩
      · rw [same]
        exact .passed result passes clean accepted
      · rw [same]
        exact .refused r fails refused
    | softReject | reject | quarantine | unavailable =>
      rw [Eff.wp_pure, trace]
      refine .stopped _ passes fun result h => ?_
      cases h
      nofun

/-! ## Calls -/

namespace CoreEvent

def isScan : CoreEvent → Bool
  | rspamd _ | clamav _ => true
  | _ => false

def isDeliver : CoreEvent → Bool
  | deliver _ _ => true
  | _ => false

def isEnqueue : CoreEvent → Bool
  | enqueue _ => true
  | _ => false

end CoreEvent

/-- The call asked each scanner once, first, and both answers read as a pass. -/
def ScanPassed (trace : Trace) : Prop :=
  ∃ v w rspamdVerdict clamavVerdict rest,
    trace = .rspamd (.returned v) :: .clamav (.returned w) :: rest ∧
    (∀ e ∈ rest, e.isScan = false) ∧ normalizeRspamdVerdict v = .ok rspamdVerdict ∧
    (rspamdVerdict.action = .accept ∨ rspamdVerdict.action = .noAction) ∧
    normalizeClamAvVerdict w = .ok clamavVerdict ∧ clamavVerdict.status = .clean

/-- Nothing was forwarded, and a status that is reported says so. -/
def Withheld (forwards : CoreEvent → Bool) (r : Except (Thrown CodedError) MailResult) (trace : Trace) : Prop :=
  (∀ e ∈ trace, forwards e = false) ∧
    ∀ result, r = .ok result → result.status ∈ [MailStatus.rejected, .quarantined, .deferred]

theorem scanPassed_of_passes {rspamd clamav : Outcome} {rest : Trace} (hr : rspamdPasses rspamd = true)
    (hc : clamavPasses clamav = true) (others : ∀ e ∈ rest, e.isScan = false) :
    ScanPassed (.rspamd rspamd :: .clamav clamav :: rest) := by
  obtain ⟨v, rspamdVerdict, rfl, read, action⟩ := rspamdPasses_iff.mp hr
  obtain ⟨w, clamavVerdict, rfl, read', status⟩ := clamavPasses_iff.mp hc
  exact ⟨v, w, rspamdVerdict, clamavVerdict, rest, rfl, others, read, action, read', status⟩

section
variable {core options} {P : CoreEvent → Prop}

theorem adds_auditCall {context result : JsValue} {eventType reason : String}
    {details : List (String × JsValue)} : Adds P (auditCall core context eventType result reason details) :=
  adds_bind adds_get fun _ => adds_onPolicy _

theorem adds_enqueue (context : JsValue) (reason : String) (h : ∀ entry, P (.enqueue entry)) :
    Adds P (enqueue core context options reason) :=
  adds_bind (adds_onQueue _) fun entry => adds_bind (adds_record (h entry)) fun _ => adds_pure _

theorem adds_deliverTo (recipient : ResolvedRecipient) :
    Adds (fun e => e.isScan = false) (deliverTo core options recipient) := by
  refine adds_bind adds_get fun s => ?_
  refine adds_bind (adds_record rfl) fun _ => adds_bind (adds_await core) fun _ => ?_
  refine adds_bind (adds_lift _) fun _ => adds_bind (adds_lift _) fun _ => ?_
  refine adds_bind adds_get fun s' => ?_
  refine adds_bind (adds_record rfl) fun _ => adds_bind (adds_await core) fun _ => ?_
  refine adds_bind (adds_lift _) fun answer => ?_
  split
  · exact adds_pure _
  · split
    · exact adds_pure _
    · refine adds_bind adds_get fun s'' => adds_bind (adds_record rfl) fun _ => ?_
      exact adds_bind (adds_lift _) fun _ => adds_pure _

theorem adds_deliverAll (recipients delivered : List ResolvedRecipient) (deferred : List JsString) :
    Adds (fun e => e.isScan = false) (deliverAll core options recipients delivered deferred) := by
  induction recipients generalizing delivered deferred with
  | nil => exact adds_pure _
  | cons recipient rest ih =>
    refine adds_bind (adds_deliverTo recipient) fun delivery => ?_
    cases delivery with
    | delivered => exact ih _ _
    | temporary => exact ih _ _
    | failed => exact adds_pure _

theorem adds_settle (context : JsValue) (details : List (String × JsValue)) (deliveries : Deliveries)
    (h : ∀ entry, P (.enqueue entry)) : Adds P (settle core context options details deliveries) := by
  have audited {eventType : String} {result : JsValue} {reason : String} {more : List (String × JsValue)}
      {f : AuditRecord → MailResult} : Adds P
        (do let audit ← auditCall core context eventType result reason more; return f audit) :=
    adds_bind adds_auditCall fun _ => adds_pure _
  cases deliveries with
  | rejected address => exact audited
  | finished delivered deferred =>
    cases deferred with
    | nil => exact audited
    | cons address rest => exact adds_bind (adds_enqueue _ _ h) fun queued => audited

end

/-- A refusal adds nothing that forwards, and reports what it did. -/
theorem withheld_audit {forwards : CoreEvent → Bool} (context result : JsValue) (reason : String)
    (details : List (String × JsValue)) (f : AuditRecord → MailResult)
    (status : ∀ a, (f a).status ∈ [MailStatus.rejected, .quarantined, .deferred])
    (before : ∀ e ∈ s.trace, forwards e = false) :
    Eff.wp (do
      let audit ← auditCall core context "mail.delivery.failed" result reason details
      return f audit) s fun r s' => Withheld forwards r s'.trace := by
  have quiet : (auditCall core context "mail.delivery.failed" result reason details s).2.trace = s.trace := rfl
  rcases outcome : auditCall core context "mail.delivery.failed" result reason details s with ⟨r, s'⟩
  rw [outcome] at quiet
  rw [Eff.wp_bind_eq outcome]
  dsimp only at quiet
  cases r with
  | error e => exact ⟨quiet ▸ before, nofun⟩
  | ok a => exact ⟨quiet ▸ before, fun own h => by cases h; exact status a⟩

theorem withheld_deferral (context : JsValue) (reason : String) (details : QueueEntry → List (String × JsValue))
    (before : ∀ e ∈ s.trace, e.isDeliver = false) :
    Eff.wp (do
      let queued ← enqueue core context options reason
      let audit ← auditCall core context "mail.delivery.failed" (text "deferred") reason (details queued)
      return (⟨.deferred, some reason, [], some queued, audit⟩ : MailResult)) s fun r s' =>
        Withheld CoreEvent.isDeliver r s'.trace := by
  have adds : Adds (fun e => e.isDeliver = false) (enqueue core context options reason) :=
    adds_enqueue _ _ fun _ => rfl
  obtain ⟨new, trace, kind⟩ := adds s
  rcases outcome : enqueue core context options reason s with ⟨r, s'⟩
  rw [outcome] at trace
  have after : ∀ e ∈ s'.trace, e.isDeliver = false := by
    intro e he
    rw [trace, List.mem_append] at he
    exact he.elim (before e) (kind e)
  rw [Eff.wp_bind_eq outcome]
  cases r with
  | error e => exact ⟨after, nofun⟩
  | ok queued => exact withheld_audit core s' context _ reason _ _ (fun _ => by simp) after

theorem refusal_mem {status : ScanStatus} (h : status ≠ .accepted) :
    status.refusal ∈ [MailStatus.rejected, .quarantined, .deferred] := by
  cases status with
  | accepted => exact absurd rfl h
  | rejected | quarantined | deferred => decide

theorem answerInbound_withheld (context : JsValue) (authorization : InboundAuthorization)
    (result : ScanResult) (refused : result.status ≠ .accepted)
    (before : ∀ e ∈ s.trace, e.isDeliver = false) :
    Eff.wp (answerInbound core context options authorization result) s fun r s' =>
      Withheld CoreEvent.isDeliver r s'.trace := by
  unfold answerInbound
  cases status : result.status with
  | accepted => exact absurd status refused
  | deferred =>
    exact withheld_deferral core options s context result.reason _ before
  | rejected | quarantined =>
    exact withheld_audit core s context _ result.reason _ _ (fun _ => by simp [ScanStatus.refusal]) before

theorem answerSubmission_withheld (context : JsValue) (authorization : SubmissionAuthorization)
    (result : ScanResult) (refused : result.status ≠ .accepted)
    (before : ∀ e ∈ s.trace, e.isEnqueue = false) :
    Eff.wp (answerSubmission core context options authorization result) s fun r s' =>
      Withheld CoreEvent.isEnqueue r s'.trace := by
  rw [answerSubmission, if_pos refused]
  exact withheld_audit core s context _ result.reason _ _ (fun _ => refusal_mem refused) before

variable {core options} in
theorem adds_answerInbound (context : JsValue) (authorization : InboundAuthorization) (result : ScanResult) :
    Adds (fun e => e.isScan = false) (answerInbound core context options authorization result) := by
  unfold answerInbound
  split
  · exact adds_bind (adds_enqueue _ _ fun _ => rfl) fun _ => adds_bind adds_auditCall fun _ => adds_pure _
  · exact adds_bind adds_auditCall fun _ => adds_pure _
  · exact adds_bind adds_auditCall fun _ => adds_pure _
  · exact adds_bind (adds_deliverAll _ _ _) fun _ => adds_settle _ _ _ fun _ => rfl

variable {core options} in
theorem adds_answerSubmission (context : JsValue) (authorization : SubmissionAuthorization)
    (result : ScanResult) :
    Adds (fun e => e.isScan = false) (answerSubmission core context options authorization result) := by
  unfold answerSubmission
  split
  · exact adds_bind adds_auditCall fun _ => adds_pure _
  · exact adds_bind (adds_enqueue _ _ fun _ => rfl) fun _ => adds_bind adds_auditCall fun _ => adds_pure _

/-- A call that scans first and then answers: it withholds the message unless
the scan passed. -/
theorem scan_then {forwards : CoreEvent → Bool} {answer : ScanResult → CoreM MailResult}
    (scans : ∀ o, forwards (.rspamd o) = false ∧ forwards (.clamav o) = false)
    (withholds : ∀ result s, result.status ≠ .accepted → (∀ e ∈ s.trace, forwards e = false) →
      Eff.wp (answer result) s fun r s' => Withheld forwards r s'.trace)
    (adds : ∀ result, Adds (fun e => e.isScan = false) (answer result)) (fresh : s.trace = []) :
    Eff.wp (scan core options >>= answer) s fun r s' =>
      ScanPassed s'.trace ∨ Withheld forwards r s'.trace := by
  have finish {s : CoreState} (before : ∀ e ∈ s.trace, forwards e = false) :
      (∀ e, ScanPassed s.trace ∨ Withheld forwards (.error e) s.trace) ∧
        ∀ result, result.status ≠ .accepted → Eff.wp (answer result) s fun r s' =>
          ScanPassed s'.trace ∨ Withheld forwards r s'.trace := by
    refine ⟨fun e => .inr ⟨before, nofun⟩, fun result refused => ?_⟩
    apply Eff.wp_mono (withholds result s refused before)
    exact fun _ _ => .inr
  rw [Eff.wp_bind]
  apply Eff.wp_mono (scan_spec core options s)
  rintro r ⟨p, q, trace⟩ scanned
  rw [fresh] at scanned
  dsimp only at scanned
  cases scanned with
  | stopped _ _ refused =>
    obtain ⟨thrown, answered⟩ := finish (s := ⟨p, q, rspamdTrace core options []⟩)
      (by simp [rspamdTrace, scans])
    cases r with
    | error e => exact thrown e
    | ok result => exact answered result (refused result rfl)
  | refused _ _ refused =>
    obtain ⟨thrown, answered⟩ := finish (s := ⟨p, q, scannedTrace core options []⟩)
      (by simp [scannedTrace, rspamdTrace, scans])
    cases r with
    | error e => exact thrown e
    | ok result => exact answered result (refused result rfl)
  | passed result hr hc _ =>
    obtain ⟨rest, after, others⟩ := adds result ⟨p, q, scannedTrace core options []⟩
    refine .inl ?_
    show ScanPassed (answer result _).2.trace
    rw [after]
    exact scanPassed_of_passes hr hc others

/-- Whatever the scanners do: a message goes to LMTP, or into the queue as a
submission, only if this call's answers read as a pass, and is otherwise
withheld. A wrapped endpoint passes only what the endpoint itself passed. -/
theorem scanning_fail_closed (core : CoreOptions) (context : JsValue) (options : MailEnvelopeOptions)
    (p : PolicyState) (q : QueueState) :
    (Eff.wp (receiveInbound core context options) ⟨p, q, []⟩ fun r s' =>
      ((∃ e ∈ s'.trace, e.isDeliver = true) → ScanPassed s'.trace) ∧
        (¬ ScanPassed s'.trace → Withheld CoreEvent.isDeliver r s'.trace)) ∧
    (Eff.wp (submit core context options) ⟨p, q, []⟩ fun r s' =>
      ((∃ e ∈ s'.trace, e.isEnqueue = true) → ScanPassed s'.trace) ∧
        (¬ ScanPassed s'.trace → Withheld CoreEvent.isEnqueue r s'.trace)) ∧
    ∀ scan warn message,
      (rspamdPasses (createRspamdScanner scan warn message) = true → ∃ endpoint,
        scan = some endpoint ∧ rspamdPasses (endpoint (metadataOnly message)) = true) ∧
      (clamavPasses (createClamAvScanner scan warn message) = true → ∃ endpoint,
        scan = some endpoint ∧ clamavPasses (endpoint (metadataOnly message)) = true) := by
  have closed {forwards : CoreEvent → Bool} {r : Except (Thrown CodedError) MailResult} {trace : Trace}
      (h : ScanPassed trace ∨ Withheld forwards r trace) :
      ((∃ e ∈ trace, forwards e = true) → ScanPassed trace) ∧
        (¬ ScanPassed trace → Withheld forwards r trace) := by
    rcases h with passed | withheld
    · exact ⟨fun _ => passed, fun h => absurd passed h⟩
    · refine ⟨?_, fun _ => withheld⟩
      rintro ⟨e, he, forwarded⟩
      rw [withheld.1 e he] at forwarded
      cases forwarded
  refine ⟨?_, ?_, fun scan warn message => ⟨rspamdPasses_wrapped, clamavPasses_wrapped⟩⟩
  · refine Eff.wp_lift_bind.mpr ⟨fun e _ => closed (.inr ⟨by simp, nofun⟩), fun authorization _ => ?_⟩
    apply Eff.wp_mono (scan_then core options _ (fun _ => ⟨rfl, rfl⟩)
      (fun result s => answerInbound_withheld core options s context authorization result)
      (fun result => adds_answerInbound context authorization result) rfl)
    exact fun _ _ => closed
  · rw [submit, Eff.wp_get_bind]
    generalize authorize : onPolicy (authorizeSubmission core.host core.policy _ context options) = m
    have quiet : (m ⟨p, q, []⟩).2.trace = [] := by rw [← authorize]; rfl
    rcases outcome : m ⟨p, q, []⟩ with ⟨r, s'⟩
    rw [outcome] at quiet
    dsimp only at quiet
    rw [Eff.wp_bind_eq outcome]
    cases r with
    | error e => exact closed (.inr ⟨by rw [quiet]; simp, nofun⟩)
    | ok authorization =>
      apply Eff.wp_mono (scan_then core options s' (fun _ => ⟨rfl, rfl⟩)
        (fun result s => answerSubmission_withheld core options s context authorization result)
        (fun result => adds_answerSubmission context authorization result) quiet)
      exact fun _ _ => closed

end GuloGulo.Mail
