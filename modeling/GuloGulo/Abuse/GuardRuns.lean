import GuloGulo.Abuse.Guard
import GuloGulo.Abuse.LimiterRuns

/-!
# Runs of the abuse guard

What a call does to the blocks of one subject, and from it what becomes of a
quarantine in a run.
-/

namespace GuloGulo.Abuse
open Js Data

theorem hexUnit_plain : ∀ n < 16, hexUnit n ≠ 58 := by decide

theorem hex_plain (bytes : List UInt8) : 58 ∉ hex bytes := by
  intro inside
  have plain := hex_units (p := fun u => u ≠ 58) hexUnit_plain bytes
  exact plain 58 inside rfl

theorem subjectTypeName_plain (t : SubjectType) : 58 ∉ js t.name := by cases t <;> decide

theorem subjectTypeName_injective {t t' : SubjectType} (h : js t.name = js t'.name) : t = t' := by
  cases t <;> cases t' <;> first | rfl | exact absurd h (by decide)

/-- Only the subjects of one tenant, one type and one digest share a key. -/
theorem Subject.key_injective {x y : Subject} {host : Host} (h : y.key host = x.key host) :
    y.tenantId = x.tenantId ∧ y.subjectType = x.subjectType ∧ y.digest host = x.digest host := by
  have type (z : Subject) : 58 ∉ js z.subjectType.name := subjectTypeName_plain _
  have digest (z : Subject) : 58 ∉ z.digest host := hex_plain _
  unfold Subject.key at h
  have flat (z : Subject) : z.tenantId ++ 58 :: (js z.subjectType.name ++ 58 :: z.digest host) =
      (z.tenantId ++ 58 :: js z.subjectType.name) ++ 58 :: z.digest host := by
    rw [List.append_assoc, List.cons_append]
  rw [flat y, flat x] at h
  obtain ⟨h, digests⟩ := append_separator_injective_right (digest y) (digest x) h
  obtain ⟨tenants, types⟩ := append_separator_injective_right (type y) (type x) h
  exact ⟨tenants, subjectTypeName_injective types, digests⟩

inductive GuardCall where
  | recordFailure (input : SubjectInput)
  | recordSuccess (input : SubjectInput)
  | quarantineSubject (input : SubjectInput)
  | releaseSubject (input : SubjectInput)
  | check (input : CheckInput)

inductive GuardResult where
  | failure (result : FailureResult)
  | success (audit : AbuseAuditEvent)
  | quarantine (result : QuarantineResult)
  | release (audit : AbuseAuditEvent)
  | decision (decision : CheckDecision)

def GuardCall.exec (host : Host) (guard : AbuseGuard) (clock : Nat → Answer) (onAudit : Answer) :
    GuardCall → Eff (Thrown AbuseError) GuardState GuardResult
  | recordFailure input => do
    let result ← Abuse.recordFailure host guard.policy input (clock 0) onAudit
    return .failure result
  | recordSuccess input => do
    let audit ← Abuse.recordSuccess host input (clock 0) onAudit
    return .success audit
  | quarantineSubject input => do
    let result ← Abuse.quarantineSubject host guard.policy input (clock 0) onAudit
    return .quarantine result
  | releaseSubject input => do
    let audit ← Abuse.releaseSubject host input (clock 0) onAudit
    return .release audit
  | check input => do
    let decision ← Abuse.check host guard input clock
    return .decision decision

/-- A call, what it was told by the clock and the audit hook, and how it
ended. -/
structure GuardEvent where
  call : GuardCall
  clock : Nat → Answer
  onAudit : Answer
  outcome : Except (Thrown AbuseError) GuardResult

def guardMachine (host : Host) (guard : AbuseGuard) : Machine GuardState GuardEvent where
  Start s := s = .empty
  Step s e s' := e.call.exec host guard e.clock e.onAudit s = (e.outcome, s')

variable {host : Host} {guard : AbuseGuard} {s : GuardState}

theorem wp_of_readOnly {α : Type} {m : Eff (Thrown AbuseError) GuardState α}
    {Q : Except (Thrown AbuseError) α → GuardState → Prop} (readOnly : m.ReadOnly) (h : ∀ r, Q r s) : Eff.wp m s Q := by
  rw [Eff.wp, readOnly s]
  exact h _

/-- What a report that is read notes. -/
def noted {α : Type} (read : Except (Thrown AbuseError) (Report α)) (note : Report α → GuardState → GuardState)
    (s : GuardState) : GuardState :=
  match read with
  | .ok report => note report s
  | .error _ => s

theorem recordFailure_state (policy : LockoutPolicy) (input : SubjectInput) (clock onAudit : Answer) (s : GuardState) :
    (recordFailure host policy input clock onAudit s).2 = noted (readFailure host input clock)
      (fun report => noteFailure policy (report.subject.key host) report.timestamp) s := by
  show Eff.wp (recordFailure host policy input clock onAudit) s fun _ s' => s' = _
  cases read : readFailure host input clock with
  | error e =>
    rw [recordFailure, read]
    rfl
  | ok report =>
    rw [recordFailure, read, Eff.lift_ok_bind, Eff.wp_get_bind, Eff.wp_modify_bind]
    refine wp_of_readOnly ?_ fun _ => rfl
    apply Eff.readOnly_bind (Eff.readOnly_lift _)
    intro _
    apply Eff.readOnly_bind (Eff.readOnly_lift _)
    intro _
    exact Eff.readOnly_bind (Eff.readOnly_lift _) fun _ => Eff.readOnly_pure _

theorem recordSuccess_state (input : SubjectInput) (clock onAudit : Answer) (s : GuardState) :
    (recordSuccess host input clock onAudit s).2 =
      noted (readSuccess host input clock) (fun report => noteSuccess (report.subject.key host)) s := by
  show Eff.wp (recordSuccess host input clock onAudit) s fun _ s' => s' = _
  cases read : readSuccess host input clock with
  | error e =>
    rw [recordSuccess, read]
    rfl
  | ok report =>
    rw [recordSuccess, read, Eff.lift_ok_bind, Eff.wp_modify_bind]
    exact wp_of_readOnly (Eff.readOnly_lift _) fun _ => rfl

theorem quarantineSubject_state (policy : LockoutPolicy) (input : SubjectInput) (clock onAudit : Answer) (s : GuardState) :
    (quarantineSubject host policy input clock onAudit s).2 = noted (readQuarantine host policy input clock)
      (fun report => noteQuarantine (report.subject.key host) (report.timestamp + report.rest.1)) s := by
  show Eff.wp (quarantineSubject host policy input clock onAudit) s fun _ s' => s' = _
  cases read : readQuarantine host policy input clock with
  | error e =>
    rw [quarantineSubject, read]
    rfl
  | ok report =>
    rw [quarantineSubject, read, Eff.lift_ok_bind, Eff.wp_modify_bind]
    refine wp_of_readOnly ?_ fun _ => rfl
    apply Eff.readOnly_bind (Eff.readOnly_lift _)
    intro _
    exact Eff.readOnly_bind (Eff.readOnly_lift _) fun _ => Eff.readOnly_pure _

theorem releaseSubject_state (input : SubjectInput) (clock onAudit : Answer) (s : GuardState) :
    (releaseSubject host input clock onAudit s).2 =
      noted (readRelease host input clock) (fun report => noteRelease (report.subject.key host)) s := by
  show Eff.wp (releaseSubject host input clock onAudit) s fun _ s' => s' = _
  cases read : readRelease host input clock with
  | error e =>
    rw [releaseSubject, read]
    rfl
  | ok report =>
    rw [releaseSubject, read, Eff.lift_ok_bind, Eff.wp_modify_bind]
    exact wp_of_readOnly (Eff.readOnly_lift _) fun _ => rfl

/-- The blocks of all subjects are the same. -/
def SameBlocks (s s' : GuardState) : Prop := s'.lockouts = s.lockouts ∧ s'.quarantines = s.quarantines

theorem status_readOnly (tenantId subjectType subject now : JsValue) (clock : Answer) :
    (status host tenantId subjectType subject now clock).ReadOnly := by
  apply Eff.readOnly_bind (Eff.readOnly_lift _)
  intro _
  apply Eff.readOnly_bind (Eff.readOnly_check _)
  intro _
  apply Eff.readOnly_bind Eff.readOnly_get
  intro _
  apply Eff.readOnly_bind (Eff.readOnly_lift _)
  intro _
  exact Eff.readOnly_bind (Eff.readOnly_lift _) fun _ => Eff.readOnly_pure _

theorem blockedBy_readOnly (tenantId : JsString) (now : JsValue) (clock : Nat → Answer) (i : Nat)
    (names : List (SubjectType × JsString)) : (blockedBy host tenantId now clock i names).ReadOnly := by
  induction names generalizing i with
  | nil => exact Eff.readOnly_pure _
  | cons name rest ih =>
    apply Eff.readOnly_bind (status_readOnly _ _ _ _ _)
    intro _
    exact Eff.readOnly_bind (ih _) fun _ => Eff.readOnly_pure _

theorem check_blocks (input : CheckInput) (clock : Nat → Answer) (s : GuardState) :
    SameBlocks s (check host guard input clock s).2 := by
  show Eff.wp (check host guard input clock) s fun _ s' => SameBlocks s s'
  apply Eff.wp_check_bind.mpr
  refine ⟨fun _ _ => ⟨rfl, rfl⟩, fun request _ => ?_⟩
  apply Eff.wp_readOnly_bind (blockedBy_readOnly _ _ _ _ _)
  · exact fun _ _ => ⟨rfl, rfl⟩
  · intro blocked _
    by_cases free : blocked.isEmpty
    · rw [if_pos free, Eff.wp_bind]
      have same : Eff.wp (onBuckets (consume host guard.limiter ⟨input.channel, .string request.1.tenantId,
          textValue request.1.ipAddress, textValue request.1.sessionId, input.cost, input.now⟩
          (clock (candidates request.1 request.2).length))) s fun _ s' => SameBlocks s s' := ⟨rfl, rfl⟩
      apply Eff.wp_mono same
      intro r _ h
      cases r <;> exact h
    · rw [if_neg free]
      exact ⟨rfl, rfl⟩

namespace GuardCall

/-- The subject that a call reports on. -/
def subject (host : Host) (guard : AbuseGuard) (clock : Nat → Answer) : GuardCall → Option Subject
  | recordFailure input => (readFailure host input (clock 0)).toOption.map Report.subject
  | recordSuccess input => (readSuccess host input (clock 0)).toOption.map Report.subject
  | quarantineSubject input => (readQuarantine host guard.policy input (clock 0)).toOption.map Report.subject
  | releaseSubject input => (readRelease host input (clock 0)).toOption.map Report.subject
  | check _ => none

/-- The end of the quarantine that a call sets. -/
def quarantineEnd (host : Host) (guard : AbuseGuard) (clock : Nat → Answer) (s : GuardState) : GuardCall → Option Int
  | recordFailure input =>
    match readFailure host input (clock 0) with
    | .ok report =>
      if guard.policy.quarantineThreshold ≤
          (failureBucket guard.policy s (report.subject.key host) report.timestamp).count then
        some (report.timestamp + guard.policy.quarantineMs)
      else none
    | .error _ => none
  | quarantineSubject input =>
    match readQuarantine host guard.policy input (clock 0) with
    | .ok report => some (report.timestamp + report.rest.1)
    | .error _ => none
  | recordSuccess _ | releaseSubject _ | check _ => none

def note (host : Host) (guard : AbuseGuard) (clock : Nat → Answer) : GuardCall → GuardState → GuardState
  | recordFailure input => noted (readFailure host input (clock 0)) fun report =>
      noteFailure guard.policy (report.subject.key host) report.timestamp
  | recordSuccess input => noted (readSuccess host input (clock 0)) fun report => noteSuccess (report.subject.key host)
  | quarantineSubject input => noted (readQuarantine host guard.policy input (clock 0)) fun report =>
      noteQuarantine (report.subject.key host) (report.timestamp + report.rest.1)
  | releaseSubject input => noted (readRelease host input (clock 0)) fun report => noteRelease (report.subject.key host)
  | check _ => id

def Releases : GuardCall → Prop
  | releaseSubject _ => True
  | _ => False

end GuardCall

theorem bind_pure_state {α β : Type} (m : Eff (Thrown AbuseError) GuardState α) (f : α → β) (s : GuardState) :
    ((do
      let a ← m
      return f a : Eff (Thrown AbuseError) GuardState β) s).2 = (m s).2 := by
  show (Eff.bind m (fun a => pure (f a)) s).2 = _
  unfold Eff.bind
  split
  · rename_i h
    rw [h]
    rfl
  · rename_i h
    rw [h]

/-- What a call does to the blocks. -/
theorem exec_blocks (host : Host) (guard : AbuseGuard) (call : GuardCall) (clock : Nat → Answer) (onAudit : Answer) (s : GuardState) :
    SameBlocks (call.note host guard clock s) (call.exec host guard clock onAudit s).2 := by
  cases call with
  | recordFailure input =>
    rw [GuardCall.exec, bind_pure_state, recordFailure_state]
    exact ⟨rfl, rfl⟩
  | recordSuccess input =>
    rw [GuardCall.exec, bind_pure_state, recordSuccess_state]
    exact ⟨rfl, rfl⟩
  | quarantineSubject input =>
    rw [GuardCall.exec, bind_pure_state, quarantineSubject_state]
    exact ⟨rfl, rfl⟩
  | releaseSubject input =>
    rw [GuardCall.exec, bind_pure_state, releaseSubject_state]
    exact ⟨rfl, rfl⟩
  | check input =>
    rw [GuardCall.exec, bind_pure_state]
    exact check_blocks input clock s

section
variable {key : JsString} {clock : Nat → Answer}

/-- A call on another subject leaves the blocks of this one. -/
theorem note_other {call : GuardCall} (others : ∀ y, call.subject host guard clock = some y → y.key host ≠ key)
    (s : GuardState) : (call.note host guard clock s).lockouts.get key = s.lockouts.get key ∧
      (call.note host guard clock s).quarantines.get key = s.quarantines.get key := by
  cases call with
  | recordFailure input =>
    cases read : readFailure host input (clock 0) with
    | error e =>
      simp only [GuardCall.note, noted, read, and_self]
    | ok report =>
      have other : report.subject.key host ≠ key := others report.subject (by simp [GuardCall.subject, read, Except.toOption])
      simp only [GuardCall.note, noted, read, noteFailure]
      constructor
      · split
        · rw [OrderedMap.get_set, if_neg other]
        · rfl
      · split
        · rw [OrderedMap.get_set, if_neg other]
        · rfl
  | recordSuccess input =>
    cases read : readSuccess host input (clock 0) with
    | error e =>
      simp only [GuardCall.note, noted, read, and_self]
    | ok report =>
      have other : report.subject.key host ≠ key := others report.subject (by simp [GuardCall.subject, read, Except.toOption])
      simp only [GuardCall.note, noted, read, noteSuccess, OrderedMap.get_delete, if_neg other.symm, and_self]
  | quarantineSubject input =>
    cases read : readQuarantine host guard.policy input (clock 0) with
    | error e =>
      simp only [GuardCall.note, noted, read, and_self]
    | ok report =>
      have other : report.subject.key host ≠ key := others report.subject (by simp [GuardCall.subject, read, Except.toOption])
      simp only [GuardCall.note, noted, read, noteQuarantine, OrderedMap.get_set, if_neg other, and_self]
  | releaseSubject input =>
    cases read : readRelease host input (clock 0) with
    | error e =>
      simp only [GuardCall.note, noted, read, and_self]
    | ok report =>
      have other : report.subject.key host ≠ key := others report.subject (by simp [GuardCall.subject, read, Except.toOption])
      simp only [GuardCall.note, noted, read, noteRelease, OrderedMap.get_delete, if_neg other.symm, and_self]
  | check input => exact ⟨rfl, rfl⟩

/-- A call on the subject that does not release it: its quarantine is what the
call sets, or what it was. -/
theorem note_own {call : GuardCall} {y : Subject} (own : call.subject host guard clock = some y) (same : y.key host = key)
    (kept : ¬ call.Releases) (s : GuardState) : (call.note host guard clock s).quarantines.get key =
      (call.quarantineEnd host guard clock s).or (s.quarantines.get key) := by
  cases call with
  | recordFailure input =>
    cases read : readFailure host input (clock 0) with
    | error e =>
      simp only [GuardCall.note, noted, read, GuardCall.quarantineEnd, Option.none_or]
    | ok report =>
      obtain rfl : report.subject = y := by simpa [GuardCall.subject, read, Except.toOption] using own
      simp only [GuardCall.note, noted, read, noteFailure, GuardCall.quarantineEnd]
      split
      · rw [OrderedMap.get_set, if_pos same, Option.some_or]
      · rw [Option.none_or]
  | recordSuccess input =>
    cases read : readSuccess host input (clock 0) with
    | error e =>
      simp only [GuardCall.note, noted, read, GuardCall.quarantineEnd, Option.none_or]
    | ok report =>
      simp only [GuardCall.note, noted, read, noteSuccess, GuardCall.quarantineEnd, Option.none_or]
  | quarantineSubject input =>
    cases read : readQuarantine host guard.policy input (clock 0) with
    | error e =>
      simp only [GuardCall.note, noted, read, GuardCall.quarantineEnd, Option.none_or]
    | ok report =>
      obtain rfl : report.subject = y := by simpa [GuardCall.subject, read, Except.toOption] using own
      simp only [GuardCall.note, noted, read, noteQuarantine, GuardCall.quarantineEnd, OrderedMap.get_set, if_pos same,
        Option.some_or]
  | releaseSubject input => exact absurd trivial kept
  | check input => exact (Option.none_or).symm

end

def GuardEvent.subject (e : GuardEvent) (host : Host) (guard : AbuseGuard) : Option Subject :=
  e.call.subject host guard e.clock

/-- The call releases the subject. -/
def GuardEvent.Releases (e : GuardEvent) (host : Host) (guard : AbuseGuard) (x : Subject) : Prop :=
  e.call.Releases ∧ e.subject host guard = some x

/-- The call reports a success of the subject, or releases it. -/
def GuardEvent.Clears (e : GuardEvent) (host : Host) (guard : AbuseGuard) (x : Subject) : Prop :=
  (match e.call with
    | .recordSuccess _ | .releaseSubject _ => True
    | _ => False) ∧ e.subject host guard = some x

/-- The call checks a request that names the subject, when the clock shows a
time before `t`. -/
def GuardEvent.ChecksBefore (e : GuardEvent) (host : Host) (x : Subject) (t : Int) : Prop :=
  ∃ input identity userId i, e.call = .check input ∧ readCheck input = .ok (identity, userId) ∧
    identity.tenantId = x.tenantId ∧ (candidates identity userId)[i]? = some (x.subjectType, x.subject) ∧
    ∀ now, nowMilliseconds host (e.clock i) input.now = .ok now → now < t

def GuardEvent.Allowed (e : GuardEvent) : Prop := ∃ d, e.outcome = .ok (.decision d) ∧ d.allowed = true

/-- No other subject of the tenant and the type has its digest, and a call
that quarantines it sets an end that is not before the one it has. -/
structure Subject.Lengthens (x : Subject) (host : Host) (guard : AbuseGuard) (s : GuardState) (e : GuardEvent) : Prop where
  distinct : ∀ y, e.subject host guard = some y → y.tenantId = x.tenantId → y.subjectType = x.subjectType →
    y.digest host = x.digest host → y = x
  longer : e.subject host guard = some x → ∀ t, e.call.quarantineEnd host guard e.clock s = some t →
    ∀ u, s.quarantines.get (x.key host) = some u → u ≤ t

section
variable {x : Subject} {s' : GuardState} {e : GuardEvent}

theorem step_blocks (step : (guardMachine host guard).Step s e s') :
    SameBlocks (e.call.note host guard e.clock s) s' := by
  have blocks := exec_blocks host guard e.call e.clock e.onAudit s
  rw [show e.call.exec host guard e.clock e.onAudit s = _ from step] at blocks
  exact blocks

theorem key_of_other (distinct : ∀ y, e.subject host guard = some y → y.tenantId = x.tenantId →
      y.subjectType = x.subjectType → y.digest host = x.digest host → y = x)
    (other : e.subject host guard ≠ some x) :
    ∀ y, e.call.subject host guard e.clock = some y → y.key host ≠ x.key host := by
  intro y named same
  obtain ⟨tenant, type, digest⟩ := Subject.key_injective same
  have mine := distinct y named tenant type digest
  exact other (mine ▸ named)

/-- What a step does to a quarantine that it does not release. -/
theorem step_quarantine (step : (guardMachine host guard).Step s e s') (lengthens : x.Lengthens host guard s e)
    (kept : ¬ e.Releases host guard x) {t : Int} (quarantined : s.quarantines.get (x.key host) = some t) :
    ∃ u, s'.quarantines.get (x.key host) = some u ∧ t ≤ u := by
  rw [(step_blocks step).2]
  by_cases own : e.subject host guard = some x
  · rw [note_own own rfl (fun releases => kept ⟨releases, own⟩), quarantined]
    cases set : e.call.quarantineEnd host guard e.clock s with
    | none => exact ⟨t, rfl, Int.le_refl t⟩
    | some u => exact ⟨u, rfl, lengthens.longer own u set t quarantined⟩
  · rw [(note_other (key_of_other lengthens.distinct own) s).2]
    exact ⟨t, quarantined, Int.le_refl t⟩

theorem run_quarantine {later : List GuardEvent}
    (run : (((guardMachine host guard).restrict (x.Lengthens host guard)).resume s).Run later s')
    (kept : ∀ e ∈ later, ¬ e.Releases host guard x) {t : Int}
    (quarantined : s.quarantines.get (x.key host) = some t) :
    ∃ u, s'.quarantines.get (x.key host) = some u ∧ t ≤ u := by
  induction run with
  | start here =>
    rw [show _ = s from here]
    exact ⟨t, quarantined, Int.le_refl t⟩
  | next _ step ih =>
    rw [List.forall_mem_cons] at kept
    obtain ⟨u, before, earlier⟩ := ih kept.2
    obtain ⟨v, after, later⟩ := step_quarantine step.1 step.2 kept.1 before
    exact ⟨v, after, Int.le_trans earlier later⟩

end

theorem assertSubjectType_name (t : SubjectType) : assertSubjectType (.string (js t.name)) = .ok t := by
  cases t <;> decide

theorem readSubject_eq_ok {tenantId subject : JsString} {subjectType : SubjectType} {x : Subject}
    (h : readSubject (.string tenantId) (.string (js subjectType.name)) (.string subject) = .ok x) :
    x = ⟨tenantId, subjectType, subject⟩ := by
  obtain ⟨tenant, htenant, h⟩ := bind_eq_ok.mp h
  rw [assertSubjectType_name, ok_bind] at h
  obtain ⟨text, htext, h⟩ := bind_eq_ok.mp h
  cases h
  rw [assertString_eq htenant, assertString_eq htext]

theorem status_blocked {x : Subject} {now : JsValue} {clock : Answer} {t : Int}
    (quarantined : s.quarantines.get (x.key host) = some t)
    (before : ∀ u, nowMilliseconds host clock now = .ok u → u < t) :
    Eff.wp (status host (.string x.tenantId) (.string (js x.subjectType.name)) (.string x.subject) now clock) s
      fun r _ => ∀ found, r = .ok found → found.blocked = true := by
  apply Eff.wp_lift_bind.mpr
  refine ⟨fun _ _ => nofun, fun u hu => ?_⟩
  apply Eff.wp_check_bind.mpr
  refine ⟨fun _ _ => nofun, fun y hy => ?_⟩
  obtain rfl : y = x := readSubject_eq_ok hy
  rw [Eff.wp_get_bind]
  apply Eff.wp_lift_bind.mpr
  refine ⟨fun _ _ => nofun, fun _ _ => ?_⟩
  apply Eff.wp_lift_bind.mpr
  refine ⟨fun _ _ => nofun, fun _ _ => ?_⟩
  rw [Eff.wp_pure]
  intro found same
  cases same
  rw [quarantined]
  simp only [Option.getD_some, Bool.or_eq_true, decide_eq_true_eq]
  exact .inr (before u hu)

theorem blockedBy_found {x : Subject} {now : JsValue} {clock : Nat → Answer} {t : Int}
    (quarantined : s.quarantines.get (x.key host) = some t) {names : List (SubjectType × JsString)} {i : Nat}
    (named : names[i]? = some (x.subjectType, x.subject)) {j : Nat}
    (before : ∀ u, nowMilliseconds host (clock (j + i)) now = .ok u → u < t) :
    Eff.wp (blockedBy host x.tenantId now clock j names) s fun r _ =>
      ∀ blocked, r = .ok blocked → blocked.isEmpty = false := by
  induction names generalizing i j with
  | nil => cases named
  | cons name rest ih =>
    rw [blockedBy]
    apply Eff.wp_readOnly_bind (status_readOnly _ _ _ _ _)
    · exact fun _ _ => nofun
    intro found hfound
    apply Eff.wp_readOnly_bind (blockedBy_readOnly _ _ _ _ _)
    · exact fun _ _ => nofun
    intro others hothers
    rw [Eff.wp_pure]
    intro blocked same
    cases same
    cases i with
    | zero =>
      obtain rfl : name = (x.subjectType, x.subject) := Option.some.inj named
      rw [if_pos (status_blocked quarantined before found hfound)]
      rfl
    | succ i =>
      have later := ih named (j := j + 1) (by rwa [Nat.add_right_comm, Nat.add_assoc]) others hothers
      split
      · rfl
      · exact later

theorem check_denied {x : Subject} {t : Int} (quarantined : s.quarantines.get (x.key host) = some t) {e : GuardEvent}
    {s' : GuardState} (step : (guardMachine host guard).Step s e s') (checks : e.ChecksBefore host x t) :
    ¬ e.Allowed := by
  obtain ⟨input, identity, userId, i, call, read, tenant, named, before⟩ := checks
  have denied : Eff.wp (check host guard input e.clock) s fun r _ => ∀ d, r = .ok d → d.allowed = false := by
    rw [check, read]
    show Eff.wp (blockedBy host identity.tenantId input.now e.clock 0 (candidates identity userId) >>= _) s _
    apply Eff.wp_readOnly_bind (blockedBy_readOnly _ _ _ _ _)
    · exact fun _ _ => nofun
    intro blocked hblocked
    rw [tenant] at hblocked
    have some := blockedBy_found quarantined named (by rwa [Nat.zero_add]) blocked hblocked
    rw [some, if_neg Bool.false_ne_true, Eff.wp_pure]
    intro d same
    cases same
    rfl
  rintro ⟨d, outcome, allowed⟩
  have ended : (e.call.exec host guard e.clock e.onAudit s).1 = .ok (.decision d) := by
    rw [show e.call.exec host guard e.clock e.onAudit s = _ from step]
    exact outcome
  rw [call, GuardCall.exec] at ended
  obtain ⟨d', checked, same⟩ := Eff.bind_fst_eq_ok ended
  cases same
  rw [denied d checked] at allowed
  cases allowed

/-- A quarantine lasts, and denies what it should, until it is released or as
long as it is not set to end earlier; what is done to one subject leaves the
blocks of the others. -/
theorem blocks_kept (host : Host) (guard : AbuseGuard) (x : Subject) :
    (∀ (past : List GuardEvent) (s : GuardState),
      ((guardMachine host guard).restrict (x.Lengthens host guard)).Run past s →
        ∀ (later : List GuardEvent) (s' : GuardState),
          (((guardMachine host guard).restrict (x.Lengthens host guard)).resume s).Run later s' →
            (∀ e ∈ later, ¬ e.Releases host guard x) → ∀ t, s.quarantines.get (x.key host) = some t →
              (∃ u, s'.quarantines.get (x.key host) = some u ∧ t ≤ u) ∧
                ∀ (e : GuardEvent) (s'' : GuardState), (guardMachine host guard).Step s' e s'' →
                  e.ChecksBefore host x t → ¬ e.Allowed) ∧
    ∀ (past : List GuardEvent) (s : GuardState),
      ((guardMachine host guard).restrict (x.Lengthens host guard)).Run past s →
        ∀ (e : GuardEvent) (s' : GuardState) (y : Subject),
          ((guardMachine host guard).restrict (x.Lengthens host guard)).Step s e s' → e.Clears host guard y → y ≠ x →
            s'.lockouts.get (x.key host) = s.lockouts.get (x.key host) ∧
              s'.quarantines.get (x.key host) = s.quarantines.get (x.key host) := by
  constructor
  · intro _ s _ later s' more kept t quarantined
    obtain ⟨u, lasts, longer⟩ := run_quarantine more kept quarantined
    refine ⟨⟨u, lasts, longer⟩, ?_⟩
    rintro e s'' step ⟨input, identity, userId, i, call, read, tenant, named, before⟩
    exact check_denied lasts step ⟨input, identity, userId, i, call, read, tenant, named,
      fun now h => Int.lt_of_lt_of_le (before now h) longer⟩
  · intro _ s _ e s' y step clears different
    have other : e.subject host guard ≠ some x := by
      intro own
      rw [clears.2, Option.some.injEq] at own
      exact different own
    obtain ⟨lockouts, quarantines⟩ := note_other (key_of_other step.2.distinct other) s
    have blocks := step_blocks step.1
    rw [blocks.1, blocks.2]
    exact ⟨lockouts, quarantines⟩

/-- The standard policy, except that the first failure quarantines. -/
def sampleGuard : AbuseGuard :=
  ⟨sampleLimiter, ⟨5, 900000, 900000, 1, 3600000, by decide, by decide, by decide, by decide, by decide, by decide, by decide,
    by decide, by decide, by decide⟩⟩

def sampleUser (name : String) : Subject := ⟨js "acme", .user, js name⟩

def sampleInput (name : String) (durationMs now : Nat) : SubjectInput :=
  ⟨.string (js "acme"), .string (js "user"), .string (js name), .undefined, .undefined, .number durationMs, .number now⟩

def sampleCheck (name : String) (now : Nat) : CheckInput :=
  ⟨.string (js "http"), .string (js "acme"), .null, .null, .string (js name), .undefined, .number now⟩

namespace GuardCall

def event (call : GuardCall) (s : GuardState) : GuardEvent :=
  ⟨call, fun _ => .threw, .returned .undefined,
    (call.exec asciiHost sampleGuard (fun _ => .threw) (.returned .undefined) s).1⟩

def after (call : GuardCall) (s : GuardState) : GuardState :=
  (call.exec asciiHost sampleGuard (fun _ => .threw) (.returned .undefined) s).2

theorem made (call : GuardCall) (s : GuardState) :
    (guardMachine asciiHost sampleGuard).Step s (call.event s) (call.after s) := (Prod.eta _).symm

end GuardCall

/-- A user that an operator has quarantined for a time. -/
def quarantined (durationMs : Nat) : GuardState :=
  (GuardCall.quarantineSubject (sampleInput "eve" durationMs 0)).after .empty

/-- The user fails a millisecond later. -/
def failed (durationMs : Nat) : GuardState :=
  (GuardCall.recordFailure (sampleInput "eve" 1000 1)).after (quarantined durationMs)

/-- The decision of a check. -/
def GuardEvent.allowed? (e : GuardEvent) : Option Bool :=
  match e.outcome with
  | .ok (.decision d) => some d.allowed
  | _ => none

/-- What the samples come to: the two quarantines, before and after a failure,
and whom the reports are about. -/
theorem sampleQuarantines :
    ((quarantined 604800000).quarantines.get ((sampleUser "eve").key asciiHost) = some 604800000 ∧
      (failed 604800000).quarantines.get ((sampleUser "eve").key asciiHost) = some 3600001 ∧
      ((GuardCall.check (sampleCheck "eve" 7200000)).event (failed 604800000)).allowed? = some true) ∧
    ((quarantined 1000).quarantines.get ((sampleUser "eve").key asciiHost) = some 1000 ∧
      (GuardCall.recordFailure (sampleInput "eve" 1000 1)).quarantineEnd asciiHost sampleGuard (fun _ => .threw)
        (quarantined 1000) = some 3600001) ∧
    ((GuardCall.quarantineSubject (sampleInput "eve" 1000 0)).subject asciiHost sampleGuard (fun _ => .threw) =
        some (sampleUser "eve") ∧
      (GuardCall.recordFailure (sampleInput "eve" 1000 1)).subject asciiHost sampleGuard (fun _ => .threw) =
        some (sampleUser "eve") ∧
      (GuardCall.recordSuccess (sampleInput "bob" 1000 2)).subject asciiHost sampleGuard (fun _ => .threw) =
        some (sampleUser "bob") ∧
      (sampleUser "bob").digest asciiHost ≠ (sampleUser "eve").digest asciiHost) := by
  refine ⟨⟨?_, ?_, ?_⟩, ⟨?_, ?_⟩, ?_, ?_, ?_, ?_⟩
  all_goals decide +kernel

theorem sampleCheck_read : readCheck (sampleCheck "eve" 0) = .ok (⟨js "acme", none, none⟩, some (js "eve")) := by
  rfl

theorem quarantined_run (durationMs : Nat) : (guardMachine asciiHost sampleGuard).Run
    [(GuardCall.quarantineSubject (sampleInput "eve" durationMs 0)).event .empty] (quarantined durationMs) :=
  .next (.start rfl) (GuardCall.made _ _)

theorem sampleCheck_before (now : Nat) (t : Int)
    (h : nowMilliseconds asciiHost .threw (.number now) = .ok (now : Int) ∧ (now : Int) < t) (s : GuardState) :
    ((GuardCall.check (sampleCheck "eve" now)).event s).ChecksBefore asciiHost (sampleUser "eve") t := by
  have read : readCheck (sampleCheck "eve" now) = .ok (⟨js "acme", none, none⟩, some (js "eve")) :=
    (show readCheck (sampleCheck "eve" now) = readCheck (sampleCheck "eve" 0) from rfl).trans sampleCheck_read
  refine ⟨_, _, _, 1, rfl, read, rfl, rfl, ?_⟩
  intro u hu
  cases h.1.symm.trans hu
  exact h.2

theorem allowed_of_decision {e : GuardEvent} (h : e.allowed? = some true) : e.Allowed := by
  unfold GuardEvent.allowed? at h
  split at h
  · rename_i d ended
    exact ⟨d, ended, Option.some.inj h⟩
  · cases h

theorem failure_kept (s : GuardState) : ∀ e ∈ [(GuardCall.recordFailure (sampleInput "eve" 1000 1)).event s],
    ¬ e.Releases asciiHost sampleGuard (sampleUser "eve") := by
  intro e he
  rw [List.mem_singleton.mp he]
  exact fun releases => releases.1

/-- A quarantine of seven days that a failure makes one of an hour. -/
theorem quarantine_shortened : ∃ (past later : List GuardEvent) (s s' : GuardState) (e : GuardEvent) (s'' : GuardState),
    (guardMachine asciiHost sampleGuard).Run past s ∧
      ((guardMachine asciiHost sampleGuard).resume s).Run later s' ∧
      (∀ e ∈ later, ¬ e.Releases asciiHost sampleGuard (sampleUser "eve")) ∧
      s.quarantines.get ((sampleUser "eve").key asciiHost) = some 604800000 ∧
      s'.quarantines.get ((sampleUser "eve").key asciiHost) = some 3600001 ∧
      (guardMachine asciiHost sampleGuard).Step s' e s'' ∧
      e.ChecksBefore asciiHost (sampleUser "eve") 604800000 ∧ e.Allowed := by
  have more : ((guardMachine asciiHost sampleGuard).resume (quarantined 604800000)).Run
      [(GuardCall.recordFailure (sampleInput "eve" 1000 1)).event (quarantined 604800000)] (failed 604800000) :=
    .next (.start rfl) (GuardCall.made _ _)
  obtain ⟨before, after, allowed⟩ := sampleQuarantines.1
  exact ⟨_, _, _, _, _, _, quarantined_run 604800000, more, failure_kept _, before, after,
    GuardCall.made (.check (sampleCheck "eve" 7200000)) _,
    sampleCheck_before 7200000 604800000 ⟨rfl, by decide⟩ _, allowed_of_decision allowed⟩

/-- A call on the user alone, which ends no quarantine early. -/
theorem lengthens_own {call : GuardCall} {s : GuardState}
    (own : call.subject asciiHost sampleGuard (fun _ => .threw) = some (sampleUser "eve"))
    (longer : ∀ u ∈ s.quarantines.get ((sampleUser "eve").key asciiHost),
      ∀ t ∈ call.quarantineEnd asciiHost sampleGuard (fun _ => .threw) s, u ≤ t) :
    (sampleUser "eve").Lengthens asciiHost sampleGuard s (call.event s) where
  distinct _ hy _ _ _ := (Option.some.inj (own.symm.trans hy)).symm
  longer _ t ht u hu := longer u hu t ht

/-- A success of somebody else. -/
theorem lengthens_other (s : GuardState) : (sampleUser "eve").Lengthens asciiHost sampleGuard s
    ((GuardCall.recordSuccess (sampleInput "bob" 1000 2)).event s) where
  distinct y hy _ _ same := by
    obtain ⟨_, _, report, digests⟩ := sampleQuarantines.2.2
    cases report.symm.trans hy
    exact absurd same digests
  longer _ _ := nofun

/-- A user in quarantine for a second whose next failure makes it an hour, and
another one whose success is reported. -/
theorem blocks_kept_eve : ∃ (s s' : GuardState) (e e' : GuardEvent) (s₁ s₂ : GuardState),
    s.quarantines.get ((sampleUser "eve").key asciiHost) = some 1000 ∧
      (∃ u, s'.quarantines.get ((sampleUser "eve").key asciiHost) = some u ∧ 1000 ≤ u) ∧
      (guardMachine asciiHost sampleGuard).Step s' e s₁ ∧
      e.ChecksBefore asciiHost (sampleUser "eve") 1000 ∧ ¬ e.Allowed ∧
      e'.Clears asciiHost sampleGuard (sampleUser "bob") ∧ (guardMachine asciiHost sampleGuard).Step s e' s₂ ∧
      s₂.quarantines.get ((sampleUser "eve").key asciiHost) = s.quarantines.get ((sampleUser "eve").key asciiHost) := by
  obtain ⟨lasts, others⟩ := blocks_kept asciiHost sampleGuard (sampleUser "eve")
  obtain ⟨second, ends⟩ := sampleQuarantines.2.1
  obtain ⟨begun, failing, succeeding, _⟩ := sampleQuarantines.2.2
  have run : ((guardMachine asciiHost sampleGuard).restrict ((sampleUser "eve").Lengthens asciiHost sampleGuard)).Run
      [(GuardCall.quarantineSubject (sampleInput "eve" 1000 0)).event .empty] (quarantined 1000) :=
    .next (.start rfl) ⟨GuardCall.made _ _, lengthens_own begun nofun⟩
  have more : (((guardMachine asciiHost sampleGuard).restrict
      ((sampleUser "eve").Lengthens asciiHost sampleGuard)).resume (quarantined 1000)).Run
      [(GuardCall.recordFailure (sampleInput "eve" 1000 1)).event (quarantined 1000)] (failed 1000) := by
    apply Machine.Run.next (.start rfl)
    refine ⟨GuardCall.made _ _, lengthens_own failing ?_⟩
    intro u hu t ht
    rw [second] at hu
    rw [ends] at ht
    cases hu
    cases ht
    decide
  have denied := lasts _ _ run _ _ more (failure_kept _) 1000 second
  have before := sampleCheck_before 2 1000 ⟨rfl, by decide⟩ (failed 1000)
  have check := GuardCall.made (.check (sampleCheck "eve" 2)) (failed 1000)
  have success := GuardCall.made (.recordSuccess (sampleInput "bob" 1000 2)) (quarantined 1000)
  have clears : ((GuardCall.recordSuccess (sampleInput "bob" 1000 2)).event (quarantined 1000)).Clears asciiHost
      sampleGuard (sampleUser "bob") := ⟨trivial, succeeding⟩
  have same := others _ _ run _ _ (sampleUser "bob") ⟨success, lengthens_other _⟩ clears (by decide)
  exact ⟨_, _, _, _, _, _, second, denied.1, check, before, denied.2 _ _ check before, clears, success,
    same.2⟩

end GuloGulo.Abuse
