import GuloGulo.Secrets.Answering

/-!
# Rejected mutations

A rotation or a rollback alone with its directory, any operation of which may
fail. Up to the rename nothing that a reader sees has changed; after it only
the sink can still make the call reject, and then the new state stays.
-/

namespace GuloGulo.Secrets
open Js Sql

def anyAnswer : Environment Operation.Answer World := answering Operation.mayFail fun _ _ _ => True

def World.successes (w : World) : List Audit := w.audits.filter fun a => decide (a.event.result = .success)

/-- The operation reports no success. -/
def Operation.Quiet : Operation → Prop
  | .audit event => event.result ≠ .success
  | _ => True

section
variable (reference : JsString) (before : Disk)

/-- The operation spares the state and the active version, and reports no success. -/
structure Operation.Spares (op : Operation) : Prop where
  state : op.Leaves .state
  value : ∀ s, stateOf reference before = some (.ok s) → op.Leaves (.value s.activeVersion)
  metadata : ∀ s, stateOf reference before = some (.ok s) → op.Leaves (.metadata s.activeVersion)
  quiet : op.Quiet

/-- What a reader sees is the same, and so are the successes reported. -/
structure Same (w w' : World) : Prop where
  state : w'.disk.files .state = w.disk.files .state
  value : ∀ s, stateOf reference before = some (.ok s) →
    w'.disk.files (.value s.activeVersion) = w.disk.files (.value s.activeVersion)
  metadata : ∀ s, stateOf reference before = some (.ok s) →
    w'.disk.files (.metadata s.activeVersion) = w.disk.files (.metadata s.activeVersion)
  successes : w'.successes = w.successes

end

section
variable {reference : JsString} {before : Disk} {w w' w'' : World} {α β : Type} {o : NormalizedOptions}

theorem Same.refl (w : World) : Same reference before w w := ⟨rfl, fun _ _ => rfl, fun _ _ => rfl, rfl⟩

theorem Same.trans (h : Same reference before w w') (h' : Same reference before w' w'') : Same reference before w w'' :=
  ⟨h'.state.trans h.state, fun s hs => (h'.value s hs).trans (h.value s hs),
    fun s hs => (h'.metadata s hs).trans (h.metadata s hs), h'.successes.trans h.successes⟩

theorem World.successes_after (w : World) {op : Operation} (r : op.Answer) (d : Disk)
    (quiet : op.Quiet) : (w.after op r d).successes = w.successes := by
  cases op with
  | audit event => exact List.filter_cons_of_neg (by simpa [Operation.Quiet] using quiet)
  | now => cases r <;> rfl
  | createVersion =>
    cases r with
    | error => rfl
    | ok version => cases version <;> rfl
  | _ => rfl

theorem World.clock_after (w : World) {op : Operation} (r : op.Answer) (d : Disk) (h : op ≠ .now) :
    (w.after op r d).clock = w.clock := by
  unfold World.after
  split
  · exact absurd rfl h
  · rfl
  · rfl
  · rfl

theorem Same.step {op : Operation} {r : op.Answer} (spares : op.Spares reference before)
    (step : anyAnswer.step w op r w') : Same reference before w w' := by
  obtain ⟨_, d, answers, rfl⟩ := step
  have disk := w.after_disk op r d
  exact ⟨by rw [disk]; exact answers.leaves spares.state, fun s hs => by rw [disk]; exact answers.leaves (spares.value s hs),
    fun s hs => by rw [disk]; exact answers.leaves (spares.metadata s hs), w.successes_after r d spares.quiet⟩

/-- A program that only does such things. -/
theorem spares_wp {p : Call α} (only : p.Only (Operation.Spares reference before)) (same : Same reference before w w') :
    p.wp anyAnswer (fun _ => Same reference before w) (fun _ => Same reference before w) w' :=
  only.keeps (fun _ _ spares same => ⟨trivial, fun _ _ step => same.trans (Same.step spares step)⟩) same

theorem spares_bind {p : Call α} {f : α → Call β} {ok : β → World → Prop} {error : SecretFailure → World → Prop}
    (only : p.Only (Operation.Spares reference before)) (same : Same reference before w w')
    (failed : ∀ e v, Same reference before w v → error e v)
    (rest : ∀ a v, Same reference before w v → (f a).wp anyAnswer ok error v) : (p >>= f).wp anyAnswer ok error w' :=
  Program.wp_bind.mpr (Program.wp_mono (spares_wp only same) rest failed)

/-- The same while the clock is not looked at. -/
theorem spares_timed {p : Call α} (only : p.Only fun op => op.Spares reference before ∧ op ≠ .now)
    (same : Same reference before w w') : p.wp anyAnswer (fun _ v => Same reference before w v ∧ v.clock = w'.clock)
      (fun _ v => Same reference before w v ∧ v.clock = w'.clock) w' := by
  refine only.keeps ?_ ⟨same, rfl⟩
  rintro v op ⟨spares, untimed⟩ ⟨same, clock⟩
  refine ⟨trivial, fun r v' step => ⟨same.trans (Same.step spares step), ?_⟩⟩
  obtain ⟨_, d, _, rfl⟩ := step
  exact (v.clock_after r d untimed).trans clock

theorem spares_of_leaves {op : Operation} (leaves : ∀ path, path ≠ .lock → op.Leaves path) (quiet : op.Quiet) : op.Spares reference before :=
  ⟨leaves _ nofun, fun _ _ => leaves _ nofun, fun _ _ => leaves _ nofun, quiet⟩

theorem spares_locking {op : Operation} (h : op.Locking) : op.Spares reference before := by
  cases op with
  | openExclusive other | write other | unlink other =>
    cases other with
    | lock => exact spares_of_leaves (fun _ apart => apart) trivial
    | _ => exact h.elim
  | rename | audit => exact h.elim
  | _ => exact spares_of_leaves (fun _ _ => trivial) trivial

theorem spares_reading {op : Operation} (h : op.Reads) : op.Spares reference before := by
  cases op with
  | readFile | statLock | statValue | readdir => exact spares_of_leaves (fun _ _ => trivial) trivial
  | _ => exact h.elim

theorem value_ne {version : JsString} (apart : ∀ s, stateOf reference before = some (.ok s) → s.activeVersion ≠ version)
    (s) (active : stateOf reference before = some (.ok s)) : Path.value s.activeVersion ≠ .value version :=
  fun same => apart s active (Path.value.inj same)

theorem spares_value {op : Operation} {version : JsString}
    (apart : ∀ s, stateOf reference before = some (.ok s) → s.activeVersion ≠ version) {contents : List UInt8}
    (h : op.Writes (.value version) contents) : op.Spares reference before := by
  rcases h with rfl | ⟨_, rfl⟩ | rfl | rfl
  · exact ⟨nofun, value_ne apart, fun _ _ => nofun, trivial⟩
  · exact ⟨nofun, value_ne apart, fun _ _ => nofun, trivial⟩
  · exact spares_of_leaves (fun _ _ => trivial) trivial
  · exact spares_of_leaves (fun _ _ => trivial) trivial

theorem spares_unlinkValue {version : JsString}
    (apart : ∀ s, stateOf reference before = some (.ok s) → s.activeVersion ≠ version) :
    (Operation.unlink (.value version)).Spares reference before :=
  ⟨nofun, value_ne apart, fun _ _ => nofun, trivial⟩

theorem spares_metadata {op : Operation} {version : JsString}
    (apart : ∀ s, stateOf reference before = some (.ok s) → s.activeVersion ≠ version) {contents : Option JsValue}
    (h : op.Writes (.metadata version) contents) : op.Spares reference before := by
  have other (s) (active : stateOf reference before = some (.ok s)) : Path.metadata s.activeVersion ≠ .metadata version :=
    fun same => apart s active (Path.metadata.inj same)
  rcases h with rfl | ⟨_, rfl⟩ | rfl | rfl
  · exact ⟨nofun, fun _ _ => nofun, other, trivial⟩
  · exact ⟨nofun, fun _ _ => nofun, other, trivial⟩
  · exact spares_of_leaves (fun _ _ => trivial) trivial
  · exact spares_of_leaves (fun _ _ => trivial) trivial

theorem spares_prunes {op : Operation} {kept : List JsString}
    (active : ∀ s, stateOf reference before = some (.ok s) → s.activeVersion ∈ kept) (h : op.Prunes kept) :
    op.Spares reference before := by
  have other (s) (there : stateOf reference before = some (.ok s)) {version : JsString} (out : version ∉ kept) :
      s.activeVersion ≠ version := by
    rintro rfl
    exact out (active s there)
  cases op with
  | readdir | sleep => exact ⟨trivial, fun _ _ => trivial, fun _ _ => trivial, trivial⟩
  | readFile => exact ⟨trivial, fun _ _ => trivial, fun _ _ => trivial, trivial⟩
  | unlink path =>
    cases path with
    | value version =>
      exact ⟨nofun, fun s there same => other s there h (Path.value.inj same), fun _ _ => nofun, trivial⟩
    | metadata version =>
      exact ⟨nofun, fun _ _ => nofun, fun s there same => other s there h (Path.metadata.inj same), trivial⟩
    | _ => exact h.elim
  | _ => exact h.elim

/-- The operations that concern no file of the directory. -/
def Operation.Free : Operation → Prop
  | .mkdir | .now | .randomUUID | .createVersion | .temporary _ | .sleep _ => True
  | .audit event => event.result ≠ .success
  | _ => False

theorem spares_free {op : Operation} (h : op.Free) : op.Spares reference before := by
  cases op with
  | mkdir | now | randomUUID | createVersion | temporary | sleep => exact spares_of_leaves (fun _ _ => trivial) trivial
  | audit => exact spares_of_leaves (fun _ _ => trivial) h
  | _ => exact h.elim

theorem spares_sleep (ms : Nat) : (Operation.sleep ms).Spares reference before := spares_free trivial

theorem spares_readValue (version : JsString) : (readValue o version).Only (Operation.Spares reference before) :=
  only_readValue (spares_reading trivial) (spares_reading trivial) spares_sleep

theorem spares_checkChanged (current : Option ActiveStateFile) (candidate : JsString) :
    (checkChanged o current candidate).Only (Operation.Spares reference before) := by
  cases current with
  | none => trivial
  | some state => exact Program.only_bind (spares_readValue _) fun _ => only_refuse _ _

/-- The operation leaves the directory as it is, whatever its answer. -/
def Operation.Observes : Operation → Prop
  | .now | .sleep _ => True
  | op => op.Reads

theorem observes_wp {p : Call α} (only : p.Only Operation.Observes) (same : w'.disk = w.disk) :
    p.wp anyAnswer (fun _ v => v.disk = w.disk) (fun _ v => v.disk = w.disk) w' := by
  refine only.keeps ?_ same
  intro v op observes same
  refine ⟨trivial, ?_⟩
  rintro r _ ⟨_, d, answers, rfl⟩
  rw [World.after_disk, ← same]
  cases answers <;> first | rfl | exact observes.elim

/-- The directory is left as it is, and an active version is the one of its state. -/
def Shows (w : World) (shown : SecretStatus) (v : World) : Prop :=
  v.disk = w.disk ∧ ∀ version, shown.activeVersion = some version →
    ∃ s, stateOf shown.reference w.disk = some (.ok s) ∧ s.activeVersion = version

/-- A status is of what is in the directory, whatever the operations answer. -/
theorem status_shows (reference : JsValue) (w : World) :
    (status o reference).wp anyAnswer (Shows w) (fun _ v => v.disk = w.disk) w := by
  refine Program.wp_bind.mpr (wp_checked.mpr ⟨fun validated _ => ?_, fun _ _ => rfl⟩)
  have failed (e : SecretFailure) (v : World) (same : v.disk = w.disk) :
      (if e = .store .referenceNotAllowlisted then .throw e else pure (unavailable validated (secretErrorCode e)) :
        Call SecretStatus).wp anyAnswer (Shows w) (fun _ v => v.disk = w.disk) v := by
    split
    · exact same
    · exact ⟨same, nofun⟩
  refine Program.wp_tryCatch.mpr (Program.wp_bind.mpr (wp_readState ?_ (fun code _ => failed _ _ rfl)
    fun e failure => ⟨not_enoent_of_mayFail failure, failed _ _ rfl⟩))
  intro current isCurrent
  cases current with
  | none => exact ⟨rfl, nofun⟩
  | some s =>
    have metadata : (readMetadata o validated s.activeVersion).Only Operation.Observes := only_readMetadata trivial fun _ => trivial
    have value : (readValue o s.activeVersion).Only Operation.Observes := only_readValue trivial trivial fun _ => trivial
    have now : (call .now).Only Operation.Observes := only_call trivial
    refine Program.wp_bind.mpr (Program.wp_mono (observes_wp metadata rfl) (fun _ v same => ?_) failed)
    refine Program.wp_bind.mpr (Program.wp_mono (observes_wp value same) (fun _ v same => ?_) failed)
    refine Program.wp_bind.mpr (Program.wp_mono (observes_wp now same) (fun _ v same => ?_) failed)
    refine ⟨same, ?_⟩
    rintro _ ⟨⟩
    exact ⟨s, isCurrent, rfl⟩

/-! ## The rename -/

/-- The new state is there, under all that was the same. -/
structure Stored (reference : JsString) (before : Disk) (state : ActiveStateFile) (w w' : World) : Prop where
  state : stateOf reference w'.disk = some (parseState (some (stateRecord reference state)) reference)
  value : ∀ s, stateOf reference before = some (.ok s) →
    w'.disk.files (.value s.activeVersion) = w.disk.files (.value s.activeVersion)
  metadata : ∀ s, stateOf reference before = some (.ok s) →
    w'.disk.files (.metadata s.activeVersion) = w.disk.files (.metadata s.activeVersion)
  successes : w'.successes = w.successes

theorem Stored.renamed {state : ActiveStateFile} (same : Same reference before w w') :
    Stored reference before state w (w'.after (.rename (some (stateRecord reference state))) (.ok ())
      (w'.disk.create .state (some (stateRecord reference state)))) := by
  refine ⟨?_, fun s hs => ?_, fun s hs => ?_, same.successes⟩
  · rw [World.after_disk, stateOf, Disk.create_same]
    rfl
  · have apart : Path.value s.activeVersion ≠ .state := by simp
    rw [World.after_disk]
    exact (Disk.create_other _ _ apart).trans (same.value s hs)
  · have apart : Path.metadata s.activeVersion ≠ .state := by simp
    rw [World.after_disk]
    exact (Disk.create_other _ _ apart).trans (same.metadata s hs)

theorem writeAtomic_wp {state : ActiveStateFile} {ok : Unit → World → Prop} {error : SecretFailure → World → Prop}
    (same : Same reference before w w') (failed : ∀ e v, Same reference before w v → error e v)
    (stored : ∀ v, Stored reference before state w v → v.clock = w'.clock → ok () v) :
    (writeAtomic (some (stateRecord reference state))).wp anyAnswer ok error w' := by
  have timed {p : Call Unit} (only : p.Only fun op => op.Spares reference before ∧ op ≠ .now) {v : World}
      (same : Same reference before w v) (clock : v.clock = w'.clock) {ok : Unit → World → Prop}
      (rest : ∀ u, Same reference before w u → u.clock = w'.clock → ok () u) : p.wp anyAnswer ok error v :=
    Program.wp_mono (spares_timed only same) (fun _ u h => rest u h.1 (h.2.trans clock)) fun e u h => failed e u h.1
  have free {step : TemporaryStep} : (call (.temporary step)).Only fun op => op.Spares reference before ∧ op ≠ .now :=
    only_call ⟨spares_free trivial, nofun⟩
  have id : (call .randomUUID).Only fun op => op.Spares reference before ∧ op ≠ .now :=
    only_call ⟨spares_free trivial, nofun⟩
  refine Program.wp_bind.mpr (Program.wp_mono (spares_timed id same) ?_ fun e u h => failed e u h.1)
  rintro _ v ⟨same, clock⟩
  refine Program.wp_bind.mpr (timed free same clock fun v same clock => ?_)
  refine Program.wp_bind.mpr (timed (Program.only_andFinally (Program.only_bind free fun _ => free) free) same clock
    fun v same clock => ?_)
  refine Program.wp_tryCatch.mpr (wp_call.mpr ⟨trivial, ?_⟩)
  rintro r u ⟨_, d, answers, rfl⟩
  cases answers with
  | fails can =>
    refine ⟨nofun, fun e _ => ?_⟩
    exact Program.wp_bind.mpr (wp_ignored.mpr
      (Program.wp_mono (spares_wp (only_call (spares_free trivial)) same)
        (fun _ u same => failed e u same) fun _ u same => failed e u same))
  | renamed => exact ⟨fun _ _ => stored _ (Stored.renamed same) clock, nofun⟩

/-! ## How a mutation ends -/

/-- The active version, the previous one and the deadline for going back to it. -/
def fieldsOf (state : ActiveStateFile) : JsString × Option JsString × Option Int :=
  (state.activeVersion, state.previousVersion, state.rollbackUntil)

/-- What these are in a directory, if its state can be read. -/
def activeState (reference : JsString) (d : Disk) :
    Option (Except SecretErrorCode (JsString × Option JsString × Option Int)) :=
  (stateOf reference d).map (Except.map fieldsOf)

/-- The success that was reported is of a rollback that leaves these as they are. -/
def Idle (o : NormalizedOptions) (reference : JsString) (before : Disk) (a : Audit) : Prop :=
  ∃ s time, stateOf reference before = some (.ok s) ∧ s.previousVersion = some s.activeVersion ∧
    a.event.version = some s.activeVersion ∧ a.clock = some time ∧
    s.rollbackUntil = some (time + (o.rollbackWindowMs : Int))

def SecretMutationAction.audited : SecretMutationAction → SecretAuditAction
  | rotated => .rotate
  | rolledBack => .rollback

/-- The event that reports this result. -/
structure Reports (event : SecretAuditEvent) (result : SecretMutationResult) : Prop where
  success : event.result = .success
  action : event.action = result.action.audited
  reference : event.reference = result.reference
  version : event.version = some result.activeVersion

inductive Outcome (o : NormalizedOptions) (reference : JsString) (before : Disk) :
    Except SecretFailure SecretMutationResult → World → Prop where
  | refused {e : SecretFailure} {w : World} (same : Same reference before (World.start before) w) :
      Outcome o reference before (.error e) w
  | unaudited {e : SecretFailure} {w : World} {state : ActiveStateFile} {a : Audit}
      (stored : stateOf reference w.disk = some (.ok state))
      (value : ∀ s, stateOf reference before = some (.ok s) →
        w.disk.files (.value s.activeVersion) = before.files (.value s.activeVersion))
      (metadata : ∀ s, stateOf reference before = some (.ok s) →
        w.disk.files (.metadata s.activeVersion) = before.files (.metadata s.activeVersion))
      (only : w.successes = [a]) (refused : a.taken = false)
      (exact : activeState reference before = some (.ok (fieldsOf state)) ↔ Idle o reference before a) :
      Outcome o reference before (.error e) w
  | done {result : SecretMutationResult} {w : World}
      (stored : activeState reference w.disk =
        some (.ok (result.activeVersion, result.previousVersion, result.rollbackUntil)))
      (audited : o.audit = true → ∃ a ∈ w.successes, Reports a.event result) (taken : ∀ a ∈ w.successes, a.taken = true) :
      Outcome o reference before (.ok result) w

attribute [local simp] activeState in
theorem Outcome.same {result : Except SecretFailure SecretMutationResult} (h : Outcome o reference before result w)
    (same : Same reference before w w') : Outcome o reference before result w' := by
  have state : stateOf reference w'.disk = stateOf reference w.disk := by rw [stateOf, stateOf, same.state]
  cases h with
  | refused first => exact .refused (first.trans same)
  | unaudited stored value metadata only refused exact =>
    exact .unaudited (state.trans stored) (fun s hs => (same.value s hs).trans (value s hs))
      (fun s hs => (same.metadata s hs).trans (metadata s hs)) (same.successes.trans only) refused exact
  | done stored audited taken =>
    refine .done ?_ ?_ ?_
    · rw [activeState, state]
      exact stored
    · rw [same.successes]
      exact audited
    · rw [same.successes]
      exact taken

/-- What a mutation does once its state is written: it is reported, and with
that the call has succeeded. -/
theorem report_wp {state : ActiveStateFile} {event : SecretAuditEvent} {result : SecretMutationResult}
    {rest : Unit → Call SecretMutationResult} (same : Stored reference before state (World.start before) w)
    (parsed : parseState (some (stateRecord reference state)) reference = .ok state)
    (fields : fieldsOf state = (result.activeVersion, result.previousVersion, result.rollbackUntil))
    (reports : Reports event result)
    (exact : activeState reference before = some (.ok (fieldsOf state)) ↔ Idle o reference before ⟨event, w.clock, false⟩)
    (last : ∀ v, Outcome o reference before (.ok result) v → (rest ()).wp anyAnswer
      (fun r => Outcome o reference before (.ok r)) (fun e => Outcome o reference before (.error e)) v) :
    (audit o event >>= rest).wp anyAnswer (fun r => Outcome o reference before (.ok r))
      (fun e => Outcome o reference before (.error e)) w := by
  have stored := same.state
  rw [parsed] at stored
  have quiet : w.successes = [] := same.successes
  have active : activeState reference w.disk =
      some (.ok (result.activeVersion, result.previousVersion, result.rollbackUntil)) := by
    rw [activeState, stored, ← fields]
    rfl
  have reported (taken : Bool) : World.successes { w with audits := ⟨event, w.clock, taken⟩ :: w.audits } =
      [⟨event, w.clock, taken⟩] := by
    show List.filter _ (_ :: w.audits) = _
    rw [List.filter_cons_of_pos (by simpa using reports.success)]
    show _ :: w.successes = _
    rw [quiet]
  refine Program.wp_bind.mpr (wp_audit ?_ ?_ ?_)
  · intro silent
    refine last _ (.done active ?_ ?_)
    · rw [silent]
      nofun
    · rw [quiet]
      exact List.forall_mem_nil _
  · intro _
    refine last _ (.done active ?_ ?_)
    · rw [reported]
      exact fun _ => ⟨_, List.mem_singleton_self _, reports⟩
    · rw [reported]
      simp
  · intro _
    exact .unaudited stored same.value same.metadata (reported false) rfl exact

/-- A version that is read is a valid one. -/
theorem parseState_valid {contents : Option JsValue} {state : ActiveStateFile}
    (h : parseState contents reference = .ok state) : secretVersionPattern state.activeVersion = true ∧
      ∀ version, state.previousVersion = some version → secretVersionPattern version = true := by
  unfold parseState at h
  split at h
  · split at h
    · rename_i valid
      cases h
      rw [Bool.and_eq_true] at valid
      refine ⟨valid.1, fun version previous => ?_⟩
      have all := valid.2
      rw [previous] at all
      exact all
    · cases h
  · cases h

theorem stateOf_valid {d : Disk} {state : ActiveStateFile} (h : stateOf reference d = some (.ok state)) :
    secretVersionPattern state.activeVersion = true ∧
      ∀ version, state.previousVersion = some version → secretVersionPattern version = true := by
  unfold stateOf at h
  obtain ⟨_, _, parsed⟩ := Option.map_eq_some_iff.mp h
  exact parseState_valid parsed

/-- A rotation never reports the active version, so its report is never idle. -/
theorem rotated_exact {version : JsString} {current : Option ActiveStateFile} {now : Int} {deadline clock : Option Int}
    {correlationId : Option JsString} (isCurrent : stateOf reference before = current.map .ok)
    (apart : current.map ActiveStateFile.activeVersion ≠ some version) :
    activeState reference before = some (.ok (fieldsOf (rotatedState version current now deadline))) ↔
      Idle o reference before ⟨⟨.rotate, .success, reference, correlationId, some version, none⟩, clock, false⟩ := by
  constructor
  · intro same
    rw [activeState, isCurrent] at same
    cases current with
    | none => cases same
    | some s =>
      have active : s.activeVersion = version := congrArg Prod.fst (Except.ok.inj (Option.some.inj same))
      exact absurd (congrArg some active) apart
  · rintro ⟨s, _, there, _, reported, _, _⟩
    rw [isCurrent] at there
    cases current with
    | none => cases there
    | some c =>
      cases there
      exact absurd reported.symm apart

theorem rotateHolding_outcome {host : Host} {candidate : JsString} {expectedVersion correlationId : Option JsString}
    {expiresAt : Int} (same : Same reference before (World.start before) w) :
    (rotateHolding o host reference candidate expectedVersion correlationId expiresAt).wp anyAnswer
      (fun result => Outcome o reference before (.ok result)) (fun e => Outcome o reference before (.error e)) w := by
  have failed (e v) (same : Same reference before (World.start before) v) : Outcome o reference before (.error e) v :=
    .refused same
  have state : stateOf reference w.disk = stateOf reference before := by rw [stateOf, same.state]; rfl
  refine Program.wp_bind.mpr (wp_readState ?_ (fun code _ => failed _ _ same)
    fun e failure => ⟨not_enoent_of_mayFail failure, failed _ _ same⟩)
  intro current isCurrent
  rw [state] at isCurrent
  refine Program.wp_bind.mpr (wp_refuse.mpr ⟨fun _ => ?_, fun _ => failed _ _ same⟩)
  refine spares_bind (spares_checkChanged current candidate) same failed fun _ w same => ?_
  refine spares_bind (only_call (spares_free trivial)) same failed fun now w same => ?_
  refine Program.wp_bind.mpr (wp_toISOString.mpr ⟨fun occurredAt _ => ?_, fun _ => failed _ _ same⟩)
  refine spares_bind (only_call (spares_free trivial)) same failed fun generated w same => ?_
  refine Program.wp_bind.mpr (wp_checked.mpr ⟨fun version valid => ?_, fun _ _ => failed _ _ same⟩)
  refine Program.wp_bind.mpr (wp_refuse.mpr ⟨fun fresh => ?_, fun _ => failed _ _ same⟩)
  have fresh : current.map ActiveStateFile.activeVersion ≠ some version := of_decide_eq_false fresh
  have apart (s) (there : stateOf reference before = some (.ok s)) : s.activeVersion ≠ version := by
    rintro rfl
    rw [isCurrent] at there
    cases current with
    | none => cases there
    | some c =>
      cases there
      exact fresh rfl
  refine spares_bind (only_call (spares_free trivial)) same failed fun _ w same => ?_
  refine spares_bind (only_writeExclusive fun op h => spares_value apart h) same failed fun _ w same => ?_
  refine spares_bind (Program.only_tryCatch (only_writeExclusive fun op h => spares_metadata apart h) fun _ => ?_) same
    failed fun _ w same => ?_
  · exact Program.only_bind (only_ignored (only_call (spares_unlinkValue apart))) fun _ => trivial
  refine spares_bind (only_rotationDeadline current occurredAt) same failed fun rollbackUntil w same => ?_
  refine Program.wp_bind.mpr (writeAtomic_wp same failed fun v stored _ => ?_)
  have reports : Reports ⟨.rotate, .success, reference, correlationId, some version, none⟩
      ⟨reference, .rotated, version, current.map ActiveStateFile.activeVersion, occurredAt, expiresAt, rollbackUntil⟩ :=
    ⟨rfl, rfl, rfl, rfl⟩
  refine report_wp stored ?_ rfl reports (rotated_exact isCurrent fresh) fun v done => ?_
  · refine parseState_stateRecord (assertSecretVersion_eq_ok valid).2 fun previous was => ?_
    obtain ⟨s, rfl, rfl⟩ := Option.map_eq_some_iff.mp was
    exact (stateOf_valid isCurrent).1
  · have prunes : (prune o reference host version (rotatedState version current occurredAt rollbackUntil).previousVersion).Only
        (Operation.Spares reference before) := by
      refine only_prune fun op h => spares_prunes (fun s there => ?_) h
      rw [isCurrent] at there
      obtain ⟨c, rfl, same⟩ := Option.map_eq_some_iff.mp there
      cases same
      exact List.mem_cons_of_mem _ List.mem_cons_self
    refine Program.wp_bind.mpr (wp_ignored.mpr (Program.wp_mono (spares_wp prunes (Same.refl v)) ?_ ?_))
    · exact fun _ u same => done.same same
    · exact fun _ u same => done.same same

/-- A rollback changes nothing exactly when its target is active already and
the deadline is the one there was. -/
theorem rolledBack_exact {s : ActiveStateFile} {target : JsString} {now : Int} {correlationId : Option JsString}
    (there : stateOf reference before = some (.ok s)) (previous : s.previousVersion = some target) :
    activeState reference before =
        some (.ok (fieldsOf ⟨target, some s.activeVersion, some (now + (o.rollbackWindowMs : Int)), now⟩)) ↔
      Idle o reference before ⟨⟨.rollback, .success, reference, correlationId, some target, none⟩, some now, false⟩ := by
  have fields : activeState reference before = some (.ok (fieldsOf s)) := by
    rw [activeState, there]
    rfl
  rw [fields, Option.some.injEq, Except.ok.injEq]
  constructor
  · intro same
    have active : s.activeVersion = target := congrArg Prod.fst same
    have deadline : s.rollbackUntil = some (now + (o.rollbackWindowMs : Int)) := congrArg (fun f => f.2.2) same
    exact ⟨s, now, there, active ▸ previous, congrArg some active.symm, rfl, deadline⟩
  · rintro ⟨c, time, found, _, reported, clock, deadline⟩
    cases there.symm.trans found
    cases clock
    have active : target = s.activeVersion := Option.some.inj reported
    subst active
    rw [fieldsOf, fieldsOf, previous, deadline]

theorem rollbackHolding_outcome {expectedCurrentVersion targetVersion : JsString} {correlationId : Option JsString}
    (target : secretVersionPattern targetVersion = true) (same : Same reference before (World.start before) w) :
    (rollbackHolding o reference expectedCurrentVersion targetVersion correlationId).wp anyAnswer
      (fun result => Outcome o reference before (.ok result)) (fun e => Outcome o reference before (.error e)) w := by
  have failed (e v) (same : Same reference before (World.start before) v) : Outcome o reference before (.error e) v :=
    .refused same
  have state : stateOf reference w.disk = stateOf reference before := by rw [stateOf, same.state]; rfl
  refine Program.wp_bind.mpr (wp_readState ?_ (fun code _ => failed _ _ same)
    fun e failure => ⟨not_enoent_of_mayFail failure, failed _ _ same⟩)
  intro current isCurrent
  rw [state] at isCurrent
  refine Program.wp_bind.mpr (wp_existing.mpr ⟨fun s there => ?_, fun _ => failed _ _ same⟩)
  subst there
  refine Program.wp_bind.mpr (wp_refuse.mpr ⟨fun _ => ?_, fun _ => failed _ _ same⟩)
  refine Program.wp_bind.mpr (wp_refuse.mpr ⟨fun was => ?_, fun _ => failed _ _ same⟩)
  have previous : s.previousVersion = some targetVersion := by simpa using was
  refine Program.wp_bind.mpr (wp_existing.mpr ⟨fun deadline _ => ?_, fun _ => failed _ _ same⟩)
  refine Program.wp_bind.mpr (wp_now (fun shown _ => ?_) fun _ _ => failed _ _ same)
  have same : Same reference before (World.start before) { w with clock := shown } :=
    ⟨same.state, same.value, same.metadata, same.successes⟩
  refine Program.wp_bind.mpr (wp_refuse.mpr ⟨fun _ => ?_, fun _ => failed _ _ same⟩)
  have metadata : (readMetadata o reference targetVersion).Only fun op => op.Spares reference before ∧ op ≠ .now :=
    only_readMetadata ⟨spares_reading trivial, by simp⟩ fun ms => ⟨spares_sleep ms, by simp⟩
  have value : (readValue o targetVersion).Only fun op => op.Spares reference before ∧ op ≠ .now :=
    only_readValue ⟨spares_reading trivial, by simp⟩ ⟨spares_reading trivial, by simp⟩ fun ms => ⟨spares_sleep ms, by simp⟩
  refine Program.wp_bind.mpr (Program.wp_mono (spares_timed metadata same) ?_ fun _ _ h => failed _ _ h.1)
  rintro targetMetadata v ⟨same, clock⟩
  refine Program.wp_bind.mpr (wp_refuse.mpr ⟨fun _ => ?_, fun _ => failed _ _ same⟩)
  refine Program.wp_bind.mpr (Program.wp_mono (spares_timed value same) ?_ fun _ _ h => failed _ _ h.1)
  rintro _ v' ⟨same, clock'⟩
  refine Program.wp_bind.mpr (wp_toISOString.mpr ⟨fun occurredAt isNow => ?_, fun _ => failed _ _ same⟩)
  refine Program.wp_bind.mpr (wp_toISOString.mpr ⟨fun rollbackUntil clipped => ?_, fun _ => failed _ _ same⟩)
  obtain ⟨rfl, _⟩ := timeClip_eq_some clipped
  refine Program.wp_bind.mpr (writeAtomic_wp same failed fun u stored clock'' => ?_)
  have clock : u.clock = some occurredAt := (clock''.trans (clock'.trans clock)).trans isNow
  have reports : Reports ⟨.rollback, .success, reference, correlationId, some targetVersion, none⟩
      ⟨reference, .rolledBack, targetVersion, some s.activeVersion, occurredAt, targetMetadata.expiresAt,
        some (occurredAt + (o.rollbackWindowMs : Int))⟩ := ⟨rfl, rfl, rfl, rfl⟩
  refine report_wp stored ?_ rfl reports ?_ fun v done => done
  · refine parseState_stateRecord target fun version was => ?_
    cases was
    exact (stateOf_valid isCurrent).1
  · rw [clock]
    exact rolledBack_exact isCurrent previous

/-! ## Calls -/

inductive Mutation where
  | rotate (candidate options : JsValue)
  | rollback (options : JsValue)

def Mutation.call (o : NormalizedOptions) (host : Host) (reference : JsString) : Mutation → Call SecretMutationResult
  | rotate candidate options => Secrets.rotate o host (.string reference) candidate options
  | rollback options => Secrets.rollback o (.string reference) options

theorem release_wp {token : JsString} {result : Except SecretFailure SecretMutationResult}
    (h : Outcome o reference before result w) {error : SecretFailure → World → Prop} :
    (release token).wp anyAnswer (fun _ => Outcome o reference before result) error w := by
  have spares : (release token).Only (Operation.Spares reference before) := only_release (fun _ => spares_locking) token
  exact wp_release (Program.wp_mono (spares_wp spares (Same.refl w)) (fun _ _ same => h.same same) fun _ _ => id)

theorem Outcome.otherError {e : SecretFailure} (h : Outcome o reference before (.error e) w) (e' : SecretFailure) :
    Outcome o reference before (.error e') w := by
  cases h with
  | refused same => exact .refused same
  | unaudited stored value metadata only refused exact => exact .unaudited stored value metadata only refused exact

/-- A mutation that holds the lock, and what its failure and its end add. -/
theorem holding_wp {body : Call SecretMutationResult} {failure : SecretFailure → SecretAuditEvent} {token : JsString}
    (ends : body.wp anyAnswer (fun result => Outcome o reference before (.ok result))
      (fun e => Outcome o reference before (.error e)) w)
    (quiet : ∀ e, (failure e).result ≠ .success) :
    (Program.andFinally (body.tryCatch fun error => do
        audit o (failure error)
        rethrow error) (release token)).wp anyAnswer (fun result => Outcome o reference before (.ok result))
      (fun e => Outcome o reference before (.error e)) w := by
  refine Program.wp_andFinally.mpr (Program.wp_tryCatch.mpr (Program.wp_mono ends ?_ ?_))
  · exact fun result v done => release_wp done
  · intro e v ended
    have reported : (audit o (failure e)).Only (Operation.Spares reference before) := only_audit (spares_free (quiet e))
    refine Program.wp_bind.mpr (Program.wp_mono (spares_wp reported (Same.refl v)) ?_ ?_)
    · exact fun _ u same => release_wp ((ended.same same).otherError _)
    · exact fun _ u same => release_wp ((ended.same same).otherError _)

theorem mutation_outcome (o : NormalizedOptions) (host : Host) (reference : JsString) (before : Disk) (mutation : Mutation) :
    (mutation.call o host reference).wp anyAnswer (fun result => Outcome o reference before (.ok result))
      (fun e => Outcome o reference before (.error e)) (World.start before) := by
  have failed (e v) (same : Same reference before (World.start before) v) : Outcome o reference before (.error e) v :=
    .refused same
  have same : Same reference before (World.start before) (World.start before) := Same.refl _
  have locks : (acquireLock o).Only (Operation.Spares reference before) := only_acquireLock fun _ => spares_locking
  have quiet {c : Prop} [Decidable c] : (if c then SecretAuditResult.denied else .failed) ≠ .success := by split <;> nofun
  cases mutation with
  | rotate candidate options =>
    refine Program.wp_bind.mpr (wp_checked.mpr ⟨fun checkedReference valid => ?_, fun _ _ => failed _ _ same⟩)
    obtain rfl := assertSecretReference_string valid
    cases candidate with
    | string candidate =>
      refine spares_bind (only_refuse _ _) same failed fun _ w same => ?_
      refine spares_bind (only_refuse _ _) same failed fun _ w same => ?_
      refine spares_bind (only_refuse _ _) same failed fun _ w same => ?_
      refine spares_bind (only_checked _) same failed fun expectedVersion w same => ?_
      refine spares_bind (only_checked _) same failed fun correlationId w same => ?_
      refine spares_bind (only_expiry (spares_free trivial)) same failed fun expiresAt w same => ?_
      refine spares_bind locks same failed fun token w same => ?_
      exact holding_wp (rotateHolding_outcome same) fun _ => quiet
    | _ => exact failed _ _ same
  | rollback options =>
    refine Program.wp_bind.mpr (wp_checked.mpr ⟨fun checkedReference valid => ?_, fun _ _ => failed _ _ same⟩)
    obtain rfl := assertSecretReference_string valid
    refine spares_bind (only_refuse _ _) same failed fun _ w same => ?_
    refine spares_bind (only_checked _) same failed fun expectedCurrentVersion w same => ?_
    refine Program.wp_bind.mpr (wp_checked.mpr ⟨fun targetVersion target => ?_, fun _ _ => failed _ _ same⟩)
    refine spares_bind (only_checked _) same failed fun correlationId w same => ?_
    refine spares_bind locks same failed fun token w same => ?_
    exact holding_wp (rollbackHolding_outcome (assertSecretVersion_eq_ok target).2 same) fun _ => quiet

end

end GuloGulo.Secrets
