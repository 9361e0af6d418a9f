import GuloGulo.Js.Sha256
import GuloGulo.Secrets.Mutations

/-!
# What a rejected mutation leaves

A reader is told apart by what `get` may answer. A mutation whose report the
sink takes either changes nothing or is in force; one whose report is refused
is rejected with the new state in force.
-/

namespace GuloGulo.Secrets
open Js Sql

/-! ## What readers see -/

def Gets (o : NormalizedOptions) (reference : JsString) (d : Disk) (options : JsValue)
    (result : Except SecretFailure SecretLease) : Prop :=
  ∃ w, Program.Exec anyAnswer (get o (.string reference) options) (World.start d) result w

/-- Two directories with the same active version and the same files of it. -/
structure Alike (reference : JsString) (d d' : Disk) : Prop where
  state : (stateOf reference d').map (Except.map ActiveStateFile.activeVersion) =
    (stateOf reference d).map (Except.map ActiveStateFile.activeVersion)
  value : ∀ s, stateOf reference d = some (.ok s) → d'.files (.value s.activeVersion) = d.files (.value s.activeVersion)
  metadata : ∀ s, stateOf reference d = some (.ok s) →
    d'.files (.metadata s.activeVersion) = d.files (.metadata s.activeVersion)

section
variable {reference : JsString} {o : NormalizedOptions} {d d' : Disk} {w w' v : World} {α : Type}

theorem Alike.symm (h : Alike reference d d') : Alike reference d' d := by
  have active (s') (there : stateOf reference d' = some (.ok s')) :
      ∃ s, stateOf reference d = some (.ok s) ∧ s.activeVersion = s'.activeVersion := by
    have state := h.state
    rw [there] at state
    cases found : stateOf reference d with
    | none => rw [found] at state; cases state
    | some r =>
      rw [found] at state
      cases r with
      | error => cases state
      | ok s => exact ⟨s, rfl, (Except.ok.inj (Option.some.inj state)).symm⟩
  refine ⟨h.state.symm, fun s' there => ?_, fun s' there => ?_⟩
  · obtain ⟨s, found, same⟩ := active s' there
    rw [← same]
    exact (h.value s found).symm
  · obtain ⟨s, found, same⟩ := active s' there
    rw [← same]
    exact (h.metadata s found).symm

theorem exec_call {op : Operation} {result : op.Answer} :
    Program.Exec anyAnswer (call op) w result w' ↔ anyAnswer.step w op result w' := by
  unfold call
  rw [Program.exec_bind]
  constructor
  · rintro (⟨a, v, sent, lifted⟩ | ⟨e, rfl, sent⟩)
    · obtain ⟨r, step, same⟩ := Program.exec_send.mp sent
      cases same
      obtain ⟨rfl, rfl⟩ := Program.exec_lift.mp lifted
      exact step
    · obtain ⟨_, _, same⟩ := Program.exec_send.mp sent
      cases same
  · intro step
    exact .inl ⟨result, w', Program.exec_send.mpr ⟨_, step, rfl⟩, Program.exec_lift.mpr ⟨rfl, rfl⟩⟩

/-- A way to fail that is open in every world. -/
def FailsAnywhere (p : Call α) (e : SecretFailure) : Prop := ∀ w, Program.Exec anyAnswer p w (.error e) w

theorem step_fails {op : Operation} {e : SecretFailure} (can : op.mayFail e) (w : World) (onDisk : op.OnDisk) :
    anyAnswer.step w op (.error e) w :=
  ⟨trivial, w.disk, .fails can, (w.after_onDisk _ _ onDisk).symm⟩

/-- An answer that the disk gives. -/
def Told (d : Disk) (op : Operation) (r : op.Answer) : Prop := Answers (fun _ _ => False) d op r d

theorem told_or_fails {op : Operation} {r : op.Answer} (reads : op.Reads) (h : Answers Operation.mayFail d op r d') :
    Told d op r ∨ ∃ e, op.mayFail e ∧ r = .error e := by
  cases h with
  | fails can => exact .inr ⟨_, can, rfl⟩
  | read there => exact .inl (.read there)
  | noFile absent => exact .inl (.noFile absent)
  | lockStat there mtimeMs => exact .inl (.lockStat there mtimeMs)
  | noLock absent => exact .inl (.noLock absent)
  | valueStat there => exact .inl (.valueStat there)
  | noValue absent => exact .inl (.noValue absent)
  | listed lists => exact .inl (.listed lists)
  | _ => exact reads.elim

theorem Told.answers {op : Operation} {r : op.Answer} (h : Told d op r) : Answers Operation.mayFail d op r d :=
  Answers.mono (fun _ _ => False.elim) h

theorem error_of_clean {op : Operation} {e : SecretFailure} (reads : op.Reads)
    (h : Answers (fun _ _ => False) d op (.error e) d') : e = .enoent := by
  cases h with
  | fails can => exact can.elim
  | noFile | noLock | noValue => rfl
  | _ => exact reads.elim

/-- Reading again and again: what is there, or a failure that was possible anyway. -/
theorem retry_exec {op : Operation} (reads : op.Reads) {result : op.Answer}
    (run : Program.Exec anyAnswer (retry o (call op)) w result w') :
    w' = w ∧ (Told w.disk op result ∨ ∃ e, result = .error e ∧ e ≠ .enoent ∧ FailsAnywhere (retry o (call op)) e) := by
  have attempts (left attempt : Nat) {w w' : World} {result : op.Answer}
      (run : Program.Exec anyAnswer (retryFrom o (call op) left attempt) w result w') : w' = w ∧
        (Told w.disk op result ∨
          ∃ e, result = .error e ∧ e ≠ .enoent ∧ FailsAnywhere (retryFrom o (call op) left attempt) e) := by
    induction left generalizing attempt w w' result with
    | zero =>
      obtain ⟨rfl, answers⟩ := answering_reads (exec_call.mp run) reads
      refine ⟨rfl, (told_or_fails reads answers).imp_right ?_⟩
      rintro ⟨e, can, rfl⟩
      exact ⟨e, rfl, not_enoent_of_mayFail (.inl can), fun w => exec_call.mpr (step_fails can w reads.onDisk)⟩
    | succ left ih =>
      have again {e : SecretFailure} (can : op.mayFail .transient) (rest : ∀ w, Program.Exec anyAnswer
          (call (.sleep (min 1000 (o.retryBaseMs * Nat.pow 2 attempt))) >>= fun _ =>
            retryFrom o (call op) left (attempt + 1)) w (.error e) w) :
          FailsAnywhere (retryFrom o (call op) (left + 1) attempt) e := by
        intro w
        exact Program.exec_tryCatch.mpr (.inr ⟨.transient, w, exec_call.mpr (step_fails can w reads.onDisk), rest w⟩)
      rcases Program.exec_tryCatch.mp run with ⟨a, rfl, first⟩ | ⟨e, v, first, rest⟩
      · obtain ⟨rfl, answers⟩ := answering_reads (exec_call.mp first) reads
        rcases told_or_fails reads answers with told | ⟨e, _, same⟩
        · exact ⟨rfl, .inl told⟩
        · cases same
      · obtain ⟨rfl, answers⟩ := answering_reads (exec_call.mp first) reads
        by_cases transient : e = .transient
        · subst transient
          rw [if_pos rfl] at rest
          rcases told_or_fails reads answers with told | ⟨_, can, same⟩
          · cases error_of_clean reads told
          cases same
          rcases Program.exec_bind.mp rest with ⟨_, u, slept, later⟩ | ⟨e, rfl, slept⟩
          · obtain ⟨rfl, _⟩ := answering_sleep (exec_call.mp slept)
            obtain ⟨rfl, told | ⟨e, rfl, ne, fails⟩⟩ := ih _ later
            · exact ⟨rfl, .inl told⟩
            · refine ⟨rfl, .inr ⟨e, rfl, ne, again can fun w => ?_⟩⟩
              exact Program.exec_bind.mpr (.inl ⟨(), w, exec_call.mpr ⟨trivial, w.disk, .slept, rfl⟩, fails w⟩)
          · obtain ⟨rfl, same | ⟨_, mayFail, same⟩⟩ := answering_sleep (exec_call.mp slept)
            · cases same
            · cases same
              refine ⟨rfl, .inr ⟨e, rfl, not_enoent_of_mayFail (.inl mayFail), again can fun w => ?_⟩⟩
              exact Program.exec_bind.mpr (.inr ⟨e, rfl, exec_call.mpr (step_fails mayFail w trivial)⟩)
        · rw [if_neg transient] at rest
          obtain ⟨rfl, rfl⟩ := Program.exec_throw.mp rest
          refine ⟨rfl, (told_or_fails reads answers).imp_right ?_⟩
          rintro ⟨_, can, same⟩
          cases same
          refine ⟨e, rfl, not_enoent_of_mayFail (.inl can), fun w => ?_⟩
          refine Program.exec_tryCatch.mpr (.inr ⟨e, w, exec_call.mpr (step_fails can w reads.onDisk), ?_⟩)
          rw [if_neg transient]
          exact .throw
  exact attempts _ _ run

theorem exec_told {op : Operation} {result : op.Answer} (reads : op.Reads) (told : Told w.disk op result)
    (lasting : result ≠ .error .transient) : Program.Exec anyAnswer (retry o (call op)) w result w := by
  have step : Program.Exec anyAnswer (call op) w result w :=
    exec_call.mpr ⟨trivial, w.disk, told.answers, (w.after_onDisk _ _ reads.onDisk).symm⟩
  have attempts (left attempt : Nat) : Program.Exec anyAnswer (retryFrom o (call op) left attempt) w result w := by
    cases left with
    | zero => exact step
    | succ left =>
      refine Program.exec_tryCatch.mpr ?_
      cases result with
      | ok a => exact .inl ⟨a, rfl, step⟩
      | error e =>
        have other : e ≠ .transient := fun same => lasting (congrArg Except.error same)
        refine .inr ⟨e, w, step, ?_⟩
        rw [if_neg other]
        exact .throw
  exact attempts _ _

theorem told_readFile {path : Path} {file : File path} (there : w.disk.files path = some file) :
    Program.Exec anyAnswer (retry o (call (.readFile path))) w (.ok file.contents) w := by
  have reads : (Operation.readFile path).Reads := trivial
  exact exec_told reads (.read there) nofun

/-- What reading the state may answer: the state that is there, or a failure
that was possible anyway. -/
theorem readState_exec {result : Except SecretFailure (Option ActiveStateFile)}
    (run : Program.Exec anyAnswer (readState o reference) w result w') : w' = w ∧
      ((∃ current, stateOf reference w.disk = current.map .ok ∧ result = .ok current) ∨
        (∃ code, stateOf reference w.disk = some (.error code) ∧ result = .error (.store code)) ∨
        ∃ e, result = .error e ∧ FailsAnywhere (readState o reference) e) := by
  have reads : (Operation.readFile .state).Reads := trivial
  have parsed {contents : Option JsValue} (told : Told w.disk (.readFile .state) (.ok contents)) :
      stateOf reference w.disk = some (parseState contents reference) := by
    obtain ⟨file, there, same⟩ | ⟨_, same⟩ | ⟨_, can, _⟩ := Answers.readFile told
    · cases same
      rw [stateOf, there]
      rfl
    · cases same
    · exact can.elim
  have checks {v v' : World} {contents : Option JsValue} {x : Except SecretFailure (Option ActiveStateFile)}
      (later : Program.Exec anyAnswer (checked (parseState contents reference) >>= fun state => pure (some state)) v x v') :
      v' = v ∧ ((∃ state, parseState contents reference = .ok state ∧ x = .ok (some state)) ∨
        ∃ code, parseState contents reference = .error code ∧ x = .error (.store code)) := by
    cases valid : parseState contents reference with
    | ok state =>
      rw [valid] at later
      obtain ⟨rfl, rfl⟩ := Program.exec_pure.mp later
      exact ⟨rfl, .inl ⟨state, rfl, rfl⟩⟩
    | error code =>
      rw [valid] at later
      obtain ⟨rfl, rfl⟩ := Program.exec_throw.mp later
      exact ⟨rfl, .inr ⟨code, rfl, rfl⟩⟩
  rcases Program.exec_tryCatch.mp run with ⟨state, rfl, first⟩ | ⟨e, v, first, rest⟩
  · rcases Program.exec_bind.mp first with ⟨contents, v, read, later⟩ | ⟨_, same, _⟩
    · obtain ⟨rfl, told | ⟨_, same, _⟩⟩ := retry_exec reads read
      · obtain ⟨rfl, ⟨s, valid, same⟩ | ⟨_, _, same⟩⟩ := checks later
        · cases same
          exact ⟨rfl, .inl ⟨some s, (parsed told).trans (congrArg some valid), rfl⟩⟩
        · cases same
      · cases same
    · cases same
  · rcases Program.exec_bind.mp first with ⟨contents, u, read, later⟩ | ⟨_, same, read⟩
    · obtain ⟨rfl, told | ⟨_, same, _⟩⟩ := retry_exec reads read
      · obtain ⟨rfl, ⟨_, _, same⟩ | ⟨code, invalid, same⟩⟩ := checks later
        · cases same
        · cases same
          obtain ⟨rfl, rfl⟩ := Program.exec_throw.mp rest
          exact ⟨rfl, .inr (.inl ⟨code, (parsed told).trans (congrArg some invalid), rfl⟩)⟩
      · cases same
    · cases same
      obtain ⟨rfl, told | ⟨_, same, ne, fails⟩⟩ := retry_exec reads read
      · obtain ⟨_, _, same⟩ | ⟨absent, same⟩ | ⟨_, can, _⟩ := Answers.readFile told
        · cases same
        · cases same
          obtain ⟨rfl, rfl⟩ := Program.exec_pure.mp rest
          refine ⟨rfl, .inl ⟨none, ?_, rfl⟩⟩
          rw [stateOf, absent]
          rfl
        · exact can.elim
      · cases same
        rw [if_neg ne] at rest
        obtain ⟨rfl, rfl⟩ := Program.exec_throw.mp rest
        refine ⟨rfl, .inr (.inr ⟨e, rfl, fun w => ?_⟩)⟩
        refine Program.exec_tryCatch.mpr (.inr ⟨e, w, Program.exec_bind.mpr (.inr ⟨e, rfl, fails w⟩), ?_⟩)
        rw [if_neg ne]
        exact .throw

theorem exec_readState (current : Option ActiveStateFile) (found : stateOf reference w.disk = current.map .ok) :
    Program.Exec anyAnswer (readState o reference) w (.ok current) w := by
  unfold stateOf at found
  refine Program.exec_tryCatch.mpr ?_
  cases file : w.disk.files .state with
  | none =>
    rw [file] at found
    cases current with
    | some => cases found
    | none =>
      have reads : (Operation.readFile .state).Reads := trivial
      have absent : Program.Exec anyAnswer (retry o (call (.readFile .state))) w (.error .enoent) w :=
        exec_told reads (.noFile file) nofun
      exact .inr ⟨.enoent, w, Program.exec_bind.mpr (.inr ⟨_, rfl, absent⟩), .pure⟩
  | some file' =>
    rw [file] at found
    cases current with
    | none => cases found
    | some state =>
      have valid : parseState file'.contents reference = .ok state := Option.some.inj found
      refine .inl ⟨_, rfl, Program.exec_bind.mpr (.inl ⟨_, w, told_readFile file, ?_⟩)⟩
      rw [valid]
      exact .pure

theorem exec_readState_invalid {code : SecretErrorCode} (found : stateOf reference w.disk = some (.error code)) :
    Program.Exec anyAnswer (readState o reference) w (.error (.store code)) w := by
  unfold stateOf at found
  obtain ⟨file, there, invalid⟩ := Option.map_eq_some_iff.mp found
  refine Program.exec_tryCatch.mpr (.inr ⟨.store code, w, Program.exec_bind.mpr (.inl ⟨_, w, told_readFile there, ?_⟩), .throw⟩)
  rw [invalid]
  exact .throw

/-! ## Reading alike directories -/

/-- What a reader asks once it knows which versions to look at. -/
def Operation.Looks (known : JsString → Prop) : Operation → Prop
  | .readFile (.metadata v) | .readFile (.value v) | .statValue v => known v
  | .now | .sleep _ | .audit _ => True
  | _ => False

/-- The files of these versions are the same. -/
def SameVersions (known : JsString → Prop) (d d' : Disk) : Prop :=
  ∀ v, known v → d'.files (.value v) = d.files (.value v) ∧ d'.files (.metadata v) = d.files (.metadata v)

theorem answers_alike {known : JsString → Prop} {op : Operation} {r : op.Answer} {d₁ : Disk} (looks : op.Looks known)
    (same : SameVersions known d d') (h : Answers Operation.mayFail d op r d₁) :
    d₁ = d ∧ Answers Operation.mayFail d' op r d' := by
  cases h with
  | fails can => exact ⟨rfl, .fails can⟩
  | shows time => exact ⟨rfl, .shows time⟩
  | slept => exact ⟨rfl, .slept⟩
  | audited => exact ⟨rfl, .audited⟩
  | read there =>
    refine ⟨rfl, ?_⟩
    rename_i path file
    cases path with
    | value v => exact .read ((same v looks).1.trans there)
    | metadata v => exact .read ((same v looks).2.trans there)
    | _ => exact looks.elim
  | noFile absent =>
    refine ⟨rfl, ?_⟩
    rename_i path
    cases path with
    | value v => exact .noFile ((same v looks).1.trans absent)
    | metadata v => exact .noFile ((same v looks).2.trans absent)
    | _ => exact looks.elim
  | valueStat there => exact ⟨rfl, .valueStat ((same _ looks).1.trans there)⟩
  | noValue absent => exact ⟨rfl, .noValue ((same _ looks).1.trans absent)⟩
  | _ => exact looks.elim

/-- The same world over another directory. -/
def World.on (w : World) (d : Disk) : World := { w with disk := d }

theorem step_alike {known : JsString → Prop} {op : Operation} {r : op.Answer} (looks : op.Looks known)
    (same : SameVersions known d d') (on : w.disk = d) (step : anyAnswer.step w op r w') : w'.disk = d ∧ anyAnswer.step (w.on d') op r (w'.on d') := by
  obtain ⟨_, d₁, answers, rfl⟩ := step
  subst on
  obtain ⟨rfl, answered⟩ := answers_alike looks same answers
  refine ⟨w.after_disk op r w.disk, trivial, d', answered, ?_⟩
  cases op with
  | now => cases r <;> rfl
  | createVersion => exact looks.elim
  | _ => rfl

theorem looks_alike {known : JsString → Prop} {p : Call α} {result : Except SecretFailure α}
    (only : p.Only (Operation.Looks known)) (same : SameVersions known d d') (on : w.disk = d) (run : Program.Exec anyAnswer p w result w') : w'.disk = d ∧ Program.Exec anyAnswer p (w.on d') result (w'.on d') := by
  have alike (w v : World) (op : Operation) (r : op.Answer) (w' : World) (looks : op.Looks known)
      (h : w.disk = d ∧ v = w.on d') (step : anyAnswer.step w op r w') :
      ∃ v', anyAnswer.step v op r v' ∧ w'.disk = d ∧ v' = w'.on d' := by
    obtain ⟨on, rfl⟩ := h
    obtain ⟨still, step⟩ := step_alike looks same on step
    exact ⟨_, step, still, rfl⟩
  obtain ⟨_, run, still, rfl⟩ := Program.Exec.simulate only alike run ⟨on, rfl⟩
  exact ⟨still, run⟩

theorem looks_leaseActive {correlationId : Option JsString} {minimumValidity : Int} {version : JsString} :
    (leaseActive o reference correlationId minimumValidity version).Only (Operation.Looks (· = version)) := by
  refine Program.only_bind (only_readMetadata rfl fun _ => trivial) fun metadata => ?_
  refine Program.only_bind (only_call trivial) fun now => ?_
  refine Program.only_bind (only_refuse _ _) fun _ => ?_
  refine Program.only_bind (only_refuse _ _) fun _ => ?_
  refine Program.only_bind (only_readValue rfl rfl fun _ => trivial) fun value => ?_
  exact Program.only_bind (only_audit trivial) fun _ => trivial

theorem exec_checked_bind {α β : Type} {x : Except SecretErrorCode α} {f : α → Call β} {result : Except SecretFailure β} :
    Program.Exec anyAnswer (checked x >>= f) w result w' ↔
      (∃ a, x = .ok a ∧ Program.Exec anyAnswer (f a) w result w') ∨
        ∃ code, x = .error code ∧ result = .error (.store code) ∧ w' = w := by
  cases x with
  | ok a =>
    constructor
    · exact fun run => .inl ⟨a, rfl, run⟩
    · rintro (⟨_, same, run⟩ | ⟨_, same, _⟩)
      · cases same
        exact run
      · cases same
  | error code =>
    constructor
    · intro run
      obtain ⟨rfl, rfl⟩ := Program.exec_throw.mp run
      exact .inr ⟨code, rfl, rfl, rfl⟩
    · rintro (⟨_, same, _⟩ | ⟨_, same, rfl, rfl⟩)
      · cases same
      · cases same
        exact .throw

theorem Alike.active (h : Alike reference d d') {s : ActiveStateFile} (there : stateOf reference d = some (.ok s)) :
    SameVersions (· = s.activeVersion) d d' := by
  rintro v rfl
  exact ⟨h.value s there, h.metadata s there⟩

/-- Reading the state and going on with the active version. -/
theorem Alike.readState {f : JsString → Call α} {missing : SecretErrorCode} (h : Alike reference d d')
    (only : ∀ version, (f version).Only (Operation.Looks (· = version))) {result : Except SecretFailure α} (on : w.disk = d)
    (run : Program.Exec anyAnswer (do
      let state ← Secrets.readState o reference
      let state ← existing state missing
      f state.activeVersion) w result w') :
    w'.disk = d ∧ Program.Exec anyAnswer (do
      let state ← Secrets.readState o reference
      let state ← existing state missing
      f state.activeVersion) (w.on d') result (w'.on d') := by
  subst on
  have state := h.state
  rcases Program.exec_bind.mp run with ⟨current, v, read, later⟩ | ⟨e, rfl, read⟩
  · obtain ⟨rfl, ⟨found, there, same⟩ | ⟨_, _, same⟩ | ⟨_, same, _⟩⟩ := readState_exec read
    · cases same
      rw [there] at state
      cases current with
      | none =>
        obtain ⟨rfl, rfl⟩ := Program.exec_throw.mp later
        have missing : stateOf reference d' = Option.map .ok (none : Option ActiveStateFile) :=
          Option.map_eq_none_iff.mp state
        exact ⟨rfl, Program.exec_bind.mpr (.inl ⟨none, _, exec_readState none missing, .throw⟩)⟩
      | some s =>
        obtain ⟨r, found, active⟩ := Option.map_eq_some_iff.mp state
        cases r with
        | error => cases active
        | ok s' =>
          have active : s'.activeVersion = s.activeVersion := Except.ok.inj active
          obtain ⟨still, later⟩ := looks_alike (only _) (h.active there) rfl later
          refine ⟨still, Program.exec_bind.mpr (.inl ⟨some s', _, exec_readState (some s') found, ?_⟩)⟩
          rw [← active] at later
          exact later
    · cases same
    · cases same
  · obtain ⟨rfl, ⟨_, _, same⟩ | ⟨code, there, same⟩ | ⟨_, same, fails⟩⟩ := readState_exec read
    · cases same
    · cases same
      rw [there] at state
      obtain ⟨r, found, invalid⟩ := Option.map_eq_some_iff.mp state
      cases r with
      | ok => cases invalid
      | error code' =>
        cases invalid
        exact ⟨rfl, Program.exec_bind.mpr (.inr ⟨_, rfl, exec_readState_invalid found⟩)⟩
    · cases same
      exact ⟨rfl, Program.exec_bind.mpr (.inr ⟨e, rfl, fails _⟩)⟩

/-- Directories that are alike answer `get` alike. -/
theorem Alike.gets (h : Alike reference d d') {options : JsValue} {result : Except SecretFailure SecretLease}
    (gets : Gets o reference d options result) : Gets o reference d' options result := by
  obtain ⟨w', run⟩ := gets
  rcases exec_checked_bind.mp run with ⟨named, valid, checkedRun⟩ | ⟨code, invalid, rfl, rfl⟩
  · obtain rfl := assertSecretReference_string valid
    rcases exec_checked_bind.mp checkedRun with ⟨correlationId, valid', caught⟩ | ⟨code, invalid, rfl, rfl⟩
    · refine ⟨w'.on d', exec_checked_bind.mpr (.inl ⟨_, valid, exec_checked_bind.mpr (.inl ⟨_, valid', ?_⟩)⟩)⟩
      have unseen : SameVersions (fun _ => False) d d' := fun _ => False.elim
      have asked {result : Except SecretFailure SecretLease} {v : World}
          (run : Program.Exec anyAnswer (do
            let minimumValidity ← checked (readMinimumValidity (options.get "minValidityMs"))
            let state ← Secrets.readState o named
            let state ← existing state .secretNotFound
            leaseActive o named correlationId minimumValidity state.activeVersion) (World.start d) result v) :
          v.disk = d ∧ Program.Exec anyAnswer (do
            let minimumValidity ← checked (readMinimumValidity (options.get "minValidityMs"))
            let state ← Secrets.readState o named
            let state ← existing state .secretNotFound
            leaseActive o named correlationId minimumValidity state.activeVersion) (World.start d') result (v.on d') := by
        rcases exec_checked_bind.mp run with ⟨m, valid, run⟩ | ⟨code, invalid, rfl, rfl⟩
        · obtain ⟨still, run⟩ := h.readState (fun _ => looks_leaseActive) rfl run
          exact ⟨still, exec_checked_bind.mpr (.inl ⟨m, valid, run⟩)⟩
        · exact ⟨rfl, exec_checked_bind.mpr (.inr ⟨code, invalid, rfl, rfl⟩)⟩
      refine Program.exec_tryCatch.mpr ?_
      rcases Program.exec_tryCatch.mp caught with ⟨lease, rfl, body⟩ | ⟨e, v, body, handled⟩
      · exact .inl ⟨lease, rfl, (asked body).2⟩
      · obtain ⟨still, body⟩ := asked body
        refine .inr ⟨e, _, body, (looks_alike ?_ unseen still handled).2⟩
        exact Program.only_bind (only_audit trivial) fun _ => trivial
    · exact ⟨_, exec_checked_bind.mpr (.inl ⟨_, valid, exec_checked_bind.mpr (.inr ⟨code, invalid, rfl, rfl⟩)⟩)⟩
  · exact ⟨_, exec_checked_bind.mpr (.inr ⟨code, invalid, rfl, rfl⟩)⟩

theorem Alike.gets_iff (h : Alike reference d d') (options : JsValue) (result : Except SecretFailure SecretLease) :
    Gets o reference d' options result ↔ Gets o reference d options result :=
  ⟨h.symm.gets, h.gets⟩

end

/-! ## All or nothing -/

/-- A call that is rejected has changed nothing, and one that resolves is in
force and has been reported. -/
structure AllOrNothing (o : NormalizedOptions) (reference : JsString) (before : Disk)
    (result : Except SecretFailure SecretMutationResult) (w : World) : Prop where
  rejected : ∀ e, result = .error e → activeState reference w.disk = activeState reference before ∧
    ∀ options lease, Gets o reference w.disk options lease ↔ Gets o reference before options lease
  resolved : ∀ mutated, result = .ok mutated →
    activeState reference w.disk = some (.ok (mutated.activeVersion, mutated.previousVersion, mutated.rollbackUntil)) ∧
      (o.audit = true → ∃ a ∈ w.audits, a.taken = true ∧ Reports a.event mutated)

theorem Same.alike {reference : JsString} {before : Disk} {w : World} (h : Same reference before (World.start before) w) :
    Alike reference before w.disk := by
  refine ⟨?_, h.value, h.metadata⟩
  rw [stateOf, h.state]
  rfl

theorem mem_successes {w : World} {a : Audit} : a ∈ w.successes ↔ a ∈ w.audits ∧ a.event.result = .success := by
  simp [World.successes]

theorem Outcome.allOrNothing_iff {o : NormalizedOptions} {reference : JsString} {before : Disk}
    {result : Except SecretFailure SecretMutationResult} {w : World} (h : Outcome o reference before result w) :
    AllOrNothing o reference before result w ↔
      ∀ a ∈ w.audits, a.event.result = .success → a.taken = false → Idle o reference before a := by
  cases h with
  | refused same =>
    constructor
    · intro _ a mem success _
      have reported := mem_successes.mpr ⟨mem, success⟩
      rw [same.successes] at reported
      cases reported
    · intro _
      refine ⟨fun _ _ => ⟨?_, fun options lease => same.alike.gets_iff options lease⟩, fun _ same => by cases same⟩
      rw [activeState, activeState, stateOf, same.state]
      rfl
  | unaudited stored value metadata only refused exact =>
    rename_i e state a
    have active : activeState reference w.disk = some (.ok (fieldsOf state)) := by
      rw [activeState, stored]
      rfl
    have reported (b : Audit) : b ∈ w.audits ∧ b.event.result = .success ↔ b = a := by
      rw [← mem_successes, only, List.mem_singleton]
    constructor
    · intro atomic b mem success _
      obtain rfl := (reported b).mp ⟨mem, success⟩
      exact exact.mp ((atomic.rejected e rfl).1.symm.trans active)
    · intro idle
      obtain ⟨mem, success⟩ := (reported a).mpr rfl
      have unchanged := exact.mpr (idle a mem success refused)
      refine ⟨fun _ _ => ⟨active.trans unchanged.symm, fun options lease => ?_⟩, fun _ same => by cases same⟩
      refine Alike.gets_iff ⟨?_, value, metadata⟩ options lease
      obtain ⟨r, there, fields⟩ := Option.map_eq_some_iff.mp unchanged
      rw [stored, there]
      cases r with
      | error => cases fields
      | ok s =>
        have active : s.activeVersion = state.activeVersion := congrArg Prod.fst (Except.ok.inj fields)
        show some (Except.ok state.activeVersion) = some (Except.ok s.activeVersion)
        rw [active]
  | done stored audited taken =>
    constructor
    · intro _ a mem success refused
      have was := taken a (mem_successes.mpr ⟨mem, success⟩)
      rw [refused] at was
      cases was
    · intro _
      refine ⟨fun _ same => (by cases same), fun _ same => ?_⟩
      cases same
      refine ⟨stored, fun sink => ?_⟩
      obtain ⟨a, reported, reports⟩ := audited sink
      exact ⟨a, (mem_successes.mp reported).1, taken a reported, reports⟩

theorem all_or_nothing_iff {o : NormalizedOptions} {host : Host} {reference : JsString} {before : Disk}
    {mutation : Mutation} {result : Except SecretFailure SecretMutationResult} {w : World}
    (run : Program.Exec anyAnswer (mutation.call o host reference) (World.start before) result w) :
    AllOrNothing o reference before result w ↔
      ∀ a ∈ w.audits, a.event.result = .success → a.taken = false → Idle o reference before a := by
  obtain ⟨resolved, rejected⟩ := run.ends (mutation_outcome o host reference before mutation)
  cases result with
  | ok mutated => exact (resolved mutated rfl).allOrNothing_iff
  | error e => exact (rejected e rfl).allOrNothing_iff

/-! ## A sink that refuses -/

/-- A clock that stands still, a sink that takes every event or none, and what
is drawn for one call. -/
structure Replies where
  sink : Bool
  time : Int
  version : String
  id : String

/-- The answers of a disk that never fails but to list. -/
def replyOn (replies : Replies) (d : Disk) : (op : Operation) → op.Answer × Disk
  | .mkdir => (.ok (), d)
  | .openExclusive path =>
    match d.files path with
    | none => (.ok d.opened, d.create path path.empty)
    | some _ => (.error .eexist, d)
  | .write path handle contents => (.ok (), d.write path handle contents)
  | .sync _ | .close _ => (.ok (), d)
  | .readFile path =>
    match d.files path with
    | none => (.error .enoent, d)
    | some file => (.ok file.contents, d)
  | .statLock =>
    match d.files .lock with
    | none => (.error .enoent, d)
    | some _ => (.ok 0, d)
  | .statValue version =>
    match d.files (.value version) with
    | none => (.error .enoent, d)
    | some file => (.ok ⟨file.isFile, file.contents.length⟩, d)
  | .unlink path =>
    match d.files path with
    | none => (.error .enoent, d)
    | some _ => (.ok (), d.put path none)
  | .temporary _ => (.ok (), d)
  | .rename contents => (.ok (), d.create .state contents)
  | .readdir => (.error .other, d)
  | .now => (.ok (some replies.time), d)
  | .sleep _ => (.ok (), d)
  | .createVersion => (.ok (.string (js replies.version)), d)
  | .randomUUID => (.ok (js replies.id), d)
  | .audit _ => (if replies.sink then .ok () else .error .other, d)

theorem replyOn_answers (replies : Replies) (d : Disk) (op : Operation) :
    Answers Operation.mayFail d op (replyOn replies d op).1 (replyOn replies d op).2 := by
  cases op with
  | mkdir => exact .made
  | openExclusive path =>
    simp only [replyOn]
    split
    · exact .opened ‹_›
    · exact .taken ‹_›
  | write => exact .written
  | sync => exact .synced
  | close => exact .closed
  | readFile path =>
    simp only [replyOn]
    split
    · exact .noFile ‹_›
    · exact .read ‹_›
  | statLock =>
    simp only [replyOn]
    split
    · exact .noLock ‹_›
    · exact .lockStat ‹_› 0
  | statValue version =>
    simp only [replyOn]
    split
    · exact .noValue ‹_›
    · exact .valueStat ‹_›
  | unlink path =>
    simp only [replyOn]
    split
    · exact .gone ‹_›
    · exact .unlinked ‹_›
  | temporary => exact .temporary
  | rename => exact .renamed
  | readdir => exact .fails (.inr (.inl rfl))
  | now => exact .shows _
  | sleep => exact .slept
  | createVersion => exact .generated _
  | randomUUID => exact .drawn _
  | audit event =>
    obtain ⟨sink, _⟩ := replies
    cases sink with
    | true => exact .audited
    | false => exact .fails (.inr (.inl rfl))

def reply (replies : Replies) (w : World) (op : Operation) : op.Answer × World :=
  ((replyOn replies w.disk op).1, w.after op (replyOn replies w.disk op).1 (replyOn replies w.disk op).2)

def emptyDisk : Disk := ⟨fun _ => none, 0⟩

def tokenOptions : NormalizedOptions :=
  { allowlist := [js "token"], audit := true, readRetryAttempts := 0, lockRetryAttempts := 0, retryBaseMs := 25,
    lockStaleMs := 30000, defaultTtlMs := 60000, maximumTtlMs := 60000, rollbackWindowMs := 60000,
    maximumSecretBytes := 64, retainedVersions := 2 }

def firstRotation : Call SecretMutationResult :=
  (Mutation.rotate (.string (js "secret")) (.object [(js "expectedVersion", .null)])).call tokenOptions asciiHost (js "token")

/-- The first rotation, to a sink that takes every event or none. -/
def rotated (sink : Bool) : Except SecretFailure SecretMutationResult × World :=
  firstRotation.play (reply ⟨sink, 0, "v1", "0"⟩) (World.start emptyDisk)

theorem rotated_exec (sink : Bool) :
    Program.Exec anyAnswer firstRotation (World.start emptyDisk) (rotated sink).1 (rotated sink).2 := by
  have sound (w : World) (op : Operation) (_ : True) :
      anyAnswer.step w op (reply ⟨sink, 0, "v1", "0"⟩ w op).1 (reply ⟨sink, 0, "v1", "0"⟩ w op).2 ∧ True :=
    ⟨⟨trivial, _, replyOn_answers _ w.disk op, rfl⟩, trivial⟩
  exact Program.exec_play sound firstRotation trivial

/-- The sink refuses the report: the call is rejected with the new secret in force. -/
theorem rejected_in_force :
    Program.Exec anyAnswer firstRotation (World.start emptyDisk) (.error (.store .auditUnavailable)) (rotated false).2 ∧
      activeState (js "token") emptyDisk = none ∧
      activeState (js "token") (rotated false).2.disk = some (.ok (js "v1", none, none)) ∧
      ¬ AllOrNothing tokenOptions (js "token") emptyDisk (.error (.store .auditUnavailable)) (rotated false).2 := by
  have ended : (rotated false).1 = .error (.store .auditUnavailable) := by decide
  have inForce : activeState (js "token") (rotated false).2.disk = some (.ok (js "v1", none, none)) := by decide
  have run := rotated_exec false
  rw [ended] at run
  refine ⟨run, rfl, inForce, fun atomic => ?_⟩
  have unchanged := (atomic.rejected _ rfl).1
  rw [inForce] at unchanged
  cases unchanged

theorem all_or_nothing_iff_taken :
    ∃ mutated, (rotated true).1 = .ok mutated ∧
      AllOrNothing tokenOptions (js "token") emptyDisk (rotated true).1 (rotated true).2 := by
  have ended : (rotated true).1 =
      .ok ⟨js "token", .rotated, js "v1", none, 0, 60000, none⟩ := by decide
  have audits : (rotated true).2.audits =
      [⟨⟨.rotate, .success, js "token", none, some (js "v1"), none⟩, some 0, true⟩] := by decide
  refine ⟨_, ended, (all_or_nothing_iff (rotated_exec true)).mpr ?_⟩
  rw [audits]
  intro a mem _ refused
  obtain rfl := List.mem_singleton.mp mem
  cases refused

end GuloGulo.Secrets
