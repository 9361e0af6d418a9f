import GuloGulo.Secrets.VersionedFileStore

/-!
# Calls and the world around them

The disk, what the clock showed last, the events handed to the sink and the
versions that were generated. The rules say what each kind of operation leaves
as it was, for any answer it gets.
-/

namespace GuloGulo.Secrets
open Js Sql

/-- An event with the clock before it, and whether the sink has taken it. -/
structure Audit where
  event : SecretAuditEvent
  clock : Option Int
  taken : Bool
  deriving DecidableEq

structure World where
  disk : Disk
  clock : Option Int
  audits : List Audit
  generated : List JsString

namespace World

def start (d : Disk) : World := ⟨d, none, [], []⟩

def after (w : World) : (op : Operation) → op.Answer → Disk → World
  | .now, .ok time, d => { w with disk := d, clock := time }
  | .audit event, answer, d => { w with disk := d, audits := ⟨event, w.clock, answer.isOk⟩ :: w.audits }
  | .createVersion, .ok (.string version), d => { w with disk := d, generated := version :: w.generated }
  | _, _, d => { w with disk := d }

@[simp] theorem after_disk (w : World) (op : Operation) (r : op.Answer) (d : Disk) : (w.after op r d).disk = d := by
  unfold after
  split <;> rfl

end World

/-- Every answer that the disk allows and `may` does. -/
def answering (faulty : Operation → SecretFailure → Prop) (may : World → (op : Operation) → op.Answer → Prop) :
    Environment Operation.Answer World where
  step w op r w' := may w op r ∧ ∃ d, Answers faulty w.disk op r d ∧ w' = w.after op r d

section
variable {W α β : Type} {env : Environment Operation.Answer W} {ok : α → W → Prop}
  {error : SecretFailure → W → Prop} {w : W}

theorem wp_call {op : Operation} {ok : op.Result → W → Prop} :
    (call op).wp env ok error w ↔ env.may w op ∧ ∀ r w', env.step w op r w' →
      (∀ a, r = .ok a → ok a w') ∧ ∀ e, r = .error e → error e w' := by
  unfold call
  rw [Program.wp_bind, Program.wp_send]
  simp only [Program.wp_lift]

theorem wp_checked {x : Except SecretErrorCode α} :
    (checked x).wp env ok error w ↔ (∀ a, x = .ok a → ok a w) ∧ ∀ code, x = .error code → error (.store code) w := by
  unfold checked
  rw [Program.wp_lift]
  cases x <;> simp

theorem wp_refuse {c : Bool} {code : SecretErrorCode} {ok : Unit → W → Prop} :
    (refuse c code).wp env ok error w ↔ (c = false → ok () w) ∧ (c = true → error (.store code) w) := by
  cases c with
  | false =>
    constructor
    · intro h
      exact ⟨fun _ => h, nofun⟩
    · intro h
      exact h.1 rfl
  | true =>
    constructor
    · intro h
      exact ⟨nofun, fun _ => h⟩
    · intro h
      exact h.2 rfl

theorem wp_toISOString {time : Option Int} {ok : Int → W → Prop} :
    (toISOString time).wp env ok error w ↔ (∀ t, time = some t → ok t w) ∧ (time = none → error .other w) := by
  unfold toISOString
  rw [Program.wp_lift]
  cases time <;> simp

theorem wp_existing {value : Option α} {code : SecretErrorCode} :
    (existing value code).wp env ok error w ↔ (∀ a, value = some a → ok a w) ∧ (value = none → error (.store code) w) := by
  unfold existing
  rw [Program.wp_lift]
  cases value <;> simp

theorem wp_ignored {p : Call Unit} {ok : Unit → W → Prop} :
    (ignored p).wp env ok error w ↔ p.wp env ok (fun _ => ok ()) w := by
  unfold ignored
  rw [Program.wp_tryCatch]
  rfl

theorem wp_whenMissing {p missing : Call α} :
    (whenMissing p missing).wp env ok error w ↔ p.wp env ok
      (fun e w' => (e = .enoent → missing.wp env ok error w') ∧ (e ≠ .enoent → error e w')) w := by
  unfold whenMissing
  rw [Program.wp_tryCatch]
  constructor
  · intro h
    refine Program.wp_mono h (fun _ _ => id) ?_
    intro e w' h
    by_cases same : e = .enoent
    · rw [if_pos same] at h
      exact ⟨fun _ => h, fun ne => absurd same ne⟩
    · rw [if_neg same] at h
      exact ⟨fun eq => absurd eq same, fun _ => h⟩
  · intro h
    refine Program.wp_mono h (fun _ _ => id) ?_
    intro e w' h
    by_cases same : e = .enoent
    · rw [if_pos same]
      exact h.1 same
    · rw [if_neg same]
      exact h.2 same

end

/-! ## What an operation leaves -/

/-- The operation does nothing to the file at this path. -/
def Operation.Leaves (op : Operation) (path : Path) : Prop :=
  match op with
  | .openExclusive other | .unlink other | .write other _ _ => path ≠ other
  | .rename _ => path ≠ .state
  | _ => True

theorem Answers.leaves {faulty : Operation → SecretFailure → Prop} {d d' : Disk} {op : Operation} {r : op.Answer}
    (h : Answers faulty d op r d') {path : Path} (leaves : op.Leaves path) : d'.files path = d.files path := by
  cases h with
  | tears _ found => exact d.write_other _ found leaves
  | opened => exact d.create_other _ leaves
  | written => exact d.write_other _ _ leaves
  | unlinked => exact d.put_other _ leaves
  | renamed => exact d.create_other _ leaves
  | _ => rfl

/-- Only some operations change more than the disk. -/
def Operation.OnDisk : Operation → Prop
  | .now | .createVersion | .audit _ => False
  | _ => True

theorem World.after_onDisk (w : World) {op : Operation} (r : op.Answer) (d : Disk) (h : op.OnDisk) :
    w.after op r d = { w with disk := d } := by
  cases op <;> first | rfl | exact h.elim

/-! ## What reading finds -/

theorem Answers.mono {faulty faulty' : Operation → SecretFailure → Prop} (imp : ∀ op e, faulty op e → faulty' op e)
    {d d' : Disk} {op : Operation} {r : op.Answer} (h : Answers faulty d op r d') : Answers faulty' d op r d' := by
  cases h with
  | fails can => exact .fails (imp _ _ can)
  | tears can found => exact .tears (imp _ _ can) found
  | taken there => exact .taken there
  | noFile absent => exact .noFile absent
  | noLock absent => exact .noLock absent
  | noValue absent => exact .noValue absent
  | gone absent => exact .gone absent
  | _ => constructor <;> assumption

def Operation.Reads : Operation → Prop
  | .readFile _ | .statLock | .statValue _ | .readdir => True
  | _ => False

theorem Answers.reads {faulty : Operation → SecretFailure → Prop} {d d' : Disk} {op : Operation} {r : op.Answer}
    (h : Answers faulty d op r d') (reads : op.Reads) : d' = d := by
  cases h <;> first | rfl | exact reads.elim

theorem Operation.Reads.onDisk {op : Operation} (h : op.Reads) : op.OnDisk := by
  cases op <;> trivial

section
variable {faulty : Operation → SecretFailure → Prop} {may : World → (op : Operation) → op.Answer → Prop}
  {w w' : World}

theorem answering_reads {op : Operation} {r : op.Answer} (step : (answering faulty may).step w op r w') (reads : op.Reads) :
    w' = w ∧ Answers faulty w.disk op r w.disk := by
  obtain ⟨_, d, answers, rfl⟩ := step
  obtain rfl := answers.reads reads
  exact ⟨w.after_onDisk r _ reads.onDisk, answers⟩

theorem Answers.readFile {d d' : Disk} {path : Path} {r : (Operation.readFile path).Answer}
    (h : Answers faulty d (.readFile path) r d') :
    (∃ file, d.files path = some file ∧ r = .ok file.contents) ∨ (d.files path = none ∧ r = .error .enoent) ∨
      ∃ e, faulty (.readFile path) e ∧ r = .error e := by
  cases h with
  | fails can => exact .inr (.inr ⟨_, can, rfl⟩)
  | read there => exact .inl ⟨_, there, rfl⟩
  | noFile absent => exact .inr (.inl ⟨absent, rfl⟩)

theorem answering_sleep {ms : Nat} {r : (Operation.sleep ms).Answer}
    (step : (answering faulty may).step w (.sleep ms) r w') :
    w' = w ∧ (r = .ok () ∨ ∃ e, faulty (.sleep ms) e ∧ r = .error e) := by
  obtain ⟨_, d, answers, rfl⟩ := step
  cases answers with
  | fails can => exact ⟨rfl, .inr ⟨_, can, rfl⟩⟩
  | slept => exact ⟨rfl, .inl rfl⟩

/-- How reading again and again fails. -/
def ReadFails (faulty : Operation → SecretFailure → Prop) (op : Operation) (e : SecretFailure) : Prop :=
  faulty op e ∨ ∃ ms, faulty (.sleep ms) e

/-- Reading again and again answers what reading once may answer, or fails. -/
theorem wp_retry {o : NormalizedOptions} {op : Operation} (reads : op.Reads) {ok : op.Result → World → Prop}
    {error : SecretFailure → World → Prop}
    (answered : ∀ r, Answers faulty w.disk op r w.disk → (∀ a, r = .ok a → ok a w) ∧ ∀ e, r = .error e → error e w)
    (failed : ∀ e, ReadFails faulty op e → error e w) : (retry o (call op)).wp (answering faulty may) ok error w := by
  have attempts (left attempt : Nat) : (retryFrom o (call op) left attempt).wp (answering faulty may) ok error w := by
    induction left generalizing attempt with
    | zero =>
      refine wp_call.mpr ⟨trivial, fun r w' step => ?_⟩
      obtain ⟨rfl, answers⟩ := answering_reads step reads
      exact answered r answers
    | succ left ih =>
      refine Program.wp_tryCatch.mpr (wp_call.mpr ⟨trivial, fun r w' step => ?_⟩)
      obtain ⟨rfl, answers⟩ := answering_reads step reads
      refine ⟨(answered r answers).1, fun e failure => ?_⟩
      by_cases transient : e = .transient
      · rw [if_pos transient]
        refine Program.wp_bind.mpr (wp_call.mpr ⟨trivial, fun r w' step => ?_⟩)
        obtain ⟨rfl, slept | ⟨e, can, failure⟩⟩ := answering_sleep step
        · subst slept
          exact ⟨fun _ _ => ih _, nofun⟩
        · subst failure
          refine ⟨nofun, fun _ same => ?_⟩
          cases same
          exact failed e (.inr ⟨_, can⟩)
      · rw [if_neg transient]
        exact (answered r answers).2 e failure
  exact attempts _ _

theorem wp_retry_readFile {o : NormalizedOptions} {path : Path} {ok : path.Contents → World → Prop}
    {error : SecretFailure → World → Prop} (there : ∀ file, w.disk.files path = some file → ok file.contents w)
    (absent : w.disk.files path = none → error .enoent w)
    (failed : ∀ e, ReadFails faulty (.readFile path) e → error e w) :
    (retry o (call (.readFile path))).wp (answering faulty may) ok error w := by
  have reads : (Operation.readFile path).Reads := trivial
  refine wp_retry reads (fun r answers => ?_) failed
  rcases answers.readFile with ⟨file, found, rfl⟩ | ⟨gone, rfl⟩ | ⟨e, can, rfl⟩
  · refine ⟨fun a same => ?_, nofun⟩
    cases same
    exact there file found
  · refine ⟨nofun, fun e same => ?_⟩
    cases same
    exact absent gone
  · refine ⟨nofun, fun _ same => ?_⟩
    cases same
    exact failed e (.inl can)

/-- What is written can be read. -/
theorem parseState_stateRecord {reference : JsString} {state : ActiveStateFile}
    (active : secretVersionPattern state.activeVersion = true)
    (previous : ∀ version, state.previousVersion = some version → secretVersionPattern version = true) :
    parseState (some (stateRecord reference state)) reference = .ok state := by
  obtain ⟨activeVersion, previousVersion, rollbackUntil, updatedAt⟩ := state
  have fields : stateFields (stateRecord reference ⟨activeVersion, previousVersion, rollbackUntil, updatedAt⟩) reference =
      some ⟨activeVersion, previousVersion, rollbackUntil, updatedAt⟩ := by
    have named : (JsValue.string reference).isString reference = true := beq_self_eq_true reference
    have previous : nullable (previousVersion.elim .null .string) textOf = some previousVersion := by
      cases previousVersion <;> rfl
    have deadline : nullable (rollbackUntil.elim .null fun time => .date (some time)) canonicalTimestamp =
        some rollbackUntil := by
      cases rollbackUntil <;> rfl
    show (guard (true && isSchemaVersion (.number 1) && (JsValue.string reference).isString reference) >>= fun _ =>
      nullable (previousVersion.elim .null .string) textOf >>= fun p =>
      nullable (rollbackUntil.elim .null fun time => .date (some time)) canonicalTimestamp >>= fun r =>
      some (ActiveStateFile.mk activeVersion p r updatedAt)) = _
    rw [named, previous, deadline]
    rfl
  have valid : (previousVersion.all secretVersionPattern) = true := by
    cases previousVersion with
    | none => rfl
    | some version => exact previous version rfl
  simp only [parseState, Option.bind_some, fields, active, valid, Bool.and_self, if_true]

/-- The state that a directory is in. -/
def stateOf (reference : JsString) (d : Disk) : Option (Except SecretErrorCode ActiveStateFile) :=
  (d.files .state).map fun file => parseState file.contents reference

theorem wp_readState {o : NormalizedOptions} {reference : JsString} {ok : Option ActiveStateFile → World → Prop}
    {error : SecretFailure → World → Prop}
    (found : ∀ current, stateOf reference w.disk = current.map .ok → ok current w)
    (invalid : ∀ code, stateOf reference w.disk = some (.error code) → error (.store code) w)
    (failed : ∀ e, ReadFails faulty (.readFile .state) e → e ≠ .enoent ∧ error e w) :
    (readState o reference).wp (answering faulty may) ok error w := by
  refine wp_whenMissing.mpr (Program.wp_bind.mpr (wp_retry_readFile ?_ ?_ ?_))
  · intro file there
    have parsed : stateOf reference w.disk = some (parseState file.contents reference) := by rw [stateOf, there]; rfl
    refine Program.wp_bind.mpr (wp_checked.mpr ⟨fun state h => ?_, fun code h => ?_⟩)
    · rw [h] at parsed
      exact found (some state) parsed
    · rw [h] at parsed
      exact ⟨nofun, fun _ => invalid code parsed⟩
  · intro gone
    have missing : stateOf reference w.disk = none := by rw [stateOf, gone]; rfl
    exact ⟨fun _ => found none missing, fun ne => absurd rfl ne⟩
  · intro e failure
    obtain ⟨ne, holds⟩ := failed e failure
    exact ⟨fun same => absurd same ne, fun _ => holds⟩

theorem wp_now {ok : Option Int → World → Prop} {error : SecretFailure → World → Prop}
    (shown : ∀ time, may w .now (.ok time) → ok time { w with clock := time })
    (failed : ∀ e, faulty .now e → error e w) : (call .now).wp (answering faulty may) ok error w := by
  refine wp_call.mpr ⟨trivial, ?_⟩
  rintro r w' ⟨allowed, d, answers, rfl⟩
  cases answers with
  | fails can =>
    refine ⟨nofun, fun _ same => ?_⟩
    cases same
    exact failed _ can
  | shows time =>
    refine ⟨fun _ same => ?_, nofun⟩
    cases same
    exact shown time allowed

theorem wp_audit {o : NormalizedOptions} {event : SecretAuditEvent} {ok : Unit → World → Prop}
    {error : SecretFailure → World → Prop} (silent : o.audit = false → ok () w)
    (taken : o.audit = true → ok () { w with audits := ⟨event, w.clock, true⟩ :: w.audits })
    (refused : o.audit = true →
      error (.store .auditUnavailable) { w with audits := ⟨event, w.clock, false⟩ :: w.audits }) :
    (audit o event).wp (answering faulty may) ok error w := by
  unfold audit
  by_cases sink : o.audit = true
  · rw [if_pos sink]
    refine Program.wp_tryCatch.mpr (wp_call.mpr ⟨trivial, ?_⟩)
    rintro r w' ⟨_, d, answers, rfl⟩
    cases answers with
    | fails => exact ⟨nofun, fun _ _ => refused sink⟩
    | audited => exact ⟨fun _ _ => taken sink, nofun⟩
  · rw [if_neg sink]
    exact silent (Bool.not_eq_true _ ▸ sink)

end

theorem not_enoent_of_mayFail {op : Operation} {e : SecretFailure} (h : ReadFails Operation.mayFail op e) : e ≠ .enoent := by
  rintro rfl
  rcases h with (h | h | ⟨_, _, h⟩) | ⟨_, h | h | ⟨_, _, h⟩⟩ <;> cases h

/-! ## What a call asks -/

section
variable {P : Operation → Prop} {α β : Type} {o : NormalizedOptions} {reference : JsString}

theorem only_call {op : Operation} (h : P op) : (call op).Only P :=
  Program.only_bind (Program.only_send h) Program.only_lift

theorem only_checked (x : Except SecretErrorCode α) : (checked x).Only P := Program.only_lift _

theorem only_refuse (c : Bool) (code : SecretErrorCode) : (refuse c code).Only P := only_checked _

theorem only_toISOString (time : Option Int) : (toISOString time).Only P := Program.only_lift _

theorem only_ignored {p : Call Unit} (h : p.Only P) : (ignored p).Only P := Program.only_tryCatch h fun _ => trivial

theorem only_whenMissing {p missing : Call α} (h : p.Only P) (hm : missing.Only P) : (whenMissing p missing).Only P := by
  refine Program.only_tryCatch h fun e => ?_
  by_cases same : e = .enoent
  · rw [if_pos same]
    exact hm
  · rw [if_neg same]
    trivial

theorem only_retryFrom {p : Call α} (h : p.Only P) (sleep : ∀ ms, P (.sleep ms)) (left attempt : Nat) :
    (retryFrom o p left attempt).Only P := by
  induction left generalizing attempt with
  | zero => exact h
  | succ left ih =>
    refine Program.only_tryCatch h fun e => ?_
    by_cases same : e = .transient
    · rw [if_pos same]
      exact Program.only_bind (only_call (sleep _)) fun _ => ih _
    · rw [if_neg same]
      trivial

theorem only_retry {p : Call α} (h : p.Only P) (sleep : ∀ ms, P (.sleep ms)) : (retry o p).Only P :=
  only_retryFrom h sleep _ _

theorem only_audit {event : SecretAuditEvent} (h : P (.audit event)) : (audit o event).Only P := by
  unfold audit
  split
  · exact Program.only_tryCatch (only_call h) fun _ => trivial
  · trivial

theorem only_checked_bind {x : Except SecretErrorCode α} {f : α → Call β} (h : ∀ a, x = .ok a → (f a).Only P) :
    (checked x >>= f).Only P := by
  cases x with
  | ok a => exact h a rfl
  | error => trivial

theorem assertSecretVersion_eq_ok {value : JsValue} {version : JsString} (h : assertSecretVersion value = .ok version) :
    value = .string version ∧ secretVersionPattern version := by
  unfold assertSecretVersion at h
  split at h
  · split at h
    · rename_i valid
      cases h
      exact ⟨rfl, valid⟩
    · cases h
  · cases h

theorem assertSecretVersion_string {version v : JsString} (h : assertSecretVersion (.string version) = .ok v) :
    v = version := by
  obtain ⟨same, _⟩ := assertSecretVersion_eq_ok h
  cases same
  rfl

theorem assertSecretReference_string {allowlist : List JsString} {reference' : JsString}
    (h : assertSecretReference (.string reference) allowlist = .ok reference') : reference' = reference := by
  unfold assertSecretReference at h
  dsimp only at h
  split at h
  · cases h
  · split at h
    · cases h
      rfl
    · cases h

theorem only_readMetadata {version : JsString} (read : P (.readFile (.metadata version)))
    (sleep : ∀ ms, P (.sleep ms)) : (readMetadata o reference version).Only P := by
  refine only_whenMissing (only_checked_bind fun v valid => ?_) trivial
  obtain rfl := assertSecretVersion_string valid
  exact Program.only_bind (only_retry (only_call read) sleep) fun _ => only_checked _

theorem only_readValue {version : JsString} (stat : P (.statValue version)) (read : P (.readFile (.value version)))
    (sleep : ∀ ms, P (.sleep ms)) : (readValue o version).Only P := by
  refine only_checked_bind fun v valid => ?_
  obtain rfl := assertSecretVersion_string valid
  refine only_whenMissing (Program.only_bind (only_retry (only_call stat) sleep) fun _ => ?_) trivial
  refine Program.only_bind (only_refuse _ _) fun _ => ?_
  refine Program.only_bind (only_refuse _ _) fun _ => ?_
  refine Program.only_bind (only_refuse _ _) fun _ => ?_
  refine Program.only_bind (only_retry (only_call read) sleep) fun _ => ?_
  refine Program.only_bind (only_refuse _ _) fun _ => ?_
  exact Program.only_bind (only_refuse _ _) fun _ => trivial

/-- What opening a file and writing it asks. -/
def Operation.Writes (path : Path) (contents : path.Contents) (op : Operation) : Prop :=
  op = .openExclusive path ∨ (∃ handle, op = .write path handle contents) ∨ op = .sync path ∨ op = .close path

theorem only_writeOpened {path : Path} {handle : Nat} {contents : path.Contents} (write : P (.write path handle contents))
    (sync : P (.sync path)) (close : P (.close path)) : (writeOpened path handle contents).Only P :=
  Program.only_andFinally (Program.only_bind (only_call write) fun _ => only_call sync) (only_call close)

theorem only_writeExclusive {path : Path} {contents : path.Contents}
    (h : ∀ op : Operation, op.Writes path contents → P op) : (writeExclusive path contents).Only P := by
  have opened (handle : Nat) : (writeOpened path handle contents).Only P :=
    only_writeOpened (h _ (.inr (.inl ⟨handle, rfl⟩))) (h _ (.inr (.inr (.inl rfl)))) (h _ (.inr (.inr (.inr rfl))))
  refine Program.only_bind (Program.only_tryCatch (only_call (h _ (.inl rfl))) fun e => ?_) opened
  by_cases same : e = .eexist
  · rw [if_pos same]
    trivial
  · rw [if_neg same]
    trivial

/-- What acquiring and releasing the lock asks. -/
def Operation.Locking : Operation → Prop
  | .mkdir | .openExclusive .lock | .write .lock _ _ | .sync .lock | .close .lock | .readFile .lock | .statLock
  | .unlink .lock | .now | .randomUUID | .sleep _ => True
  | _ => False

theorem only_removeStale (h : ∀ op : Operation, op.Locking → P op) : (removeStale o).Only P := by
  refine Program.only_bind (only_call (h _ trivial)) fun _ => ?_
  refine Program.only_bind (only_call (h _ trivial)) fun _ => ?_
  split
  · exact Program.only_bind (only_call (h _ trivial)) fun _ => trivial
  · trivial

theorem only_lockAttempt (h : ∀ op : Operation, op.Locking → P op) {attempt : Nat} {last : Bool} {next : Call JsString}
    (hn : next.Only P) : (lockAttempt o attempt last next).Only P := by
  have opened {token : JsString} (handle : Nat) : (writeOpened .lock handle token).Only P :=
    only_writeOpened (h _ trivial) (h _ trivial) (h _ trivial)
  refine Program.only_bind (only_call (h _ trivial)) fun _ => ?_
  refine Program.only_bind (only_toISOString _) fun _ => ?_
  refine Program.only_bind (only_call (h _ trivial)) fun _ => ?_
  refine Program.only_tryCatch ?_ fun e => ?_
  · exact Program.only_bind (only_call (h _ trivial)) fun handle => Program.only_bind (opened handle) fun _ => trivial
  · by_cases taken : e ≠ .eexist
    · rw [if_pos taken]
      trivial
    · rw [if_neg taken]
      refine Program.only_bind (Program.only_tryCatch (only_removeStale h) fun e => ?_) fun again => ?_
      · split <;> trivial
      · split
        · exact hn
        · split
          · trivial
          · exact Program.only_bind (only_call (h _ trivial)) fun _ => hn

theorem only_acquireLock (h : ∀ op : Operation, op.Locking → P op) : (acquireLock o).Only P := by
  refine Program.only_bind (only_call (h _ trivial)) fun _ => ?_
  have attempts (left attempt : Nat) : (acquireFrom o left attempt).Only P := by
    induction left generalizing attempt with
    | zero => exact only_lockAttempt h trivial
    | succ left ih => exact only_lockAttempt h (ih _)
  exact attempts _ _

theorem only_release (h : ∀ op : Operation, op.Locking → P op) (token : JsString) : (release token).Only P := by
  refine only_ignored (Program.only_bind (only_call (h _ trivial)) fun text => ?_)
  split
  · exact only_call (h _ trivial)
  · trivial

/-- A program whose failures are caught never fails. -/
theorem wp_release {W : Type} {env : Environment Operation.Answer W} {token : JsString} {ok : Unit → W → Prop}
    {error error' : SecretFailure → W → Prop} {w : W} (h : (release token).wp env ok error w) :
    (release token).wp env ok error' w :=
  wp_ignored.mpr (wp_ignored.mp h)

theorem only_expiry {host : Host} {expiresAt : JsValue} (now : P .now) : (expiry o host expiresAt).Only P := by
  refine Program.only_bind (only_call now) fun time => ?_
  dsimp only
  split
  · trivial
  · exact Program.only_bind (only_refuse _ _) fun _ => only_toISOString _

theorem only_rotationDeadline (current : Option ActiveStateFile) (occurredAt : Int) :
    (rotationDeadline o current occurredAt).Only P := by
  cases current with
  | none => trivial
  | some state => exact Program.only_bind (only_toISOString _) fun _ => trivial

/-- What pruning asks where these versions are kept. -/
def Operation.Prunes (kept : List JsString) : Operation → Prop
  | .readdir | .readFile (.metadata _) | .sleep _ => True
  | .unlink (.value version) | .unlink (.metadata version) => version ∉ kept
  | _ => False

theorem only_readRecords (read : ∀ version, P (.readFile (.metadata version))) (sleep : ∀ ms, P (.sleep ms))
    (versions : List JsString) : (readRecords o reference versions).Only P := by
  induction versions with
  | nil => trivial
  | cons version versions ih =>
    refine Program.only_bind (Program.only_tryCatch ?_ fun _ => trivial) fun _ => Program.only_bind ih fun _ => trivial
    exact Program.only_bind (only_readMetadata (read _) sleep) fun _ => trivial

theorem only_removeVersions {versions : List JsString}
    (h : ∀ version ∈ versions, P (.unlink (.value version)) ∧ P (.unlink (.metadata version))) :
    (removeVersions versions).Only P := by
  induction versions with
  | nil => trivial
  | cons version versions ih =>
    obtain ⟨value, metadata⟩ := h version List.mem_cons_self
    refine Program.only_bind (only_ignored (only_call value)) fun _ => ?_
    refine Program.only_bind (only_ignored (only_call metadata)) fun _ => ?_
    exact ih fun v mem => h v (List.mem_cons_of_mem _ mem)

theorem only_prune {host : Host} {activeVersion : JsString} {previousVersion : Option JsString}
    (h : ∀ op : Operation, op.Prunes (activeVersion :: previousVersion.toList) → P op) :
    (prune o reference host activeVersion previousVersion).Only P := by
  refine Program.only_bind (only_call (h _ trivial)) fun entries => ?_
  refine Program.only_bind (only_readRecords (fun _ => h _ trivial) (fun _ => h _ trivial) _) fun records => ?_
  refine only_removeVersions fun version mem => ?_
  have apart : version ∉ activeVersion :: previousVersion.toList := by
    have removed := of_decide_eq_true (List.mem_filter.mp mem).2
    exact fun kept => removed (List.mem_append_right _ kept)
  exact ⟨h _ apart, h _ apart⟩

end

end GuloGulo.Secrets
