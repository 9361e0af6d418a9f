import GuloGulo.Data.Machine
import GuloGulo.Secrets.Swap

/-!
# Rotations of many processes

Any number of calls on one reference, each in a process of its own, ask the
file system in any order; any of them may crash or be late. Who made the lock
file and who has not removed it since is kept beside the files.
-/

namespace GuloGulo.Secrets
open Js Data Sql

/-- A call with the options of its process. -/
structure Process where
  options : NormalizedOptions
  host : Host
  mutation : Mutation

inductive CallStatus where
  | idle
  | running (program : Call SecretMutationResult)
  | ended (result : Except SecretFailure SecretMutationResult)
  | crashed

def CallStatus.over : CallStatus → Bool
  | ended _ | crashed => true
  | _ => false

/-- A rename of `active.json`, with what was there before. -/
structure Commit (ι : Type) where
  call : ι
  before : Option (Option JsValue)
  after : Option JsValue

structure Rotations (ι : Type) where
  disk : Disk
  status : ι → CallStatus
  /-- Who made the lock file that is there. -/
  owner : Option ι
  /-- Who has made a lock file and not removed one since. -/
  holds : ι → Bool
  commits : List (Commit ι)

inductive RotationEvent (ι : Type) where
  | starts (call : ι)
  | asks (call : ι) (op : Operation) (answered : Bool)
  | ends (call : ι) (result : Except SecretFailure SecretMutationResult)
  | crashes (call : ι)

def Disk.contentsOf (d : Disk) (path : Path) : Option path.Contents := (d.files path).map File.contents

section
variable {ι : Type} [DecidableEq ι]

/-- What an answer means for the lock and for the states written. -/
def Rotations.answered (s : Rotations ι) (i : ι) : (op : Operation) → op.Answer → Disk → Rotations ι
  | .openExclusive .lock, .ok _, d => { s with disk := d, owner := some i, holds := Function.update s.holds i true }
  | .unlink .lock, .ok _, d => { s with disk := d, owner := none, holds := Function.update s.holds i false }
  | .rename after, .ok _, d =>
    { s with disk := d, commits := ⟨i, s.disk.contentsOf .state, after⟩ :: s.commits }
  | _, _, d => { s with disk := d }

def Rotations.runs (s : Rotations ι) (i : ι) (status : CallStatus) : Rotations ι :=
  { s with status := Function.update s.status i status }

variable (reference : JsString) (processes : ι → Process)

def callOf (i : ι) : Call SecretMutationResult :=
  (processes i).mutation.call (processes i).options (processes i).host reference

inductive RotationStep : Rotations ι → RotationEvent ι → Rotations ι → Prop where
  | starts {s : Rotations ι} {i : ι} (idle : s.status i = .idle) :
      RotationStep s (.starts i) (s.runs i (.running (callOf reference processes i)))
  | asks {s : Rotations ι} {i : ι} {op : Operation} {next : op.Answer → Call SecretMutationResult} {r : op.Answer}
      {d : Disk} (running : s.status i = .running (.query op next)) (answers : Answers Operation.mayFail s.disk op r d) :
      RotationStep s (.asks i op r.isOk) ((s.answered i op r d).runs i (.running (next r)))
  | resolves {s : Rotations ι} {i : ι} {result : SecretMutationResult} (running : s.status i = .running (.pure result)) :
      RotationStep s (.ends i (.ok result)) (s.runs i (.ended (.ok result)))
  | rejects {s : Rotations ι} {i : ι} {e : SecretFailure} (running : s.status i = .running (.throw e)) :
      RotationStep s (.ends i (.error e)) (s.runs i (.ended (.error e)))
  | crashes {s : Rotations ι} {i : ι} {program : Call SecretMutationResult} (running : s.status i = .running program) :
      RotationStep s (.crashes i) (s.runs i .crashed)

/-- It starts with a directory that has no files. -/
def Rotations.initial : Rotations ι := ⟨⟨fun _ => none, 0⟩, fun _ => .idle, none, fun _ => false, []⟩

def rotations : Machine (Rotations ι) (RotationEvent ι) :=
  ⟨fun s => s = Rotations.initial, RotationStep reference processes⟩

/-- A lock is only taken over from a call that is over. -/
def TakesFromOver (s : Rotations ι) : RotationEvent ι → Prop
  | .asks i (.unlink .lock) true => s.holds i = false → ∀ j, s.owner = some j → (s.status j).over = true
  | _ => True

/-! ## What a call knows among others -/

/-- A call that runs knows this, and it is so. -/
structure Link (s : Rotations ι) (i : ι) (k : Knowledge) : Prop where
  holding : k.holding = s.holds i
  reading : ∀ b, k.read = some b → k.holding = true ∧ s.disk.contentsOf .state = b
  committed : k.committed = true ↔ ∃ c ∈ s.commits, c.call = i

/-- The states written, the latest first, from the one that is there. -/
def Chained {ι : Type} : Option (Option JsValue) → List (Commit ι) → Prop
  | now, [] => now = none
  | now, c :: commits => now = some c.after ∧ Chained c.before commits

/-- What holds of the states written. -/
structure History (now : Option (Option JsValue)) (commits : List (Commit ι)) : Prop where
  once : (commits.map Commit.call).Nodup
  chained : Chained now commits
  follows : ∀ c ∈ commits, ∃ expected, (processes c.call).mutation.Expects expected ∧
    Follows reference c.before expected c.after
  moves : ∀ c ∈ commits, ∃ v, IsActive reference (some c.after) (some v) ∧ ¬ IsActive reference c.before (some v)
  apart : ∀ c r, now = some c → parseState c reference = .ok r → r.previousVersion ≠ some r.activeVersion

structure Kept (s : Rotations ι) : Prop where
  knows : ∀ i p, s.status i = .running p → ∃ k, Link s i k ∧
    p.wp (knowing reference (processes i).mutation) (fun _ k => k.committed = true) (fun _ _ => True) k
  fresh : ∀ i, s.status i = .idle → s.holds i = false ∧ ∀ c ∈ s.commits, c.call ≠ i
  owned : ∀ i, s.holds i = true → (s.status i).over = false → s.owner = some i ∧ s.disk.files .lock ≠ none
  ended : ∀ i result, s.status i = .ended (.ok result) → ∃ c ∈ s.commits, c.call = i
  history : History reference processes (s.disk.contentsOf .state) s.commits

section
variable {reference : JsString} {processes : ι → Process} {s : Rotations ι} {i j : ι}

omit [DecidableEq ι] in
theorem initial_kept : Kept reference processes (Rotations.initial : Rotations ι) where
  knows := nofun
  fresh := fun _ _ => ⟨rfl, List.forall_mem_nil _⟩
  owned := nofun
  ended := nofun
  history := ⟨List.nodup_nil, rfl, List.forall_mem_nil _, List.forall_mem_nil _, nofun⟩

theorem Disk.write_there {d : Disk} {path other : Path} {handle : Nat} {contents : path.Contents}
    (there : d.files other ≠ none) : (d.write path handle contents).files other ≠ none := by
  unfold Disk.write
  cases found : d.files path with
  | none => exact there
  | some file =>
    dsimp only
    split
    · by_cases same : other = path
      · subst same
        rw [Disk.put_same]
        nofun
      · rw [Disk.put_other _ _ same]
        exact there
    · exact there

/-- A lock file stays until it is unlinked. -/
theorem Answers.lock_there {faulty : Operation → SecretFailure → Prop} {d d' : Disk} {op : Operation} {r : op.Answer}
    (h : Answers faulty d op r d') (there : d.files .lock ≠ none) :
    op = .unlink .lock ∧ r.isOk = true ∨ d'.files .lock ≠ none := by
  cases h with
  | tears _ found => exact .inr (Disk.write_there there)
  | written => exact .inr (Disk.write_there there)
  | opened absent =>
    rename_i path
    have other : Path.lock ≠ path := by
      rintro rfl
      exact there absent
    rw [Disk.create_other _ _ other]
    exact .inr there
  | unlinked =>
    rename_i path _ _
    by_cases same : path = .lock
    · subst same
      exact .inl ⟨rfl, rfl⟩
    · have other : Path.lock ≠ path := fun h => same h.symm
      rw [Disk.put_other _ _ other]
      exact .inr there
  | renamed =>
    have other : Path.lock ≠ .state := nofun
    rw [Disk.create_other _ _ other]
    exact .inr there
  | _ => exact .inr there

@[simp] theorem runs_same (s : Rotations ι) (i : ι) (status : CallStatus) : (s.runs i status).status i = status :=
  Function.update_self ..

theorem runs_other (s : Rotations ι) {i j : ι} (status : CallStatus) (h : j ≠ i) :
    (s.runs i status).status j = s.status j :=
  Function.update_of_ne h ..

omit [DecidableEq ι] in
theorem Link.congr {s' : Rotations ι} {k : Knowledge} (h : Link s i k) (holds : s'.holds i = s.holds i)
    (state : s'.disk.contentsOf .state = s.disk.contentsOf .state) (commits : s'.commits = s.commits) : Link s' i k :=
  ⟨h.holding.trans holds.symm, fun b read => ⟨(h.reading b read).1, state.trans (h.reading b read).2⟩, by
    rw [commits]
    exact h.committed⟩

omit [DecidableEq ι] in
/-- No other call that runs holds the lock. -/
theorem Kept.alone (kept : Kept reference processes s) (holds : s.holds i = true) (live : (s.status i).over = false)
    (other : j ≠ i) (liveJ : (s.status j).over = false) : s.holds j = false := by
  by_contra held
  have ownerJ := (kept.owned j (by simpa using held) liveJ).1
  have ownerI := (kept.owned i holds live).1
  exact other (Option.some.inj (ownerJ.symm.trans ownerI))

/-- What a step of the call leaves of the others. -/
structure Steps (reference : JsString) (processes : ι → Process) (s t : Rotations ι) (i : ι)
    (next : Call SecretMutationResult) : Prop where
  status : t.status = Function.update s.status i (.running next)
  holds : ∀ j, j ≠ i → t.holds j = s.holds j
  knows : ∃ k, Link t i k ∧ next.wp (knowing reference (processes i).mutation) (fun _ k => k.committed = true)
    (fun _ _ => True) k

theorem Steps.over {t : Rotations ι} {p next : Call SecretMutationResult} (steps : Steps reference processes s t i next)
    (running : s.status i = .running p) (j : ι) : (t.status j).over = (s.status j).over := by
  rw [steps.status]
  by_cases same : j = i
  · subst same
    rw [Function.update_self, running]
    rfl
  · rw [Function.update_of_ne same]

theorem Steps.idle {t : Rotations ι} {next : Call SecretMutationResult} (steps : Steps reference processes s t i next)
    (idle : t.status j = .idle) : j ≠ i ∧ s.status j = .idle := by
  rw [steps.status] at idle
  by_cases same : j = i
  · subst same
    rw [Function.update_self] at idle
    cases idle
  · rw [Function.update_of_ne same] at idle
    exact ⟨same, idle⟩

theorem Steps.ended {t : Rotations ι} {next : Call SecretMutationResult} {result : SecretMutationResult}
    (steps : Steps reference processes s t i next) (ended : t.status j = .ended (.ok result)) :
    s.status j = .ended (.ok result) := by
  rw [steps.status] at ended
  by_cases same : j = i
  · subst same
    rw [Function.update_self] at ended
    cases ended
  · rwa [Function.update_of_ne same] at ended

theorem Steps.knows_all {t : Rotations ι} {next : Call SecretMutationResult} (steps : Steps reference processes s t i next)
    (others : ∀ j q k, j ≠ i → s.status j = .running q → Link s j k → Link t j k)
    (kept : Kept reference processes s) (j : ι) (q : Call SecretMutationResult) (running : t.status j = .running q) :
    ∃ k, Link t j k ∧ q.wp (knowing reference (processes j).mutation) (fun _ k => k.committed = true)
      (fun _ _ => True) k := by
  rw [steps.status] at running
  by_cases same : j = i
  · subst same
    rw [Function.update_self] at running
    cases running
    exact steps.knows
  · rw [Function.update_of_ne same] at running
    obtain ⟨k, link, wp⟩ := kept.knows j q running
    exact ⟨k, others j q k same running link, wp⟩

/-- A step that changes no lock and no state. -/
theorem Kept.quiet (kept : Kept reference processes s) {t : Rotations ι} {p next : Call SecretMutationResult}
    (steps : Steps reference processes s t i next) (running : s.status i = .running p) (holds : t.holds = s.holds)
    (owner : t.owner = s.owner) (commits : t.commits = s.commits)
    (state : t.disk.contentsOf .state = s.disk.contentsOf .state)
    (lock : s.disk.files .lock ≠ none → t.disk.files .lock ≠ none) : Kept reference processes t where
  knows := steps.knows_all (fun j _ _ _ _ link => link.congr (by rw [holds]) state commits) kept
  fresh j idle := by
    rw [holds, commits]
    exact kept.fresh j (steps.idle idle).2
  owned j held live := by
    rw [holds] at held
    rw [steps.over running] at live
    rw [owner]
    exact ⟨(kept.owned j held live).1, lock (kept.owned j held live).2⟩
  ended j result ended := by
    rw [commits]
    exact kept.ended j result (steps.ended ended)
  history := by
    rw [state, commits]
    exact kept.history

/-- The lock file is made where there is none. -/
theorem Kept.opens (kept : Kept reference processes s) {t : Rotations ι} {p next : Call SecretMutationResult}
    (steps : Steps reference processes s t i next) (running : s.status i = .running p)
    (absent : s.disk.files .lock = none) (there : t.disk.files .lock ≠ none) (owner : t.owner = some i)
    (commits : t.commits = s.commits) (state : t.disk.contentsOf .state = s.disk.contentsOf .state) :
    Kept reference processes t where
  knows := steps.knows_all (fun j _ _ other _ link => link.congr (steps.holds j other) state commits) kept
  fresh j idle := by
    rw [steps.holds j (steps.idle idle).1, commits]
    exact kept.fresh j (steps.idle idle).2
  owned j held live := by
    by_cases same : j = i
    · subst same
      exact ⟨owner, there⟩
    · rw [steps.holds j same] at held
      rw [steps.over running] at live
      exact absurd absent (kept.owned j held live).2
  ended j result ended := by
    rw [commits]
    exact kept.ended j result (steps.ended ended)
  history := by
    rw [state, commits]
    exact kept.history

/-- The lock file is removed by its holder, or from a call that is over. -/
theorem Kept.unlinks (kept : Kept reference processes s) {t : Rotations ι} {p next : Call SecretMutationResult}
    (steps : Steps reference processes s t i next) (running : s.status i = .running p)
    (isOver : s.holds i = false → ∀ j, s.owner = some j → (s.status j).over = true) (released : t.holds i = false)
    (commits : t.commits = s.commits) (state : t.disk.contentsOf .state = s.disk.contentsOf .state) :
    Kept reference processes t where
  knows := steps.knows_all (fun j _ _ other _ link => link.congr (steps.holds j other) state commits) kept
  fresh j idle := by
    rw [steps.holds j (steps.idle idle).1, commits]
    exact kept.fresh j (steps.idle idle).2
  owned j held live := by
    have other : j ≠ i := by
      rintro rfl
      rw [released] at held
      cases held
    rw [steps.holds j other] at held
    rw [steps.over running] at live
    have owner := (kept.owned j held live).1
    cases mine : s.holds i with
    | false =>
      rw [isOver mine j owner] at live
      cases live
    | true =>
      have liveI : (s.status i).over = false := by rw [running]; rfl
      rw [kept.alone mine liveI other live] at held
      cases held
  ended j result ended := by
    rw [commits]
    exact kept.ended j result (steps.ended ended)
  history := by
    rw [state, commits]
    exact kept.history

omit [DecidableEq ι] in
/-- A state that follows what is there makes another version active. -/
theorem History.written {now : Option (Option JsValue)} {commits : List (Commit ι)}
    (history : History reference processes now commits) {expected : Option JsString} {after : Option JsValue}
    (new : ∀ c ∈ commits, c.call ≠ i) (expects : (processes i).mutation.Expects expected)
    (follows : Follows reference now expected after) :
    History reference processes (some after) (⟨i, now, after⟩ :: commits) := by
  obtain ⟨r, parsed, previous, changes⟩ := follows.next
  have changed : some r.activeVersion ≠ expected := by
    rcases changes with differs | ⟨c, q, there, valid, back⟩
    · exact differs
    · intro same
      have active := follows.active
      rw [there] at active
      have isActive : (parseState c reference).map ActiveStateFile.activeVersion = .ok r.activeVersion := by
        rw [← same] at active
        exact Option.some.inj active
      rw [valid] at isActive
      have same : q.activeVersion = r.activeVersion := Except.ok.inj isActive
      exact history.apart c q there valid (same ▸ back)
  have active : IsActive reference (some after) (some r.activeVersion) := by
    show some ((parseState after reference).map _) = _
    rw [parsed]
    rfl
  refine ⟨?_, ⟨rfl, history.chained⟩, ?_, ?_, ?_⟩
  · refine List.nodup_cons.mpr ⟨fun mem => ?_, history.once⟩
    obtain ⟨c, there, same⟩ := List.mem_map.mp mem
    exact new c there same
  · exact List.forall_mem_cons.mpr ⟨⟨expected, expects, follows⟩, history.follows⟩
  · refine List.forall_mem_cons.mpr ⟨⟨r.activeVersion, active, fun was => ?_⟩, history.moves⟩
    have both := follows.active.symm.trans was
    cases expected with
    | none => cases both
    | some v => exact changed (congrArg some (Except.ok.inj (Option.some.inj both)).symm)
  · intro c q there valid
    cases there
    cases parsed.symm.trans valid
    rw [previous]
    exact fun same => changed same.symm

/-- A new state is renamed onto the one its call has read. -/
theorem Kept.renames (kept : Kept reference processes s) {t : Rotations ι} {p next : Call SecretMutationResult}
    {after : Option JsValue} (steps : Steps reference processes s t i next) (running : s.status i = .running p) {k : Knowledge}
    (link : Link s i k) (allowed : k.Allows reference (processes i).mutation (.rename after)) (holds : t.holds = s.holds)
    (owner : t.owner = s.owner) (commits : t.commits = ⟨i, s.disk.contentsOf .state, after⟩ :: s.commits)
    (state : t.disk.contentsOf .state = some after) (lock : s.disk.files .lock ≠ none → t.disk.files .lock ≠ none) :
    Kept reference processes t := by
  obtain ⟨holding, uncommitted, before, expected, read, expects, follows⟩ := allowed
  have held : s.holds i = true := link.holding.symm.trans holding
  have live : (s.status i).over = false := by rw [running]; rfl
  obtain ⟨_, rfl⟩ := link.reading before read
  have new : ∀ c ∈ s.commits, c.call ≠ i := by
    intro c mem same
    have was := link.committed.mpr ⟨c, mem, same⟩
    rw [uncommitted] at was
    cases was
  refine ⟨steps.knows_all ?_ kept, fun j idle => ?_, fun j held live => ?_, fun j result ended => ?_, ?_⟩
  · intro j q kj other runningJ linkJ
    have liveJ : (s.status j).over = false := by rw [runningJ]; rfl
    have unheld := kept.alone held live other liveJ
    refine ⟨linkJ.holding.trans (steps.holds j other).symm, fun b read => ?_, ?_⟩
    · have holdingJ := (linkJ.reading b read).1
      rw [linkJ.holding, unheld] at holdingJ
      cases holdingJ
    · rw [linkJ.committed, commits, List.exists_mem_cons_iff]
      constructor
      · exact .inr
      · rintro (same | there)
        · exact absurd same.symm other
        · exact there
  · obtain ⟨other, idle⟩ := steps.idle idle
    rw [steps.holds j other, commits, List.forall_mem_cons]
    exact ⟨(kept.fresh j idle).1, other.symm, (kept.fresh j idle).2⟩
  · rw [holds] at held
    rw [steps.over running] at live
    rw [owner]
    exact ⟨(kept.owned j held live).1, lock (kept.owned j held live).2⟩
  · obtain ⟨c, mem, same⟩ := kept.ended j result (steps.ended ended)
    rw [commits]
    exact ⟨c, List.mem_cons_of_mem _ mem, same⟩
  · rw [state, commits]
    exact kept.history.written new expects follows

/-! ## What a step keeps -/

omit [DecidableEq ι] in
theorem contentsOf_congr {d d' : Disk} {path : Path} (same : d'.files path = d.files path) :
    d'.contentsOf path = d.contentsOf path :=
  congrArg (Option.map File.contents) same

attribute [local simp] Rotations.answered in
@[simp] theorem answered_status (s : Rotations ι) (i : ι) (op : Operation) (r : op.Answer) (d : Disk) :
    (s.answered i op r d).status = s.status := by
  unfold Rotations.answered
  split <;> rfl

@[simp] theorem answered_disk (s : Rotations ι) (i : ι) (op : Operation) (r : op.Answer) (d : Disk) :
    (s.answered i op r d).disk = d := by
  unfold Rotations.answered
  split <;> rfl

theorem answered_holds (s : Rotations ι) (op : Operation) (r : op.Answer) (d : Disk) (other : j ≠ i) :
    (s.answered i op r d).holds j = s.holds j := by
  unfold Rotations.answered
  split
  · exact Function.update_of_ne other ..
  · exact Function.update_of_ne other ..
  · rfl
  · rfl

theorem answered_neutral {op : Operation} (h : op.Neutral) (s : Rotations ι) (i : ι) (r : op.Answer) (d : Disk) :
    s.answered i op r d = { s with disk := d } := by
  unfold Rotations.answered
  split
  · exact h.elim
  · exact h.elim
  · exact h.elim
  · rfl

theorem leaves_state {op : Operation} (h : op.Neutral) : op.Leaves .state := by
  cases op with
  | openExclusive path | write path | unlink path =>
    cases path with
    | state => exact h.elim
    | _ => nofun
  | rename => exact h.elim
  | _ => trivial

/-- A step with an answer that says nothing about the lock, and writes no state. -/
theorem Kept.asksQuietly (kept : Kept reference processes s) {op : Operation} {r : op.Answer} {d : Disk}
    {next : op.Answer → Call SecretMutationResult} {k : Knowledge} (running : s.status i = .running (.query op next))
    (answers : Answers Operation.mayFail s.disk op r d) (still : ¬ (op = .unlink .lock ∧ r.isOk = true))
    (same : s.answered i op r d = { s with disk := d }) (state : d.contentsOf .state = s.disk.contentsOf .state)
    (link : Link { s with disk := d } i k)
    (wp : (next r).wp (knowing reference (processes i).mutation) (fun _ k => k.committed = true) (fun _ _ => True) k) :
    Kept reference processes ((s.answered i op r d).runs i (.running (next r))) := by
  rw [same]
  have steps : Steps reference processes s (({ s with disk := d } : Rotations ι).runs i (.running (next r))) i (next r) :=
    ⟨rfl, fun _ _ => rfl, k, link.congr rfl rfl rfl, wp⟩
  exact kept.quiet steps running rfl rfl rfl state fun there => (answers.lock_there there).resolve_left still

theorem Kept.asks (kept : Kept reference processes s) {op : Operation} {r : op.Answer} {d : Disk}
    {next : op.Answer → Call SecretMutationResult} (running : s.status i = .running (.query op next))
    (answers : Answers Operation.mayFail s.disk op r d) (isOver : TakesFromOver s (.asks i op r.isOk)) :
    Kept reference processes ((s.answered i op r d).runs i (.running (next r))) := by
  obtain ⟨k, link, allowed, wp⟩ := kept.knows i _ running
  have wp := wp r _ ⟨⟨_, _, answers⟩, rfl⟩
  have quiet := fun still => kept.asksQuietly (k := k.after op r) running answers still
  have step (t : Rotations ι) (status : t.status = s.status) (holds : ∀ j, j ≠ i → t.holds j = s.holds j)
      (link' : Link t i (k.after op r)) :
      Steps reference processes s (t.runs i (.running (next r))) i (next r) := by
    refine ⟨?_, holds, _, link'.congr rfl rfl rfl, wp⟩
    show Function.update t.status i _ = _
    rw [status]
  by_cases neutral : op.Neutral
  · have state := contentsOf_congr (answers.leaves (leaves_state neutral))
    refine quiet ?_ (answered_neutral neutral s i r d) state ?_ wp
    · rintro ⟨rfl, _⟩
      exact neutral
    · rw [k.after_neutral neutral]
      exact link.congr rfl state rfl
  · cases op with
    | openExclusive path =>
      cases path with
      | lock =>
        cases answers with
        | fails can => exact quiet nofun rfl rfl (link.congr rfl rfl rfl) wp
        | taken there => exact quiet nofun rfl rfl (link.congr rfl rfl rfl) wp
        | opened absent =>
          have state : (s.disk.create .lock []).contentsOf .state = s.disk.contentsOf .state :=
            contentsOf_congr (s.disk.create_other _ nofun)
          refine kept.opens (step _ rfl (fun _ other => answered_holds s _ _ _ other) ?_) running absent ?_ rfl rfl state
          · refine ⟨(Function.update_self i true s.holds).symm, fun b read => ⟨rfl, ?_⟩, link.committed⟩
            exact state.trans (link.reading b read).2
          · show (s.disk.create .lock _).files .lock ≠ none
            rw [Disk.create_same]
            nofun
      | state => exact allowed.elim
      | _ => exact absurd trivial neutral
    | unlink path =>
      cases path with
      | lock =>
        cases answers with
        | fails can => exact quiet (fun h => Bool.false_ne_true h.2) rfl rfl (link.congr rfl rfl rfl) wp
        | gone absent => exact quiet (fun h => Bool.false_ne_true h.2) rfl rfl (link.congr rfl rfl rfl) wp
        | unlinked there =>
          have state : (s.disk.put .lock none).contentsOf .state = s.disk.contentsOf .state :=
            contentsOf_congr (s.disk.put_other none nofun)
          refine kept.unlinks (step _ rfl (fun _ other => answered_holds s _ _ _ other) ?_) running isOver (Function.update_self ..) rfl
            state
          exact ⟨(Function.update_self i false s.holds).symm, nofun, link.committed⟩
      | state => exact allowed.elim
      | _ => exact absurd trivial neutral
    | readFile path =>
      cases path with
      | state =>
        cases answers with
        | fails can =>
          rename_i e
          have known : k.after (.readFile .state) (.error e) = k := by
            cases e with
            | enoent => exact absurd rfl (not_enoent_of_mayFail (.inl can))
            | _ => rfl
          refine quiet nofun rfl rfl ?_ wp
          rw [known]
          exact link.congr rfl rfl rfl
        | read there =>
          refine quiet nofun rfl rfl ⟨link.holding, fun b read => ⟨allowed, ?_⟩, link.committed⟩ wp
          cases read
          exact congrArg (Option.map File.contents) there
        | noFile absent =>
          refine quiet nofun rfl rfl ⟨link.holding, fun b read => ⟨allowed, ?_⟩, link.committed⟩ wp
          cases read
          exact congrArg (Option.map File.contents) absent
      | _ => exact absurd trivial neutral
    | rename after =>
      cases answers with
      | fails can => exact quiet nofun rfl rfl (link.congr rfl rfl rfl) wp
      | renamed =>
        have state : (s.disk.create .state after).contentsOf .state = some after := by
          unfold Disk.contentsOf
          rw [Disk.create_same]
          rfl
        have other : Path.lock ≠ .state := nofun
        have lock := s.disk.create_other after other
        refine kept.renames (step _ rfl (fun _ other => answered_holds s _ _ _ other) ?_) running link allowed rfl rfl rfl state ?_
        · exact ⟨link.holding, nofun, fun _ => ⟨_, List.mem_cons_self, rfl⟩, fun _ => rfl⟩
        · intro there
          show (s.disk.create .state after).files .lock ≠ none
          rw [lock]
          exact there
    | write path =>
      cases path with
      | state => exact allowed.elim
      | _ => exact absurd trivial neutral
    | _ => exact absurd trivial neutral

theorem Kept.starts (kept : Kept reference processes s) (idle : s.status i = .idle) :
    Kept reference processes (s.runs i (.running (callOf reference processes i))) where
  knows := by
    intro j p running
    by_cases same : j = i
    · subst same
      rw [runs_same] at running
      cases running
      obtain ⟨unheld, new⟩ := kept.fresh j idle
      refine ⟨.nothing, ⟨unheld.symm, nofun, ?_⟩, mutation_knows _ _ _ _⟩
      constructor
      · nofun
      · rintro ⟨c, mem, same⟩
        exact absurd same (new c mem)
    · rw [runs_other s _ same] at running
      obtain ⟨k, link, wp⟩ := kept.knows j p running
      exact ⟨k, link.congr rfl rfl rfl, wp⟩
  fresh j idleJ := by
    by_cases same : j = i
    · subst same
      rw [runs_same] at idleJ
      cases idleJ
    · rw [runs_other s _ same] at idleJ
      exact kept.fresh j idleJ
  owned j held live := by
    by_cases same : j = i
    · subst same
      exact absurd ((kept.fresh j idle).1.symm.trans held) Bool.false_ne_true
    · rw [runs_other s _ same] at live
      exact kept.owned j held live
  ended j result ended := by
    by_cases same : j = i
    · subst same
      rw [runs_same] at ended
      cases ended
    · rw [runs_other s _ same] at ended
      exact kept.ended j result ended
  history := kept.history

/-- A call that is over has written its state if it resolved. -/
theorem Kept.stops (kept : Kept reference processes s) {status : CallStatus} (isOver : status.over = true)
    (wrote : ∀ result, status = .ended (.ok result) → ∃ c ∈ s.commits, c.call = i) :
    Kept reference processes (s.runs i status) where
  knows := by
    intro j p running
    by_cases same : j = i
    · subst same
      rw [runs_same] at running
      rw [running] at isOver
      cases isOver
    · rw [runs_other s _ same] at running
      obtain ⟨k, link, wp⟩ := kept.knows j p running
      exact ⟨k, link.congr rfl rfl rfl, wp⟩
  fresh j idle := by
    by_cases same : j = i
    · subst same
      rw [runs_same] at idle
      rw [idle] at isOver
      cases isOver
    · rw [runs_other s _ same] at idle
      exact kept.fresh j idle
  owned j held live := by
    by_cases same : j = i
    · subst same
      rw [runs_same, isOver] at live
      cases live
    · rw [runs_other s _ same] at live
      exact kept.owned j held live
  ended j result ended := by
    by_cases same : j = i
    · subst same
      rw [runs_same] at ended
      exact wrote result ended
    · rw [runs_other s _ same] at ended
      exact kept.ended j result ended
  history := kept.history

theorem Kept.step {t : Rotations ι} {e : RotationEvent ι} (kept : Kept reference processes s)
    (step : RotationStep reference processes s e t) (isOver : TakesFromOver s e) : Kept reference processes t := by
  cases step with
  | starts idle => exact kept.starts idle
  | asks running answers => exact kept.asks running answers isOver
  | resolves running =>
    refine kept.stops rfl fun _ _ => ?_
    obtain ⟨k, link, committed⟩ := kept.knows _ _ running
    exact link.committed.mp committed
  | rejects => exact kept.stops rfl nofun
  | crashes => exact kept.stops rfl nofun

theorem kept_of_run {past : List (RotationEvent ι)}
    (run : ((rotations reference processes).restrict TakesFromOver).Run past s) : Kept reference processes s := by
  refine Machine.Run.invariant (P := fun _ => Kept reference processes) ?_ ?_ run
  · rintro _ rfl
    exact initial_kept
  · exact fun _ _ _ _ kept step => kept.step step.1 step.2

end

end

end GuloGulo.Secrets
