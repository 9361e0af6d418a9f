import GuloGulo.Secrets.Rotations
import GuloGulo.Secrets.RejectedMutations

/-!
# Rotation as a compare and swap

Where a lock is only taken over from a call that is over, every state written
replaces the one its call expected. A holder that is late loses the lock while it
still writes, and a rollback makes a version active that was expected before.
-/

namespace GuloGulo.Secrets
open Js Data Sql

def CallStatus.resolved : CallStatus → Bool
  | ended (.ok _) => true
  | _ => false

section
variable {ι : Type} [DecidableEq ι] (reference : JsString) (processes : ι → Process)

/-- The states that have been written, and who may remove a lock now. -/
structure Swaps (s : Rotations ι) : Prop where
  expected : ∀ c ∈ s.commits, ∃ v, (processes c.call).mutation.Expects v ∧ IsActive reference c.before v
  chained : Chained (s.disk.contentsOf .state) s.commits
  once : (s.commits.map Commit.call).Nodup
  written : ∀ i, (s.status i).resolved = true → ∃ c ∈ s.commits, c.call = i
  /-- Two that expect the same version have one between them that made it active. -/
  again : ∀ later between earlier c c' v, s.commits = later ++ c :: (between ++ c' :: earlier) →
    (processes c.call).mutation.Expects v → (processes c'.call).mutation.Expects v →
    ∃ b ∈ between, IsActive reference (some b.after) v
  released : ∀ i t, RotationStep reference processes s (.asks i (.unlink .lock) true) t → s.holds i = true →
    s.owner = some i

end

section
variable {ι : Type} {reference : JsString} {processes : ι → Process}

theorem Mutation.Expects.unique {mutation : Mutation} {v v' : Option JsString} (h : mutation.Expects v)
    (h' : mutation.Expects v') : v = v' := by
  cases mutation with
  | rotate => exact Except.ok.inj (h.symm.trans h')
  | rollback => exact Except.ok.inj (h.symm.trans h')

theorem IsActive.unique {contents : Option (Option JsValue)} {v v' : Option JsString} (h : IsActive reference contents v)
    (h' : IsActive reference contents v') : v = v' := by
  have same := h.symm.trans h'
  cases v with
  | none =>
    cases v' with
    | none => rfl
    | some _ => cases same
  | some _ =>
    cases v' with
    | none => cases same
    | some _ => exact congrArg some (Except.ok.inj (Option.some.inj same))

theorem Chained.append {now : Option (Option JsValue)} {later commits : List (Commit ι)} (h : Chained now (later ++ commits)) :
    ∃ now', Chained now' commits := by
  induction later generalizing now with
  | nil => exact ⟨now, h⟩
  | cons c later ih => exact ih h.2

/-- What was there before a state was written is what was written before it. -/
theorem Chained.before {now : Option (Option JsValue)} {later earlier : List (Commit ι)} {c b : Commit ι}
    (h : Chained now (later ++ c :: b :: earlier)) : c.before = some b.after := by
  obtain ⟨_, _, previous, _⟩ := h.append
  exact previous

theorem History.again {now : Option (Option JsValue)} {commits : List (Commit ι)}
    (history : History reference processes now commits) {later between earlier : List (Commit ι)} {c c' : Commit ι}
    {v : Option JsString} (split : commits = later ++ c :: (between ++ c' :: earlier))
    (expects : (processes c.call).mutation.Expects v) (expects' : (processes c'.call).mutation.Expects v) :
    ∃ b ∈ between, IsActive reference (some b.after) v := by
  have active (c : Commit ι) (mem : c ∈ commits) (expects : (processes c.call).mutation.Expects v) :
      IsActive reference c.before v := by
    obtain ⟨v', expects', follows⟩ := history.follows c mem
    rw [expects.unique expects']
    exact follows.active
  have activeC := active c (by rw [split]; simp) expects
  have chained := history.chained
  rw [split] at chained
  cases between with
  | nil =>
    have before : c.before = some c'.after := chained.before
    have mem : c' ∈ commits := by rw [split]; simp
    obtain ⟨w, activeW, was⟩ := history.moves c' mem
    rw [before] at activeC
    rw [← activeC.unique activeW] at was
    exact absurd (active c' mem expects') was
  | cons b between =>
    refine ⟨b, List.mem_cons_self, ?_⟩
    have before : c.before = some b.after := chained.before
    rw [before] at activeC
    exact activeC

variable [DecidableEq ι]

/-- The lock a call that runs holds is the one that is there. -/
theorem Kept.owns {s : Rotations ι} {i : ι} {r : Bool} {t : Rotations ι} (kept : Kept reference processes s)
    (step : RotationStep reference processes s (.asks i (.unlink .lock) r) t) (holds : s.holds i = true) :
    s.owner = some i := by
  cases step with
  | asks running =>
    have live : (s.status i).over = false := by rw [running]; rfl
    exact (kept.owned i holds live).1

/-- Every call swaps the version that it expects, if locks are only taken over
from calls that are over. -/
theorem rotations_swap {past : List (RotationEvent ι)} {s : Rotations ι}
    (run : ((rotations reference processes).restrict TakesFromOver).Run past s) : Swaps reference processes s := by
  have kept := kept_of_run run
  refine ⟨fun c mem => ?_, kept.history.chained, kept.history.once, fun i resolved => ?_, ?_, ?_⟩
  · obtain ⟨v, expects, follows⟩ := kept.history.follows c mem
    exact ⟨v, expects, follows.active⟩
  · cases status : s.status i with
    | ended result =>
      cases result with
      | ok result => exact kept.ended i result status
      | error e =>
        rw [status] at resolved
        cases resolved
    | _ =>
      rw [status] at resolved
      cases resolved
  · exact fun later between earlier c c' v split => kept.history.again split
  · exact fun i t => kept.owns

end

section
variable {ι : Type} [DecidableEq ι] (reference : JsString) (processes : ι → Process) (replies : ι → Replies)

/-- What happens when it is the turn of a call. -/
def takeTurn (s : Rotations ι) (i : ι) : RotationEvent ι × Rotations ι :=
  match s.status i with
  | .idle => (.starts i, s.runs i (.running (callOf reference processes i)))
  | .running (.query op next) =>
    match replyOn (replies i) s.disk op with
    | (r, d) => (.asks i op r.isOk, (s.answered i op r d).runs i (.running (next r)))
  | .running (.pure result) => (.ends i (.ok result), s.runs i (.ended (.ok result)))
  | .running (.throw e) => (.ends i (.error e), s.runs i (.ended (.error e)))
  | _ => (.crashes i, s)

def hasTurn (s : Rotations ι) (i : ι) : Bool := !(s.status i).over

variable {reference processes replies}

theorem takeTurn_step {s : Rotations ι} {i : ι} (h : hasTurn s i = true) :
    RotationStep reference processes s (takeTurn reference processes replies s i).1
      (takeTurn reference processes replies s i).2 := by
  unfold hasTurn at h
  unfold takeTurn
  cases status : s.status i with
  | idle => exact .starts status
  | running program =>
    cases program with
    | pure result => exact .resolves status
    | throw e => exact .rejects status
    | query op next => exact .asks status (replyOn_answers _ _ _)
  | ended =>
    rw [status] at h
    cases h
  | crashed =>
    rw [status] at h
    cases h

/-- The call that removes the lock file, if this is what happens. -/
def RotationEvent.removesLock : RotationEvent ι → Option ι
  | .asks i (.unlink .lock) true => some i
  | _ => none

omit [DecidableEq ι] in
theorem removesLock_eq_some {e : RotationEvent ι} {i : ι} (h : e.removesLock = some i) : e = .asks i (.unlink .lock) true := by
  unfold RotationEvent.removesLock at h
  split at h
  · cases h
    rfl
  · cases h

instance (reference : JsString) (contents : Option (Option JsValue)) (version : Option JsString) :
    Decidable (IsActive reference contents version) :=
  inferInstanceAs (Decidable (_ = _))

/-- A run in which the calls take turns. -/
def turns (reference : JsString) (processes : ι → Process) (replies : ι → Replies) (schedule : List ι) :
    List (RotationEvent ι) × Rotations ι :=
  Machine.replay (takeTurn reference processes replies) schedule ([], Rotations.initial)

theorem turns_run {schedule : List ι}
    (h : Machine.permitted (takeTurn reference processes replies) hasTurn schedule Rotations.initial = true) :
    (rotations reference processes).Run (turns reference processes replies schedule).1
      (turns reference processes replies schedule).2 :=
  Machine.Run.replay (fun _ _ => takeTurn_step) (.start rfl) h

end

/-- Two calls that know of no version. -/
def firstRotations (i : Fin 2) : Process :=
  ⟨{ tokenOptions with audit := false, lockRetryAttempts := 1 }, asciiHost,
    .rotate (.string (if i = 0 then js "one" else js "two")) (.object [(js "expectedVersion", .null)])⟩

/-- A clock that shows every lock file as stale. -/
def lateReplies {n : Nat} (i : Fin n) : Replies :=
  ⟨true, 1000000, ["v1", "v2", "v3", "v4"].getD i "", ["0", "1", "2", "3"].getD i ""⟩

/-- The first is late when it has read that there is no state, and goes on when
the second has ended. -/
def lateWriter : List (Fin 2) := List.replicate 10 0 ++ List.replicate 37 1 ++ List.replicate 20 0

/-- The first is late when it has read its own token, and the second takes over. -/
def lateRelease : List (Fin 2) := List.replicate 29 0 ++ List.replicate 12 1

/-- Two rotations, a rollback to the first version, and a third rotation. -/
def rotationsAndRollback (i : Fin 4) : Process :=
  ⟨{ tokenOptions with audit := false }, asciiHost, match i with
    | 0 => .rotate (.string (js "one")) (.object [(js "expectedVersion", .null)])
    | 1 => .rotate (.string (js "two")) (.object [(js "expectedVersion", .string (js "v1"))])
    | 2 => .rollback (.object [(js "expectedCurrentVersion", .string (js "v2")),
      (js "targetVersion", .string (js "v1"))])
    | 3 => .rotate (.string (js "three")) (.object [(js "expectedVersion", .string (js "v1"))])⟩

def oneAfterAnother : List (Fin 4) :=
  List.replicate 31 0 ++ List.replicate 33 1 ++ List.replicate 22 2 ++ List.replicate 33 3

/-- No lock is taken over. -/
def unlinksOwn {ι : Type} (s : Rotations ι) (i : ι) : Bool :=
  match s.status i with
  | .running (.query (.unlink .lock) _) => s.holds i
  | _ => true

theorem takeTurn_own {ι : Type} [DecidableEq ι] {reference : JsString} {processes : ι → Process}
    {replies : ι → Replies} {s : Rotations ι} {i : ι} (h : (hasTurn s i && unlinksOwn s i) = true) :
    ((rotations reference processes).restrict TakesFromOver).Step s (takeTurn reference processes replies s i).1
      (takeTurn reference processes replies s i).2 := by
  rw [Bool.and_eq_true] at h
  have own := h.2
  refine ⟨takeTurn_step h.1, ?_⟩
  unfold unlinksOwn at own
  unfold takeTurn
  cases status : s.status i with
  | running program =>
    rw [status] at own
    cases program with
    | query op next =>
      cases op with
      | unlink path =>
        cases path with
        | lock =>
          show TakesFromOver s (.asks i (.unlink .lock) _)
          cases (replyOn (replies i) s.disk (.unlink .lock)).1.isOk with
          | true => exact fun unheld => absurd (own.symm.trans unheld).symm Bool.false_ne_true
          | false => trivial
        | _ => trivial
      | _ => trivial
    | _ => trivial
  | _ => trivial

def rotatedBack : List (RotationEvent (Fin 4)) × Rotations (Fin 4) :=
  turns (js "token") rotationsAndRollback lateReplies oneAfterAnother

theorem rotatedBack_run :
    ((rotations (js "token") rotationsAndRollback).restrict TakesFromOver).Run rotatedBack.1 rotatedBack.2 :=
  have permitted : Machine.permitted (takeTurn (js "token") rotationsAndRollback lateReplies)
      (fun s i => hasTurn s i && unlinksOwn s i) oneAfterAnother Rotations.initial = true := by decide +kernel
  Machine.Run.replay (fun _ _ => takeTurn_own) (.start rfl) permitted

def lateWritten : List (RotationEvent (Fin 2)) × Rotations (Fin 2) :=
  turns (js "token") firstRotations lateReplies lateWriter

def lateReleased : List (RotationEvent (Fin 2)) × Rotations (Fin 2) :=
  turns (js "token") firstRotations lateReplies lateRelease

/-- A late holder writes over a version that it has not seen, or removes the lock
of another call. One after another, two calls resolve that expect the same version. -/
theorem swaps_late_and_back :
    (∃ past s, (rotations (js "token") firstRotations).Run past s ∧ (∀ i, (s.status i).resolved = true) ∧
      (∀ i, (firstRotations i).mutation.Expects none) ∧
      ∃ c ∈ s.commits, c.call = 0 ∧ IsActive (js "token") c.before (some (js "v2"))) ∧
    (∃ past s t, (rotations (js "token") firstRotations).Run past s ∧
      RotationStep (js "token") firstRotations s (.asks 0 (.unlink .lock) true) t ∧
      s.holds 0 = true ∧ s.owner = some 1 ∧ (s.status 1).over = false) ∧
    ∃ past s, ((rotations (js "token") rotationsAndRollback).restrict TakesFromOver).Run past s ∧
      (s.status 1).resolved = true ∧ (rotationsAndRollback 1).mutation.Expects (some (js "v1")) ∧
      (s.status 3).resolved = true ∧ (rotationsAndRollback 3).mutation.Expects (some (js "v1")) := by
  refine ⟨⟨_, lateWritten.2, turns_run (by decide +kernel), ?_, ?_, ?_⟩, ?_, ?_⟩
  · decide +kernel
  · intro i
    rfl
  · decide +kernel
  · have turn : (takeTurn (js "token") firstRotations lateReplies lateReleased.2 0).1 = .asks 0 (.unlink .lock) true :=
      removesLock_eq_some (by decide +kernel)
    have step : RotationStep (js "token") firstRotations lateReleased.2
        (takeTurn (js "token") firstRotations lateReplies lateReleased.2 0).1
        (takeTurn (js "token") firstRotations lateReplies lateReleased.2 0).2 := takeTurn_step (by decide +kernel)
    rw [turn] at step
    have run : (rotations (js "token") firstRotations).Run lateReleased.1 lateReleased.2 := turns_run (by decide +kernel)
    refine ⟨_, _, _, run, step, ?_⟩
    decide +kernel
  · exact ⟨_, _, rotatedBack_run, by decide, rfl, by decide, rfl⟩

theorem rotations_swap_one_after_another :
    (∀ i, (rotatedBack.2.status i).resolved = true) ∧ Swaps (js "token") rotationsAndRollback rotatedBack.2 :=
  ⟨by decide, rotations_swap rotatedBack_run⟩

end GuloGulo.Secrets
