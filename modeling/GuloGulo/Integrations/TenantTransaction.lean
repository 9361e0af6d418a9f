import GuloGulo.Integrations.TenantContext
import GuloGulo.Sql.Program

/-!
# Transactions that are tried again

`withTenantTransaction` and `retry` of `postgres-store.ts`, for every way the
connection, `BEGIN`, the queries, `COMMIT` and `ROLLBACK` can fail. What a
transaction commits is kept in a list, so that two commits can be told from
one.
-/

namespace GuloGulo.Integrations.Postgres
open Js Sql

/-- How a `COMMIT` ends. One that takes effect may still be reported as failed,
when the connection is lost before the acknowledgement. -/
inductive CommitFate where
  | acknowledged | refused | unacknowledged
  deriving DecidableEq

/-- What goes wrong in one attempt: `true` is a failure. Queries of the callback
are told apart by their number. -/
structure Fate where
  connect : Bool
  begins : Bool
  setConfig : Bool
  query : Nat → Bool
  commit : CommitFate
  rollback : Bool
  /-- The log entry or the pause after a failed attempt. -/
  pause : Bool

/-- The database, the transaction open on it, and the states that were committed. -/
structure World (D : Type) where
  committed : D
  working : Option D
  commits : List D

/-- `try` with a `catch`. -/
def tryCatch {ε σ α : Type} (m : Eff ε σ α) (handler : ε → Eff ε σ α) : Eff ε σ α := fun s =>
  match m s with
  | (.ok a, s') => (.ok a, s')
  | (.error e, s') => handler e s'

section
variable {ε Q α D : Type} {R : Q → Type} (exec : Program.Semantics (Thrown ε) R D)

abbrev Connected (ε D α : Type) : Type := Eff (Thrown ε) (World D) α

def failsIf (c : Bool) : Connected ε D Unit := Eff.lift (throwIf c .foreign)

def World.commit (w : World D) : World D :=
  let d := w.working.getD w.committed
  ⟨d, none, w.commits ++ [d]⟩

def beginTransaction (fate : Fate) : Connected ε D Unit := do
  failsIf fate.begins
  Eff.modify fun w => { w with working := some w.committed }

/-- `client.query`, for the `n`-th query of the callback. -/
def query (fate : Fate) (n : Nat) (q : Q) : Connected ε D (R q) := fun w =>
  if fate.query n then (.error .foreign, w)
  else
    match exec q (w.working.getD w.committed) with
    | .ok (r, d) => (.ok r, { w with working := some d })
    | .error e => (.error e, w)

/-- The callback from its `n`-th query on. -/
def perform (fate : Fate) : Program (Thrown ε) R α → Nat → Connected ε D α
  | .pure a, _ => pure a
  | .throw e, _ => Eff.lift (.error e)
  | .query q next, n => do
    let r ← query exec fate n q
    perform fate (next r) (n + 1)

def commitTransaction (fate : Fate) : Connected ε D Unit := fun w =>
  match fate.commit with
  | .acknowledged => (.ok (), w.commit)
  | .unacknowledged => (.error .foreign, w.commit)
  | .refused => (.error .foreign, w)

/-- A `ROLLBACK` that fails has lost its connection, and with it the transaction. -/
def rollbackTransaction (fate : Fate) : Connected ε D Unit := do
  Eff.modify fun w => { w with working := none }
  failsIf fate.rollback

/-- What an attempt tries on its connection. -/
def transaction (fate : Fate) (callback : Program (Thrown ε) R α) : Connected ε D α := do
  beginTransaction fate
  failsIf fate.setConfig
  let result ← perform exec fate callback 0
  commitTransaction fate
  return result

def attempt (fate : Fate) (callback : Program (Thrown ε) R α) : Connected ε D α := do
  failsIf fate.connect
  tryCatch (transaction exec fate callback) fun e => do
    tryCatch (rollbackTransaction fate) fun _ => pure ()
    Eff.lift (.error e)

/-- Attempts from number `n` on, of which `left` may follow a failed one. -/
def retry (fates : Nat → Fate) (operation : Nat → Connected ε D α) (n : Nat) : Nat → Connected ε D α
  | 0 => operation n
  | left + 1 => tryCatch (operation n) fun _ => do
    failsIf (fates n).pause
    retry fates operation (n + 1) left

/-- What the callback takes from outside the database may differ from one
attempt to the next. -/
def withTenantTransaction (host : Host) (retryAttempts : Nat) (fates : Nat → Fate) (context : JsValue)
    (callback : Nat → Actor.TenantContext → Program (Thrown ε) R α) : Connected ε D α :=
  match Actor.assertTenantContext host context with
  | .error () => Eff.lift (.error .foreign)
  | .ok canonical => retry fates (fun n => attempt exec (fates n) (callback n canonical)) 0 retryAttempts

/-! ## One attempt -/

/-- The callback alone, with the failures of its queries. -/
def runWith (fails : Nat → Bool) : Program (Thrown ε) R α → Nat → D → Except (Thrown ε) (α × D)
  | .pure a, _, d => .ok (a, d)
  | .throw e, _, _ => .error e
  | .query q next, n, d =>
    if fails n then .error .foreign
    else do
      let (r, d) ← exec q d
      runWith fails (next r) (n + 1) d

/-- The attempt gets to its `COMMIT`, with this result. -/
structure Fate.Reaches (fate : Fate) (p : Program (Thrown ε) R α) (d : D) (a : α) (d' : D) : Prop where
  connect : fate.connect = false
  begins : fate.begins = false
  setConfig : fate.setConfig = false
  performed : runWith exec fate.query p 0 d = .ok (a, d')

/-- The attempt takes effect. -/
def Fate.Settles (fate : Fate) (p : Program (Thrown ε) R α) (d : D) : Prop :=
  ∃ a d', fate.Reaches exec p d a d' ∧ fate.commit ≠ .refused

/-- The attempt takes effect, and nobody is told. -/
def Fate.Loses (fate : Fate) (p : Program (Thrown ε) R α) (d : D) : Prop :=
  ∃ a d', fate.Reaches exec p d a d' ∧ fate.commit = .unacknowledged

/-- How an attempt ends when no transaction is open before it. -/
inductive Attempted (fate : Fate) (p : Program (Thrown ε) R α) (d : D) (log : List D) :
    Except (Thrown ε) α × World D → Prop where
  | answered (a : α) (d' : D) (reaches : fate.Reaches exec p d a d') (told : fate.commit = .acknowledged) :
      Attempted fate p d log (.ok a, ⟨d', none, log ++ [d']⟩)
  | lost (a : α) (d' : D) (reaches : fate.Reaches exec p d a d') (untold : fate.commit = .unacknowledged) :
      Attempted fate p d log (.error .foreign, ⟨d', none, log ++ [d']⟩)
  | failed (e : Thrown ε) (nothing : ¬ fate.Settles exec p d) :
      Attempted fate p d log (.error e, ⟨d, none, log⟩)

variable {exec}

/-- With failures or without, the callback that gets to its end has run. -/
theorem run_of_runWith {fails : Nat → Bool} {p : Program (Thrown ε) R α} {n : Nat} {d d' : D} {a : α}
    (h : runWith exec fails p n d = .ok (a, d')) : p.run exec d = .ok (a, d') := by
  induction p generalizing n d with
  | pure b => exact h
  | throw e => cases h
  | query q next ih =>
    rw [runWith] at h
    split at h
    · cases h
    · obtain ⟨⟨r, e⟩, answered, rest⟩ := bind_eq_ok.mp h
      rw [Program.run, answered, ok_bind]
      exact ih r rest

variable (exec) in
theorem perform_eq (fate : Fate) (p : Program (Thrown ε) R α) (n : Nat) (c d : D) (log : List D) :
    (∀ a d', runWith exec fate.query p n d = .ok (a, d') →
      perform exec fate p n ⟨c, some d, log⟩ = (.ok a, ⟨c, some d', log⟩)) ∧
    ∀ e, runWith exec fate.query p n d = .error e →
      ∃ d', perform exec fate p n ⟨c, some d, log⟩ = (.error e, ⟨c, some d', log⟩) := by
  induction p generalizing n d with
  | pure a =>
    constructor
    · intro b d' h
      cases h
      rfl
    · intro e h
      cases h
  | throw e =>
    constructor
    · intro b d' h
      cases h
    · intro e' h
      cases h
      exact ⟨d, rfl⟩
  | query q next ih =>
    have sent : perform exec fate (.query q next) n ⟨c, some d, log⟩ =
        Eff.bind (query exec fate n q) (fun r => perform exec fate (next r) (n + 1)) ⟨c, some d, log⟩ := rfl
    rw [sent, Eff.bind, query, runWith]
    by_cases fails : fate.query n
    · rw [if_pos fails, if_pos fails]
      constructor
      · intro b d' h
        cases h
      · intro e h
        cases h
        exact ⟨d, rfl⟩
    · rw [if_neg fails, if_neg fails, Option.getD_some]
      cases exec q d with
      | ok r => exact ih r.1 (n + 1) r.2
      | error e =>
        constructor
        · intro b d' h
          cases h
        · intro e' h
          cases h
          exact ⟨d, rfl⟩

/-- Whatever `ROLLBACK` answers, nothing is left of the transaction. -/
theorem rollback_ends (fate : Fate) (e : Thrown ε) (c : D) (working : Option D) (log : List D) :
    (do
      tryCatch (rollbackTransaction fate) fun _ => pure ()
      Eff.lift (.error e) : Connected ε D α) ⟨c, working, log⟩ = (.error e, ⟨c, none, log⟩) := by
  obtain ⟨_, _, _, _, _, rollback, _⟩ := fate
  cases rollback with
  | true => rfl
  | false => rfl

theorem tryCatch_ok {ε σ α : Type} {m : Eff ε σ α} {handler : ε → Eff ε σ α} {s s' : σ} {a : α}
    (h : m s = (.ok a, s')) : tryCatch m handler s = (.ok a, s') := by
  rw [tryCatch, h]

theorem tryCatch_error {ε σ α : Type} {m : Eff ε σ α} {handler : ε → Eff ε σ α} {s s' : σ} {e : ε}
    (h : m s = (.error e, s')) : tryCatch m handler s = handler e s' := by
  rw [tryCatch, h]

/-- An attempt with its connection. -/
theorem attempt_connected {fate : Fate} (p : Program (Thrown ε) R α) (w : World D) (connect : fate.connect = false) :
    attempt exec fate p w = tryCatch (transaction exec fate p) (fun e => do
      tryCatch (rollbackTransaction fate) fun _ => pure ()
      Eff.lift (.error e)) w := by
  unfold attempt
  rw [connect]
  rfl

theorem attempt_of_error {fate : Fate} {p : Program (Thrown ε) R α} {w : World D} {c : D} {log : List D}
    {e : Thrown ε} {working : Option D} (connect : fate.connect = false)
    (h : transaction exec fate p w = (.error e, ⟨c, working, log⟩)) :
    attempt exec fate p w = (.error e, ⟨c, none, log⟩) := by
  rw [attempt_connected p w connect, tryCatch_error h]
  exact rollback_ends fate e c working log

theorem attempt_of_ok {fate : Fate} {p : Program (Thrown ε) R α} {w w' : World D} {a : α}
    (connect : fate.connect = false) (h : transaction exec fate p w = (.ok a, w')) :
    attempt exec fate p w = (.ok a, w') := by
  rw [attempt_connected p w connect, tryCatch_ok h]

/-- An attempt that does not get to its callback. -/
theorem attempt_stopped {fate : Fate} (p : Program (Thrown ε) R α) (d : D) (log : List D)
    (stopped : ¬ (fate.connect = false ∧ fate.begins = false ∧ fate.setConfig = false)) :
    attempt exec fate p ⟨d, none, log⟩ = (.error .foreign, ⟨d, none, log⟩) := by
  cases connect : fate.connect with
  | true =>
    unfold attempt
    rw [connect]
    rfl
  | false =>
    cases begins : fate.begins with
    | true =>
      have ends : transaction exec fate p ⟨d, none, log⟩ = (.error .foreign, ⟨d, none, log⟩) := by
        unfold transaction beginTransaction
        rw [begins]
        rfl
      exact attempt_of_error connect ends
    | false =>
      cases setConfig : fate.setConfig with
      | true =>
        have ends : transaction exec fate p ⟨d, none, log⟩ = (.error .foreign, ⟨d, some d, log⟩) := by
          unfold transaction beginTransaction
          rw [begins, setConfig]
          rfl
        exact attempt_of_error connect ends
      | false => exact absurd ⟨connect, begins, setConfig⟩ stopped

variable (exec) in
/-- From `BEGIN` and the setting of the tenant on. -/
theorem transaction_begun {fate : Fate} (p : Program (Thrown ε) R α) (d : D) (log : List D)
    (begins : fate.begins = false) (setConfig : fate.setConfig = false) :
    transaction exec fate p ⟨d, none, log⟩ =
      Eff.bind (perform exec fate p 0) (fun a => Eff.bind (commitTransaction fate) fun _ => pure a)
        ⟨d, some d, log⟩ := by
  unfold transaction beginTransaction
  rw [begins, setConfig]
  rfl

variable (exec) in
theorem attempt_ends (fate : Fate) (p : Program (Thrown ε) R α) (d : D) (log : List D) :
    Attempted exec fate p d log (attempt exec fate p ⟨d, none, log⟩) := by
  by_cases begun : fate.connect = false ∧ fate.begins = false ∧ fate.setConfig = false
  · obtain ⟨connect, begins, setConfig⟩ := begun
    have tried := transaction_begun exec p d log begins setConfig
    obtain ⟨performs, throws⟩ := perform_eq exec fate p 0 d d log
    cases performed : runWith exec fate.query p 0 d with
    | error e =>
      obtain ⟨d', ends⟩ := throws e performed
      rw [Eff.bind, ends] at tried
      rw [attempt_of_error connect tried]
      apply Attempted.failed
      rintro ⟨a, d'', reaches, _⟩
      cases performed.symm.trans reaches.performed
    | ok r =>
      obtain ⟨a, d'⟩ := r
      rw [Eff.bind, performs a d' performed] at tried
      have reaches : fate.Reaches exec p d a d' := ⟨connect, begins, setConfig, performed⟩
      cases commit : fate.commit with
      | acknowledged =>
        have ends : transaction exec fate p ⟨d, none, log⟩ = (.ok a, ⟨d', none, log ++ [d']⟩) := by
          rw [tried]
          simp only [Eff.bind, commitTransaction, commit]
          rfl
        rw [attempt_of_ok connect ends]
        exact .answered a d' reaches commit
      | unacknowledged =>
        have ends : transaction exec fate p ⟨d, none, log⟩ = (.error .foreign, ⟨d', none, log ++ [d']⟩) := by
          rw [tried]
          simp only [Eff.bind, commitTransaction, commit]
          rfl
        rw [attempt_of_error connect ends]
        exact .lost a d' reaches commit
      | refused =>
        have ends : transaction exec fate p ⟨d, none, log⟩ = (.error .foreign, ⟨d, some d', log⟩) := by
          rw [tried]
          simp only [Eff.bind, commitTransaction, commit]
        rw [attempt_of_error connect ends]
        apply Attempted.failed
        rintro ⟨_, _, _, settled⟩
        exact settled commit
  · rw [attempt_stopped p d log begun]
    apply Attempted.failed
    rintro ⟨a, d', reaches, _⟩
    exact begun ⟨reaches.connect, reaches.begins, reaches.setConfig⟩

/-! ## All attempts -/

/-- What is promised of a call whose callback may take `d` to `d'`: the effect
of its answer, at most once, and nothing without an answer. -/
structure Truthful (takes : α → D → D → Prop) (d : D) (r : Except (Thrown ε) α × World D) : Prop where
  once : r.2.commits.length ≤ 1
  resolved : ∀ a, r.1 = .ok a → ∃ d', takes a d d' ∧ r.2.commits = [d'] ∧ r.2.committed = d'
  rejected : ∀ e, r.1 = .error e → r.2.commits = [] ∧ r.2.committed = d

/-- One of the runs of the callback. -/
def Takes (exec : Program.Semantics (Thrown ε) R D) (callback : Nat → Program (Thrown ε) R α) (a : α) (d d' : D) :
    Prop :=
  ∃ n, (callback n).run exec d = .ok (a, d')

/-- One of the attempts from `n` on is made and takes effect without anybody
being told. -/
def LosesFrom (exec : Program.Semantics (Thrown ε) R D) (fates : Nat → Fate)
    (callback : Nat → Program (Thrown ε) R α) (d : D) (n left : Nat) : Prop :=
  ∃ k ≤ left, (∀ j < k, ¬ (fates (n + j)).Settles exec (callback (n + j)) d ∧ (fates (n + j)).pause = false) ∧
    (fates (n + k)).Loses exec (callback (n + k)) d

theorem settles_of_loses {fate : Fate} {p : Program (Thrown ε) R α} {d : D} (h : fate.Loses exec p d) :
    fate.Settles exec p d := by
  obtain ⟨a, d', reaches, lost⟩ := h
  refine ⟨a, d', reaches, ?_⟩
  rw [lost]
  simp

section
variable {fates : Nat → Fate} {callback : Nat → Program (Thrown ε) R α}

abbrev attempts (exec : Program.Semantics (Thrown ε) R D) (fates : Nat → Fate)
    (callback : Nat → Program (Thrown ε) R α) (n left : Nat) : Connected ε D α :=
  retry fates (fun n => attempt exec (fates n) (callback n)) n left

theorem attempts_succ {n left : Nat} {w w' : World D} {e : Thrown ε}
    (failed : attempt exec (fates n) (callback n) w = (.error e, w')) :
    attempts exec fates callback n (left + 1) w =
      if (fates n).pause then (.error .foreign, w') else attempts exec fates callback (n + 1) left w' := by
  show tryCatch _ _ w = _
  rw [tryCatch_error failed]
  cases pause : (fates n).pause with
  | true => rfl
  | false => rfl

theorem attempts_answered {n left : Nat} {w w' : World D} {a : α}
    (answered : attempt exec (fates n) (callback n) w = (.ok a, w')) :
    attempts exec fates callback n left w = (.ok a, w') := by
  cases left with
  | zero => exact answered
  | succ left => exact tryCatch_ok answered

variable (exec fates callback) in
/-- Commits are never taken back, and an answer is of a commit. -/
theorem attempts_commit (n left : Nat) (d : D) (log : List D) :
    ∃ more, (attempts exec fates callback n left ⟨d, none, log⟩).2.commits = log ++ more ∧
      ∀ a, (attempts exec fates callback n left ⟨d, none, log⟩).1 = .ok a → more ≠ [] := by
  induction left generalizing n d log with
  | zero =>
    have ends := attempt_ends exec (fates n) (callback n) d log
    have only : attempts exec fates callback n 0 ⟨d, none, log⟩ =
        attempt exec (fates n) (callback n) ⟨d, none, log⟩ := rfl
    rw [only]
    generalize attempt exec (fates n) (callback n) ⟨d, none, log⟩ = r at ends
    cases ends with
    | answered a d' => exact ⟨[d'], rfl, fun _ _ => by simp⟩
    | lost a d' => exact ⟨[d'], rfl, fun _ h => by cases h⟩
    | failed e => exact ⟨[], (List.append_nil log).symm, fun _ h => by cases h⟩
  | succ left ih =>
    have ends := attempt_ends exec (fates n) (callback n) d log
    generalize here : attempt exec (fates n) (callback n) ⟨d, none, log⟩ = r at ends
    cases ends with
    | answered a d' =>
      rw [attempts_answered here]
      exact ⟨[d'], rfl, fun _ _ => by simp⟩
    | lost a d' =>
      rw [attempts_succ here]
      split
      · exact ⟨[d'], rfl, fun _ h => by cases h⟩
      · obtain ⟨more, commits, _⟩ := ih (n + 1) d' (log ++ [d'])
        refine ⟨[d'] ++ more, ?_, fun _ _ => by simp⟩
        rw [commits, List.append_assoc]
    | failed e =>
      rw [attempts_succ here]
      split
      · exact ⟨[], (List.append_nil log).symm, fun _ h => by cases h⟩
      · exact ih (n + 1) d log

/-- Once a commit was not told of, no end is the right one. -/
theorem not_truthful_of_lost {n left : Nat} {d d' : D} :
    ¬ Truthful (Takes exec callback) d (attempts exec fates callback n left ⟨d', none, [d']⟩) := by
  intro truthful
  obtain ⟨more, commits, answered⟩ := attempts_commit exec fates callback n left d' [d']
  cases ends : (attempts exec fates callback n left ⟨d', none, [d']⟩).1 with
  | ok a =>
    have once := truthful.once
    rw [commits] at once
    have nonempty := List.length_pos_iff.mpr (answered a ends)
    simp only [List.length_append, List.length_cons, List.length_nil] at once
    omega
  | error e =>
    have none := (truthful.rejected e ends).1
    rw [commits] at none
    cases none

theorem losesFrom_zero {n left : Nat} {d : D} (h : (fates n).Loses exec (callback n) d) :
    LosesFrom exec fates callback d n left := by
  refine ⟨0, Nat.zero_le left, ?_, h⟩
  intro j before
  cases before

/-- An attempt that is not the one is passed over when it leaves nothing behind. -/
theorem losesFrom_succ {n left : Nat} {d : D} (h : ¬ (fates n).Loses exec (callback n) d) :
    LosesFrom exec fates callback d n left ↔ ∃ left', left = left' + 1 ∧ ¬ (fates n).Settles exec (callback n) d ∧
      (fates n).pause = false ∧ LosesFrom exec fates callback d (n + 1) left' := by
  constructor
  · rintro ⟨k, within, before, loses⟩
    cases k with
    | zero => exact absurd loses h
    | succ k =>
      obtain ⟨left', rfl⟩ : ∃ left', left = left' + 1 := ⟨left - 1, by omega⟩
      obtain ⟨unsettled, goesOn⟩ := before 0 (Nat.succ_pos k)
      refine ⟨left', rfl, unsettled, goesOn, k, by omega, ?_, ?_⟩
      · intro j hj
        have next := before (j + 1) (by omega)
        rw [Nat.add_right_comm, Nat.add_assoc]
        exact next
      · rw [Nat.add_right_comm, Nat.add_assoc]
        exact loses
  · rintro ⟨left', rfl, unsettled, goesOn, k, within, before, loses⟩
    refine ⟨k + 1, by omega, ?_, ?_⟩
    · intro j hj
      cases j with
      | zero => exact ⟨unsettled, goesOn⟩
      | succ j =>
        have next := before j (by omega)
        rw [Nat.add_right_comm, Nat.add_assoc] at next
        exact next
    · rw [Nat.add_right_comm, Nat.add_assoc] at loses
      exact loses

theorem truthful_answered {n : Nat} {d d' : D} {a : α} (reaches : (fates n).Reaches exec (callback n) d a d') :
    Truthful (Takes exec callback) d ((.ok a, ⟨d', none, [d']⟩) : Except (Thrown ε) α × World D) := by
  refine ⟨Nat.le_refl 1, ?_, ?_⟩
  · intro b same
    cases same
    exact ⟨d', ⟨n, run_of_runWith reaches.performed⟩, rfl, rfl⟩
  · intro e same
    cases same

theorem truthful_failed {takes : α → D → D → Prop} (d : D) (e : Thrown ε) :
    Truthful takes d (.error e, ⟨d, none, []⟩) := by
  refine ⟨Nat.zero_le 1, ?_, fun _ _ => ⟨rfl, rfl⟩⟩
  intro b same
  cases same

theorem not_truthful_rejected (d d' : D) (e : Thrown ε) :
    ¬ Truthful (Takes exec callback) d (.error e, ⟨d', none, [d']⟩) := by
  intro truthful
  cases (truthful.rejected e rfl).1

theorem not_losesFrom_of_told {n left : Nat} {d d' : D} {a : α} (reaches : (fates n).Reaches exec (callback n) d a d')
    (told : (fates n).commit = .acknowledged) : ¬ LosesFrom exec fates callback d n left := by
  have kept : ¬ (fates n).Loses exec (callback n) d := by
    rintro ⟨_, _, _, lost⟩
    rw [told] at lost
    cases lost
  rw [losesFrom_succ kept]
  rintro ⟨_, _, unsettled, _⟩
  apply unsettled
  refine ⟨a, d', reaches, ?_⟩
  rw [told]
  simp

variable (exec fates callback) in
/-- Attempts keep their promise just if none of them loses its acknowledgement. -/
theorem attempts_truthful_iff (n left : Nat) (d : D) :
    Truthful (Takes exec callback) d (attempts exec fates callback n left ⟨d, none, []⟩) ↔
      ¬ LosesFrom exec fates callback d n left := by
  induction left generalizing n with
  | zero =>
    have ends := attempt_ends exec (fates n) (callback n) d []
    have only : attempts exec fates callback n 0 ⟨d, none, []⟩ =
        attempt exec (fates n) (callback n) ⟨d, none, []⟩ := rfl
    rw [only]
    generalize attempt exec (fates n) (callback n) ⟨d, none, []⟩ = r at ends
    cases ends with
    | answered a d' reaches told =>
      exact iff_of_true (truthful_answered reaches) (not_losesFrom_of_told reaches told)
    | lost a d' reaches untold =>
      have loses : (fates n).Loses exec (callback n) d := ⟨a, d', reaches, untold⟩
      exact iff_of_false (not_truthful_rejected d d' _) fun kept => kept (losesFrom_zero loses)
    | failed e unsettled =>
      apply iff_of_true (truthful_failed d e)
      rw [losesFrom_succ fun loses => unsettled (settles_of_loses loses)]
      rintro ⟨left', none, _⟩
      omega
  | succ left ih =>
    have ends := attempt_ends exec (fates n) (callback n) d []
    generalize here : attempt exec (fates n) (callback n) ⟨d, none, []⟩ = r at ends
    cases ends with
    | answered a d' reaches told =>
      rw [attempts_answered here]
      exact iff_of_true (truthful_answered reaches) (not_losesFrom_of_told reaches told)
    | lost a d' reaches untold =>
      have loses : (fates n).Loses exec (callback n) d := ⟨a, d', reaches, untold⟩
      rw [attempts_succ here]
      refine iff_of_false ?_ fun kept => kept (losesFrom_zero loses)
      split
      · exact not_truthful_rejected d d' _
      · exact not_truthful_of_lost
    | failed e unsettled =>
      rw [attempts_succ here, losesFrom_succ fun loses => unsettled (settles_of_loses loses)]
      cases pause : (fates n).pause with
      | true =>
        rw [if_pos rfl]
        apply iff_of_true (truthful_failed d _)
        rintro ⟨_, _, _, goesOn, _⟩
        cases goesOn
      | false =>
        rw [if_neg Bool.false_ne_true, ih (n + 1)]
        apply not_congr
        constructor
        · intro loses
          exact ⟨left, rfl, unsettled, rfl, loses⟩
        · rintro ⟨left', same, _, _, loses⟩
          obtain rfl : left = left' := by omega
          exact loses

end

/-- An attempt whose `COMMIT` takes effect is made and loses its acknowledgement. -/
def Loses (exec : Program.Semantics (Thrown ε) R D) (host : Host) (retryAttempts : Nat) (fates : Nat → Fate)
    (context : JsValue) (callback : Nat → Actor.TenantContext → Program (Thrown ε) R α) (d : D) : Prop :=
  ∃ canonical, Actor.assertTenantContext host context = .ok canonical ∧
    LosesFrom exec fates (fun n => callback n canonical) d 0 retryAttempts

/-- A call keeps its promise just if none of its attempts loses its acknowledgement. -/
theorem withTenantTransaction_truthful_iff (host : Host) (retryAttempts : Nat) (fates : Nat → Fate)
    (context : JsValue) (callback : Nat → Actor.TenantContext → Program (Thrown ε) R α) (d : D) :
    Truthful (fun a d d' => ∃ canonical, Actor.assertTenantContext host context = .ok canonical ∧
        Takes exec (fun n => callback n canonical) a d d') d
      (withTenantTransaction exec host retryAttempts fates context callback ⟨d, none, []⟩) ↔
      ¬ Loses exec host retryAttempts fates context callback d := by
  unfold withTenantTransaction Loses
  cases opened : Actor.assertTenantContext host context with
  | error e =>
    refine iff_of_true (truthful_failed d .foreign) ?_
    rintro ⟨canonical, same, _⟩
    cases same
  | ok canonical =>
    have kept := attempts_truthful_iff exec fates (fun n => callback n canonical) 0 retryAttempts d
    simp only [Except.ok.injEq, exists_eq_left']
    exact kept

end

end GuloGulo.Integrations.Postgres
