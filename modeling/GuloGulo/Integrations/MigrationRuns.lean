import GuloGulo.Data.Machine
import GuloGulo.Integrations.Migrations
import GuloGulo.Js.Sha256
import GuloGulo.Sql.Serial

/-!
# Migrations run exactly once

Any number of runs, each with the migrations of its own directory, send their
statements to one database in any order, and any statement of any of them may
fail. The lock makes them one after another; what a run alone does is proved
first.
-/

namespace GuloGulo.Integrations.Migrations
open Js Data Sql

section
variable {S : Type} {apply : JsString → S → Option S}

/-! ## One run alone -/

def Database.rows (d : Database S) : List (JsString × JsString) := d.migrations.elim [] Table.rows

/-- The schema after the migrations. -/
def migrated (apply : JsString → S → Option S) (schema : S) (executed : List Migration) : Option S :=
  executed.foldlM (fun s m => apply m.sql s) schema

/-- What is in the database is what these migrations have done, and they are what is recorded. -/
structure Executed (apply : JsString → S → Option S) (initial : S) (executed : List Migration) (d : Database S) :
    Prop where
  schema : migrated apply initial executed = some d.schema
  recorded : d.rows = executed.map fun m => (m.version, m.checksum)
  once : (executed.map Migration.version).Nodup

theorem known_append_of_some {rows more : List (JsString × JsString)} {version checksum : JsString}
    (h : known rows version = some checksum) : known (rows ++ more) version = some checksum := by
  obtain ⟨row, found, rfl⟩ := Option.map_eq_some_iff.mp h
  rw [known, List.find?_append, found]
  rfl

theorem known_append_fresh {rows : List (JsString × JsString)} {version checksum : JsString}
    (h : known rows version = none) : known (rows ++ [(version, checksum)]) version = some checksum := by
  rw [known, List.find?_append, Option.map_eq_none_iff.mp h]
  simp

theorem known_rows (migrations : OrderedMap JsString JsString) (version : JsString) :
    known migrations.rows version = migrations.get version := rfl

attribute [local simp] Database.rows in
/-- The statements of one migration that is not recorded. -/
theorem execute_run {d d' : Database S} {m : Migration}
    (h : (do
      Program.send (Statement.migrate m.sql)
      Program.send (Statement.insertMigration m.version m.checksum) : Body Unit).run (Statement.exec apply) d =
        .ok ((), d')) :
    known d.rows m.version = none ∧ d'.rows = d.rows ++ [(m.version, m.checksum)] ∧
      apply m.sql d.schema = some d'.schema := by
  obtain ⟨_, e, sent, h⟩ := Program.run_send_bind_eq_ok.mp h
  rw [Program.run_send] at h
  cases done : apply m.sql d.schema with
  | none =>
    simp only [Statement.exec, done] at sent
    cases sent
  | some schema =>
    simp only [Statement.exec, done] at sent
    cases sent
    cases table : d.migrations with
    | none =>
      simp only [Statement.exec, table] at h
      cases h
    | some migrations =>
      simp only [Statement.exec, table] at h
      by_cases fresh : (migrations.get m.version).isSome
      · rw [if_pos fresh] at h
        cases h
      · rw [if_neg fresh] at h
        cases h
        have absent : migrations.get m.version = none := by
          rwa [Bool.not_eq_true, Option.isSome_eq_false_iff, Option.isNone_iff_eq_none] at fresh
        refine ⟨?_, ?_, rfl⟩
        · rw [Database.rows, table, Option.elim_some, known_rows, absent]
        · rw [Database.rows, Database.rows, table, Option.elim_some, Option.elim_some]
          exact OrderedMap.rows_set_fresh absent m.checksum

/-- What running one or more migrations has done. -/
structure Ran (apply : JsString → S → Option S) (checksums : List (JsString × JsString)) (migrations : List Migration)
    (d d' : Database S) : Prop where
  executed : ∀ initial before, Executed apply initial before d →
    ∃ after, Executed apply initial after d' ∧ ∀ m ∈ after, m ∈ before ∨ m ∈ migrations
  grows : ∃ more, d'.rows = d.rows ++ more
  recorded : ∀ m ∈ migrations, known d'.rows m.version = some m.checksum
  matched : ∀ m ∈ migrations, ∀ checksum, known checksums m.version = some checksum → checksum = m.checksum

theorem Ran.keeps {checksums : List (JsString × JsString)} {migrations : List Migration} {d d' : Database S}
    (h : Ran apply checksums migrations d d') {version checksum : JsString}
    (there : known d.rows version = some checksum) : known d'.rows version = some checksum := by
  obtain ⟨more, rows⟩ := h.grows
  rw [rows]
  exact known_append_of_some there

theorem applyMigration_ran {checksums : List (JsString × JsString)} {m : Migration} {d d' : Database S}
    (read : ∀ version checksum, known checksums version = some checksum → known d.rows version = some checksum)
    (h : (applyMigration checksums m).run (Statement.exec apply) d = .ok ((), d')) : Ran apply checksums [m] d d' := by
  unfold applyMigration at h
  cases before : known checksums m.version with
  | some knownChecksum =>
    rw [before] at h
    dsimp only at h
    by_cases differs : knownChecksum ≠ m.checksum
    · rw [if_pos differs] at h
      cases h
    · rw [if_neg differs] at h
      cases h
      have same : knownChecksum = m.checksum := Decidable.not_not.mp differs
      refine ⟨fun initial executed h => ⟨executed, h, fun _ => .inl⟩, ⟨[], (List.append_nil _).symm⟩, ?_, ?_⟩
      · intro m' hm
        rw [List.mem_singleton.mp hm, read _ _ before, same]
      · intro m' hm checksum found
        rw [List.mem_singleton.mp hm, before, Option.some_inj] at found
        rw [List.mem_singleton.mp hm, ← found, same]
  | none =>
    rw [before] at h
    obtain ⟨fresh, rows, done⟩ := execute_run h
    refine ⟨?_, ⟨_, rows⟩, ?_, ?_⟩
    · intro initial executed was
      refine ⟨executed ++ [m], ⟨?_, ?_, ?_⟩, ?_⟩
      · rw [migrated, List.foldlM_append]
        have start := was.schema
        rw [migrated] at start
        rw [start]
        show (apply m.sql d.schema >>= fun s => some s) = _
        rw [done]
        rfl
      · rw [rows, was.recorded, List.map_append]
        rfl
      · rw [List.map_append, List.nodup_append]
        refine ⟨was.once, (by simp), ?_⟩
        intro a ha b hb same
        rw [List.map_singleton, List.mem_singleton] at hb
        obtain ⟨m', hm', rfl⟩ := List.mem_map.mp ha
        rw [was.recorded, known, Option.map_eq_none_iff, List.find?_eq_none] at fresh
        exact fresh _ (List.mem_map_of_mem hm') (by simpa using same.trans hb)
      · intro m' hm'
        exact List.mem_append.mp hm'
    · intro m' hm
      rw [List.mem_singleton.mp hm, rows]
      exact known_append_fresh fresh
    · intro m' hm checksum found
      rw [List.mem_singleton.mp hm, before] at found
      cases found

theorem applyMigrations_ran {checksums : List (JsString × JsString)} {migrations : List Migration} {d d' : Database S}
    (read : ∀ version checksum, known checksums version = some checksum → known d.rows version = some checksum)
    (h : (applyMigrations checksums migrations).run (Statement.exec apply) d = .ok ((), d')) :
    Ran apply checksums migrations d d' := by
  induction migrations generalizing d with
  | nil =>
    cases h
    exact ⟨fun initial executed h => ⟨executed, h, fun _ => .inl⟩, ⟨[], (List.append_nil _).symm⟩, nofun, nofun⟩
  | cons m migrations ih =>
    rw [applyMigrations, Program.run_bind_eq_ok] at h
    obtain ⟨_, e, one, rest⟩ := h
    have first := applyMigration_ran read one
    have others := ih (fun version checksum found => first.keeps (read version checksum found)) rest
    obtain ⟨more, rows⟩ := first.grows
    obtain ⟨more', rows'⟩ := others.grows
    refine ⟨?_, ⟨more ++ more', by rw [rows', rows, List.append_assoc]⟩, ?_, ?_⟩
    · intro initial before was
      obtain ⟨mid, executed, origin⟩ := first.executed initial before was
      obtain ⟨after, executed', origin'⟩ := others.executed initial mid executed
      refine ⟨after, executed', ?_⟩
      intro m' hm'
      rcases origin' m' hm' with earlier | new
      · rcases origin m' earlier with older | this
        · exact .inl older
        · exact .inr (List.mem_cons.mpr (.inl (List.mem_singleton.mp this)))
      · exact .inr (List.mem_cons_of_mem m new)
    · rw [List.forall_mem_cons]
      exact ⟨others.keeps (first.recorded m List.mem_cons_self), others.recorded⟩
    · rw [List.forall_mem_cons]
      exact ⟨first.matched m List.mem_cons_self, others.matched⟩

/-- What a run does that gets to its `COMMIT`. -/
theorem runBody_ran {migrations : List Migration} {d d' : Database S} {result : MigrationRunResult}
    (h : (runBody migrations).run (Statement.exec apply) d = .ok (result, d')) :
    result = runResult migrations ∧ ∃ e, e.rows = d.rows ∧ e.schema = d.schema ∧ Ran apply d.rows migrations e d' := by
  unfold runBody at h
  obtain ⟨_, _, locked, h⟩ := Program.run_send_bind_eq_ok.mp h
  cases locked
  obtain ⟨_, _, created, h⟩ := Program.run_send_bind_eq_ok.mp h
  cases created
  obtain ⟨_, _, selected, h⟩ := Program.run_send_bind_eq_ok.mp h
  cases selected
  rw [Program.run_bind_eq_ok] at h
  obtain ⟨_, f, applied, h⟩ := h
  cases h
  have same : (d.migrations.getD Table.empty).rows = d.rows := by
    rw [Database.rows]
    cases d.migrations with
    | none => rfl
    | some migrations => rfl
  refine ⟨rfl, { d with migrations := some (d.migrations.getD Table.empty) }, same, rfl, ?_⟩
  rw [same] at applied
  apply applyMigrations_ran _ applied
  intro version checksum found
  show known (d.migrations.getD Table.empty).rows version = some checksum
  rw [same]
  exact found

/-! ## Behind the lock -/

/-- Whoever has the lock keeps all others from committing. -/
def amongRuns (S : Type) : Rely (Database S) Unit where
  commit _ _ := True
  same _ d d' := d = d'
  commit_refl _ := trivial
  commit_trans _ _ := trivial
  same_refl _ _ := rfl
  same_trans h h' := h.trans h'

theorem body_local (p : Body MigrationRunResult) : p.Local (Statement.exec apply) Eq fun _ _ => True := by
  induction p with
  | pure a => trivial
  | throw e => trivial
  | query q next ih =>
    refine ⟨?_, ih⟩
    intro d e r d' same sent
    subst same
    exact ⟨d', sent, rfl, trivial⟩

/-- A run has the lock when it commits, and commits what it does alone. -/
def Commits (apply : JsString → S → Option S) (program : Body MigrationRunResult) (result : MigrationRunResult)
    (d : Database S) (writes : Database S → Database S) (held : List Unit) : Prop :=
  () ∈ held ∧ program.run (Statement.exec apply) d = .ok (result, writes d)

theorem runBody_holds (migrations : List Migration) (d : Database S) :
    (runBody migrations).Holds (Statement.exec apply) Statement.locks (amongRuns S)
      (Commits apply (runBody migrations)) d (fun x => x) [] := by
  intro d' _ r v sent
  cases sent
  apply Program.holds_mono
  · apply Program.holds_run Eq (fun _ _ => True) (fun same => same.symm)
      (fun same same' => same.trans same') (body_local _) (k := ()) List.mem_cons_self
    intro x same
    exact congrArg _ same
  · rintro result e writes held ⟨run, locked, _⟩
    exact ⟨locked, run⟩

theorem body_commits {program : Body MigrationRunResult} {result : MigrationRunResult} {d : Database S}
    {writes : Database S → Database S} {held : List Unit} (h : Commits apply program result d writes held) :
    (amongRuns S).Commits d writes held :=
  ⟨trivial, fun _ free => absurd h.1 free⟩

end

/-! ## Runs side by side -/

inductive Outcome where
  | running
  | rejected
  | resolved (result : MigrationRunResult)

structure Runs (ι S : Type) where
  server : Server ι (Thrown MigrationError) Statement.Answer (Database S) Unit MigrationRunResult
  outcome : ι → Outcome

/-- A `COMMIT` may be carried out and its answer lost. -/
inductive RunEvent (ι : Type) where
  | begins (i : ι)
  | sends (i : ι)
  | resolves (i : ι) (result : MigrationRunResult)
  | unanswered (i : ι) (result : MigrationRunResult)
  | rejects (i : ι)
  | rollsBack (i : ι)

def RunEvent.run {ι : Type} : RunEvent ι → ι
  | begins i | sends i | resolves i _ | unanswered i _ | rejects i | rollsBack i => i

section
variable {ι S : Type} [DecidableEq ι] (apply : JsString → S → Option S) (load : ι → Except Unit (List Migration))

/-- A run rejects when it has not read its directory or a statement of it has
failed, `BEGIN` and `COMMIT` among them. Its transaction is then rolled back,
by `ROLLBACK` or with its connection, and until then it has the lock. -/
inductive RunStep (s : Runs ι S) : RunEvent ι → Runs ι S → Prop where
  | begins {i : ι} {migrations : List Migration} {server} (running : s.outcome i = .running)
      (loaded : load i = .ok migrations)
      (step : s.server.Step (Statement.exec apply) Statement.locks i (.begins (runBody migrations)) server) :
      RunStep s (.begins i) { s with server }
  | sends {i : ι} {server} (running : s.outcome i = .running)
      (step : s.server.Step (Statement.exec apply) Statement.locks i .sends server) : RunStep s (.sends i) { s with server }
  | resolves {i : ι} {result : MigrationRunResult} {server} (running : s.outcome i = .running)
      (step : s.server.Step (Statement.exec apply) Statement.locks i (.commits result) server) :
      RunStep s (.resolves i result) ⟨server, Function.update s.outcome i (.resolved result)⟩
  | unanswered {i : ι} {result : MigrationRunResult} {server} (running : s.outcome i = .running)
      (step : s.server.Step (Statement.exec apply) Statement.locks i (.commits result) server) :
      RunStep s (.unanswered i result) ⟨server, Function.update s.outcome i .rejected⟩
  | rejects {i : ι} (running : s.outcome i = .running) :
      RunStep s (.rejects i) { s with outcome := Function.update s.outcome i .rejected }
  | rollsBack {i : ι} {server} (rejected : s.outcome i = .rejected)
      (step : s.server.Step (Statement.exec apply) Statement.locks i .rollsBack server) :
      RunStep s (.rollsBack i) { s with server }

/-- From a database without the table of the runner. -/
def migrationRuns (initial : S) : Machine (Runs ι S) (RunEvent ι) where
  Start s := s = ⟨⟨⟨none, initial⟩, fun _ => none⟩, fun _ => .running⟩
  Step s e s' := RunStep apply load s e s'

variable (host : Host) (directories : ι → Listing × Listing)

/-- The migrations of the directories of a run. -/
def loads (i : ι) : Except Unit (List Migration) := loadMigrations host (directories i).1 (directories i).2

/-- Every migration has taken effect once or not at all, and is recorded with
the digest of its file if it has; a run that resolves leaves its migrations
applied and has found no other digest recorded for them; a run that rejects has
changed nothing, unless the answer to its `COMMIT` was lost. -/
structure ExactlyOnce (initial : S) (past : List (RunEvent ι)) (s : Runs ι S) : Prop where
  once : ∃ executed, Executed apply initial executed s.server.committed ∧
    ∀ m ∈ executed, ∃ i, ReadFrom host (directories i).1 (directories i).2 m
  applied : ∀ i result, s.outcome i = .resolved result →
    (∃ migrations, loads host directories i = .ok migrations ∧ result = runResult migrations) ∧
    ∀ m, ReadFrom host (directories i).1 (directories i).2 m →
      known s.server.committed.rows m.version = some (hex (host.sha256 (utf8 m.sql)))
  matched : ∀ i result later earlier, past = later ++ .resolves i result :: earlier → ∃ before after,
    (migrationRuns apply (loads host directories) initial).Run earlier before ∧
    RunStep apply (loads host directories) before (.resolves i result) after ∧
    ∀ m, ReadFrom host (directories i).1 (directories i).2 m → ∀ checksum,
      known before.server.committed.rows m.version = some checksum → checksum = hex (host.sha256 (utf8 m.sql))
  unchanged : ∀ i, s.outcome i = .rejected → ∀ later e earlier, past = later ++ e :: earlier → e.run = i →
    (∀ result, e ≠ .unanswered i result) → ∃ before after,
      (migrationRuns apply (loads host directories) initial).Run earlier before ∧
      RunStep apply (loads host directories) before e after ∧ after.server.committed = before.server.committed

end

section
variable {ι S : Type} [DecidableEq ι] {apply : JsString → S → Option S} {load : ι → Except Unit (List Migration)}
  {initial : S} {past : List (RunEvent ι)} {s s' : Runs ι S}

/-- The statements of a run; one that could not read its directory has none. -/
def bodyOf (loaded : Except Unit (List Migration)) : Body MigrationRunResult :=
  match loaded with
  | .ok migrations => runBody migrations
  | .error _ => .throw .foreign

theorem commits_loaded {loaded : Except Unit (List Migration)} {result : MigrationRunResult} {d : Database S}
    {writes : Database S → Database S} {held : List Unit} (h : Commits apply (bodyOf loaded) result d writes held) :
    ∃ migrations, loaded = .ok migrations ∧ result = runResult migrations ∧
      ∃ e, e.rows = d.rows ∧ e.schema = d.schema ∧ Ran apply d.rows migrations e (writes d) := by
  cases loaded with
  | error => cases h.2
  | ok migrations =>
    obtain ⟨is, ran⟩ := runBody_ran h.2
    exact ⟨migrations, rfl, is, ran⟩

theorem Executed.congr {executed : List Migration} {d e : Database S} (h : Executed apply initial executed d)
    (rows : e.rows = d.rows) (schema : e.schema = d.schema) : Executed apply initial executed e :=
  ⟨by rw [schema]; exact h.schema, by rw [rows]; exact h.recorded, h.once⟩

structure Kept (apply : JsString → S → Option S) (load : ι → Except Unit (List Migration)) (initial : S)
    (past : List (RunEvent ι)) (s : Runs ι S) : Prop where
  sound : s.server.Sound (Statement.exec apply) Statement.locks (amongRuns S) fun i => Commits apply (bodyOf (load i))
  once : ∃ executed, Executed apply initial executed s.server.committed ∧
    ∀ m ∈ executed, ∃ i migrations, load i = .ok migrations ∧ m ∈ migrations
  applied : ∀ i result, s.outcome i = .resolved result → ∃ migrations, load i = .ok migrations ∧
    result = runResult migrations ∧ ∀ m ∈ migrations, known s.server.committed.rows m.version = some m.checksum
  ended : ∀ i result, .resolves i result ∈ past → s.outcome i = .resolved result

/-- A step of a transaction that is not its commit. -/
theorem Kept.quiet (h : Kept apply load initial past s) {i : ι} {e : Sql.Event _ _ _} {event : RunEvent ι} {server}
    (step : s.server.Step (Statement.exec apply) Statement.locks i e server) (still : ∀ a, e ≠ .commits a)
    (begins : ∀ p, e = .begins p → p = bodyOf (load i)) (other : ∀ i result, event ≠ .resolves i result) :
    Kept apply load initial (event :: past) { s with server } := by
  have same : server.committed = s.server.committed := Server.step_committed step still
  refine ⟨?_, ?_, ?_, ?_⟩
  · apply Server.step_sound h.sound step _ fun _ _ _ _ _ => body_commits
    intro p hp
    have is := begins p hp
    cases loaded : load i with
    | ok migrations =>
      rw [loaded] at is
      rw [is]
      exact runBody_holds migrations _
    | error =>
      rw [loaded] at is
      rw [is]
      trivial
  · show ∃ executed, Executed apply initial executed server.committed ∧ _
    rw [same]
    exact h.once
  · show ∀ i result, s.outcome i = .resolved result → ∃ migrations, load i = .ok migrations ∧ _ ∧ ∀ m ∈ migrations,
      known server.committed.rows m.version = some m.checksum
    rw [same]
    exact h.applied
  · intro j result hj
    rcases List.mem_cons.mp hj with here | hj
    · exact absurd here.symm (other j result)
    · exact h.ended j result hj

theorem Kept.outcome (h : Kept apply load initial past s) {i : ι} (running : s.outcome i = .running) :
    Kept apply load initial (.rejects i :: past) { s with outcome := Function.update s.outcome i .rejected } := by
  refine ⟨h.sound, h.once, ?_, ?_⟩
  · intro j result hj
    change Function.update s.outcome i .rejected j = .resolved result at hj
    by_cases same : j = i
    · subst same
      rw [Function.update_self] at hj
      cases hj
    · rw [Function.update_of_ne same] at hj
      exact h.applied j result hj
  · intro j result hj
    rcases List.mem_cons.mp hj with here | hj
    · cases here
    · have was := h.ended j result hj
      have other : j ≠ i := by
        rintro rfl
        rw [running] at was
        cases was
      show Function.update s.outcome i .rejected j = _
      rw [Function.update_of_ne other]
      exact was

/-- A commit is what the run does alone, whether its answer arrives or not. -/
theorem Kept.commits (h : Kept apply load initial past s) {i : ι} {result : MigrationRunResult} {server}
    {event : RunEvent ι} {outcome : Outcome} (running : s.outcome i = .running)
    (step : s.server.Step (Statement.exec apply) Statement.locks i (.commits result) server)
    (ends : outcome = .resolved result ∨ outcome = .rejected)
    (seen : ∀ j answer, event = .resolves j answer → j = i ∧ outcome = .resolved answer) :
    Kept apply load initial (event :: past) ⟨server, Function.update s.outcome i outcome⟩ := by
  obtain ⟨writes, held, done, committed, _⟩ := Server.commits_post h.sound step
  obtain ⟨migrations, loaded, is, e, rows, schema, ran⟩ := commits_loaded done
  rw [← committed] at ran
  refine ⟨?_, ?_, ?_, ?_⟩
  · apply Server.step_sound h.sound step _ fun _ _ _ _ _ => body_commits
    intro p hp
    cases hp
  · obtain ⟨executed, was, origin⟩ := h.once
    obtain ⟨after, now, origin'⟩ := ran.executed initial executed (was.congr rows schema)
    refine ⟨after, now, ?_⟩
    intro m hm
    rcases origin' m hm with older | this
    · exact origin m older
    · exact ⟨i, migrations, loaded, this⟩
  · intro j answer hj
    change Function.update s.outcome i outcome j = .resolved answer at hj
    by_cases same : j = i
    · subst same
      rw [Function.update_self] at hj
      rcases ends with resolved | rejected
      · cases hj.symm.trans resolved
        exact ⟨migrations, loaded, is, ran.recorded⟩
      · cases hj.symm.trans rejected
    · rw [Function.update_of_ne same] at hj
      obtain ⟨others, loaded', is', there⟩ := h.applied j answer hj
      refine ⟨others, loaded', is', fun m hm => ran.keeps ?_⟩
      rw [rows]
      exact there m hm
  · intro j answer hj
    rcases List.mem_cons.mp hj with here | hj
    · obtain ⟨rfl, resolved⟩ := seen j answer here.symm
      exact (Function.update_self ..).trans resolved
    · have was := h.ended j answer hj
      have other : j ≠ i := by
        rintro rfl
        rw [running] at was
        cases was
      show Function.update s.outcome i _ j = _
      rw [Function.update_of_ne other]
      exact was

theorem run_kept (run : (migrationRuns apply load initial).Run past s) : Kept apply load initial past s := by
  apply run.invariant (P := Kept apply load initial)
  · intro s start
    rw [show s = _ from start]
    refine ⟨Server.sound_idle _, ⟨[], ⟨rfl, rfl, .nil⟩, nofun⟩, ?_, nofun⟩
    intro i result h
    cases h
  · intro past s event s' kept step
    cases step with
    | begins running loaded step =>
      apply kept.quiet step nofun _ fun _ _ same => by cases same
      intro p hp
      cases hp
      rw [loaded]
      rfl
    | sends running step => exact kept.quiet step nofun nofun fun _ _ same => by cases same
    | resolves running step =>
      apply kept.commits running step (.inl rfl)
      intro j answer same
      cases same
      exact ⟨rfl, rfl⟩
    | unanswered running step => exact kept.commits running step (.inr rfl) fun _ _ same => by cases same
    | rejects running => exact kept.outcome running
    | rollsBack rejected step => exact kept.quiet step nofun nofun fun _ _ same => by cases same

end

/-- However their statements fall between each other and wherever they fail,
runs apply every migration exactly once. -/
theorem migrations_exactly_once {ι S : Type} [DecidableEq ι] {apply : JsString → S → Option S} {host : Host}
    {directories : ι → Listing × Listing} {initial : S} {past : List (RunEvent ι)} {s : Runs ι S}
    (run : (migrationRuns apply (loads host directories) initial).Run past s) :
    ExactlyOnce apply host directories initial past s := by
  have kept := run_kept run
  have digest {i : ι} {m : Migration} (read : ReadFrom host (directories i).1 (directories i).2 m) :
      m.checksum = hex (host.sha256 (utf8 m.sql)) := by
    obtain ⟨_, _, contains⟩ := read
    exact contains.digest
  refine ⟨?_, ?_, ?_, ?_⟩
  · obtain ⟨executed, is, origin⟩ := kept.once
    refine ⟨executed, is, fun m hm => ?_⟩
    obtain ⟨i, migrations, loaded, inside⟩ := origin m hm
    exact ⟨i, (loadMigrations_reads loaded m).mp inside⟩
  · intro i result resolved
    obtain ⟨migrations, loaded, is, recorded⟩ := kept.applied i result resolved
    refine ⟨⟨migrations, loaded, is⟩, fun m read => ?_⟩
    rw [← digest read]
    exact recorded m ((loadMigrations_reads loaded m).mpr read)
  · intro i result later earlier split
    obtain ⟨before, after, prior, step⟩ := run.happened split
    refine ⟨before, after, prior, step, ?_⟩
    cases step with
    | resolves running step =>
      obtain ⟨writes, held, done, _⟩ := Server.commits_post (run_kept prior).sound step
      obtain ⟨migrations, loaded, _, _, _, _, ran⟩ := commits_loaded done
      intro m read checksum found
      rw [← digest read]
      exact ran.matched m ((loadMigrations_reads loaded m).mpr read) checksum found
  · intro i rejected later e earlier split whose answered
    obtain ⟨before, after, prior, step⟩ := run.happened split
    refine ⟨before, after, prior, step, ?_⟩
    cases step with
    | begins running loaded step => exact Server.step_committed step nofun
    | sends running step => exact Server.step_committed step nofun
    | resolves running step =>
      have ended := kept.ended _ _ (by rw [split]; exact List.mem_append_right _ List.mem_cons_self)
      subst whose
      cases ended.symm.trans rejected
    | unanswered running step =>
      subst whose
      exact absurd rfl (answered _)
    | rejects running => rfl
    | rollsBack rejected' step => exact Server.step_committed step nofun

/-- A run with no other beside it gets to its `COMMIT` when its statements succeed. -/
theorem run_alone {ι S : Type} [DecidableEq ι] (apply : JsString → S → Option S)
    (load : ι → Except Unit (List Migration)) (initial : S) (i : ι) {migrations : List Migration} {result : MigrationRunResult}
    {d : Database S} (loaded : load i = .ok migrations)
    (run : (runBody migrations).run (Statement.exec apply) ⟨none, initial⟩ = .ok (result, d)) :
    ∃ past t, (migrationRuns apply load initial).Run past ⟨t, fun _ => .running⟩ ∧
      t.Step (Statement.exec apply) Statement.locks i (.commits result) ⟨d, fun _ => none⟩ := by
  obtain ⟨s, t, begins, sends, commits⟩ := Server.transaction_alone Statement.locks i run
  suffices sent : ∃ past, (migrationRuns apply load initial).Run past ⟨t, fun _ => .running⟩ by
    obtain ⟨past, sent⟩ := sent
    exact ⟨past, t, sent, commits⟩
  clear commits
  induction sends with
  | refl => exact ⟨_, .next (.start rfl) (.begins rfl loaded begins)⟩
  | tail _ step ih =>
    obtain ⟨past, before⟩ := ih
    exact ⟨_, before.next (.sends rfl step)⟩

/-- A directory with one migration. -/
def foundation : Listing :=
  .files (OrderedMap.set Table.empty (js "0001_m2_foundation.sql") (js "CREATE TABLE tenants ()"))

/-- The schema is the list of what has been executed. -/
def logged (sql : JsString) (schema : List JsString) : Option (List JsString) := some (schema ++ [sql])

theorem foundation_commits : ∃ past t d,
    (migrationRuns logged (loads asciiHost fun _ : Unit => (foundation, .missing)) []).Run past ⟨t, fun _ => .running⟩ ∧
    t.Step (Statement.exec logged) Statement.locks ()
      (.commits ⟨some (js "0001_m2_foundation"), [js "0001_m2_foundation"]⟩) ⟨d, fun _ => none⟩ ∧
    d.schema = [js "CREATE TABLE tenants ()"] ∧
    d.rows = [(js "0001_m2_foundation", js "ee6e4de8c7299281a54e0ca35424417db14cdfd7cd9853d5ad73c692cd023373")] := by
  obtain ⟨migrations, loaded⟩ : ∃ migrations, loadMigrations asciiHost foundation .missing = .ok migrations := ⟨_, rfl⟩
  have ends : ((do
      let migrations ← (loadMigrations asciiHost foundation .missing).mapError fun _ => .foreign
      let (result, d) ← (runBody migrations).run (Statement.exec logged) ⟨none, []⟩
      return (result, d.schema, d.rows)) : Except (Thrown MigrationError) _) =
      .ok (⟨some (js "0001_m2_foundation"), [js "0001_m2_foundation"]⟩, [js "CREATE TABLE tenants ()"],
        [(js "0001_m2_foundation", js "ee6e4de8c7299281a54e0ca35424417db14cdfd7cd9853d5ad73c692cd023373")]) := by
    decide +kernel
  rw [loaded] at ends
  obtain ⟨_, read, ends⟩ := bind_eq_ok.mp ends
  cases read
  obtain ⟨⟨result, d⟩, run, same⟩ := bind_eq_ok.mp ends
  obtain ⟨rfl, schema, rows⟩ : result = _ ∧ d.schema = _ ∧ d.rows = _ := by
    simpa only [Prod.mk.injEq] using Except.ok.inj same
  obtain ⟨past, t, sent, commits⟩ := run_alone logged (loads asciiHost fun _ : Unit => (foundation, .missing)) [] () loaded run
  exact ⟨past, t, d, sent, commits, schema, rows⟩

theorem migrations_exactly_once_one : ∃ past s,
    s.outcome () = .resolved ⟨some (js "0001_m2_foundation"), [js "0001_m2_foundation"]⟩ ∧
    s.server.committed.rows =
      [(js "0001_m2_foundation", js "ee6e4de8c7299281a54e0ca35424417db14cdfd7cd9853d5ad73c692cd023373")] ∧
    ExactlyOnce logged asciiHost (fun _ : Unit => (foundation, .missing)) [] past s := by
  obtain ⟨past, t, d, sent, commits, _, rows⟩ := foundation_commits
  have run := sent.next (.resolves rfl commits)
  refine ⟨_, _, ?_, rows, migrations_exactly_once run⟩
  show Function.update (fun _ => Outcome.running) () (Outcome.resolved _) () = _
  rw [Function.update_self]

/-- The answer to the `COMMIT` is lost: the run rejects, and its migration has
taken effect. -/
theorem rejected_and_applied : ∃ past s,
    (migrationRuns logged (loads asciiHost fun _ : Unit => (foundation, .missing)) []).Run past s ∧
    s.outcome () = .rejected ∧ s.server.committed.schema = [js "CREATE TABLE tenants ()"] := by
  obtain ⟨past, t, d, sent, commits, schema, _⟩ := foundation_commits
  have run := sent.next (.unanswered rfl commits)
  refine ⟨_, _, run, ?_, schema⟩
  show Function.update (fun _ => Outcome.running) () Outcome.rejected () = _
  rw [Function.update_self]

end GuloGulo.Integrations.Migrations
