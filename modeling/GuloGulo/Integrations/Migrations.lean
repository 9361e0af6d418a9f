import GuloGulo.Data.Table
import GuloGulo.Js.Value
import GuloGulo.Sql.Interleaving

/-!
# Migrations

`run` of `integrations/migration-runner.ts`. What the SQL of a migration does
to the schema is a parameter; it has no statement that ends the transaction and
leaves the table of the runner alone. The schema is kept apart from that table.
-/

namespace GuloGulo.Integrations.Migrations
open Js Data Sql

/-- `[A-Za-z0-9_-]`. -/
def isVersionUnit (u : UInt16) : Bool := isAlnum u || u == 95 || u == 45

/-- `MIGRATION_FILE_PATTERN`. -/
def migrationFilePattern (name : JsString) : Bool :=
  let version := name.take (name.length - 4)
  endsWith name (js ".sql") && decide (6 ≤ version.length) && (version.take 4).all isDigit &&
    ((version.drop 4).head? == some 95) && (version.drop 5).all isVersionUnit

structure Migration where
  version : JsString
  checksum : JsString
  sql : JsString
  deriving DecidableEq

/-- What reading a directory finds: the texts of its files by their names. -/
inductive Listing where
  | missing
  | unreadable
  | files (texts : OrderedMap JsString JsString)

def readMigrations (host : Host) (texts : OrderedMap JsString JsString) : List Migration :=
  ((texts.keys.filter migrationFilePattern).mergeSort fun a b => decide (a ≤ b)).map fun name =>
    let sql := (texts.get name).getD []
    ⟨name.take (name.length - 4), hex (host.sha256 (utf8 sql)), sql⟩

/-- A directory that is missing is looked for among the sources. -/
def loadMigrations (host : Host) (directory sources : Listing) : Except Unit (List Migration) :=
  match directory, sources with
  | .files texts, _ => .ok (readMigrations host texts)
  | .missing, .files texts => .ok (readMigrations host texts)
  | _, _ => .error ()

/-- A file of a directory, under the digest of its text. -/
structure Contains (host : Host) (texts : OrderedMap JsString JsString) (m : Migration) : Prop where
  named : migrationFilePattern (m.version ++ js ".sql")
  text : texts.get (m.version ++ js ".sql") = some m.sql
  digest : m.checksum = hex (host.sha256 (utf8 m.sql))

theorem version_of_pattern {name : JsString} (h : migrationFilePattern name) :
    name.take (name.length - 4) ++ js ".sql" = name := by
  simp only [migrationFilePattern, endsWith, Bool.and_eq_true, List.isSuffixOf_iff_suffix] at h
  obtain ⟨⟨⟨⟨⟨version, rfl⟩, _⟩, _⟩, _⟩, _⟩ := h
  congr 1
  apply List.take_left'
  rw [List.length_append]
  rfl

theorem mem_readMigrations {host : Host} {texts : OrderedMap JsString JsString} {m : Migration} :
    m ∈ readMigrations host texts ↔ Contains host texts m := by
  unfold readMigrations
  rw [List.mem_map]
  constructor
  · rintro ⟨name, inside, rfl⟩
    rw [List.mem_mergeSort, List.mem_filter] at inside
    have whole := version_of_pattern inside.2
    refine ⟨?_, ?_, rfl⟩
    · show migrationFilePattern (name.take (name.length - 4) ++ js ".sql")
      rw [whole]
      exact inside.2
    · show texts.get (name.take (name.length - 4) ++ js ".sql") = some ((texts.get name).getD [])
      obtain ⟨⟨_, sql⟩, row, rfl⟩ := List.mem_map.mp inside.1
      rw [whole, OrderedMap.mem_rows.mp row, Option.getD_some]
  · rintro ⟨named, text, digest⟩
    refine ⟨m.version ++ js ".sql", ?_, ?_⟩
    · rw [List.mem_mergeSort, List.mem_filter]
      refine ⟨?_, named⟩
      by_contra absent
      rw [OrderedMap.get_eq_none_of_keys absent] at text
      cases text
    · have version : (m.version ++ js ".sql").take ((m.version ++ js ".sql").length - 4) = m.version := by
        apply List.take_left'
        rw [List.length_append]
        rfl
      simp only [version, text, Option.getD_some, ← digest]

/-- A migration that a run reads. -/
def ReadFrom (host : Host) (directory sources : Listing) (m : Migration) : Prop :=
  ∃ texts, (directory = .files texts ∨ directory = .missing ∧ sources = .files texts) ∧ Contains host texts m

/-- A run whose directories can be read reads every file in them that has the
name of a migration. -/
theorem loadMigrations_reads {host : Host} {directory sources : Listing} {migrations : List Migration}
    (h : loadMigrations host directory sources = .ok migrations) (m : Migration) :
    m ∈ migrations ↔ ReadFrom host directory sources m := by
  unfold loadMigrations at h
  unfold ReadFrom
  split at h
  · cases h
    rw [mem_readMigrations]
    constructor
    · exact fun inside => ⟨_, .inl rfl, inside⟩
    · rintro ⟨texts, same | ⟨same, _⟩, inside⟩
      · cases same
        exact inside
      · cases same
  · cases h
    rw [mem_readMigrations]
    constructor
    · exact fun inside => ⟨_, .inr ⟨rfl, rfl⟩, inside⟩
    · rintro ⟨texts, same | ⟨_, same⟩, inside⟩
      · cases same
      · cases same
        exact inside
  · cases h

inductive Statement where
  | lock
  | createTable
  | selectMigrations
  | migrate (sql : JsString)
  | insertMigration (version checksum : JsString)

abbrev Statement.Answer : Statement → Type
  | selectMigrations => List (JsString × JsString)
  | _ => Unit

/-- The table `schema_migrations`, if there is one, and the rest. -/
structure Database (S : Type) where
  migrations : Option (OrderedMap JsString JsString)
  schema : S

structure MigrationError where
  message : JsString
  deriving DecidableEq

def migrationError (message : JsString) : Thrown MigrationError := .contract ⟨js "Migration error: " ++ message⟩

section
variable {S : Type} (apply : JsString → S → Option S)

/-- The rows come in no particular order: their versions differ. -/
def Statement.exec : Program.Semantics (Thrown MigrationError) Statement.Answer (Database S)
  | lock, d => .ok ((), d)
  | createTable, d => .ok ((), { d with migrations := some (d.migrations.getD Table.empty) })
  | selectMigrations, d =>
    match d.migrations with
    | some migrations => .ok (migrations.rows, d)
    | none => .error .foreign
  | migrate sql, d =>
    match apply sql d.schema with
    | some schema => .ok ((), { d with schema })
    | none => .error .foreign
  | insertMigration version checksum, d =>
    match d.migrations with
    | some migrations =>
      if (migrations.get version).isSome then .error .foreign
      else .ok ((), { d with migrations := some (migrations.set version checksum) })
    | none => .error .foreign

/-- The advisory lock is held until the transaction ends. -/
def Statement.locks : Statement → Database S → List Unit
  | lock, _ => [()]
  | _, _ => []

end

structure MigrationRunResult where
  current : Option JsString
  applied : List JsString
  deriving DecidableEq

/-- `checksums.get`. -/
def known (rows : List (JsString × JsString)) (version : JsString) : Option JsString :=
  (rows.find? fun row => row.1 = version).map Prod.snd

abbrev Body (α : Type) : Type := Program (Thrown MigrationError) Statement.Answer α

def applyMigration (checksums : List (JsString × JsString)) (migration : Migration) : Body Unit :=
  match known checksums migration.version with
  | some knownChecksum =>
    if knownChecksum ≠ migration.checksum then .throw (migrationError (js "checksum mismatch for " ++ migration.version))
    else pure ()
  | none => do
    Program.send (Statement.migrate migration.sql)
    Program.send (Statement.insertMigration migration.version migration.checksum)

def applyMigrations (checksums : List (JsString × JsString)) : List Migration → Body Unit
  | [] => pure ()
  | migration :: migrations => do
    applyMigration checksums migration
    applyMigrations checksums migrations

def runResult (migrations : List Migration) : MigrationRunResult :=
  ⟨(migrations.getLast?).map Migration.version, migrations.map Migration.version⟩

/-- What is sent between `BEGIN` and `COMMIT`. -/
def runBody (migrations : List Migration) : Body MigrationRunResult := do
  Program.send Statement.lock
  Program.send Statement.createTable
  let existing ← Program.send Statement.selectMigrations
  applyMigrations existing migrations
  return runResult migrations

end GuloGulo.Integrations.Migrations
