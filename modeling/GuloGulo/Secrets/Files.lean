import GuloGulo.Secrets.SecretStore
import GuloGulo.Sql.Environment
import Mathlib.Data.List.Basic
import Mathlib.Logic.Function.Basic

/-!
# The directory of a secret

The files of one reference and what the file system answers about them. JSON
texts are kept as the values they stand for, a canonical timestamp in them as
its time: a `date` in such a value. The temporary file of a new state has a name
with a UUID, so only the call that opened it ever sees it.
-/

namespace GuloGulo.Secrets
open Js Sql

inductive Path where
  | lock
  | state
  | value (version : JsString)
  | metadata (version : JsString)
  deriving DecidableEq

/-- What a file can hold; `none` is no JSON text. -/
abbrev Path.Contents : Path → Type
  | lock => JsString
  | value _ => List UInt8
  | state | metadata _ => Option JsValue

def Path.empty : (path : Path) → path.Contents
  | lock | value _ => []
  | state | metadata _ => none

/-- A file by the handle it was opened with when it was made. -/
structure File (path : Path) where
  handle : Nat
  isFile : Bool
  contents : path.Contents

structure Disk where
  files : (path : Path) → Option (File path)
  /-- How many files have been made. -/
  opened : Nat

namespace Disk

def put (d : Disk) (path : Path) (file : Option (File path)) : Disk :=
  { d with files := Function.update d.files path file }

def create (d : Disk) (path : Path) (contents : path.Contents) : Disk :=
  { d.put path (some ⟨d.opened, true, contents⟩) with opened := d.opened + 1 }

/-- Writing by a handle reaches the file it was opened with, which may no
longer be at its path. -/
def write (d : Disk) (path : Path) (handle : Nat) (contents : path.Contents) : Disk :=
  match d.files path with
  | some file => if file.handle = handle then d.put path (some { file with contents }) else d
  | none => d

@[simp] theorem put_same (d : Disk) (path : Path) (file : Option (File path)) : (d.put path file).files path = file := by
  unfold put
  exact Function.update_self path file d.files

@[simp] theorem put_other (d : Disk) {path other : Path} (file : Option (File path)) (h : other ≠ path) :
    (d.put path file).files other = d.files other := by
  unfold put
  exact Function.update_of_ne h file d.files

@[simp] theorem create_same (d : Disk) (path : Path) (contents : path.Contents) :
    (d.create path contents).files path = some ⟨d.opened, true, contents⟩ :=
  d.put_same path _

@[simp] theorem create_other (d : Disk) {path other : Path} (contents : path.Contents) (h : other ≠ path) :
    (d.create path contents).files other = d.files other :=
  d.put_other _ h

@[simp] theorem write_other (d : Disk) {path other : Path} (handle : Nat) (contents : path.Contents) (h : other ≠ path) :
    (d.write path handle contents).files other = d.files other := by
  unfold write
  cases d.files path with
  | none => rfl
  | some file =>
    dsimp only
    split
    · exact d.put_other _ h
    · rfl

end Disk

structure FileStat where
  isFile : Bool
  size : Nat

/-- What is done to the temporary file of a new state, before it is renamed. -/
inductive TemporaryStep where
  | open (id : JsString)
  | write (contents : Option JsValue)
  | sync
  | close
  | unlink

/-- What a call asks of the file system, the clock and its options. A rename
carries what has been written to the temporary file. -/
inductive Operation where
  | mkdir
  | openExclusive (path : Path)
  | write (path : Path) (handle : Nat) (contents : path.Contents)
  | sync (path : Path)
  | close (path : Path)
  | readFile (path : Path)
  | statLock
  | statValue (version : JsString)
  | unlink (path : Path)
  | temporary (step : TemporaryStep)
  | rename (contents : Option JsValue)
  | readdir
  | now
  | sleep (milliseconds : Nat)
  | createVersion
  | randomUUID
  | audit (event : SecretAuditEvent)

/-- `statLock` answers `mtimeMs`. A listing has the names of the metadata
files, without the `.json`, and whether each is a file. -/
abbrev Operation.Result : Operation → Type
  | openExclusive _ => Nat
  | readFile path => path.Contents
  | statLock => Rat
  | statValue _ => FileStat
  | readdir => List (JsString × Bool)
  | now => Option Int
  | createVersion => JsValue
  | randomUUID => JsString
  | _ => Unit

abbrev Operation.Answer (op : Operation) : Type := Except SecretFailure op.Result

abbrev Call (α : Type) : Type := Program SecretFailure Operation.Answer α

def call (op : Operation) : Call op.Result := Program.send op >>= Program.lift

/-- What the options of the store bring. -/
def Operation.isCallback : Operation → Bool
  | now | sleep _ | createVersion | audit _ => true
  | _ => false

/-- How an operation may fail where nothing on the disk makes it. -/
def Operation.mayFail (op : Operation) (e : SecretFailure) : Prop :=
  e = .transient ∨ e = .other ∨ op.isCallback ∧ ∃ code, e = .store code

/-- A listing of the metadata files. -/
def Disk.Lists (d : Disk) (entries : List (JsString × Bool)) : Prop :=
  (entries.map Prod.fst).Nodup ∧ ∀ version isFile,
    (version, isFile) ∈ entries ↔ ∃ file, d.files (.metadata version) = some file ∧ file.isFile = isFile

/-- The answers an operation may get, and the disk after it. A write that fails
may leave anything in the file. -/
inductive Answers (faulty : Operation → SecretFailure → Prop) :
    Disk → (op : Operation) → op.Answer → Disk → Prop where
  | fails {d : Disk} {op : Operation} {e : SecretFailure} (can : faulty op e) : Answers faulty d op (.error e) d
  | tears {d : Disk} {path : Path} {handle : Nat} {contents : path.Contents} {e : SecretFailure}
      (can : faulty (.write path handle contents) e) (found : path.Contents) :
      Answers faulty d (.write path handle contents) (.error e) (d.write path handle found)
  | made {d : Disk} : Answers faulty d .mkdir (.ok ()) d
  | opened {d : Disk} {path : Path} (absent : d.files path = none) :
      Answers faulty d (.openExclusive path) (.ok d.opened) (d.create path path.empty)
  | taken {d : Disk} {path : Path} {file : File path} (there : d.files path = some file) :
      Answers faulty d (.openExclusive path) (.error .eexist) d
  | written {d : Disk} {path : Path} {handle : Nat} {contents : path.Contents} :
      Answers faulty d (.write path handle contents) (.ok ()) (d.write path handle contents)
  | synced {d : Disk} {path : Path} : Answers faulty d (.sync path) (.ok ()) d
  | closed {d : Disk} {path : Path} : Answers faulty d (.close path) (.ok ()) d
  | read {d : Disk} {path : Path} {file : File path} (there : d.files path = some file) :
      Answers faulty d (.readFile path) (.ok file.contents) d
  | noFile {d : Disk} {path : Path} (absent : d.files path = none) :
      Answers faulty d (.readFile path) (.error .enoent) d
  | lockStat {d : Disk} {file : File .lock} (there : d.files .lock = some file) (mtimeMs : Rat) :
      Answers faulty d .statLock (.ok mtimeMs) d
  | noLock {d : Disk} (absent : d.files .lock = none) : Answers faulty d .statLock (.error .enoent) d
  | valueStat {d : Disk} {version : JsString} {file : File (.value version)}
      (there : d.files (.value version) = some file) :
      Answers faulty d (.statValue version) (.ok ⟨file.isFile, file.contents.length⟩) d
  | noValue {d : Disk} {version : JsString} (absent : d.files (.value version) = none) :
      Answers faulty d (.statValue version) (.error .enoent) d
  | unlinked {d : Disk} {path : Path} {file : File path} (there : d.files path = some file) :
      Answers faulty d (.unlink path) (.ok ()) (d.put path none)
  | gone {d : Disk} {path : Path} (absent : d.files path = none) : Answers faulty d (.unlink path) (.error .enoent) d
  | temporary {d : Disk} {step : TemporaryStep} : Answers faulty d (.temporary step) (.ok ()) d
  | renamed {d : Disk} {contents : Option JsValue} : Answers faulty d (.rename contents) (.ok ()) (d.create .state contents)
  | listed {d : Disk} {entries : List (JsString × Bool)} (lists : d.Lists entries) :
      Answers faulty d .readdir (.ok entries) d
  | shows {d : Disk} (time : Option Int) : Answers faulty d .now (.ok time) d
  | slept {d : Disk} {milliseconds : Nat} : Answers faulty d (.sleep milliseconds) (.ok ()) d
  | generated {d : Disk} (version : JsValue) : Answers faulty d .createVersion (.ok version) d
  | drawn {d : Disk} (id : JsString) : Answers faulty d .randomUUID (.ok id) d
  | audited {d : Disk} {event : SecretAuditEvent} : Answers faulty d (.audit event) (.ok ()) d

end GuloGulo.Secrets
