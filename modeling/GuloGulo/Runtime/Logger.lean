import GuloGulo.Js.Json
import GuloGulo.Runtime.Redaction

/-!
# The logger

`createLogger` of `logger.ts`. A value that is logged is a graph of objects,
which may be shared and may hold themselves; what the logger writes is a tree.
Numbers are a parameter, with the text JSON has for the finite ones.
-/

namespace GuloGulo.Runtime
open Js

structure Numbers (ν : Type) where
  isFinite : ν → Bool
  text : ν → JsString

/-- A value whose objects are the first `n`. A symbol stands for a function as
well: JSON has a text for neither. -/
inductive LogValue (ν : Type) (n : Nat) where
  | undefined | null | symbol
  | bool (b : Bool)
  | number (x : ν)
  | bigint (text : JsString)
  | string (s : JsString)
  | ref (a : Fin n)

inductive LogObject (ν : Type) (n : Nat) where
  | error (name message : JsString)
  | array (items : List (LogValue ν n))
  | plain (entries : List (JsString × LogValue ν n))

structure Graph (ν : Type) where
  size : Nat
  objects : Fin size → LogObject ν size
  root : LogValue ν size

/-- What `sanitizeLogValue` makes of a value. -/
inductive LogTree (ν : Type) where
  | undefined | null | symbol
  | bool (b : Bool)
  | number (x : ν)
  | string (s : JsString)
  | array (items : List (LogTree ν))
  | object (fields : List (JsString × LogTree ν))

abbrev Fields (ν : Type) := List (JsString × LogTree ν)

/-- The objects that were visited. -/
abbrev Seen (n : Nat) := List (Fin n)

/-- A function that visits objects, on each element of a list. -/
def mapSeen {α β : Type} {n : Nat} (f : Seen n → α → Option (β × Seen n)) : Seen n → List α → Option (List β × Seen n)
  | seen, [] => some ([], seen)
  | seen, x :: xs => do
    let (y, seen) ← f seen x
    let (ys, seen) ← mapSeen f seen xs
    return (y :: ys, seen)

def orText (s : JsString) (other : String) : JsString := if s = [] then js other else s

section
variable {ν : Type} (num : Numbers ν)

/-- The error branch of `sanitizeLogValue`. -/
def sanitizeError (name message : JsString) : LogTree ν :=
  .object [(js "name", .string (redactText (orText name "Error"))), (js "message", .string (redactText message))]

def sanitizeNumber (x : ν) : LogTree ν := if num.isFinite x then .number x else .null

/-- With the objects there are left to visit. -/
def sanitizeLogValue {n : Nat} (objects : Fin n → LogObject ν n) :
    Nat → Seen n → JsString → LogValue ν n → Option (LogTree ν × Seen n)
  | left, seen, key, value =>
    if isSensitiveKey key then some (.string redacted, seen)
    else
      match value with
      | .undefined => some (.undefined, seen)
      | .null => some (.null, seen)
      | .symbol => some (.symbol, seen)
      | .bool b => some (.bool b, seen)
      | .number x => some (sanitizeNumber num x, seen)
      | .bigint text => some (.string text, seen)
      | .string s => some (.string (redactText s), seen)
      | .ref a =>
        match objects a with
        | .error name message => some (sanitizeError name message, seen)
        | .array items =>
          if a ∈ seen then some (.string (js "[Circular]"), seen)
          else
            match left with
            | 0 => none
            | left + 1 =>
              (mapSeen (fun seen item => sanitizeLogValue objects left seen [] item) (a :: seen) items).map
                fun r => (.array r.1, r.2)
        | .plain entries =>
          if a ∈ seen then some (.string (js "[Circular]"), seen)
          else
            match left with
            | 0 => none
            | left + 1 =>
              (mapSeen (fun seen entry => (sanitizeLogValue objects left seen entry.1 entry.2).map
                fun r => ((entry.1, r.1), r.2)) (a :: seen) entries).map fun r => (.object r.1, r.2)

def Graph.sanitize (g : Graph ν) : Option (LogTree ν) :=
  (sanitizeLogValue num g.objects g.size [] [] g.root).map Prod.fst

mutual

/-- `sanitizeLogValue` of what it has made, where no object is met twice. -/
def LogTree.sanitize (key : JsString) (tree : LogTree ν) : LogTree ν :=
  if isSensitiveKey key then .string redacted
  else
    match tree with
    | .undefined => .undefined
    | .null => .null
    | .symbol => .symbol
    | .bool b => .bool b
    | .number x => sanitizeNumber num x
    | .string s => .string (redactText s)
    | .array items => .array (sanitizeItems items)
    | .object fields => .object (sanitizeFields fields)

def sanitizeItems : List (LogTree ν) → List (LogTree ν)
  | [] => []
  | item :: items => item.sanitize [] :: sanitizeItems items

def sanitizeFields : List (JsString × LogTree ν) → List (JsString × LogTree ν)
  | [] => []
  | (key, tree) :: fields => (key, tree.sanitize key) :: sanitizeFields fields

end

/-- `object[key] = value`, or `Object.defineProperty`. -/
def setField {α : Type} (fields : List (JsString × α)) (key : JsString) (value : α) : List (JsString × α) :=
  if fields.any (·.1 = key) then fields.map fun f => if f.1 = key then (key, value) else f else fields ++ [(key, value)]

def setFields {α : Type} (fields more : List (JsString × α)) : List (JsString × α) :=
  more.foldl (fun fields f => setField fields f.1 f.2) fields

/-- The number of an array index, which goes before the other keys. -/
def indexOfKey (key : JsString) : Option Nat :=
  let n := key.foldl (fun n u => 10 * n + (u.toNat - 48)) 0
  if key.all isDigit && decide (key ≠ []) && (key == [48] || key.head? != some 48) && decide (n < 4294967295) then some n
  else none

/-- `Object.entries`, from the order in which the properties were made. -/
def ownOrder {α : Type} (fields : List (JsString × α)) : List (JsString × α) :=
  (fields.filter fun f => (indexOfKey f.1).isSome).mergeSort
      (fun l r => decide ((indexOfKey l.1).getD 0 ≤ (indexOfKey r.1).getD 0)) ++
    fields.filter fun f => (indexOfKey f.1).isNone

def contextKey (key : JsString) : JsString :=
  if key = js "requestId" then js "request_id" else if key = js "correlationId" then js "correlation_id" else key

/-- The second part of `normalizeContext`. An assignment to `__proto__` makes
no property. -/
def normalizeFields (sanitized : LogTree ν) : Fields ν :=
  match sanitized with
  | .object fields =>
    ownOrder (setFields [] ((fields.map fun f => (contextKey f.1, f.2)).filter fun f => decide (f.1 ≠ js "__proto__")))
  | _ => []

structure LoggerOptions where
  serviceName : JsString
  environment : JsString
  version : JsString
  build : JsString

structure Logger (ν : Type) extends LoggerOptions where
  context : Fields ν

def createLogger (options : LoggerOptions) (context : Graph ν) : Option (Logger ν) := do
  let sanitized ← context.sanitize num
  return ⟨options, normalizeFields sanitized⟩

/-- The own properties a spread copies. -/
def Graph.entries (g : Graph ν) : List (JsString × LogValue ν g.size) :=
  match g.root with
  | .string s => s.zipIdx.map fun u => (decimal u.2, .string [u.1])
  | .ref a =>
    match g.objects a with
    | .error _ _ => []
    | .array items => items.zipIdx.map fun item => (decimal item.2, item.1)
    | .plain entries => entries
  | _ => []

/-- One property of a child's context. -/
def sanitizePart (g : Graph ν) (seen : Seen g.size) (f : JsString × (LogTree ν ⊕ LogValue ν g.size)) :
    Option ((JsString × LogTree ν) × Seen g.size) :=
  match f.2 with
  | .inl tree => some ((f.1, tree.sanitize num f.1), seen)
  | .inr value => (sanitizeLogValue num g.objects g.size seen f.1 value).map fun r => ((f.1, r.1), r.2)

/-- The properties of a logger's context and of another one. -/
def mergedParts (logger : Logger ν) (g : Graph ν) : List (JsString × (LogTree ν ⊕ LogValue ν g.size)) :=
  ownOrder (setFields (logger.context.map fun f => (f.1, .inl f.2)) (g.entries.map fun e => (e.1, .inr e.2)))

def Logger.child (logger : Logger ν) (childContext : Graph ν) : Option (Logger ν) :=
  (mapSeen (sanitizePart num childContext) [] (mergedParts logger childContext)).map fun r =>
    { logger with context := normalizeFields (.object r.1) }

mutual

/-- `JSON.stringify`; some values have no text. -/
def LogTree.json : LogTree ν → Option JsString
  | .undefined => none
  | .symbol => none
  | .null => some (js "null")
  | .bool b => some (jsonBool b)
  | .number x => some (if num.isFinite x then num.text x else js "null")
  | .string s => some (jsonString s)
  | .array items => some (js "[" ++ join (jsonItems items) (js ",") ++ js "]")
  | .object fields => some (js "\x7b" ++ join (jsonFields fields) (js ",") ++ js "\x7d")

def jsonItems : List (LogTree ν) → List JsString
  | [] => []
  | item :: items => item.json.getD (js "null") :: jsonItems items

def jsonFields : List (JsString × LogTree ν) → List JsString
  | [] => []
  | (key, tree) :: fields =>
    match tree.json with
    | some text => (jsonString key ++ js ":" ++ text) :: jsonFields fields
    | none => jsonFields fields

end

def reservedFields : List JsString :=
  ["timestamp", "level", "service", "environment", "version", "build", "event"].map js

/-- The fields of the details, without the reserved ones. -/
def eventDetails (sanitized : LogTree ν) : Fields ν :=
  let raw : Fields ν :=
    match sanitized with
    | .object fields => fields
    | other => [(js "details", other)]
  raw.filter fun f => !reservedFields.contains f.1

inductive Method where
  | info | warn | error
  deriving DecidableEq, Repr

def Method.level : Method → JsString
  | info => js "info"
  | warn => js "warn"
  | error => js "error"

inductive Stream where
  | output | errorOutput
  deriving DecidableEq, Repr

def Method.stream : Method → Stream
  | info => .output
  | _ => .errorOutput

/-- The details that are meant when none are given. -/
def Graph.orEmpty (details : Graph ν) : Graph ν :=
  match details.root with
  | .undefined => ⟨1, fun _ => .plain [], .ref 0⟩
  | _ => details

/-- The fields of every record. -/
def fixedFields (logger : Logger ν) (method : Method) (timestamp event : JsString) : Fields ν :=
  [(js "timestamp", .string timestamp), (js "level", .string method.level),
    (js "service", .string logger.serviceName), (js "environment", .string logger.environment),
    (js "version", .string logger.version), (js "build", .string logger.build), (js "event", .string (redactText event)),
    (js "tenant", .null), (js "actor", .null), (js "subject", .null), (js "correlation_id", .null),
    (js "request_id", .null), (js "result", .null), (js "reason", .null)]

def record (logger : Logger ν) (method : Method) (timestamp event : JsString) (sanitized : LogTree ν) : Fields ν :=
  ownOrder (setFields (setFields (fixedFields logger method timestamp event) (ownOrder (eventDetails sanitized)))
    logger.context)

/-- `JSON.stringify` of a record. -/
def recordText (fields : Fields ν) : JsString := js "\x7b" ++ join (jsonFields num fields) (js ",") ++ js "\x7d"

/-- The line a method writes, and the stream it goes to. -/
def Logger.log (logger : Logger ν) (method : Method) (timestamp event : JsString) (details : Graph ν) :
    Option (Stream × JsString) :=
  (details.orEmpty.sanitize num).map fun sanitized =>
    (method.stream, recordText num (record logger method timestamp event sanitized) ++ js "\n")

end

end GuloGulo.Runtime
