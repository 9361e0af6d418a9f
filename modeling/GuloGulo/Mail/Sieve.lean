import GuloGulo.Mail.Address
import GuloGulo.Data.Table

/-!
# Sieve scripts

`validateSieve` of `core/mail/mail-policy.ts`, and the commands of a script by
Sieve's lexical grammar. The pattern for forwarding goes by the units around a
word, so a command is found just where it stands between them.
-/

namespace GuloGulo.Mail
open Js Data

def SIEVE_MAX_BYTES : Nat := 64 * 1024

/-- The word stands here, in any case, between units of two kinds or the ends of the text. -/
def wordHere (opens closes : UInt16 → Bool) (word : String) (before : Option UInt16) (s : JsString) : Bool :=
  before.all opens && (s.take (js word).length).map asciiLower == js word && (s.drop (js word).length).head?.all closes

/-- A pattern at some position of the text; `before` is the unit in front of it. -/
def anywhere (here : Option UInt16 → JsString → Bool) (before : Option UInt16) : JsString → Bool
  | [] => here before []
  | u :: rest => here before (u :: rest) || anywhere here (some u) rest

/-- `\s|:`. -/
def orColon (u : UInt16) : Bool := isWhiteSpace u || u == 58

/-- `\s|;`. -/
def orSemicolon (u : UInt16) : Bool := isWhiteSpace u || u == 59

/-- `/(?:^|\s|:)redirect(?:\s|;|$)|(?:^|\s)forward(?:ing)?(?:\s|:|$)/i`, from a position on. -/
def forwardingHere (before : Option UInt16) (s : JsString) : Bool :=
  wordHere orColon orSemicolon "redirect" before s || wordHere isWhiteSpace orColon "forward" before s ||
    wordHere isWhiteSpace orColon "forwarding" before s

/-- `FORWARDING_PATTERN.test(script)`. -/
def forwardingPattern (script : JsString) : Bool := anywhere forwardingHere none script

/-- `\w`. -/
def isWordUnit (u : UInt16) : Bool := isAlnum u || u == 95

/-- The actions that `/\b(fileinto|vacation|keep|discard|stop)\b/gi` finds, in lower case. -/
def actionsFrom (before : Option UInt16) : JsString → List JsString
  | [] => []
  | u :: rest =>
    (["fileinto", "vacation", "keep", "discard", "stop"].filter fun word =>
        wordHere (fun v => !isWordUnit v) (fun v => !isWordUnit v) word before (u :: rest)).map js ++
      actionsFrom (some u) rest

structure SieveValidation where
  valid : Bool
  actions : List JsString
  deriving DecidableEq

def validateSieve (script : JsValue) : Except (Thrown CodedError) SieveValidation :=
  match script with
  | .string (u :: rest) => do
    let script := u :: rest
    throwIf (decide (SIEVE_MAX_BYTES < byteLength script))
      (policyError "Sieve script exceeds the size limit" "INVALID_SIEVE")
    throwIf (forwardingPattern script)
      (policyError "automatic forwarding and redirect actions are disabled" "FORWARDING_DISABLED")
    return ⟨true, unique (actionsFrom none script)⟩
  | _ => .error (policyError "Sieve script must be a non-empty string" "INVALID_SIEVE")

def isIdentifierStart (u : UInt16) : Bool := isAlpha u || u == 95

/-- Up to the end of a bracket comment that has been opened. -/
def commentEnd : JsString → Nat
  | u :: v :: rest => if u = 42 ∧ v = 47 then 2 else 1 + commentEnd (v :: rest)
  | s => s.length

/-- Up to the closing quote; a backslash takes the next unit with it. -/
def stringEnd : JsString → Nat
  | u :: v :: rest => if u = 34 then 1 else if u = 92 then 2 + stringEnd rest else 1 + stringEnd (v :: rest)
  | s => s.length

/-- Up to the line with a single dot; `fresh` is that a line begins here. -/
def textEnd (fresh : Bool) : JsString → Nat
  | u :: v :: w :: rest =>
    if fresh ∧ u = 46 ∧ v = 13 ∧ w = 10 then 3
    else if u = 13 ∧ v = 10 then 2 + textEnd true (w :: rest)
    else 1 + textEnd false (v :: w :: rest)
  | s => s.length

/-- How far a multi-line string reaches that starts here: `text:`, blanks and
perhaps a comment up to the end of the line, and the lines of the text. -/
def multiLine (s : JsString) : Option Nat :=
  if (s.take 5).map asciiLower = js "text:" then
    let blanks := ((s.drop 5).takeWhile fun u => u == 32 || u == 9).length
    let rest := s.drop (5 + blanks)
    let comment := if rest.head? = some 35 then (rest.takeWhile fun u => u != 13).length else 0
    match rest.drop comment with
    | 13 :: 10 :: text => some (5 + blanks + comment + 2 + textEnd true text)
    | _ => none
  else none

/-- A command, and the text on either side of its name. -/
structure SieveCommand where
  before : JsString
  name : JsString
  after : JsString
  deriving DecidableEq

/-- The commands of a script: the identifiers that stand at its start or behind
a semicolon or a brace, white space and comments aside. -/
def commandsFrom : Nat → JsString → Bool → JsString → List SieveCommand
  | 0, _, _, _ => []
  | _, _, _, [] => []
  | n + 1, before, starts, u :: rest =>
    let s := u :: rest
    let skip (length : Nat) (starts : Bool) := commandsFrom n (before ++ s.take length) starts (s.drop length)
    if u = 32 ∨ u = 9 ∨ u = 13 ∨ u = 10 then skip 1 starts
    else if u = 35 then skip (1 + (rest.takeWhile fun v => v != 10).length) starts
    else if u = 47 ∧ rest.head? = some 42 then skip (2 + commentEnd (rest.drop 1)) starts
    else if u = 34 then skip (1 + stringEnd rest) false
    else if isIdentifierStart u then
      match multiLine s with
      | some length => skip length false
      | none =>
        let name := s.takeWhile isWordUnit
        (if starts then [⟨before, name, s.drop name.length⟩] else []) ++ skip name.length false
    else skip 1 (u == 59 || u == 123 || u == 125)

def commands (script : JsString) : List SieveCommand := commandsFrom script.length [] true script

/-- The commands that redirect a message. -/
def redirectCommands (script : JsString) : List SieveCommand :=
  (commands script).filter fun command => command.name.map asciiLower = js "redirect"

example : (redirectCommands (js "# redirect\nif true \x7bREDIRECT\"a@b\";\x7d keep;/*;redirect*/ redirect;")).map (·.after) =
    [js "\"a@b\";\x7d keep;/*;redirect*/ redirect;", js ";"] := by decide

/-- A word of the text, in any case, between units of two kinds or the ends of the text. -/
def WordIn (opens closes : UInt16 → Bool) (word : String) (s : JsString) : Prop :=
  ∃ before name after, s = before ++ (name ++ after) ∧ name.map asciiLower = js word ∧
    (∀ u ∈ before.getLast?, opens u = true) ∧ ∀ u ∈ after.head?, closes u = true

/-- A word of redirecting or forwarding where the pattern looks for it, be it in
a command, a string or a comment. -/
def Forwards (s : JsString) : Prop :=
  WordIn orColon orSemicolon "redirect" s ∨ WordIn isWhiteSpace orColon "forward" s ∨
    WordIn isWhiteSpace orColon "forwarding" s

theorem anywhere_iff {here : Option UInt16 → JsString → Bool} {s : JsString} : ∀ {before : Option UInt16},
    anywhere here before s = true ↔ ∃ front back, s = front ++ back ∧ here (front.getLast?.or before) back = true := by
  induction s with
  | nil =>
    intro before
    constructor
    · intro h
      exact ⟨[], [], rfl, h⟩
    · rintro ⟨front, back, parts, h⟩
      obtain ⟨rfl, rfl⟩ := List.append_eq_nil_iff.mp parts.symm
      exact h
  | cons u rest ih =>
    intro before
    rw [anywhere, Bool.or_eq_true, ih]
    constructor
    · rintro (h | ⟨front, back, rfl, h⟩)
      · exact ⟨[], u :: rest, rfl, h⟩
      · refine ⟨u :: front, back, rfl, ?_⟩
        rw [List.getLast?_cons]
        cases last : front.getLast? <;> simpa [last] using h
    · rintro ⟨front, back, parts, h⟩
      cases front with
      | nil =>
        left
        rw [parts]
        exact h
      | cons v front =>
        obtain ⟨rfl, rfl⟩ := List.cons.inj parts
        right
        refine ⟨front, back, rfl, ?_⟩
        rw [List.getLast?_cons] at h
        cases last : front.getLast? <;> simpa [last] using h

theorem wordIn_iff (opens closes : UInt16 → Bool) (word : String) (s : JsString) :
    (∃ front back, s = front ++ back ∧ wordHere opens closes word front.getLast? back = true) ↔
      WordIn opens closes word s := by
  constructor
  · rintro ⟨front, back, rfl, h⟩
    simp only [wordHere, Bool.and_eq_true, beq_iff_eq, Option.all_eq_true] at h
    obtain ⟨⟨opened, spelled⟩, closed⟩ := h
    refine ⟨front, back.take (js word).length, back.drop (js word).length, ?_, spelled, opened, closed⟩
    rw [List.take_append_drop]
  · rintro ⟨front, name, after, rfl, spelled, opened, closed⟩
    refine ⟨front, name ++ after, rfl, ?_⟩
    have long : (js word).length = name.length := by
      rw [← spelled, List.length_map]
    simp only [wordHere, Bool.and_eq_true, beq_iff_eq, Option.all_eq_true]
    rw [long, List.take_left, List.drop_left]
    exact ⟨⟨opened, spelled⟩, closed⟩

/-- The pattern finds the words of redirecting and forwarding, and nothing else. -/
theorem forwardingPattern_iff (script : JsString) : forwardingPattern script = true ↔ Forwards script := by
  rw [forwardingPattern, anywhere_iff]
  simp only [forwardingHere, Bool.or_eq_true, and_or_left, exists_or, Option.or_none, wordIn_iff, Forwards, or_assoc]

/-- The lexer keeps the text together: what it has passed and what is left. -/
theorem commandsFrom_placed {script : JsString} {command : SieveCommand} : ∀ (n : Nat) (before : JsString)
    (starts : Bool) (s : JsString), before ++ s = script → command ∈ commandsFrom n before starts s →
      command.before ++ (command.name ++ command.after) = script := by
  intro n
  induction n with
  | zero =>
    intro before starts s _ h
    simp [commandsFrom] at h
  | succ n ih =>
    intro before starts s whole h
    cases s with
    | nil => simp [commandsFrom] at h
    | cons u rest =>
      have skipped (length : Nat) (starts : Bool)
          (h : command ∈ commandsFrom n (before ++ (u :: rest).take length) starts ((u :: rest).drop length)) :
          command.before ++ (command.name ++ command.after) = script := by
        apply ih _ _ _ _ h
        rw [List.append_assoc, List.take_append_drop, whole]
      rw [commandsFrom] at h
      split at h
      · exact skipped _ _ h
      split at h
      · exact skipped _ _ h
      split at h
      · exact skipped _ _ h
      split at h
      · exact skipped _ _ h
      split at h
      · split at h
        · exact skipped _ _ h
        · rcases List.mem_append.mp h with here | later
          · split at here
            · obtain rfl := List.mem_singleton.mp here
              rw [← whole]
              congr 1
              exact List.prefix_iff_eq_append.mp (List.takeWhile_prefix _)
            · simp at here
          · exact skipped _ _ later
      · exact skipped _ _ h

theorem redirectCommands_placed {script : JsString} {command : SieveCommand} (h : command ∈ redirectCommands script) :
    command.before ++ (command.name ++ command.after) = script ∧ command.name.map asciiLower = js "redirect" := by
  obtain ⟨found, named⟩ := List.mem_filter.mp h
  exact ⟨commandsFrom_placed _ _ _ _ (List.nil_append script) found, of_decide_eq_true named⟩

theorem validateSieve_throws_iff {script : JsString} (filled : script ≠ []) :
    (∃ fault, validateSieve (.string script) = .error fault) ↔
      SIEVE_MAX_BYTES < byteLength script ∨ Forwards script := by
  obtain ⟨u, rest, rfl⟩ := List.exists_cons_of_ne_nil filled
  rw [← forwardingPattern_iff, validateSieve]
  by_cases large : SIEVE_MAX_BYTES < byteLength (u :: rest)
  · simp [large, throwIf_true, error_bind]
  · cases found : forwardingPattern (u :: rest)
    · simp [large, throwIf, ok_bind]
    · simp [large, throwIf, ok_bind]

/-- The command stands between neighbours that the pattern names. -/
def SieveCommand.Spaced (command : SieveCommand) : Prop :=
  (∀ u ∈ command.before.getLast?, orColon u = true) ∧ ∀ u ∈ command.after.head?, orSemicolon u = true

/-- The pattern finds a word that is not the command's name. -/
def SieveCommand.Elsewhere (command : SieveCommand) (s : JsString) : Prop :=
  (∃ before name after, before ≠ command.before ∧ s = before ++ (name ++ after) ∧ name.map asciiLower = js "redirect" ∧
    (∀ u ∈ before.getLast?, orColon u = true) ∧ ∀ u ∈ after.head?, orSemicolon u = true) ∨
  WordIn isWhiteSpace orColon "forward" s ∨ WordIn isWhiteSpace orColon "forwarding" s

theorem forwards_iff_own {script : JsString} {command : SieveCommand} (h : command ∈ redirectCommands script) :
    Forwards script ↔ command.Spaced ∨ command.Elsewhere script := by
  obtain ⟨whole, named⟩ := redirectCommands_placed h
  constructor
  · rintro (⟨before, name, after, parts, spelled, opened, closed⟩ | other)
    · by_cases same : before = command.before
      · left
        rw [same] at parts
        have rest : name ++ after = command.name ++ command.after :=
          List.append_cancel_left (parts.symm.trans whole.symm)
        have long : name.length = command.name.length := by
          rw [← List.length_map asciiLower, spelled, ← named, List.length_map]
        obtain ⟨_, rfl⟩ := List.append_inj rest long
        rw [same] at opened
        exact ⟨opened, closed⟩
      · exact .inr (.inl ⟨before, name, after, same, parts, spelled, opened, closed⟩)
    · exact .inr (.inr other)
  · rintro (⟨opened, closed⟩ | ⟨before, name, after, _, parts, spelled, opened, closed⟩ | other)
    · exact .inl ⟨command.before, command.name, command.after, whole.symm, named, opened, closed⟩
    · exact .inl ⟨before, name, after, parts, spelled, opened, closed⟩
    · exact .inr other

/-- A script with a redirect command is refused exactly when it is too large or
a word of redirecting or forwarding stands somewhere between the neighbours that
the pattern names. -/
theorem validateSieve_redirect_iff (script : JsString) (redirects : redirectCommands script ≠ []) :
    (∃ fault, validateSieve (.string script) = .error fault) ↔
      SIEVE_MAX_BYTES < byteLength script ∨ Forwards script := by
  apply validateSieve_throws_iff
  rintro rfl
  exact redirects rfl

/-- A redirect command gives itself away by its own neighbours, or another word does. -/
theorem validateSieve_own_iff {script : JsString} {command : SieveCommand} (h : command ∈ redirectCommands script) :
    (∃ fault, validateSieve (.string script) = .error fault) ↔
      SIEVE_MAX_BYTES < byteLength script ∨ command.Spaced ∨ command.Elsewhere script := by
  rw [← forwards_iff_own h]
  apply validateSieve_throws_iff
  rintro rfl
  simp [redirectCommands, commands, commandsFrom] at h

theorem validateSieve_redirect_iff_spaced :
    redirectCommands (js "keep;\nredirect \"eve@example.org\";") ≠ [] ∧
      ((∃ fault, validateSieve (.string (js "keep;\nredirect \"eve@example.org\";")) = .error fault) ↔
        SIEVE_MAX_BYTES < byteLength (js "keep;\nredirect \"eve@example.org\";") ∨
          Forwards (js "keep;\nredirect \"eve@example.org\";")) := by
  have redirects : redirectCommands (js "keep;\nredirect \"eve@example.org\";") ≠ [] := by decide
  exact ⟨redirects, validateSieve_redirect_iff _ redirects⟩

/-- Behind a semicolon and in front of a quoted address the command passes. -/
theorem unspacedRedirect_passes :
    (redirectCommands (js "keep;redirect\"eve@example.org\";")).map (·.name) = [js "redirect"] ∧
      validateSieve (.string (js "keep;redirect\"eve@example.org\";")) = .ok ⟨true, [js "keep"]⟩ := by
  constructor
  · decide
  · decide

end GuloGulo.Mail
