import GuloGulo.Js.Text

/-!
# Redacted texts

The patterns of `logger.ts`, which take no account of case. Of an inline secret
a class and the classes that can follow it have no unit in common, so that no
way to read a text is left out by taking as much as a class allows.
-/

namespace GuloGulo.Runtime
open Js

def redacted : JsString := js "[REDACTED]"

def lower (text : JsString) : JsString := text.map asciiLower

/-- `first[_-]?second`. -/
def joint (first second : String) : List JsString :=
  [js (first ++ "_" ++ second), js (first ++ "-" ++ second), js (first ++ second)]

def sensitiveWords : List JsString :=
  ["authorization", "cookie", "password", "passwd", "passphrase", "secret", "token"].map js ++ joint "api" "key" ++
    joint "private" "key" ++ joint "client" "secret" ++ ["content", "payload", "html"].map js

def isJoint (u : UInt16) : Bool := u == 95 || u == 45

/-- `(?:^|[_-])word(?:[_-]|$)`. -/
def standsAlone (word : JsString) (before : Option UInt16) : JsString → Bool
  | [] => false
  | u :: text =>
    (before.all isJoint && startsWith (u :: text) word && ((u :: text).drop word.length).head?.all isJoint) ||
      standsAlone word (some u) text

/-- `SENSITIVE_KEY_PATTERN`. -/
def isSensitiveKey (key : JsString) : Bool :=
  sensitiveWords.any (includes (lower key)) ||
    [js "message", js "body"].any fun word => standsAlone word none (lower key)

def schemes : List JsString := [js "bearer", js "basic"]

def keywords : List JsString :=
  ["password", "passwd", "passphrase", "secret", "token"].map js ++ joint "api" "key" ++ joint "access" "token" ++
    joint "refresh" "token" ++ joint "session" "id" ++ [js "cookie"]

def isWordUnit (u : UInt16) : Bool := isAlnum u || u == 95

/-- The class of a credential: letters, digits, and the units `.`, `_`, `~`, `+`, `/` and `-`. -/
def isCredentialUnit (u : UInt16) : Bool :=
  isAlnum u || u == 46 || u == 95 || u == 126 || u == 43 || u == 47 || u == 45

/-- `[^\s,;]`. -/
def isValueUnit (u : UInt16) : Bool := !(isWhiteSpace u || u == 44 || u == 59)

def isSign (u : UInt16) : Bool := u == 58 || u == 61

/-- What follows a word. -/
def dropWord (word text : JsString) : Option JsString :=
  if lower (text.take word.length) = word then some (text.drop word.length) else none

/-- What follows one unit of a class. -/
def dropOne (p : UInt16 → Bool) : JsString → Option JsString
  | [] => none
  | u :: text => if p u then some text else none

/-- What follows as many units of a class as there are, and at least one. -/
def dropSome (p : UInt16 → Bool) (text : JsString) : Option JsString := (dropOne p text).map (·.dropWhile p)

/-- `\b`. -/
def isBoundary (before : Option UInt16) (text : JsString) : Bool := before.any isWordUnit != text.head?.any isWordUnit

/-- What comes of the text after the first of some words that there is. -/
def afterWord {α : Type} (words : List JsString) (f : JsString → Option α) (text : JsString) : Option α :=
  words.findSome? fun word => (dropWord word text).bind f

def credentialTail (text : JsString) : Option JsString := do
  let text ← dropSome isWhiteSpace text
  let text ← dropSome isCredentialUnit text
  return text.dropWhile (· == 61)

/-- `\b(?:bearer|basic)\s+`, at least one unit of the class of a credential, and `=*`. -/
def credential (before : Option UInt16) (text : JsString) : Option JsString :=
  if isBoundary before text then afterWord schemes credentialTail text else none

/-- A quoted value; without a closing quote it is none. -/
def quotedValue (quote : UInt16) (text : JsString) : Option JsString := do
  let text ← dropOne (· == quote) text
  dropOne (· == quote) (text.dropWhile (· != quote))

def value (text : JsString) : Option JsString :=
  (quotedValue 34 text).or ((quotedValue 39 text).or (dropSome isValueUnit text))

def secretTail (text : JsString) : Option JsString := do
  let text ← dropOne isSign (text.dropWhile isWhiteSpace)
  value (text.dropWhile isWhiteSpace)

def secret (text : JsString) : Option JsString := afterWord keywords secretTail text

/-- What follows a match of `INLINE_SECRET_PATTERN` at the start of a text. -/
def dropSecret (before : Option UInt16) (text : JsString) : Option JsString := (credential before text).or (secret text)

/-- The last unit that was taken of a text. -/
def lastTaken (text rest : JsString) : Option UInt16 := (text.take (text.length - rest.length)).getLast?

/-- The global replacement, from a unit that was passed before. Every round
takes a unit at least. -/
def redactFrom : Nat → Option UInt16 → JsString → JsString
  | 0, _, _ => []
  | fuel + 1, before, text =>
    match dropSecret before text with
    | some rest => redacted ++ redactFrom fuel (lastTaken text rest) rest
    | none =>
      match text with
      | [] => []
      | u :: text => u :: redactFrom fuel (some u) text

def redactText (text : JsString) : JsString := redactFrom text.length none text

example : redactText (js "Basic dXNlcg== and api-key : 'a b', x") = js "[REDACTED] and [REDACTED], x" := by decide

section
variable {before : Option UInt16} {word text rest : JsString} {p : UInt16 → Bool} {u : UInt16}

theorem dropOne_eq_some : dropOne p text = some rest ↔ ∃ u, p u ∧ text = u :: rest := by
  cases text with
  | nil => simp [dropOne]
  | cons v text =>
    simp only [dropOne]
    constructor
    · intro h
      split at h
      · rename_i hv
        cases h
        exact ⟨v, hv, rfl⟩
      · cases h
    · rintro ⟨u, hu, same⟩
      cases same
      rw [if_pos hu]

theorem dropOne_length (h : dropOne p text = some rest) : rest.length < text.length := by
  obtain ⟨u, _, rfl⟩ := dropOne_eq_some.mp h
  exact Nat.lt_succ_self _

theorem dropSome_length (h : dropSome p text = some rest) : rest.length < text.length := by
  obtain ⟨rest', one, rfl⟩ := Option.map_eq_some_iff.mp h
  exact Nat.lt_of_le_of_lt (List.dropWhile_sublist p).length_le (dropOne_length one)

theorem dropWord_length (h : dropWord word text = some rest) : rest.length ≤ text.length := by
  unfold dropWord at h
  split at h
  · cases h
    rw [List.length_drop]
    omega
  · cases h

theorem afterWord_length {words : List JsString} {f : JsString → Option JsString}
    (shorter : ∀ text rest, f text = some rest → rest.length < text.length)
    (h : afterWord words f text = some rest) : rest.length < text.length := by
  obtain ⟨word, _, h⟩ := List.exists_of_findSome?_eq_some h
  obtain ⟨text₁, word, h⟩ := Option.bind_eq_some_iff.mp h
  exact Nat.lt_of_lt_of_le (shorter text₁ rest h) (dropWord_length word)

theorem credential_length (h : credential before text = some rest) : rest.length < text.length := by
  unfold credential at h
  split at h
  · apply afterWord_length _ h
    intro text rest h
    simp only [credentialTail, Option.bind_eq_bind, Option.bind_eq_some_iff, Option.pure_def, Option.some.injEq] at h
    obtain ⟨text₁, space, text₂, units, rfl⟩ := h
    have first := dropSome_length space
    have second := dropSome_length units
    have third := (List.dropWhile_sublist (l := text₂) (· == 61)).length_le
    omega
  · cases h

theorem quotedValue_length {quote : UInt16} (h : quotedValue quote text = some rest) : rest.length < text.length := by
  simp only [quotedValue, Option.bind_eq_bind, Option.bind_eq_some_iff] at h
  obtain ⟨text₁, opens, closes⟩ := h
  have first := dropOne_length opens
  have second := (List.dropWhile_sublist (l := text₁) (· != quote)).length_le
  have third := dropOne_length closes
  omega

theorem value_length (h : value text = some rest) : rest.length < text.length := by
  simp only [value, Option.or_eq_some_iff] at h
  rcases h with h | ⟨_, h | ⟨_, h⟩⟩
  · exact quotedValue_length h
  · exact quotedValue_length h
  · exact dropSome_length h

theorem secret_length (h : secret text = some rest) : rest.length < text.length := by
  apply afterWord_length _ h
  intro text rest h
  simp only [secretTail, Option.bind_eq_bind, Option.bind_eq_some_iff] at h
  obtain ⟨text₁, sign, h⟩ := h
  have first := (List.dropWhile_sublist (l := text) isWhiteSpace).length_le
  have second := dropOne_length sign
  have third := (List.dropWhile_sublist (l := text₁) isWhiteSpace).length_le
  have fourth := value_length h
  omega

theorem dropSecret_length (h : dropSecret before text = some rest) : rest.length < text.length := by
  rcases Option.or_eq_some_iff.mp h with h | ⟨_, h⟩
  · exact credential_length h
  · exact secret_length h

theorem dropSecret_nil : dropSecret before [] = none := by
  cases h : dropSecret before [] with
  | none => rfl
  | some rest => exact absurd (dropSecret_length h) (Nat.not_lt_zero _)

attribute [local simp] redactFrom in
theorem redactFrom_secret (fuel : Nat) (h : dropSecret before text = some rest) :
    redactFrom (fuel + 1) before text = redacted ++ redactFrom fuel (lastTaken text rest) rest := by
  cases text with
  | nil => cases dropSecret_nil.symm.trans h
  | cons u text => simp only [redactFrom, h]

theorem redactFrom_plain (fuel : Nat) (h : dropSecret before (u :: text) = none) :
    redactFrom (fuel + 1) before (u :: text) = u :: redactFrom fuel (some u) text := by
  simp only [redactFrom, h]

/-- More rounds than units change nothing. -/
theorem redactFrom_fuel {f g : Nat} (hf : text.length ≤ f) (hg : text.length ≤ g) :
    redactFrom f before text = redactFrom g before text := by
  induction f generalizing g before text with
  | zero =>
    have : text = [] := List.eq_nil_of_length_eq_zero (by omega)
    subst this
    cases g with
    | zero => rfl
    | succ g => simp [redactFrom, dropSecret_nil]
  | succ f ih =>
    cases g with
    | zero =>
      have : text = [] := List.eq_nil_of_length_eq_zero (by omega)
      subst this
      simp [redactFrom, dropSecret_nil]
    | succ g =>
      cases h : dropSecret before text with
      | some rest =>
        have := dropSecret_length h
        have same : redactFrom f (lastTaken text rest) rest = redactFrom g (lastTaken text rest) rest :=
          ih (by omega) (by omega)
        rw [redactFrom_secret f h, redactFrom_secret g h, same]
      | none =>
        cases text with
        | nil => simp [redactFrom, dropSecret_nil]
        | cons u text =>
          simp only [List.length_cons] at hf hg
          have same : redactFrom f (some u) text = redactFrom g (some u) text := ih (by omega) (by omega)
          rw [redactFrom_plain f h, redactFrom_plain g h, same]

/-- The replacement in a text, after a unit that was passed. -/
def redact (before : Option UInt16) (text : JsString) : JsString := redactFrom text.length before text

theorem redactText_eq (text : JsString) : redactText text = redact none text := rfl

theorem redact_secret (h : dropSecret before text = some rest) :
    redact before text = redacted ++ redact (lastTaken text rest) rest := by
  have shorter := dropSecret_length h
  unfold redact
  cases hn : text.length with
  | zero => omega
  | succ n =>
    rw [redactFrom_secret n h, redactFrom_fuel (by omega) (Nat.le_refl _)]

theorem redact_plain (h : dropSecret before (u :: text) = none) :
    redact before (u :: text) = u :: redact (some u) text := by
  exact redactFrom_plain text.length h

end

end GuloGulo.Runtime
