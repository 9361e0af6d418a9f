import GuloGulo.Runtime.Redaction
import Mathlib.Data.List.TakeWhile

/-!
# Secrets in a text

A keyword with its sign and a credential, in a text that may itself hold other
secrets. A match takes the text up to the next space, so that of a scheme word
and a credential it takes the scheme word only; and a match that has begun
before the keyword takes the keyword with it.
-/

namespace GuloGulo.Runtime
open Js

/-- An inline secret without its credential: a keyword, a sign and spaces, a
scheme word and spaces if there is one, and a text that begins with a separator. -/
structure InlineSecret where
  keyword : JsString
  sign : UInt16
  spaces : JsString
  scheme : JsString
  gap : JsString
  after : JsString
  isKeyword : lower keyword ∈ keywords
  marks : isSign sign
  areSpaces : ∀ u ∈ spaces, isWhiteSpace u
  isScheme : (scheme = [] ∧ gap = []) ∨ (lower scheme ∈ schemes ∧ gap ≠ [])
  isGap : ∀ u ∈ gap, isWhiteSpace u
  separates : ∃ u rest, after = u :: rest ∧ isValueUnit u = false

/-- Letters and digits. -/
structure IsCredential (v : JsString) : Prop where
  some : v ≠ []
  units : ∀ u ∈ v, isAlnum u

theorem isCredential_singleton {u : UInt16} (unit : isAlnum u) : IsCredential [u] :=
  ⟨List.cons_ne_nil _ _, List.forall_mem_singleton.mpr unit⟩

namespace InlineSecret
variable (i : InlineSecret) (v : JsString)

/-- What follows the sign. -/
def rest : JsString := i.spaces ++ (i.scheme ++ (i.gap ++ (v ++ i.after)))

def text : JsString := i.keyword ++ i.sign :: i.rest v

end InlineSecret

/-! ## What a text leaves open -/

/-- What the replacement is in the middle of when a text ends and a keyword
follows: nothing, a credential after a scheme word, the value of a keyword, or a
value in quotes that are closed after the secret. -/
inductive Pending where
  | free | credential | value
  | quoted (quote : UInt16)
  deriving DecidableEq, Repr

/-- A match at the start of a text that a keyword follows. -/
inductive Lead where
  | ends (rest : JsString)
  | opens (pending : Pending)

def openCredentialTail (p : JsString) : Option Lead := do
  let p ← dropOne isWhiteSpace p
  let p := p.dropWhile isWhiteSpace
  if p.dropWhile isCredentialUnit = [] then return .opens .credential
  else do
    let p ← dropSome isCredentialUnit p
    return .ends (p.dropWhile (· == 61))

def openCredential (before : Option UInt16) (p : JsString) : Option Lead :=
  if isBoundary before p then afterWord schemes openCredentialTail p else none

def openQuoted (after : JsString) (quote : UInt16) (p : JsString) : Option Lead := do
  let p ← dropOne (· == quote) p
  match dropOne (· == quote) (p.dropWhile (· != quote)) with
  | some p => return .ends p
  | none => if after.contains quote then return .opens (.quoted quote) else none

def openRun (p : JsString) : Option Lead :=
  if p.dropWhile isValueUnit = [] then some (.opens .value) else (dropSome isValueUnit p).map .ends

def openValue (after p : JsString) : Option Lead :=
  (openQuoted after 34 p).or ((openQuoted after 39 p).or (openRun p))

def openSecretTail (after p : JsString) : Option Lead := do
  let p ← dropOne isSign (p.dropWhile isWhiteSpace)
  openValue after (p.dropWhile isWhiteSpace)

def openSecret (after p : JsString) : Option Lead := afterWord keywords (openSecretTail after) p

def lead (before : Option UInt16) (after p : JsString) : Option Lead := (openCredential before p).or (openSecret after p)

def pendingFrom (after : JsString) : Nat → Option UInt16 → JsString → Pending
  | 0, _, _ => .free
  | fuel + 1, before, p =>
    match lead before after p with
    | some (.ends rest) => pendingFrom after fuel (lastTaken p rest) rest
    | some (.opens pending) => pending
    | none =>
      match p with
      | [] => .free
      | u :: p => pendingFrom after fuel (some u) p

def pending (after p : JsString) : Pending := pendingFrom after p.length none p

/-- What is open takes the credential with it. -/
def InlineSecret.Hidden (i : InlineSecret) : Pending → Prop
  | .free => i.scheme = []
  | .credential => i.scheme ≠ []
  | .value => i.scheme = [] ↔ i.spaces = []
  | .quoted _ => True

/-! ## Units -/

/-- The units of words and of credentials. -/
structure Plain (u : UInt16) : Prop where
  space : isWhiteSpace u = false
  sign : isSign u = false
  credential : isCredentialUnit u
  value : isValueUnit u
  noQuote : u ≠ 34 ∧ u ≠ 39

section
variable {u : UInt16}

/-- Lower-case letters, and what joins two words. -/
def isWordLetter (u : UInt16) : Bool := isLower u || isJoint u

theorem alnum_range (alnum : isAlnum u) :
    (48 ≤ u.toNat ∧ u.toNat ≤ 57) ∨ (65 ≤ u.toNat ∧ u.toNat ≤ 90) ∨ (97 ≤ u.toNat ∧ u.toNat ≤ 122) := by
  simp only [isAlnum, isAlpha, isUpper, isLower, isDigit, Bool.or_eq_true, Bool.and_eq_true, decide_eq_true_eq,
    UInt16.le_iff_toNat_le, UInt16.reduceToNat] at alnum
  omega

theorem plain_alnum (alnum : isAlnum u) : Plain u := by
  have range := alnum_range alnum
  have space : isWhiteSpace u = false := isWhiteSpace_visible (by omega)
  have other (n : UInt16) (out : n.toNat < 48 ∨ (57 < n.toNat ∧ n.toNat < 65) ∨ (90 < n.toNat ∧ n.toNat < 97) ∨ 122 < n.toNat) :
      u ≠ n := by
    rintro rfl
    omega
  refine ⟨space, ?_, ?_, ?_, other 34 (by decide), other 39 (by decide)⟩
  · simp only [isSign, Bool.or_eq_false_iff, beq_eq_false_iff_ne]
    exact ⟨other 58 (by decide), other 61 (by decide)⟩
  · simp [isCredentialUnit, alnum]
  · simp only [isValueUnit, space, Bool.false_or, Bool.not_eq_true', Bool.or_eq_false_iff, beq_eq_false_iff_ne]
    exact ⟨other 44 (by decide), other 59 (by decide)⟩

/-- A unit that is one of a word in lower case. -/
theorem plain_lower (letter : isWordLetter (asciiLower u)) : Plain u := by
  unfold asciiLower at letter
  split at letter
  · rename_i upper
    exact plain_alnum (by simp [isAlnum, isAlpha, upper])
  · simp only [isWordLetter, isJoint, Bool.or_eq_true, beq_iff_eq] at letter
    rcases letter with lowerCase | rfl | rfl
    · exact plain_alnum (by simp [isAlnum, isAlpha, lowerCase])
    · exact ⟨by decide, by decide, by decide, by decide, by decide⟩
    · exact ⟨by decide, by decide, by decide, by decide, by decide⟩

theorem sign_units (sign : isSign u) :
    isWhiteSpace u = false ∧ isCredentialUnit u = false ∧ isValueUnit u ∧ u ≠ 34 ∧ u ≠ 39 := by
  simp only [isSign, Bool.or_eq_true, beq_iff_eq] at sign
  rcases sign with rfl | rfl
  · decide
  · decide

theorem space_units (space : isWhiteSpace u) : isValueUnit u = false ∧ u ≠ 34 ∧ u ≠ 39 := by
  refine ⟨by simp [isValueUnit, space], ?_, ?_⟩
  · rintro rfl
    cases space
  · rintro rfl
    cases space

end

/-! ## Words -/

section
variable {words : List JsString} {word p t rest : JsString} {u : UInt16}

theorem words_letters : (schemes ++ keywords).all (fun word => decide (4 < word.length) && word.all isWordLetter) = true := by
  decide

theorem word_units (member : word ∈ schemes ∨ word ∈ keywords) : 4 < word.length ∧ ∀ u ∈ word, isWordLetter u := by
  have all := List.all_eq_true.mp words_letters word (List.mem_append.mpr member)
  simp only [Bool.and_eq_true, decide_eq_true_eq, List.all_eq_true] at all
  exact all

theorem plain_word (member : lower t ∈ schemes ∨ lower t ∈ keywords) : t ≠ [] ∧ ∀ u ∈ t, Plain u := by
  obtain ⟨long, letters⟩ := word_units member
  refine ⟨?_, fun u hu => plain_lower (letters _ (List.mem_map.mpr ⟨u, hu, rfl⟩))⟩
  rintro rfl
  exact absurd long (by decide)

/-- No word begins another one. -/
def Distinct (words : List JsString) : Prop :=
  ∀ word ∈ words, ∀ other ∈ words, word.isPrefixOf other = true → word = other

theorem schemes_distinct : Distinct schemes := by
  have all : (schemes.all fun word => schemes.all fun other => !(word.isPrefixOf other) || word == other) = true := by
    decide
  intro word member other member' starts
  have := List.all_eq_true.mp (List.all_eq_true.mp all word member) other member'
  simpa [starts] using this

theorem keywords_distinct : Distinct keywords := by
  have all : (keywords.all fun word => keywords.all fun other => !(word.isPrefixOf other) || word == other) = true := by
    decide
  intro word member other member' starts
  have := List.all_eq_true.mp (List.all_eq_true.mp all word member) other member'
  simpa [starts] using this

theorem dropWord_eq_some :
    dropWord word t = some rest ↔ lower (t.take word.length) = word ∧ rest = t.drop word.length := by
  unfold dropWord
  split
  · rename_i same
    simp [same, eq_comm]
  · rename_i other
    simp [other]

theorem dropWord_starts (h : dropWord word t = some rest) : word <+: lower t := by
  have same := (dropWord_eq_some.mp h).1
  rw [lower, List.map_take] at same
  rw [← same]
  exact List.take_prefix _ _

theorem dropWord_append (h : dropWord word p = some rest) (t : JsString) : dropWord word (p ++ t) = some (rest ++ t) := by
  obtain ⟨same, rfl⟩ := dropWord_eq_some.mp h
  have long : word.length ≤ p.length := by
    have := congrArg List.length same
    rw [lower, List.length_map, List.length_take] at this
    omega
  rw [dropWord_eq_some, List.take_append_of_le_length long, List.drop_append_of_le_length long]
  exact ⟨same, rfl⟩

theorem findSome?_of_unique {α β : Type} {l : List α} {f : α → Option β} {a : α} (member : a ∈ l)
    (others : ∀ b ∈ l, b ≠ a → f b = none) : l.findSome? f = f a := by
  induction l with
  | nil => cases member
  | cons b l ih =>
    by_cases same : b = a
    · subst same
      cases h : f b with
      | some y => rw [List.findSome?_cons, h]
      | none =>
        rw [List.findSome?_cons, h]
        apply List.findSome?_eq_none_iff.mpr
        intro c hc
        by_cases same : c = b
        · rw [same, h]
        · exact others c (List.mem_cons_of_mem b hc) same
    · rw [List.findSome?_cons, others b List.mem_cons_self same]
      have member : a ∈ l := by
        rcases List.mem_cons.mp member with rfl | later
        · exact absurd rfl same
        · exact later
      exact ih member fun c hc => others c (List.mem_cons_of_mem b hc)

theorem afterWord_some {α : Type} {f : JsString → Option α} (distinct : Distinct words) (member : word ∈ words)
    (h : dropWord word t = some rest) : afterWord words f t = f rest := by
  rw [afterWord, findSome?_of_unique member, h]
  · rfl
  · intro other member' different
    cases h' : dropWord other t with
    | none => rfl
    | some rest' =>
      exfalso
      rcases List.prefix_or_prefix_of_prefix (dropWord_starts h) (dropWord_starts h') with starts | starts
      · exact different (distinct word member other member' (List.isPrefixOf_iff_prefix.mpr starts)).symm
      · exact different (distinct other member' word member (List.isPrefixOf_iff_prefix.mpr starts))

theorem afterWord_none {α : Type} {f : JsString → Option α} (h : ∀ word ∈ words, dropWord word t = none) :
    afterWord words f t = none := by
  apply List.findSome?_eq_none_iff.mpr
  intro word member
  rw [h word member]
  rfl

end

/-! ## The secret in its place -/

namespace InlineSecret
variable (i : InlineSecret) (v : JsString)

/-- What a match that ends with the value leaves. -/
def afterValue : JsString := if i.scheme = [] then i.after else i.gap ++ (v ++ i.after)

/-- What a match leaves that has begun before. -/
def leftover : Pending → JsString
  | .free => i.afterValue v
  | .credential => (if i.sign = 61 then [] else [i.sign]) ++ i.rest v
  | .value => if i.spaces = [] then i.afterValue v else i.rest v
  | .quoted quote => (i.after.dropWhile (· != quote)).drop 1

variable {i v}

theorem plain_keyword : i.keyword ≠ [] ∧ ∀ u ∈ i.keyword, Plain u := plain_word (.inr i.isKeyword)

theorem plain_scheme : ∀ u ∈ i.scheme, Plain u := by
  rcases i.isScheme with ⟨none, _⟩ | ⟨member, _⟩
  · rw [none]
    intro u hu
    cases hu
  · exact (plain_word (.inl member)).2

theorem text_head : ∃ u t, i.text v = u :: t ∧ Plain u := by
  obtain ⟨nonempty, plain⟩ := i.plain_keyword
  obtain ⟨u, k, same⟩ := List.exists_cons_of_ne_nil nonempty
  refine ⟨u, k ++ i.sign :: i.rest v, ?_, plain u (same ▸ List.mem_cons_self)⟩
  rw [text, same]
  rfl

theorem dropWhile_text {q : UInt16 → Bool} (stops : ∀ u, Plain u → q u = false) (p : JsString) :
    (p ++ i.text v).dropWhile q = p.dropWhile q ++ i.text v := by
  obtain ⟨u, t, same, plain⟩ := i.text_head (v := v)
  rw [List.dropWhile_append]
  split
  · rename_i empty
    rw [List.isEmpty_iff.mp empty, same, List.dropWhile_cons_of_neg (by simp [stops u plain])]
    rfl
  · rfl

theorem dropOne_text {q : UInt16 → Bool} (stops : ∀ u, Plain u → q u = false) (p : JsString) :
    dropOne q (p ++ i.text v) = (dropOne q p).map (· ++ i.text v) := by
  obtain ⟨u, t, same, plain⟩ := i.text_head (v := v)
  cases p with
  | nil =>
    rw [List.nil_append, same]
    show (if q u then some t else none) = none
    rw [stops u plain]
    rfl
  | cons w p =>
    simp only [List.cons_append, dropOne]
    split <;> rfl

/-- A word that reaches into the secret ends with its keyword, or within it. -/
theorem dropWord_reaches {word p r : JsString} (member : word ∈ schemes ∨ word ∈ keywords) (short : p.length < word.length)
    (h : dropWord word (p ++ i.text v) = some r) :
    (r = i.sign :: i.rest v ∧ word = lower p ++ lower i.keyword) ∨ ∃ u r', r = u :: r' ∧ Plain u := by
  obtain ⟨same, rfl⟩ := dropWord_eq_some.mp h
  rw [List.drop_append, List.drop_of_length_le (by omega), List.nil_append, text]
  rcases Nat.lt_trichotomy (word.length - p.length) i.keyword.length with within | whole | past
  · right
    rw [List.drop_append_of_le_length (by omega), List.drop_eq_getElem_cons within]
    exact ⟨_, _, rfl, i.plain_keyword.2 _ (List.getElem_mem within)⟩
  · left
    refine ⟨by rw [whole, List.drop_left], ?_⟩
    rw [← same, text, List.take_append, List.take_of_length_le (by omega), whole, List.take_left, lower, List.map_append]
    rfl
  · -- the word would have to hold the sign
    exfalso
    have holds : i.sign ∈ (p ++ i.text v).take word.length := by
      have split : p ++ i.text v = (p ++ i.keyword ++ [i.sign]) ++ i.rest v := by simp [text]
      rw [split, List.take_append, List.take_of_length_le (by simp; omega)]
      simp
    have letter : asciiLower i.sign ∈ word := by
      rw [← same]
      exact List.mem_map.mpr ⟨i.sign, holds, rfl⟩
    have plain := plain_lower ((word_units member).2 _ letter)
    have sign := plain.sign
    rw [i.marks] at sign
    cases sign

/-! ## Matches that begin before the secret -/

/-- What a match at the start of a text makes of it when the secret follows. -/
def Follows (i : InlineSecret) (v : JsString) : Option Lead → Option JsString → Prop
  | some (.ends rest), o => o = some (rest ++ i.text v)
  | some (.opens pending), o => o = some (i.leftover v pending)
  | none, o => o = none

theorem run_append {q : UInt16 → Bool} {a z : JsString} (units : ∀ u ∈ a, q u) (stops : ∀ u t, z = u :: t → q u = false) :
    (a ++ z).dropWhile q = z := by
  rw [List.dropWhile_append_of_pos units]
  cases z with
  | nil => rfl
  | cons u t => rw [List.dropWhile_cons_of_neg (by simp [stops u t rfl])]

theorem dropSome_run {q : UInt16 → Bool} {a z : JsString} (some : a ≠ []) (units : ∀ u ∈ a, q u)
    (stops : ∀ u t, z = u :: t → q u = false) : dropSome q (a ++ z) = .some z := by
  obtain ⟨u, a, rfl⟩ := List.exists_cons_of_ne_nil some
  have run := run_append (q := q) (a := a) (fun u hu => units u (List.mem_cons_of_mem _ hu)) stops
  simp only [dropSome, List.cons_append, dropOne, units u List.mem_cons_self, if_true, Option.map_some, run]

/-- A run that ends within a text is not changed by what follows it. -/
theorem dropSome_append {q : UInt16 → Bool} {p : JsString} (ends : p.dropWhile q ≠ []) (t : JsString) :
    dropSome q (p ++ t) = (dropSome q p).map (· ++ t) := by
  cases p with
  | nil => exact absurd rfl ends
  | cons u p =>
    simp only [dropSome, List.cons_append, dropOne]
    by_cases unit : q u
    · rw [List.dropWhile_cons_of_pos unit] at ends
      simp only [unit, if_true, Option.map_some]
      rw [List.dropWhile_append, if_neg (by simpa using ends)]
    · simp [unit]

/-- The sign ends a credential, and a value goes on. -/
theorem rest_head (credential : IsCredential v) : ∃ u t, i.rest v = u :: t ∧ isSign u = false := by
  have plain : ∃ u t, i.scheme ++ (i.gap ++ (v ++ i.after)) = u :: t ∧ Plain u := by
    rcases i.isScheme with ⟨noScheme, noGap⟩ | ⟨member, _⟩
    · obtain ⟨u, t, same⟩ := List.exists_cons_of_ne_nil credential.some
      refine ⟨u, t ++ i.after, ?_, plain_alnum (credential.units u (same ▸ List.mem_cons_self))⟩
      rw [noScheme, noGap, same]
      rfl
    · obtain ⟨nonempty, plain⟩ := plain_word (.inl member)
      obtain ⟨u, t, same⟩ := List.exists_cons_of_ne_nil nonempty
      refine ⟨u, t ++ (i.gap ++ (v ++ i.after)), ?_, plain u (same ▸ List.mem_cons_self)⟩
      rw [same]
      rfl
  cases spaces : i.spaces with
  | nil =>
    obtain ⟨u, t, same, plain⟩ := plain
    exact ⟨u, t, by rw [rest, spaces, List.nil_append, same], plain.sign⟩
  | cons u t =>
    refine ⟨u, t ++ (i.scheme ++ (i.gap ++ (v ++ i.after))), by rw [rest, spaces]; rfl, ?_⟩
    have space := i.areSpaces u (spaces ▸ List.mem_cons_self)
    cases sign : isSign u with
    | false => rfl
    | true =>
      have other := (sign_units sign).1
      rw [space] at other
      cases other

theorem credentialTail_follows (credential : IsCredential v) (p : JsString) :
    i.Follows v (openCredentialTail p) (credentialTail (p ++ i.text v)) := by
  have equals (u : UInt16) (sign : isSign u = false) : (u == 61) = false := by
    simp only [isSign, Bool.or_eq_false_iff] at sign
    exact sign.2
  unfold openCredentialTail credentialTail
  rw [dropSome, i.dropOne_text (fun _ plain => plain.space)]
  cases dropOne isWhiteSpace p with
  | none => rfl
  | some p =>
    simp only [Option.map_some, Option.bind_eq_bind, Option.bind_some, Option.pure_def,
      i.dropWhile_text (fun _ plain => plain.space)]
    by_cases all : (p.dropWhile isWhiteSpace).dropWhile isCredentialUnit = []
    · rw [if_pos all]
      have taken : dropSome isCredentialUnit (p.dropWhile isWhiteSpace ++ i.text v) = some (i.sign :: i.rest v) := by
        rw [text, ← List.append_assoc]
        apply dropSome_run
        · simp [i.plain_keyword.1]
        · intro u hu
          rcases List.mem_append.mp hu with before | within
          · exact List.dropWhile_eq_nil_iff.mp all u before
          · exact (i.plain_keyword.2 u within).credential
        · intro u t same
          cases same
          exact (sign_units i.marks).2.1
      rw [taken]
      show some ((i.sign :: i.rest v).dropWhile (· == 61)) = some ((if i.sign = 61 then [] else [i.sign]) ++ i.rest v)
      by_cases sign : i.sign = 61
      · obtain ⟨u, t, same, notSign⟩ := i.rest_head credential
        rw [if_pos sign, sign, List.dropWhile_cons_of_pos (by decide), same,
          List.dropWhile_cons_of_neg (by simp [equals u notSign])]
        rfl
      · rw [if_neg sign, List.dropWhile_cons_of_neg (by simpa using sign)]
        rfl
    · rw [if_neg all, dropSome_append all]
      cases dropSome isCredentialUnit (p.dropWhile isWhiteSpace) with
      | none => rfl
      | some p =>
        simp only [Option.map_some, Option.bind_some]
        rw [i.dropWhile_text fun u plain => equals u plain.sign]
        rfl

theorem scheme_or_credential (credential : IsCredential v) :
    ∃ a, a ≠ [] ∧ (∀ u ∈ a, Plain u) ∧ i.scheme ++ (i.gap ++ (v ++ i.after)) = a ++ i.afterValue v := by
  rcases i.isScheme with ⟨noScheme, noGap⟩ | ⟨member, _⟩
  · refine ⟨v, credential.some, fun u hu => plain_alnum (credential.units u hu), ?_⟩
    rw [afterValue, if_pos noScheme, noScheme, noGap]
    rfl
  · obtain ⟨nonempty, plain⟩ := plain_word (.inl member)
    exact ⟨i.scheme, nonempty, plain, by rw [afterValue, if_neg nonempty]⟩

theorem afterValue_stops (v : JsString) : ∀ u t, i.afterValue v = u :: t → isValueUnit u = false := by
  intro u t same
  rcases i.isScheme with ⟨noScheme, _⟩ | ⟨member, someGap⟩
  · obtain ⟨w, rest, after, stops⟩ := i.separates
    rw [afterValue, if_pos noScheme, after] at same
    cases same
    exact stops
  · obtain ⟨w, gap, hgap⟩ := List.exists_cons_of_ne_nil someGap
    have space := i.isGap w (hgap ▸ List.mem_cons_self)
    rw [afterValue, if_neg (plain_word (.inl member)).1, hgap] at same
    cases same
    exact (space_units space).1

/-- A value that has begun takes the secret up to the first space. -/
theorem dropWhile_value (credential : IsCredential v) : (i.text v).dropWhile isValueUnit = i.leftover v .value := by
  have keyword : (i.text v).dropWhile isValueUnit = (i.rest v).dropWhile isValueUnit := by
    rw [text, List.dropWhile_append_of_pos fun u hu => (i.plain_keyword.2 u hu).value,
      List.dropWhile_cons_of_pos (sign_units i.marks).2.2.1]
  rw [keyword, leftover]
  by_cases spaces : i.spaces = []
  · obtain ⟨a, _, plain, same⟩ := i.scheme_or_credential credential
    rw [if_pos spaces, rest, spaces, List.nil_append, same]
    exact run_append (fun u hu => (plain u hu).value) (i.afterValue_stops v)
  · obtain ⟨u, t, same⟩ := List.exists_cons_of_ne_nil spaces
    have stops := (space_units (i.areSpaces u (same ▸ List.mem_cons_self))).1
    rw [if_neg spaces, rest, same, List.cons_append, List.dropWhile_cons_of_neg (by simp [stops])]

theorem quotedValue_plain {quote u : UInt16} (h : u ≠ quote) (t : JsString) : quotedValue quote (u :: t) = none := by
  simp [quotedValue, dropOne, h]

theorem value_plain {u : UInt16} {t : JsString} (plain : Plain u) : value (u :: t) = dropSome isValueUnit (u :: t) := by
  rw [value, quotedValue_plain plain.noQuote.1, quotedValue_plain plain.noQuote.2]
  rfl

/-- The value of the secret itself. -/
theorem value_rest (credential : IsCredential v) :
    value ((i.rest v).dropWhile isWhiteSpace) = some (i.leftover v .free) := by
  obtain ⟨a, nonempty, plain, same⟩ := i.scheme_or_credential credential
  obtain ⟨u, a', ha⟩ := List.exists_cons_of_ne_nil nonempty
  have head := plain u (ha ▸ List.mem_cons_self)
  have start : (i.rest v).dropWhile isWhiteSpace = a ++ i.afterValue v := by
    rw [rest, same]
    apply run_append i.areSpaces
    intro w t hw
    rw [ha] at hw
    cases hw
    exact head.space
  rw [start, ha, List.cons_append, value_plain head, ← List.cons_append, ← ha]
  exact dropSome_run nonempty (fun u hu => (plain u hu).value) (i.afterValue_stops v)

theorem follows_or {l l' : Option Lead} {o o' : Option JsString} (first : i.Follows v l o) (second : i.Follows v l' o') :
    i.Follows v (l.or l') (o.or o') := by
  cases l with
  | none =>
    have : o = none := first
    rw [this]
    exact second
  | some lead =>
    cases lead with
    | ends rest =>
      have : o = some (rest ++ i.text v) := first
      rw [this]
      rfl
    | opens pending =>
      have : o = some (i.leftover v pending) := first
      rw [this]
      rfl

theorem quoted_follows (credential : IsCredential v) {quote : UInt16} (isQuote : quote = 34 ∨ quote = 39) (p : JsString) :
    i.Follows v (openQuoted i.after quote p) (quotedValue quote (p ++ i.text v)) := by
  have other {u : UInt16} (h : u ≠ 34 ∧ u ≠ 39) : u ≠ quote := by
    rcases isQuote with rfl | rfl
    · exact h.1
    · exact h.2
  have stops (u : UInt16) (plain : Plain u) : (u == quote) = false := by simpa using other plain.noQuote
  have passes : (i.text v).dropWhile (· != quote) = i.after.dropWhile (· != quote) := by
    have before : i.text v = (i.keyword ++ i.sign :: (i.spaces ++ (i.scheme ++ (i.gap ++ v)))) ++ i.after := by
      simp [text, rest]
    rw [before, List.dropWhile_append_of_pos]
    intro u hu
    simp only [List.mem_append, List.mem_cons] at hu
    simp only [bne_iff_ne]
    rcases hu with keyword | rfl | space | scheme | gap | unit
    · exact other (i.plain_keyword.2 u keyword).noQuote
    · exact other (sign_units i.marks).2.2.2
    · exact other (space_units (i.areSpaces u space)).2
    · exact other (i.plain_scheme u scheme).noQuote
    · exact other (space_units (i.isGap u gap)).2
    · exact other (plain_alnum (credential.units u unit)).noQuote
  unfold openQuoted quotedValue
  rw [i.dropOne_text stops]
  cases dropOne (· == quote) p with
  | none => rfl
  | some p =>
    simp only [Option.map_some, Option.bind_eq_bind, Option.bind_some, Option.pure_def, List.dropWhile_append, passes]
    cases within : p.dropWhile (· != quote) with
    | nil =>
      simp only [List.isEmpty_nil, if_true, dropOne]
      cases later : i.after.dropWhile (· != quote) with
      | nil =>
        have absent : i.after.contains quote = false := by
          have all := List.dropWhile_eq_nil_iff.mp later
          simp only [List.contains_eq_mem, decide_eq_false_iff_not]
          intro member
          simpa using all quote member
        rw [absent]
        rfl
      | cons u t =>
        have here : u = quote := by
          have := List.head_dropWhile_not (p := (· != quote)) (l := i.after) (by simp [later])
          simpa [later] using this
        have present : i.after.contains quote = true := by
          have member : u ∈ i.after.dropWhile (· != quote) := later ▸ List.mem_cons_self
          rw [here] at member
          simpa using (List.dropWhile_sublist _).subset member
        rw [present, if_pos rfl]
        show (if (u == quote) = true then some t else none) = some ((i.after.dropWhile (· != quote)).drop 1)
        rw [here, if_pos (beq_self_eq_true quote), later]
        rfl
    | cons u t =>
      have here : u = quote := by
        have := List.head_dropWhile_not (p := (· != quote)) (l := p) (by simp [within])
        simpa [within] using this
      simp [here, dropOne, Follows]

theorem run_follows (credential : IsCredential v) (p : JsString) :
    i.Follows v (openRun p) (dropSome isValueUnit (p ++ i.text v)) := by
  unfold openRun
  by_cases all : p.dropWhile isValueUnit = []
  · rw [if_pos all]
    obtain ⟨u, t, same, unit⟩ : ∃ u t, p ++ i.text v = u :: t ∧ isValueUnit u := by
      cases p with
      | nil =>
        obtain ⟨u, t, same, plain⟩ := i.text_head (v := v)
        exact ⟨u, t, same, plain.value⟩
      | cons u p => exact ⟨u, p ++ i.text v, rfl, List.dropWhile_eq_nil_iff.mp all u List.mem_cons_self⟩
    have run : (p ++ i.text v).dropWhile isValueUnit = i.leftover v .value := by
      rw [List.dropWhile_append, all]
      exact i.dropWhile_value credential
    show dropSome isValueUnit (p ++ i.text v) = some (i.leftover v .value)
    rw [← run, same, List.dropWhile_cons_of_pos unit]
    simp [dropSome, dropOne, unit]
  · rw [if_neg all, dropSome_append all]
    cases dropSome isValueUnit p with
    | none => rfl
    | some rest => rfl

theorem value_follows (credential : IsCredential v) (p : JsString) :
    i.Follows v (openValue i.after p) (value (p ++ i.text v)) :=
  follows_or (quoted_follows credential (.inl rfl) p)
    (follows_or (quoted_follows credential (.inr rfl) p) (run_follows credential p))

theorem secretTail_follows (credential : IsCredential v) (p : JsString) :
    i.Follows v (openSecretTail i.after p) (secretTail (p ++ i.text v)) := by
  unfold openSecretTail secretTail
  rw [i.dropWhile_text (fun _ plain => plain.space), i.dropOne_text (fun _ plain => plain.sign)]
  cases dropOne isSign (p.dropWhile isWhiteSpace) with
  | none => rfl
  | some p =>
    simp only [Option.map_some, Option.bind_eq_bind, Option.bind_some]
    rw [i.dropWhile_text (fun _ plain => plain.space)]
    exact value_follows credential _

theorem dropWord_within {word p t rest : JsString} (long : word.length ≤ p.length)
    (h : dropWord word (p ++ t) = some rest) : ∃ rest', dropWord word p = some rest' := by
  have same := (dropWord_eq_some.mp h).1
  rw [List.take_append_of_le_length long] at same
  exact ⟨_, dropWord_eq_some.mpr ⟨same, rfl⟩⟩

/-- What comes after a word that ends within the keyword is none of a match. -/
theorem tails_plain {u : UInt16} {t : JsString} (plain : Plain u) :
    credentialTail (u :: t) = none ∧ secretTail (u :: t) = none := by
  constructor
  · simp [credentialTail, dropSome, dropOne, plain.space]
  · simp [secretTail, dropOne, plain.space, plain.sign]

theorem tails_sign (credential : IsCredential v) :
    credentialTail (i.sign :: i.rest v) = none ∧ secretTail (i.sign :: i.rest v) = some (i.leftover v .free) := by
  have space := (sign_units i.marks).1
  constructor
  · simp [credentialTail, dropSome, dropOne, space]
  · unfold secretTail
    rw [List.dropWhile_cons_of_neg (by simp [space])]
    simp only [dropOne, i.marks, if_true, Option.bind_eq_bind, Option.bind_some]
    exact i.value_rest credential

/-- A keyword that ends with the one of the secret. -/
def Joins (i : InlineSecret) (p : JsString) : Prop := lower p ++ lower i.keyword ∈ keywords

theorem secret_follows (credential : IsCredential v) (p : JsString) :
    i.Follows v (openSecret i.after p) (secret (p ++ i.text v)) ∨
      (i.Joins p ∧ openSecret i.after p = none ∧ secret (p ++ i.text v) = some (i.leftover v .free)) := by
  by_cases within : ∃ word ∈ keywords, ∃ rest, dropWord word p = some rest
  · left
    obtain ⟨word, member, rest, h⟩ := within
    rw [openSecret, secret, afterWord_some keywords_distinct member h,
      afterWord_some keywords_distinct member (dropWord_append h _)]
    exact secretTail_follows credential rest
  · have none : openSecret i.after p = none := by
      apply afterWord_none
      intro word member
      exact Option.eq_none_iff_forall_ne_some.mpr fun rest h => within ⟨word, member, rest, h⟩
    rw [none]
    by_cases reaches : ∃ word ∈ keywords, ∃ rest, dropWord word (p ++ i.text v) = some rest
    · obtain ⟨word, member, rest, h⟩ := reaches
      have short : p.length < word.length := by
        by_contra long
        obtain ⟨rest', h'⟩ := dropWord_within (by omega) h
        exact within ⟨word, member, rest', h'⟩
      rw [secret, afterWord_some keywords_distinct member h]
      rcases i.dropWord_reaches (.inr member) short h with ⟨rfl, joined⟩ | ⟨u, t, rfl, plain⟩
      · exact .inr ⟨show lower p ++ lower i.keyword ∈ keywords from joined ▸ member, rfl, (tails_sign credential).2⟩
      · exact .inl (tails_plain plain).2
    · left
      apply afterWord_none
      intro word member
      exact Option.eq_none_iff_forall_ne_some.mpr fun rest h => reaches ⟨word, member, rest, h⟩

theorem schemes_reach (credential : IsCredential v) {p : JsString} (within : ¬ ∃ word ∈ schemes, ∃ rest, dropWord word p = some rest) :
    afterWord schemes credentialTail (p ++ i.text v) = none := by
  by_cases reaches : ∃ word ∈ schemes, ∃ rest, dropWord word (p ++ i.text v) = some rest
  · obtain ⟨word, member, rest, h⟩ := reaches
    have short : p.length < word.length := by
      by_contra long
      obtain ⟨rest', h'⟩ := dropWord_within (by omega) h
      exact within ⟨word, member, rest', h'⟩
    rw [afterWord_some schemes_distinct member h]
    rcases i.dropWord_reaches (.inl member) short h with ⟨rfl, _⟩ | ⟨u, t, rfl, plain⟩
    · exact (tails_sign credential).1
    · exact (tails_plain plain).1
  · apply afterWord_none
    intro word member
    exact Option.eq_none_iff_forall_ne_some.mpr fun rest h => reaches ⟨word, member, rest, h⟩

theorem credential_follows (credential_ : IsCredential v) (before : Option UInt16) {p : JsString} (some : p ≠ []) :
    i.Follows v (openCredential before p) (credential before (p ++ i.text v)) := by
  have boundary : isBoundary before (p ++ i.text v) = isBoundary before p := by
    obtain ⟨u, p, rfl⟩ := List.exists_cons_of_ne_nil some
    rfl
  unfold openCredential credential
  rw [boundary]
  by_cases at_ : isBoundary before p
  · rw [if_pos at_, if_pos at_]
    by_cases within : ∃ word ∈ schemes, ∃ rest, dropWord word p = .some rest
    · obtain ⟨word, member, rest, h⟩ := within
      rw [afterWord_some schemes_distinct member h, afterWord_some schemes_distinct member (dropWord_append h _)]
      exact credentialTail_follows credential_ rest
    · have none : afterWord schemes openCredentialTail p = none := by
        apply afterWord_none
        intro word member
        exact Option.eq_none_iff_forall_ne_some.mpr fun rest h => within ⟨word, member, rest, h⟩
      rw [none]
      exact schemes_reach credential_ within
  · rw [if_neg at_, if_neg at_]
    rfl

theorem dropSecret_follows (credential : IsCredential v) (before : Option UInt16) {p : JsString} (some : p ≠ []) :
    i.Follows v (lead before i.after p) (dropSecret before (p ++ i.text v)) ∨
      (i.Joins p ∧ lead before i.after p = none ∧ dropSecret before (p ++ i.text v) = .some (i.leftover v .free)) := by
  have first := credential_follows (i := i) credential before some
  rcases secret_follows credential p with second | ⟨joins, none, second⟩
  · exact .inl (follows_or first second)
  · unfold lead dropSecret
    rw [none, second]
    cases opens : openCredential before p with
    | none =>
      rw [opens] at first
      have first : Runtime.credential before (p ++ i.text v) = .none := first
      exact .inr ⟨joins, rfl, by rw [first]; rfl⟩
    | some lead =>
      left
      rw [opens] at first
      cases lead with
      | ends rest =>
        have first : Runtime.credential before (p ++ i.text v) = .some (rest ++ i.text v) := first
        rw [first]
        rfl
      | opens pending =>
        have first : Runtime.credential before (p ++ i.text v) = .some (i.leftover v pending) := first
        rw [first]
        rfl

/-- A keyword that is the end of a longer one is taken with it. -/
theorem dropSecret_joins (credential : IsCredential v) {before : Option UInt16} {u : UInt16} {p : JsString}
    (joins : i.Joins (u :: p)) (none : lead before i.after (u :: p) = none) :
    dropSecret before (u :: p ++ i.text v) = some (i.leftover v .free) := by
  have noScheme : Runtime.credential before (u :: p ++ i.text v) = .none := by
    have follows := credential_follows (i := i) credential before (List.cons_ne_nil u p)
    rw [(Option.or_eq_none_iff.mp none).1] at follows
    exact follows
  have word : dropWord (lower (u :: p) ++ lower i.keyword) (u :: p ++ i.text v) = some (i.sign :: i.rest v) := by
    have split : u :: p ++ i.text v = (u :: p ++ i.keyword) ++ i.sign :: i.rest v := by simp [text]
    have length : (lower (u :: p) ++ lower i.keyword).length = (u :: p ++ i.keyword).length := by simp [lower]
    rw [dropWord_eq_some, split, length, List.take_left, List.drop_left]
    exact ⟨List.map_append, rfl⟩
  rw [dropSecret, noScheme, Option.none_or, secret, afterWord_some keywords_distinct joins word]
  exact (tails_sign credential).2

/-- The match of the secret itself. -/
theorem dropSecret_text (credential : IsCredential v) (before : Option UInt16) :
    dropSecret before (i.text v) = some (i.leftover v .free) := by
  have noWord (word : JsString) (member : word ∈ schemes ∨ word ∈ keywords) : dropWord word [] = none := by
    cases h : dropWord word [] with
    | none => rfl
    | some rest =>
      have starts : word.length ≤ 0 := (dropWord_starts h).length_le
      have long := (word_units member).1
      omega
  have noScheme : Runtime.credential before (i.text v) = none := by
    unfold Runtime.credential
    split
    · apply schemes_reach (p := []) credential
      rintro ⟨word, member, rest, h⟩
      rw [noWord word (.inl member)] at h
      cases h
    · rfl
  have keyword : dropWord (lower i.keyword) (i.text v) = some (i.sign :: i.rest v) := by
    have length : (lower i.keyword).length = i.keyword.length := List.length_map _
    rw [dropWord_eq_some, length, text, List.take_left, List.drop_left]
    exact ⟨rfl, rfl⟩
  rw [dropSecret, noScheme, Option.none_or, secret, afterWord_some keywords_distinct i.isKeyword keyword]
  exact (tails_sign credential).2

/-! ## The whole text -/

theorem lastTaken_append {p rest t : JsString} (shorter : rest.length ≤ p.length) :
    lastTaken (p ++ t) (rest ++ t) = lastTaken p rest := by
  have same : (p ++ t).length - (rest ++ t).length = p.length - rest.length := by
    simp only [List.length_append]
    omega
  rw [lastTaken, lastTaken, same, List.take_append_of_le_length (by omega)]

theorem lastTaken_cons (a rest : JsString) (u : UInt16) : lastTaken (a ++ u :: rest) rest = some u := by
  have split : a ++ u :: rest = (a ++ [u]) ++ rest := by simp
  rw [lastTaken, split, List.length_append, Nat.add_sub_cancel, List.take_left]
  simp

/-- In the text before a keyword that is the end of a longer one there is no word. -/
theorem joints_silent : (keywords.all fun word => (List.range word.length).all fun n =>
    !(keywords.contains (word.drop n)) || (List.range n).all fun m =>
      (schemes ++ keywords).all fun other => !(other.isPrefixOf ((word.take n).drop m))) = true := by
  decide

theorem joins_silent {p : JsString} (joins : i.Joins p) {word : JsString} (member : word ∈ schemes ∨ word ∈ keywords)
    {a q : JsString} (split : p = a ++ q) : dropWord word q = none := by
  cases h : dropWord word q with
  | none => rfl
  | some rest =>
    exfalso
    have starts : word <+: lower q := dropWord_starts h
    have length (t : JsString) : (lower t).length = t.length := List.length_map _
    have some : 0 < i.keyword.length := List.length_pos_iff.mpr i.plain_keyword.1
    have joint := List.all_eq_true.mp joints_silent (lower p ++ lower i.keyword) joins
    have joint := List.all_eq_true.mp joint p.length (by simp only [List.mem_range, List.length_append, length]; omega)
    rw [← length p, List.drop_left, List.take_left] at joint
    have known : keywords.contains (lower i.keyword) = true := by simpa using i.isKeyword
    have some : 0 < word.length := Nat.lt_trans (by decide) (word_units member).1
    have within : a.length < (lower p).length := by
      have := starts.length_le
      rw [length, split, List.length_append]
      rw [length] at this
      omega
    rw [known, Bool.not_true, Bool.false_or, List.all_eq_true] at joint
    have joint := List.all_eq_true.mp (joint a.length (List.mem_range.mpr within)) word (List.mem_append.mpr member)
    have suffix_ : (lower p).drop a.length = lower q := by
      rw [split, lower, List.map_append, ← List.length_map asciiLower, List.drop_left]
      rfl
    rw [suffix_, List.isPrefixOf_iff_prefix.mpr starts] at joint
    cases joint

theorem pendingFrom_silent {p : JsString} (after : JsString) (fuel : Nat) (before : Option UInt16)
    (silent : ∀ a q, p = a ++ q → ∀ word, word ∈ schemes ∨ word ∈ keywords → dropWord word q = none) :
    pendingFrom after fuel before p = .free := by
  induction fuel generalizing before p with
  | zero => rfl
  | succ fuel ih =>
    have none : lead before after p = none := by
      have credential : openCredential before p = none := by
        unfold openCredential
        split
        · exact afterWord_none fun word member => silent [] p rfl word (.inl member)
        · rfl
      rw [lead, credential, openSecret, afterWord_none fun word member => silent [] p rfl word (.inr member)]
      rfl
    unfold pendingFrom
    rw [none]
    cases p with
    | nil => rfl
    | cons u p =>
      apply ih
      rintro a q rfl word member
      exact silent (u :: a) q rfl word member

theorem redact_text (i : InlineSecret) (p : JsString) (before : Option UInt16) (fuel : Nat) (enough : p.length ≤ fuel) :
    ∃ shown taken : JsString, ∀ v, IsCredential v → redact before (p ++ i.text v) =
      shown ++ redacted ++ redact
        (lastTaken (taken ++ i.text v) (i.leftover v (pendingFrom i.after fuel before p)))
        (i.leftover v (pendingFrom i.after fuel before p)) := by
  induction fuel generalizing before p with
  | zero =>
    have : p = [] := List.eq_nil_of_length_eq_zero (by omega)
    subst this
    exact ⟨[], [], fun v credential => redact_secret (dropSecret_text credential before)⟩
  | succ fuel ih =>
    cases p with
    | nil =>
      have free : pendingFrom i.after (fuel + 1) before [] = .free := by
        apply pendingFrom_silent
        intro a q split word member
        have : q = [] := (List.append_eq_nil_iff.mp split.symm).2
        subst this
        cases h : dropWord word [] with
        | none => rfl
        | some rest =>
          have starts : word.length ≤ 0 := (dropWord_starts h).length_le
          have long := (word_units member).1
          omega
      rw [free]
      exact ⟨[], [], fun v credential => redact_secret (dropSecret_text credential before)⟩
    | cons u p =>
      rw [List.length_cons] at enough
      cases opens : lead before i.after (u :: p) with
      | some start =>
        have follows (v : JsString) (credential : IsCredential v) :
            i.Follows v (some start) (dropSecret before (u :: p ++ i.text v)) := by
          rcases dropSecret_follows (i := i) credential before (List.cons_ne_nil u p) with follows | ⟨_, none, _⟩
          · rwa [opens] at follows
          · cases opens.symm.trans none
        cases start with
        | ends rest =>
          have shorter : rest.length < (u :: p).length := by
            have taken := dropSecret_length (follows [97] (isCredential_singleton rfl))
            simp only [List.length_append] at taken
            omega
          rw [List.length_cons] at shorter
          obtain ⟨shown, taken, h⟩ := ih rest (lastTaken (u :: p) rest) (by omega)
          refine ⟨redacted ++ shown, taken, fun v credential => ?_⟩
          have pends : pendingFrom i.after (fuel + 1) before (u :: p) =
              pendingFrom i.after fuel (lastTaken (u :: p) rest) rest := by simp only [pendingFrom, opens]
          rw [redact_secret (follows v credential), lastTaken_append (by rw [List.length_cons]; omega), h v credential, pends]
          simp
        | opens pending =>
          have pends : pendingFrom i.after (fuel + 1) before (u :: p) = pending := by simp only [pendingFrom, opens]
          refine ⟨[], u :: p, fun v credential => ?_⟩
          rw [pends, redact_secret (follows v credential)]
          rfl
      | none =>
        by_cases joins : i.Joins (u :: p)
        · have free : pendingFrom i.after (fuel + 1) before (u :: p) = .free := by
            apply pendingFrom_silent
            intro a q split word member
            exact joins_silent joins member split
          rw [free]
          refine ⟨[], u :: p, fun v credential => ?_⟩
          rw [redact_secret (dropSecret_joins credential joins opens)]
          rfl
        · obtain ⟨shown, taken, h⟩ := ih p (some u) (by omega)
          refine ⟨u :: shown, taken, fun v credential => ?_⟩
          have plain : dropSecret before (u :: (p ++ i.text v)) = none := by
            rcases dropSecret_follows (i := i) credential before (List.cons_ne_nil u p) with follows | ⟨joins', _⟩
            · rw [opens] at follows
              exact follows
            · exact absurd joins' joins
          have pends : pendingFrom i.after (fuel + 1) before (u :: p) = pendingFrom i.after fuel (some u) p := by
            simp only [pendingFrom, opens]
          rw [List.cons_append, redact_plain plain, h v credential, pends]
          rfl

/-! ## What is shown of the credential -/

theorem dropSecret_other (before : Option UInt16) {u : UInt16} (t : JsString)
    (short : ¬ Plain u ∨ ∃ w t', t = w :: t' ∧ ¬ Plain w) : dropSecret before (u :: t) = none := by
  have noWord (word : JsString) (member : word ∈ schemes ∨ word ∈ keywords) : dropWord word (u :: t) = none := by
    cases h : dropWord word (u :: t) with
    | none => rfl
    | some rest =>
      exfalso
      obtain ⟨long, letters⟩ := word_units member
      obtain ⟨z, starts⟩ := dropWord_starts h
      obtain ⟨w₁, w₂, ws, rfl⟩ : ∃ w₁ w₂ ws, word = w₁ :: w₂ :: ws := by
        match word, long with
        | w₁ :: w₂ :: ws, _ => exact ⟨w₁, w₂, ws, rfl⟩
      rcases short with notPlain | ⟨w, t', rfl, notPlain⟩
      · have same : w₁ = asciiLower u := (List.cons.inj starts).1
        exact notPlain (plain_lower (same ▸ letters w₁ List.mem_cons_self))
      · have same : w₂ = asciiLower w := (List.cons.inj (List.cons.inj starts).2).1
        exact notPlain (plain_lower (same ▸ letters w₂ (by simp)))
  have noScheme : Runtime.credential before (u :: t) = none := by
    unfold Runtime.credential
    split
    · exact afterWord_none fun word member => noWord word (.inl member)
    · rfl
  rw [dropSecret, noScheme, secret, afterWord_none fun word member => noWord word (.inr member)]
  rfl

theorem not_plain_space {u : UInt16} (space : isWhiteSpace u) : ¬ Plain u := by
  intro plain
  have := plain.space
  rw [space] at this
  cases this

theorem not_plain_sign {u : UInt16} (sign : isSign u) : ¬ Plain u := by
  intro plain
  have := plain.sign
  rw [sign] at this
  cases this

/-- Units that begin no word are passed. -/
theorem redact_pass (before : Option UInt16) {a : JsString} (passed : ∀ u ∈ a, ¬ Plain u) (t : JsString) :
    redact before (a ++ t) = a ++ redact (a.getLast?.or before) t := by
  induction a generalizing before with
  | nil => rfl
  | cons u a ih =>
    rw [List.cons_append, redact_plain (dropSecret_other before _ (.inl (passed u List.mem_cons_self))),
      ih (some u) fun w hw => passed w (List.mem_cons_of_mem u hw)]
    have last : (a.getLast?.or (some u)) = ((u :: a).getLast?.or before) := by
      cases a with
      | nil => rfl
      | cons w a => simp [List.getLast?_cons]
    rw [last]
    rfl

theorem redact_after (i : InlineSecret) (before before' : Option UInt16) : redact before i.after = redact before' i.after := by
  obtain ⟨u, t, same, stops⟩ := i.separates
  have notPlain : ¬ Plain u := by
    intro plain
    have value := plain.value
    rw [stops] at value
    cases value
  rw [same, redact_plain (dropSecret_other before t (.inl notPlain)), redact_plain (dropSecret_other before' t (.inl notPlain))]

/-- A credential of one unit, with no word before it, is shown. -/
theorem redact_shown (i : InlineSecret) (before : Option UInt16) {a : JsString} (passed : ∀ u ∈ a, ¬ Plain u) (x : UInt16) :
    redact before (a ++ x :: i.after) = a ++ x :: redact none i.after := by
  obtain ⟨u, t, same, stops⟩ := i.separates
  have notPlain : ¬ Plain u := by
    intro plain
    have value := plain.value
    rw [stops] at value
    cases value
  rw [redact_pass before passed, redact_plain (dropSecret_other _ i.after (.inr ⟨u, t, same, notPlain⟩)),
    redact_after i (some x) none]

theorem credential_value {u : UInt16} (unit : isCredentialUnit u) : isValueUnit u := by
  simp only [isCredentialUnit, Bool.or_eq_true, beq_iff_eq] at unit
  rcases unit with (((((alnum | rfl) | rfl) | rfl) | rfl) | rfl) | rfl
  · exact (plain_alnum alnum).value
  all_goals decide

theorem schemes_lower : (schemes.all fun word => word.all isLower) = true := by decide

theorem scheme_wordUnit {u : UInt16} {t : JsString} (member : lower (u :: t) ∈ schemes) : isWordUnit u := by
  have all := List.all_eq_true.mp schemes_lower _ member
  have first : isLower (asciiLower u) = true := List.all_eq_true.mp all _ List.mem_cons_self
  unfold asciiLower at first
  split at first
  · rename_i upper
    simp [isWordUnit, isAlnum, isAlpha, upper]
  · simp [isWordUnit, isAlnum, isAlpha, first]

/-- A scheme word after what is no part of a word takes the credential. -/
theorem redact_scheme (credential : IsCredential v) {before : Option UInt16} (outside : before.any isWordUnit = false)
    (scheme : i.scheme ≠ []) :
    redact before (i.scheme ++ (i.gap ++ (v ++ i.after))) = redacted ++ redact none i.after := by
  obtain ⟨member, someGap⟩ : lower i.scheme ∈ schemes ∧ i.gap ≠ [] := by
    rcases i.isScheme with ⟨none, _⟩ | both
    · exact absurd none scheme
    · exact both
  obtain ⟨w, t, same, stops⟩ := i.separates
  have boundary : isBoundary before (i.scheme ++ (i.gap ++ (v ++ i.after))) = true := by
    obtain ⟨u, s, hs⟩ := List.exists_cons_of_ne_nil scheme
    rw [hs] at member
    rw [isBoundary, outside, hs]
    show (false != isWordUnit u) = true
    rw [scheme_wordUnit member]
    rfl
  have word : dropWord (lower i.scheme) (i.scheme ++ (i.gap ++ (v ++ i.after))) = some (i.gap ++ (v ++ i.after)) := by
    have length : (lower i.scheme).length = i.scheme.length := List.length_map _
    rw [dropWord_eq_some, length, List.take_left, List.drop_left]
    exact ⟨rfl, rfl⟩
  have gap : dropSome isWhiteSpace (i.gap ++ (v ++ i.after)) = some (v ++ i.after) := by
    apply dropSome_run someGap i.isGap
    obtain ⟨x, v', hv⟩ := List.exists_cons_of_ne_nil credential.some
    have plain := plain_alnum (credential.units x (hv ▸ List.mem_cons_self))
    intro u t hu
    rw [hv] at hu
    cases hu
    exact plain.space
  have units : dropSome isCredentialUnit (v ++ i.after) = some i.after := by
    apply dropSome_run credential.some fun u hu => (plain_alnum (credential.units u hu)).credential
    have ends : isCredentialUnit w = false := by
      cases unit : isCredentialUnit w with
      | false => rfl
      | true =>
        have value := credential_value unit
        rw [stops] at value
        cases value
    intro u t hu
    rw [same] at hu
    cases hu
    exact ends
  have signs : i.after.dropWhile (· == 61) = i.after := by
    rw [same, List.dropWhile_cons_of_neg]
    intro sign
    rw [beq_iff_eq.mp sign] at stops
    cases stops
  have taken : dropSecret before (i.scheme ++ (i.gap ++ (v ++ i.after))) = some i.after := by
    rw [dropSecret, Runtime.credential, if_pos boundary, afterWord_some schemes_distinct member word, credentialTail, gap]
    simp [units, signs]
  rw [redact_secret taken, redact_after i _ none]

theorem wordUnit_plain {u : UInt16} (unit : isWordUnit u) : Plain u := by
  simp only [isWordUnit, Bool.or_eq_true, beq_iff_eq] at unit
  rcases unit with alnum | rfl
  · exact plain_alnum alnum
  · exact plain_lower (by decide)

/-- The same after units that begin no word. -/
theorem redact_pass_scheme (credential : IsCredential v) {before : Option UInt16} {a : JsString}
    (passed : ∀ u ∈ a, ¬ Plain u) (outside : a = [] → before.any isWordUnit = false) (scheme : i.scheme ≠ []) :
    redact before (a ++ (i.scheme ++ (i.gap ++ (v ++ i.after)))) = a ++ (redacted ++ redact none i.after) := by
  have last : (a.getLast?.or before).any isWordUnit = false := by
    cases h : a.getLast? with
    | none => exact outside (List.getLast?_eq_none_iff.mp h)
    | some u =>
      have notPlain := passed u (List.mem_of_getLast? h)
      cases unit : isWordUnit u with
      | false => simpa using unit
      | true => exact absurd (wordUnit_plain unit) notPlain
  rw [redact_pass before passed, redact_scheme credential last scheme]

theorem hidden (i : InlineSecret) (p : JsString) (hides : i.Hidden (pending i.after p)) :
    ∃ out, ∀ v, IsCredential v → redactText (p ++ i.text v) = out := by
  obtain ⟨shown, taken, h⟩ := redact_text i p none p.length (Nat.le_refl _)
  suffices tail : ∃ tail, ∀ v, IsCredential v →
      redact (lastTaken (taken ++ i.text v) (i.leftover v (pending i.after p))) (i.leftover v (pending i.after p)) = tail by
    obtain ⟨tail, ht⟩ := tail
    refine ⟨shown ++ redacted ++ tail, fun v credential => ?_⟩
    rw [← ht v credential]
    exact h v credential
  have spaces (u : UInt16) (hu : u ∈ i.spaces) : ¬ Plain u := not_plain_space (i.areSpaces u hu)
  cases open_ : pending i.after p with
  | free =>
    rw [open_] at hides
    refine ⟨redact none i.after, fun v _ => ?_⟩
    rw [show i.leftover v .free = i.after from if_pos hides]
    exact redact_after i _ none
  | credential =>
    rw [open_] at hides
    by_cases sign : i.sign = 61
    · refine ⟨i.spaces ++ (redacted ++ redact none i.after), fun v credential => ?_⟩
      have left : i.leftover v .credential = i.rest v := by rw [leftover, if_pos sign, List.nil_append]
      have last : lastTaken (taken ++ i.text v) (i.rest v) = some 61 := by
        rw [text, sign, ← List.append_assoc]
        exact lastTaken_cons _ _ 61
      rw [left, last]
      exact redact_pass_scheme credential spaces (fun _ => by decide) hides
    · refine ⟨(i.sign :: i.spaces) ++ (redacted ++ redact none i.after), fun v credential => ?_⟩
      have left : i.leftover v .credential = (i.sign :: i.spaces) ++ (i.scheme ++ (i.gap ++ (v ++ i.after))) := by
        rw [leftover, if_neg sign]
        rfl
      rw [left]
      apply redact_pass_scheme credential _ (fun none => by cases none) hides
      intro u hu
      rcases List.mem_cons.mp hu with rfl | space
      · exact not_plain_sign i.marks
      · exact spaces u space
  | value =>
    rw [open_] at hides
    by_cases noSpaces : i.spaces = []
    · have scheme := (show i.scheme = [] ↔ i.spaces = [] from hides).mpr noSpaces
      refine ⟨redact none i.after, fun v _ => ?_⟩
      rw [leftover, if_pos noSpaces, afterValue, if_pos scheme]
      exact redact_after i _ none
    · have scheme : i.scheme ≠ [] := fun scheme => noSpaces ((show i.scheme = [] ↔ i.spaces = [] from hides).mp scheme)
      refine ⟨i.spaces ++ (redacted ++ redact none i.after), fun v credential => ?_⟩
      rw [leftover, if_neg noSpaces]
      exact redact_pass_scheme credential spaces (fun none => absurd none noSpaces) scheme
  | quoted quote =>
    cases later : i.after.dropWhile (· != quote) with
    | nil =>
      refine ⟨[], fun v _ => ?_⟩
      rw [leftover, later]
      rfl
    | cons u t =>
      refine ⟨redact (some u) t, fun v _ => ?_⟩
      have left : i.leftover v (.quoted quote) = t := by rw [leftover, later]; rfl
      have last : lastTaken (taken ++ i.text v) t = some u := by
        have split : taken ++ i.text v =
            (taken ++ (i.keyword ++ i.sign :: (i.spaces ++ (i.scheme ++ (i.gap ++ (v ++ i.after.takeWhile (· != quote))))))) ++
              u :: t := by
          have inner : v ++ i.after = (v ++ i.after.takeWhile (· != quote)) ++ u :: t := by
            rw [List.append_assoc, ← later, List.takeWhile_append_dropWhile]
          rw [text, rest, inner]
          simp only [List.append_assoc, List.cons_append]
        rw [split]
        exact lastTaken_cons _ t u
      rw [left, last]

theorem revealed (i : InlineSecret) (p : JsString) (shows : ¬ i.Hidden (pending i.after p)) :
    ∃ a z, ∀ x, isAlnum x → redactText (p ++ i.text [x]) = a ++ x :: z := by
  obtain ⟨shown, taken, h⟩ := redact_text i p none p.length (Nat.le_refl _)
  suffices tail : ∃ a, (∀ u ∈ a, ¬ Plain u) ∧ ∀ x, i.leftover [x] (pending i.after p) = a ++ x :: i.after by
    obtain ⟨a, passed, ha⟩ := tail
    refine ⟨shown ++ redacted ++ a, redact none i.after, fun x alnum => ?_⟩
    have credential : IsCredential [x] := ⟨by simp, by simpa using alnum⟩
    have same := h [x] credential
    rw [show pendingFrom i.after p.length none p = pending i.after p from rfl, ha, redact_shown i _ passed] at same
    rw [redactText_eq, same]
    simp
  have gap (u : UInt16) (hu : u ∈ i.gap) : ¬ Plain u := not_plain_space (i.isGap u hu)
  have spaces (u : UInt16) (hu : u ∈ i.spaces) : ¬ Plain u := not_plain_space (i.areSpaces u hu)
  have noGap (scheme : i.scheme = []) : i.gap = [] := by
    rcases i.isScheme with ⟨_, none⟩ | ⟨member, _⟩
    · exact none
    · exact absurd scheme (plain_word (.inl member)).1
  cases open_ : pending i.after p with
  | free =>
    rw [open_] at shows
    exact ⟨i.gap, gap, fun x => if_neg shows⟩
  | credential =>
    rw [open_] at shows
    have scheme : i.scheme = [] := Classical.not_not.mp shows
    refine ⟨(if i.sign = 61 then [] else [i.sign]) ++ i.spaces, ?_, fun x => ?_⟩
    · intro u hu
      rcases List.mem_append.mp hu with sign | space
      · split at sign
        · cases sign
        · rw [List.mem_singleton.mp sign]
          exact not_plain_sign i.marks
      · exact spaces u space
    · rw [leftover, rest, scheme, noGap scheme]
      simp
  | value =>
    rw [open_] at shows
    by_cases noSpaces : i.spaces = []
    · have scheme : i.scheme ≠ [] := fun scheme => shows ⟨fun _ => noSpaces, fun _ => scheme⟩
      refine ⟨i.gap, gap, fun x => ?_⟩
      rw [leftover, if_pos noSpaces, afterValue, if_neg scheme]
      rfl
    · have scheme : i.scheme = [] := by
        by_contra scheme
        exact shows ⟨fun none => absurd none scheme, fun none => absurd none noSpaces⟩
      refine ⟨i.spaces, spaces, fun x => ?_⟩
      rw [leftover, if_neg noSpaces, rest, scheme, noGap scheme]
      simp
  | quoted quote =>
    rw [open_] at shows
    exact absurd trivial shows

end InlineSecret

end GuloGulo.Runtime
