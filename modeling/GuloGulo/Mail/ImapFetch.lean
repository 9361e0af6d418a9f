import GuloGulo.Js.Number
import GuloGulo.Js.Sha256

/-!
# FETCH responses

`parseFetchList` of `core/mail/imap-client.ts`. Its calls of itself are the
lists that are open, and a turn of the loop over their elements is a step. What
moves the shared position is a function of the text alone.
-/

namespace GuloGulo.Mail.Imap
open Js

inductive FetchValue where
  | null
  | atom (text : JsString)
  | list (items : List FetchValue)

/-- `malformed FETCH response`, with the code `PROTOCOL_ERROR`. -/
structure Malformed where
  message : String := "IMAP client error: malformed FETCH response"
  code : String := "PROTOCOL_ERROR"

/-- The index behind the characters that hold so many bytes; `bytes` is what has
been counted. -/
def indexForBytes (count : Number) (bytes : Nat) : JsString → Nat
  | [] => 0
  | [_] => if count.le bytes then 0 else 1
  | u :: v :: rest =>
    if count.le bytes then 0
    else if isHighSurrogate u && isLowSurrogate v then 2 + indexForBytes count (bytes + byteLength [u, v]) rest
    else 1 + indexForBytes count (bytes + byteLength [u]) (v :: rest)

def charIndexForBytes (text : JsString) (byteCount : Number) : Nat := indexForBytes byteCount 0 text

section
variable (text : JsString)

/-- `indexOf` of one unit, from a position on. -/
def indexOfFrom (u : UInt16) (pos : Nat) : Option Nat := ((text.drop pos).findIdx? (· == u)).map (pos + ·)

/-- `slice`, with positions in the text. -/
def slice (start stop : Nat) : JsString := (text.take stop).drop start

def skipSpaces (pos : Nat) : Nat := pos + ((text.drop pos).takeWhile (· == 32)).length

/-- The units of a quoted string, and how far it reaches; a backslash at the end
stands for nothing and is passed over twice. -/
def quoted : JsString → JsString × Nat
  | [] => ([], 0)
  | [u] => if u = 34 then ([], 0) else if u = 92 then ([], 2) else ([u], 1)
  | u :: v :: rest =>
    if u = 34 then ([], 0)
    else if u = 92 then ((v :: (quoted rest).1), 2 + (quoted rest).2)
    else ((u :: (quoted (v :: rest)).1), 1 + (quoted (v :: rest)).2)

def isAtomUnit (u : UInt16) : Bool := u != 32 && u != 41 && u != 40

/-- The number in the braces of a literal. Without a closing brace `indexOf` is
-1, and the text counts up to its last unit. -/
def literalSize (pos : Nat) : Number :=
  match indexOfFrom text 125 pos with
  | some close => .ofText (slice text (pos + 1) close)
  | none => .ofText (slice text (pos + 1) (text.length - 1))

/-- `end + 1 + CRLF.length`. -/
def literalStart (pos : Nat) : Nat :=
  match indexOfFrom text 125 pos with
  | some close => close + 3
  | none => 2

def literalEnd (pos : Nat) : Nat :=
  literalStart text pos + charIndexForBytes (text.drop (literalStart text pos)) (literalSize text pos)

end

/-- The position, the elements of the innermost list and those of the lists
around it. -/
structure Parser where
  pos : Nat
  items : List FetchValue
  outer : List (List FetchValue)

inductive Turn where
  | throws (error : Malformed)
  | returns (value : FetchValue)
  | goes (next : Parser)

variable (host : Host) (text : JsString)

def Parser.push (s : Parser) (value : FetchValue) (pos : Nat) : Turn := .goes { s with pos, items := s.items ++ [value] }

def atomValue (atom : JsString) : FetchValue := if host.toUpperCase atom = js "NIL" then .null else .atom atom

/-- `list.push(parseValue())`, of an element that starts with this unit. -/
def element (s : Parser) (pos : Nat) (char : UInt16) : Turn :=
  if char = 40 then .goes ⟨pos + 1, [], s.items :: s.outer⟩
  else if char = 34 then
    let (value, length) := quoted (text.drop (pos + 1))
    s.push (.atom value) (pos + 1 + length + 1)
  else if char = 123 then
    s.push (.atom (slice text (literalStart text pos) (literalEnd text pos))) (literalEnd text pos)
  else
    let atom := (text.drop pos).takeWhile isAtomUnit
    if atom.isEmpty then .throws {} else s.push (atomValue host atom) (pos + atom.length)

/-- One turn of the loop of the innermost list. -/
def turn (s : Parser) : Turn :=
  let pos := skipSpaces text s.pos
  match text[pos]? with
  | none => .throws {}
  | some char =>
    if char = 41 then
      match s.outer with
      | [] => .returns (.list s.items)
      | items :: outer => .goes ⟨pos + 1, items ++ [.list s.items], outer⟩
    else element host text s pos char

/-- So many turns; `none` is that they do not suffice. -/
def turns : Nat → Parser → Option (Except Malformed FetchValue)
  | 0, _ => none
  | n + 1, s =>
    match turn host text s with
    | .throws error => some (.error error)
    | .returns value => some (.ok value)
    | .goes next => turns n next

/-- Where the first list begins. -/
def start : Option Parser := (indexOfFrom text 40 0).map fun pos => ⟨pos + 1, [], []⟩

def parseFetchList (n : Nat) : Option (Except Malformed FetchValue) :=
  match start text with
  | none => some (.error {})
  | some s => turns host text n s

/-- What the parse comes to. -/
inductive Reached : Parser → Prop where
  | start {s : Parser} (first : start text = some s) : Reached s
  | turn {s s' : Parser} (reached : Reached s) (goes : turn host text s = .goes s') : Reached s'

/-- The parse ends, and reads on with every element. -/
structure Terminates : Prop where
  ends : ∃ n, parseFetchList host text n ≠ none
  advances : ∀ s s', Reached host text s → turn host text s = .goes s' → skipSpaces text s.pos < s'.pos

/-- A brace that is never closed, and a number after it that leads no further. -/
def LeadsBack (pos : Nat) : Prop :=
  text[pos]? = some 123 ∧ indexOfFrom text 125 pos = none ∧
    2 + charIndexForBytes (text.drop 2) (.ofText (slice text (pos + 1) (text.length - 1))) ≤ pos

section
variable {host : Host} {text : JsString} {s s' : Parser}

theorem le_skipSpaces (pos : Nat) : pos ≤ skipSpaces text pos := Nat.le_add_right _ _

theorem indexOfFrom_le {u : UInt16} {pos i : Nat} (found : indexOfFrom text u pos = some i) : pos ≤ i := by
  obtain ⟨n, _, rfl⟩ := Option.map_eq_some_iff.mp found
  exact Nat.le_add_right _ _

/-- Where a literal ends, with and without its closing brace. -/
theorem literal_advances {pos : Nat} (brace : text[pos]? = some 123) :
    pos < literalEnd text pos ↔ ¬ LeadsBack text pos := by
  unfold literalEnd literalStart literalSize LeadsBack
  cases close : indexOfFrom text 125 pos with
  | some i =>
    have after := indexOfFrom_le close
    simp only [reduceCtorEq, false_and, and_false, not_false_eq_true, iff_true]
    omega
  | none => simp only [brace, true_and, Nat.not_le]

theorem element_advances {pos : Nat} {char : UInt16} (here : text[pos]? = some char)
    (goes : element host text s pos char = .goes s') : pos < s'.pos ↔ ¬ LeadsBack text pos := by
  have leads (other : char ≠ 123) : ¬ LeadsBack text pos := by
    rintro ⟨brace, _⟩
    exact other (Option.some.inj (here.symm.trans brace))
  unfold element at goes
  split at goes
  · rename_i isOpen
    cases goes
    exact iff_of_true (Nat.lt_succ_self pos) (leads (by rw [isOpen]; decide))
  · split at goes
    · rename_i isQuote
      cases goes
      refine iff_of_true ?_ (leads (by rw [isQuote]; decide))
      show pos < pos + 1 + _ + 1
      omega
    · split at goes
      · rename_i isBrace
        cases goes
        exact literal_advances (isBrace ▸ here)
      · rename_i isOther
        dsimp only at goes
        split at goes
        · cases goes
        · rename_i some'
          cases goes
          refine iff_of_true ?_ (leads isOther)
          have long : 0 < ((text.drop pos).takeWhile isAtomUnit).length := by
            rw [List.length_pos_iff]
            simpa using some'
          exact Nat.lt_add_of_pos_right long

attribute [local simp] turn in
/-- A turn reads on unless it comes to a literal that leads back, and it is at
a position of the text. -/
theorem turn_advances (goes : turn host text s = .goes s') : skipSpaces text s.pos < text.length ∧
    (skipSpaces text s.pos < s'.pos ↔ ¬ LeadsBack text (skipSpaces text s.pos)) := by
  unfold turn at goes
  dsimp only at goes
  split at goes
  · cases goes
  · rename_i char here
    obtain ⟨inside, _⟩ := List.getElem?_eq_some_iff.mp here
    refine ⟨inside, ?_⟩
    split at goes
    · rename_i isClose
      split at goes
      · cases goes
      · cases goes
        refine iff_of_true (Nat.lt_succ_self _) ?_
        rintro ⟨brace, _⟩
        rw [isClose, brace] at here
        cases here
    · exact element_advances here goes

/-- The text left to read gets shorter. -/
theorem turns_end (clear : ∀ s, Reached host text s → ¬ LeadsBack text (skipSpaces text s.pos))
    (reached : Reached host text s) : ∃ n, turns host text n s ≠ none := by
  induction left : text.length - s.pos using Nat.strongRecOn generalizing s with
  | _ k ih =>
    cases next : turn host text s with
    | throws error => exact ⟨1, by simp [turns, next]⟩
    | returns value => exact ⟨1, by simp [turns, next]⟩
    | goes s' =>
      obtain ⟨inside, reads⟩ := turn_advances next
      have later := reads.mpr (clear s reached)
      have before : s.pos ≤ skipSpaces text s.pos := le_skipSpaces s.pos
      obtain ⟨n, ends⟩ := ih (text.length - s'.pos) (by omega) (.turn reached next) rfl
      refine ⟨n + 1, ?_⟩
      rw [turns, next]
      exact ends

theorem terminates_of_clear (clear : ∀ s, Reached host text s → ¬ LeadsBack text (skipSpaces text s.pos)) :
    Terminates host text := by
  constructor
  · unfold parseFetchList
    cases first : start text with
    | none => exact ⟨0, by simp⟩
    | some s => exact turns_end clear (.start first)
  · exact fun s s' reached goes => (turn_advances goes).2.mpr (clear s reached)

/-- The parse ends and reads on with every element if and only if it never comes
to a brace without its closing one whose number leads back. -/
theorem terminates_iff (host : Host) (text : JsString) :
    Terminates host text ↔ ∀ s, Reached host text s → ¬ LeadsBack text (skipSpaces text s.pos) := by
  constructor
  · rintro ⟨_, advances⟩ s reached back
    have goes : ∃ s', turn host text s = .goes s' := by
      obtain ⟨brace, _⟩ := back
      refine ⟨{ s with
        pos := literalEnd text (skipSpaces text s.pos)
        items := s.items ++ [.atom (slice text (literalStart text (skipSpaces text s.pos))
          (literalEnd text (skipSpaces text s.pos)))] }, ?_⟩
      simp only [turn, brace]
      rfl
    obtain ⟨s', goes⟩ := goes
    exact (turn_advances goes).2.mp (advances s s' reached goes) back
  · exact terminates_of_clear

/-- In particular if every brace is closed somewhere after it. -/
theorem terminates_of_closed (closed : ∀ pos : Nat, text[pos]? = some 123 → indexOfFrom text 125 pos ≠ none) :
    Terminates host text := by
  apply terminates_of_clear
  rintro s _ ⟨brace, unclosed, _⟩
  exact closed _ brace unclosed

end

theorem open_brace_stays (n pos : Nat) (items : List FetchValue) (here : skipSpaces (js "( \x7b") pos = 2) :
    turns asciiHost (js "( \x7b") n ⟨pos, items, []⟩ = none := by
  induction n generalizing pos items with
  | zero => rfl
  | succ n ih =>
    have char : (js "( \x7b")[2]? = some 123 := by decide
    have back : literalEnd (js "( \x7b") 2 = 2 := by decide
    have next : turn asciiHost (js "( \x7b") ⟨pos, items, []⟩ = .goes ⟨2, items ++ [.atom []], []⟩ := by
      have nothing : slice (js "( \x7b") (literalStart (js "( \x7b") 2) 2 = [] := by decide
      simp only [turn, here, char, element, back, nothing]
      rfl
    rw [turns, next]
    exact ih 2 _ (by decide)

/-- The literal ends where it starts, and is read again and again. -/
theorem open_brace_never_ends : ¬ Terminates asciiHost (js "( \x7b") ∧ ∀ n, parseFetchList asciiHost (js "( \x7b") n = none := by
  have never (n : Nat) : parseFetchList asciiHost (js "( \x7b") n = none := by
    have first : start (js "( \x7b") = some ⟨1, [], []⟩ := rfl
    rw [parseFetchList, first]
    exact open_brace_stays n 1 [] (by decide)
  refine ⟨?_, never⟩
  rintro ⟨⟨n, ends⟩, _⟩
  exact ends (never n)

end GuloGulo.Mail.Imap
