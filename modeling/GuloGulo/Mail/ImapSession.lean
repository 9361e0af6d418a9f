import GuloGulo.Js.Decode
import GuloGulo.Js.Pattern
import GuloGulo.Mail.ImapRendering

/-!
# Reading an answer

The lines of a response reach `command` one after another. A line that ends in
the header of a literal is followed by lines that are put together again until
its bytes are there; what stands behind the literal is the next untagged entry.
`joinLiterals` makes one text of them for `parseFetchList`.
-/

namespace GuloGulo.Mail.Imap
open Js

/-- `MAX_LITERAL_BYTES`. -/
def maxLiteralBytes : Nat := 8 * 1024 * 1024

/-- `LITERAL_SUFFIX.exec(line)`: the digits. -/
def literalSuffix (line : JsString) : Option JsString :=
  match line.reverse with
  | 125 :: rest =>
    match rest.dropWhile isDigit with
    | 123 :: _ => if (rest.takeWhile isDigit).isEmpty then none else some (rest.takeWhile isDigit).reverse
    | _ => none
  | _ => none

/-- The loop of `joinLiterals` from an entry on: while the text ends in the
header of a literal, the next literal and the next entry belong to it. -/
def joinFrom (current : JsString) : List JsString → List JsString → List JsString
  | [], _ => [current]
  | line :: lines, literal :: literals =>
    if (literalSuffix current).isSome then joinFrom (current ++ crlf ++ literal ++ line) lines literals
    else current :: joinFrom line lines (literal :: literals)
  | line :: lines, [] => current :: joinFrom line lines []

def joinLiterals : List JsString → List JsString → List JsString
  | [], _ => []
  | line :: lines, literals => joinFrom line lines literals

/-- The lines that have come in, by `onData`; what follows the last line end stays in the buffer. -/
def linesFrom (line : JsString) : JsString → List JsString
  | [] => []
  | [_] => []
  | u :: v :: rest => if u = 13 ∧ v = 10 then line :: linesFrom [] rest else linesFrom (line ++ [u]) (v :: rest)

/-- What `readLine` is awaited for. -/
inductive Awaits where
  | line
  | literal (size : Nat) (collected : JsString)
  | tail (literal : JsString)

structure Session where
  untagged : List JsString
  literals : List JsString
  awaits : Awaits

structure CommandError where
  message : JsString
  code : JsString

inductive Reply where
  | reading (session : Session)
  | answered (untagged literals : List JsString)
  | throws (error : CommandError)

/-- After a line or the rest of one. `Number` of the digits is exact up to the
maximum, and beyond it just as large. -/
def Session.next (s : Session) (current : JsString) : Reply :=
  match literalSuffix current with
  | none => .reading { s with awaits := .line }
  | some digits =>
    let size := parseDecimal digits
    if maxLiteralBytes < size then .throws ⟨js "IMAP client error: server literal is too large", js "PROTOCOL_ERROR"⟩
    else if size = 0 then .reading { s with awaits := .tail [] }
    else .reading { s with awaits := .literal size [] }

/-- `literals.push(literal)`, `untagged.push(tail)`. -/
def Session.took (s : Session) (literal tail : JsString) : Reply :=
  Session.next { s with untagged := s.untagged ++ [tail], literals := s.literals ++ [literal] } tail

def dropLineEnd (s : JsString) : JsString := if endsWith s crlf then s.take (s.length - 2) else s

/-- The line that is awaited has come. -/
def Session.feed (tag : JsString) (s : Session) (line : JsString) : Reply :=
  match s.awaits with
  | .line =>
    if startsWith line (tag ++ js " ") then
      let rest := line.drop (tag.length + 1)
      let status := (split rest 32).headD []
      if status = js "OK" then .answered s.untagged s.literals
      else .throws ⟨js "IMAP client error: command failed: " ++ rest,
        if status = js "NO" then js "COMMAND_REJECTED" else js "PROTOCOL_ERROR"⟩
    else Session.next { s with untagged := s.untagged ++ [line] } line
  | .literal size collected =>
    let collected := collected ++ line ++ crlf
    if byteLength collected < size then .reading { s with awaits := .literal size collected }
    else
      let bytes := utf8 collected
      let literal := utf8Text (bytes.take size)
      let rest := utf8Text (bytes.drop size)
      if rest.isEmpty then .reading { s with awaits := .tail literal } else s.took literal (dropLineEnd rest)
  | .tail literal => s.took literal line

def Reply.feed (tag : JsString) : Reply → JsString → Reply
  | .reading s, line => s.feed tag line
  | reply, _ => reply

/-- `command`, on the lines that follow it. -/
def command (tag : JsString) (lines : List JsString) : Reply := lines.foldl (Reply.feed tag) (.reading ⟨[], [], .line⟩)

/-- `nextTag`. -/
def tagOf (sequence : Nat) : JsString := 65 :: (List.replicate (4 - (decimal sequence).length) 48 ++ decimal sequence)

/-- A text without a line end. -/
def OneLine : JsString → Prop
  | u :: v :: rest => ¬ (u = 13 ∧ v = 10) ∧ OneLine (v :: rest)
  | _ => True

section
variable {a b l line rest : JsString}

theorem OneLine.cons {u : UInt16} (h : OneLine a) (other : u = 13 → a.head? ≠ some 10) : OneLine (u :: a) := by
  cases a with
  | nil => trivial
  | cons v a =>
    refine ⟨?_, h⟩
    rintro ⟨rfl, rfl⟩
    exact other rfl rfl

theorem OneLine.append (ha : OneLine a) (hb : OneLine b) (head : b.head? ≠ some 10) : OneLine (a ++ b) := by
  induction a with
  | nil => exact hb
  | cons u a ih =>
    cases a with
    | nil => exact hb.cons fun _ => head
    | cons v a => exact ⟨ha.1, ih ha.2⟩

theorem linesFrom_line (h : OneLine l) : linesFrom line (l ++ (crlf ++ rest)) = (line ++ l) :: linesFrom [] rest := by
  induction l generalizing line with
  | nil => simp [crlf, linesFrom]
  | cons u l ih =>
    cases l with
    | nil =>
      have end' : linesFrom (line ++ [u]) (crlf ++ rest) = (line ++ [u]) :: linesFrom [] rest := by simp [crlf, linesFrom]
      rw [← end']
      simp [crlf, linesFrom]
    | cons v l =>
      have next : linesFrom (line ++ [u]) (v :: l ++ (crlf ++ rest)) = (line ++ [u] ++ v :: l) :: linesFrom [] rest :=
        ih h.2
      simp only [List.cons_append] at next ⊢
      rw [linesFrom, if_neg h.1, next, List.append_assoc]
      rfl

/-- The first line end of a text, if it has one. -/
theorem oneLine_or (t : JsString) : OneLine t ∨ ∃ l t', t = l ++ (crlf ++ t') ∧ OneLine l := by
  induction t with
  | nil => exact .inl trivial
  | cons u t ih =>
    cases t with
    | nil => exact .inl trivial
    | cons v t =>
      by_cases here : u = 13 ∧ v = 10
      · obtain ⟨rfl, rfl⟩ := here
        exact .inr ⟨[], t, rfl, trivial⟩
      · rcases ih with one | ⟨l, t', shape, one⟩
        · exact .inl ⟨here, one⟩
        · refine .inr ⟨u :: l, t', by rw [shape]; rfl, one.cons ?_⟩
          rintro rfl head
          obtain ⟨l, rfl⟩ : ∃ l', l = 10 :: l' := List.head?_eq_some_iff.mp head
          rw [List.cons_append, List.cons.injEq] at shape
          exact here ⟨rfl, shape.1⟩

end

/-- What may stand behind a literal. -/
structure IsEntry (s : JsString) : Prop where
  oneLine : OneLine s
  wellFormed : toWellFormed s = s
  head : s.head? = some 32 ∨ s.head? = some 41

section
variable {tag : JsString} {s : Session} {literal after collected t more : JsString}

theorem IsEntry.cons (h : IsEntry after) : ∃ u rest, after = u :: rest ∧ isLowSurrogate u = false ∧ u ≠ 10 := by
  cases after with
  | nil =>
    have head := h.head
    simp at head
  | cons u rest =>
    refine ⟨u, rest, rfl, ?_⟩
    rcases h.head with h | h <;> cases h <;> decide

theorem utf8_crlf (a b : JsString) : utf8 (a ++ (crlf ++ b)) = utf8 (a ++ crlf) ++ utf8 b := by
  have line (b : JsString) : utf8 (crlf ++ b) = utf8 crlf ++ utf8 b := by cases b <;> rfl
  have front (b : JsString) : utf8 (a ++ (crlf ++ b)) = utf8 a ++ utf8 (crlf ++ b) :=
    utf8_append a (10 :: b) (show isLowSurrogate 13 = false by decide)
  have whole := front []
  rw [List.append_nil] at whole
  rw [front, whole, line, List.append_assoc]

theorem utf8_ne_nil {a : JsString} (h : a ≠ []) : 0 < byteLength a := by
  obtain ⟨u, rest, rfl⟩ := List.exists_cons_of_ne_nil h
  exact byteLength_pos u rest

theorem dropLineEnd_crlf (a : JsString) : dropLineEnd (a ++ crlf) = a := by
  have ends : endsWith (a ++ crlf) crlf = true := by
    rw [endsWith, List.isSuffixOf_iff_suffix]
    exact List.suffix_append a crlf
  rw [dropLineEnd, if_pos ends]
  simp [crlf]

/-- The lines of a literal are put together again. -/
theorem feed_literal (wellFormed : toWellFormed literal = literal) (entry : IsEntry after)
    (parts : literal = collected ++ t) (left : t ≠ []) :
    (linesFrom [] (t ++ (after ++ (crlf ++ more)))).foldl (Reply.feed tag)
        (.reading { s with awaits := .literal (byteLength literal) collected }) =
      (linesFrom [] more).foldl (Reply.feed tag) (s.took literal after) := by
  induction size : t.length using Nat.strongRecOn generalizing t collected with
  | _ n ih =>
    subst size
    rcases oneLine_or t with one | ⟨l, t', rfl, one⟩
    · -- the literal ends within the line
      obtain ⟨u, rest, shape, low, notLf⟩ := entry.cons
      have line : OneLine (t ++ after) := one.append entry.oneLine (by simp [shape, notLf])
      have bytes : utf8 (collected ++ (t ++ after) ++ crlf) = utf8 literal ++ utf8 (after ++ crlf) := by
        have cut := utf8_append literal (rest ++ crlf) low
        rw [parts, shape]
        simpa [parts] using cut
      have enough : ¬ byteLength (collected ++ (t ++ after) ++ crlf) < byteLength literal := by
        rw [byteLength, bytes, List.length_append]
        exact Nat.not_lt.mpr (Nat.le_add_right _ _)
      have behind : toWellFormed (after ++ crlf) = after ++ crlf := by
        rw [crlf, toWellFormed_append after [10] (by decide), entry.wellFormed]
        rfl
      have first : (utf8 literal ++ utf8 (after ++ crlf)).take (byteLength literal) = utf8 literal := List.take_left
      have second : (utf8 literal ++ utf8 (after ++ crlf)).drop (byteLength literal) = utf8 (after ++ crlf) :=
        List.drop_left
      have some' : (after ++ crlf).isEmpty = false := by simp [crlf]
      have fed : Session.feed tag { s with awaits := .literal (byteLength literal) collected } (t ++ after) =
          s.took literal after := by
        simp only [Session.feed, if_neg enough, bytes, first, second, utf8Text_utf8, wellFormed, behind, some',
          Bool.false_eq_true, if_false, dropLineEnd_crlf]
        rfl
      have lines : linesFrom [] (t ++ (after ++ (crlf ++ more))) = (t ++ after) :: linesFrom [] more := by
        rw [← List.append_assoc, linesFrom_line line]
        rfl
      rw [lines, List.foldl_cons, Reply.feed, fed]
    · -- the first line of the literal
      have lines : linesFrom [] (l ++ (crlf ++ t') ++ (after ++ (crlf ++ more))) =
          l :: linesFrom [] (t' ++ (after ++ (crlf ++ more))) := by
        rw [List.append_assoc, List.append_assoc, linesFrom_line one]
        rfl
      have parts' : literal = (collected ++ l ++ crlf) ++ t' := by rw [parts]; simp
      have bytes : byteLength literal = byteLength (collected ++ l ++ crlf) + byteLength t' := by
        have cut := utf8_crlf (collected ++ l) t'
        rw [byteLength, byteLength, byteLength, parts', List.append_assoc, cut, List.length_append]
      rw [lines, List.foldl_cons, Reply.feed]
      by_cases last : t' = []
      · -- nothing of it is left, and the entry is the next line
        subst last
        rw [List.append_nil] at parts'
        have enough : ¬ byteLength (collected ++ l ++ crlf) < byteLength literal := by
          rw [parts']
          exact Nat.lt_irrefl _
        have fed : Session.feed tag { s with awaits := .literal (byteLength literal) collected } l =
            .reading { s with awaits := .tail literal } := by
          have first : (utf8 literal).take (byteLength literal) = utf8 literal := List.take_length
          have second : (utf8 literal).drop (byteLength literal) = [] := List.drop_length
          have none : (utf8Text []).isEmpty = true := rfl
          simp only [Session.feed, if_neg enough]
          rw [← parts', first, second, utf8Text_utf8, wellFormed, if_pos none]
        have line : linesFrom [] ([] ++ (after ++ (crlf ++ more))) = after :: linesFrom [] more := by
          rw [List.nil_append, linesFrom_line entry.oneLine]
          rfl
        rw [fed, line, List.foldl_cons]
        rfl
      · have more' : byteLength (collected ++ l ++ crlf) < byteLength literal := by
          have positive := utf8_ne_nil last
          omega
        have fed : Session.feed tag { s with awaits := .literal (byteLength literal) collected } l =
            .reading { s with awaits := .literal (byteLength literal) (collected ++ l ++ crlf) } := by
          simp only [Session.feed, if_pos more']
        rw [fed]
        exact ih t'.length (by simp [crlf]; omega) parts' last rfl

end

end GuloGulo.Mail.Imap
