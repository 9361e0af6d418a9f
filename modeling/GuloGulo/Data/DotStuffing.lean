import Mathlib.Data.List.Basic

/-!
# Dot-stuffed lines

Lines over any alphabet, each ended by two marks, and after the last of them a
line of a single dot. A line that starts with a dot gets one more, so that the
end is found where it was put.
-/

namespace GuloGulo.Data

structure Marks (α : Type) where
  cr : α
  lf : α
  dot : α
  cr_lf : cr ≠ lf
  cr_dot : cr ≠ dot
  lf_dot : lf ≠ dot

namespace Marks

section
variable {α : Type} (m : Marks α)

def newline : List α := [m.cr, m.lf]

/-- The dot, and the lines it ends. -/
def terminator : List α := m.dot :: m.newline

def terminated (lines : List (List α)) : List α := lines.flatMap (· ++ m.newline)

/-- No mark of a line end is in the line. -/
def Clean (line : List α) : Prop := m.cr ∉ line ∧ m.lf ∉ line

/-- The marks of line ends stand in pairs. -/
inductive Paired : List α → Prop where
  | nil : Paired []
  | unit {u : α} {s : List α} (cr : u ≠ m.cr) (lf : u ≠ m.lf) (rest : Paired s) : Paired (u :: s)
  | newline {s : List α} (rest : Paired s) : Paired (m.cr :: m.lf :: s)

variable [DecidableEq α]

def stuff (line : List α) : List α := if line.head? = some m.dot then m.dot :: line else line

def unstuff (line : List α) : List α := if line.head? = some m.dot then line.drop 1 else line

/-- What is sent of a message. -/
def sent (lines : List (List α)) : List α := m.terminated (lines.map m.stuff) ++ m.terminator

/-- The lines up to that of a single dot, and what comes after it; `line` is
what has been read of the next one, from its end. -/
def receive (line : List α) : List α → Option (List (List α) × List α)
  | [] => none
  | u :: s =>
    match s with
    | [] => none
    | v :: rest =>
      if u = m.cr ∧ v = m.lf then
        if line.reverse = [m.dot] then some ([], rest)
        else (receive [] rest).map fun p => (m.unstuff line.reverse :: p.1, p.2)
      else receive (u :: line) (v :: rest)

/-- The lines of a message that ends with its dot, each with its end. -/
def undo (bytes : List α) : Option (List α) :=
  match m.receive [] bytes with
  | some (lines, []) => some (m.terminated lines)
  | _ => none

end

section
variable {α : Type} {m : Marks α}

theorem paired_append {s t : List α} (hs : m.Paired s) (ht : m.Paired t) : m.Paired (s ++ t) := by
  induction hs with
  | nil => exact ht
  | unit cr lf _ ih => exact .unit cr lf ih
  | newline _ ih => exact .newline ih

theorem paired_clean {line : List α} (clean : m.Clean line) : m.Paired line := by
  induction line with
  | nil => exact .nil
  | cons u line ih =>
    obtain ⟨cr, lf⟩ := clean
    rw [List.mem_cons, not_or] at cr lf
    exact .unit (Ne.symm cr.1) (Ne.symm lf.1) (ih ⟨cr.2, lf.2⟩)

theorem paired_terminated {lines : List (List α)} (clean : ∀ l ∈ lines, m.Clean l) : m.Paired (m.terminated lines) := by
  induction lines with
  | nil => exact .nil
  | cons l lines ih =>
    rw [List.forall_mem_cons] at clean
    exact paired_append (paired_append (paired_clean clean.1) (.newline .nil)) (ih clean.2)

theorem not_mem_cons {u v : α} {s : List α} (first : u ≠ v) (rest : u ∉ s) : u ∉ v :: s := by
  rw [List.mem_cons, not_or]
  exact ⟨first, rest⟩

/-- Before a mark of a line end, a text without it is passed. -/
theorem passed {line a b rest : List α} (clean : m.cr ∉ line) (same : line ++ rest = a ++ m.cr :: b) :
    ∃ a', a = line ++ a' ∧ rest = a' ++ m.cr :: b := by
  induction line generalizing a with
  | nil => exact ⟨a, rfl, same⟩
  | cons u line ih =>
    rw [List.mem_cons, not_or] at clean
    cases a with
    | nil =>
      rw [List.cons_append, List.nil_append, List.cons.injEq] at same
      exact absurd same.1.symm clean.1
    | cons v a =>
      rw [List.cons_append, List.cons_append, List.cons.injEq] at same
      obtain ⟨a', rfl, tail⟩ := ih clean.2 same.2
      exact ⟨a', by rw [same.1, List.cons_append], tail⟩

/-- What begins after a line end ends with one. -/
theorem newline_terminated (lines : List (List α)) :
    ∃ before, m.newline ++ m.terminated lines = before ++ m.newline := by
  induction lines with
  | nil => exact ⟨[], List.append_nil _⟩
  | cons l lines ih =>
    obtain ⟨before, same⟩ := ih
    refine ⟨m.newline ++ l ++ before, ?_⟩
    have split : m.terminated (l :: lines) = l ++ (m.newline ++ m.terminated lines) := by
      rw [terminated, List.flatMap_cons, List.append_assoc, terminated]
    rw [split, same]
    simp only [List.append_assoc]

variable [DecidableEq α]

theorem clean_stuff {line : List α} (clean : m.Clean line) : m.Clean (m.stuff line) := by
  unfold stuff
  split
  · obtain ⟨cr, lf⟩ := clean
    constructor
    · exact not_mem_cons m.cr_dot cr
    · exact not_mem_cons m.lf_dot lf
  · exact clean

theorem clean_map_stuff {lines : List (List α)} (clean : ∀ l ∈ lines, m.Clean l) :
    ∀ l ∈ lines.map m.stuff, m.Clean l := by
  intro l mem
  obtain ⟨l', mem', rfl⟩ := List.mem_map.mp mem
  exact clean_stuff (clean l' mem')

theorem paired_sent {lines : List (List α)} (clean : ∀ l ∈ lines, m.Clean l) : m.Paired (m.sent lines) :=
  paired_append (paired_terminated (clean_map_stuff clean))
    (.unit m.cr_dot.symm m.lf_dot.symm (.newline .nil))

/-- A line that was stuffed is not the last one. -/
theorem stuff_ne_dot (line : List α) : m.stuff line ≠ [m.dot] := by
  unfold stuff
  split
  · rename_i starts
    intro same
    rw [List.cons.injEq] at same
    rw [same.2] at starts
    cases starts
  · rename_i other
    intro same
    rw [same] at other
    exact other rfl

theorem unstuff_stuff (line : List α) : m.unstuff (m.stuff line) = line := by
  by_cases starts : line.head? = some m.dot
  · rw [stuff, if_pos starts, unstuff, List.head?_cons, if_pos rfl, List.drop_one, List.tail_cons]
  · rw [stuff, if_neg starts, unstuff, if_neg starts]

theorem receive_clean {part : List α} (clean : m.cr ∉ part) (line : List α) (rest : List α) :
    m.receive line (part ++ m.newline ++ rest) = m.receive (part.reverse ++ line) (m.newline ++ rest) := by
  induction part generalizing line with
  | nil => rfl
  | cons u part ih =>
    rw [List.mem_cons, not_or] at clean
    have more : ∃ v tail, part ++ m.newline ++ rest = v :: tail := by
      cases part with
      | nil => exact ⟨_, _, rfl⟩
      | cons v part => exact ⟨_, _, rfl⟩
    obtain ⟨v, tail, same⟩ := more
    have step : m.receive line (u :: v :: tail) = m.receive (u :: line) (v :: tail) := by
      rw [receive, if_neg fun ends => clean.1 ends.1.symm]
    rw [List.cons_append, List.cons_append, same, step, ← same, ih clean.2, List.reverse_cons, List.append_assoc,
      List.singleton_append]

theorem receive_newline (line rest : List α) : m.receive line (m.newline ++ rest) =
    if line.reverse = [m.dot] then some ([], rest)
    else (m.receive [] rest).map fun p => (m.unstuff line.reverse :: p.1, p.2) := by
  show m.receive line (m.cr :: m.lf :: rest) = _
  rw [receive, if_pos ⟨rfl, rfl⟩]

/-- What was sent is received, and nothing after it is taken for a part of it. -/
theorem receive_sent {lines : List (List α)} (clean : ∀ l ∈ lines, m.Clean l) (rest : List α) :
    m.receive [] (m.sent lines ++ rest) = some (lines, rest) := by
  induction lines with
  | nil =>
    show m.receive [] ([m.dot] ++ m.newline ++ rest) = _
    rw [receive_clean (not_mem_cons m.cr_dot List.not_mem_nil), receive_newline]
    exact if_pos rfl
  | cons l lines ih =>
    rw [List.forall_mem_cons] at clean
    have split : m.sent (l :: lines) ++ rest = m.stuff l ++ m.newline ++ (m.sent lines ++ rest) := by
      simp only [sent, terminated, List.map_cons, List.flatMap_cons, List.append_assoc]
    rw [split, receive_clean (clean_stuff clean.1).1, receive_newline, List.append_nil, List.reverse_reverse,
      if_neg (stuff_ne_dot l), ih clean.2, Option.map_some, unstuff_stuff]

theorem undo_sent {lines : List (List α)} (clean : ∀ l ∈ lines, m.Clean l) :
    m.undo (m.sent lines) = some (m.terminated lines) := by
  have received := receive_sent clean []
  rw [List.append_nil] at received
  rw [undo, received]

/-- The terminator stands at the beginning of a line only at the end. -/
theorem terminator_last {lines : List (List α)} (clean : ∀ l ∈ lines, m.Clean l) {a b : List α}
    (found : m.newline ++ m.sent lines = a ++ (m.newline ++ m.terminator) ++ b) : b = [] := by
  induction lines generalizing a with
  | nil =>
    have lengths := congrArg List.length found
    simp only [sent, terminated, terminator, newline, List.map_nil, List.flatMap_nil, List.nil_append,
      List.length_append, List.length_cons, List.length_nil] at lengths
    exact List.eq_nil_of_length_eq_zero (by omega)
  | cons l lines ih =>
    rw [List.forall_mem_cons] at clean
    have split : m.sent (l :: lines) = m.stuff l ++ (m.newline ++ m.sent lines) := by
      simp only [sent, terminated, List.map_cons, List.flatMap_cons, List.append_assoc]
    have stuffed := clean_stuff clean.1
    rw [split] at found
    cases a with
    | nil =>
      have here : m.stuff l ++ (m.newline ++ m.sent lines) = [m.dot] ++ m.cr :: (m.lf :: b) :=
        (List.cons.inj (List.cons.inj found).2).2
      obtain ⟨a', dot, rest⟩ := passed stuffed.1 here
      cases a' with
      | nil =>
        rw [List.append_nil] at dot
        exact absurd dot.symm (stuff_ne_dot l)
      | cons v a' =>
        have first : m.cr = v := (List.cons.inj rest).1
        have mem : v ∈ [m.dot] := by
          rw [dot]
          exact List.mem_append_right _ List.mem_cons_self
        rw [List.mem_singleton, ← first] at mem
        exact absurd mem m.cr_dot
    | cons v a =>
      rw [List.append_assoc] at found
      have here : (m.lf :: m.stuff l) ++ (m.newline ++ m.sent lines) = a ++ m.cr :: (m.lf :: m.terminator ++ b) :=
        (List.cons.inj found).2
      obtain ⟨a', _, rest⟩ := passed (not_mem_cons m.cr_lf stuffed.1) here
      apply ih clean.2 (a := a')
      rw [rest, List.append_assoc]
      rfl

end

end Marks

end GuloGulo.Data
