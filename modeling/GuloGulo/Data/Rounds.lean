import Mathlib.Data.List.Basic
import Mathlib.Data.List.Sort

/-!
# Rounds over a waiting line

A round looks at the first `limit` elements of a line. Those that are accepted
leave it, and those that are refused stay where they are, so that they are
looked at again before all that came after them.
-/

namespace GuloGulo.Data.Rounds
variable {α : Type} (limit : Nat) (refused : α → Bool)

/-- The line a round leaves. -/
def next (line : List α) : List α := (line.take limit).filter refused ++ line.drop limit

/-- The line after some rounds. -/
def lines (line : List α) : Nat → List α
  | 0 => line
  | n + 1 => lines (next limit refused line) n

/-- The element is accepted in the round that follows `n` rounds. -/
def LeavesAt (line : List α) (n : Nat) (x : α) : Prop :=
  x ∈ (lines limit refused line n).take limit ∧ refused x = false

variable {limit refused} {before after line : List α} {x : α}

attribute [local simp] next in
/-- A round over the elements before another one, and no further. -/
theorem next_append (far : limit ≤ before.length) :
    next limit refused (before ++ after) = next limit refused before ++ after := by
  simp only [next, List.take_append_of_le_length far, List.drop_append_of_le_length far, List.append_assoc]

theorem refused_next : (next limit refused line).filter refused = line.filter refused := by
  rw [next, List.filter_append, List.filter_filter]
  simp only [Bool.and_self]
  rw [← List.filter_append, List.take_append_drop]

/-- Where fewer are refused than a round looks at, a round over a longer line
shortens it. -/
theorem next_shorter (few : (line.filter refused).length < limit) (far : limit ≤ line.length) :
    (next limit refused line).length < line.length := by
  have looked : ((line.take limit).filter refused).length ≤ (line.filter refused).length :=
    ((List.take_sublist limit line).filter refused).length_le
  rw [next, List.length_append, List.length_drop]
  omega

/-- An element with few refused ones before it leaves in time. -/
theorem leaves_of_few (few : (before.filter refused).length < limit) (accepted : refused x = false) :
    ∃ n ≤ before.length, LeavesAt limit refused (before ++ x :: after) n x := by
  induction length : before.length using Nat.strongRecOn generalizing before with
  | _ k ih =>
    by_cases far : limit ≤ before.length
    · have shorter := next_shorter few far
      have few' : ((next limit refused before).filter refused).length < limit := by
        rw [refused_next]
        exact few
      obtain ⟨n, soon, leaves⟩ := ih _ (length ▸ shorter) few' rfl
      refine ⟨n + 1, by omega, ?_⟩
      rw [LeavesAt, lines, next_append far]
      exact leaves
    · refine ⟨0, Nat.zero_le _, ?_, accepted⟩
      have near : before.length < limit := by omega
      show x ∈ (before ++ x :: after).take limit
      rw [List.take_append, List.mem_append]
      right
      rw [show limit - before.length = (limit - before.length - 1) + 1 by omega]
      exact List.mem_cons_self

/-- Behind as many refused ones as a round looks at, an element stays for ever. -/
theorem stays_of_many (many : limit ≤ (before.filter refused).length) (behind : x ∉ before) (n : Nat) :
    ¬ LeavesAt limit refused (before ++ x :: after) n x := by
  have far : limit ≤ before.length := many.trans (List.length_filter_le refused before)
  induction n generalizing before with
  | zero =>
    rintro ⟨looked, _⟩
    change x ∈ (before ++ x :: after).take limit at looked
    rw [List.take_append_of_le_length far] at looked
    exact behind (List.mem_of_mem_take looked)
  | succ n ih =>
    rw [LeavesAt, lines, next_append far]
    have many' : limit ≤ ((next limit refused before).filter refused).length := by
      rw [refused_next]
      exact many
    have behind' : x ∉ next limit refused before := by
      intro h
      rcases List.mem_append.mp h with looked | later
      · exact behind (List.mem_of_mem_take (List.mem_filter.mp looked).1)
      · exact behind (List.mem_of_mem_drop later)
    exact ih many' behind' (many'.trans (List.length_filter_le refused _))

section
variable [DecidableEq α]

/-- The refused elements that stand before another one. -/
def ahead (refused : α → Bool) (line : List α) (x : α) : List α := (line.take (line.idxOf x)).filter refused

/-- In as many rounds as the line has elements, or more, just those leave that
stand behind few refused ones. -/
theorem leaves_iff (member : x ∈ line) (accepted : refused x = false) {rounds : Nat} (long : line.length ≤ rounds) :
    (∃ n < rounds, LeavesAt limit refused line n x) ↔ (ahead refused line x).length < limit := by
  have place := List.idxOf_lt_length_iff.mpr member
  have split : line = line.take (line.idxOf x) ++ x :: line.drop (line.idxOf x + 1) := by
    have here : line.drop (line.idxOf x) = x :: line.drop (line.idxOf x + 1) := by
      rw [List.drop_eq_getElem_cons place, List.getElem_idxOf]
    rw [← here, List.take_append_drop]
  have short : (line.take (line.idxOf x)).length = line.idxOf x := by
    rw [List.length_take]
    omega
  constructor
  · rintro ⟨n, _, leaves⟩
    by_contra many
    have behind : x ∉ line.take (line.idxOf x) := by
      rw [List.mem_take_iff_idxOf_lt member]
      exact lt_irrefl _
    rw [split] at leaves
    exact stays_of_many (not_lt.mp many) behind n leaves
  · intro few
    have leaves : ∃ n ≤ (line.take (line.idxOf x)).length,
        LeavesAt limit refused (line.take (line.idxOf x) ++ x :: line.drop (line.idxOf x + 1)) n x :=
      leaves_of_few few accepted
    rw [← split] at leaves
    obtain ⟨n, soon, leaves⟩ := leaves
    exact ⟨n, by omega, leaves⟩

/-- A round takes away those of the first elements that are accepted. -/
theorem next_eq_filter (nodup : line.Nodup) :
    next limit refused line = line.filter fun x => !(decide (x ∈ line.take limit) && !refused x) := by
  have disjoint : ∀ x ∈ line.drop limit, x ∉ line.take limit := by
    intro x later looked
    rw [← List.take_append_drop limit line] at nodup
    exact (List.nodup_append.mp nodup).2.2 x looked x later rfl
  conv_rhs => rw [← List.take_append_drop limit line]
  rw [next, List.filter_append]
  congr 1
  · apply List.filter_congr
    intro x looked
    simp [looked]
  · symm
    apply List.filter_eq_self.mpr
    intro x later
    simp [disjoint x later]

end

section
variable {r : α → α → Prop} [DecidableRel r] {p : α → Bool}

theorem filter_orderedInsert (trans : ∀ a b c, r a b → r b c → r a c) {a : α} {l : List α} (sorted : l.Pairwise r) :
    (l.orderedInsert r a).filter p = if p a then (l.filter p).orderedInsert r a else l.filter p := by
  induction l with
  | nil =>
    by_cases keep : p a <;> simp [keep]
  | cons b l ih =>
    obtain ⟨least, sorted⟩ := List.pairwise_cons.mp sorted
    by_cases first : r a b
    · rw [List.orderedInsert_cons_of_le r l first]
      by_cases keep : p a
      · rw [List.filter_cons_of_pos keep, if_pos keep]
        have below : ∀ c ∈ (b :: l).filter p, r a c := by
          intro c hc
          rcases List.mem_cons.mp (List.mem_filter.mp hc).1 with rfl | later
          · exact first
          · exact trans a b c first (least c later)
        cases rest : (b :: l).filter p with
        | nil => rfl
        | cons c rest' =>
          have head : c ∈ (b :: l).filter p := by
            rw [rest]
            exact List.mem_cons_self
          rw [List.orderedInsert_cons_of_le r rest' (below c head)]
      · rw [List.filter_cons_of_neg keep, if_neg keep]
    · rw [List.orderedInsert_of_not_le r l first]
      by_cases own : p b
      · rw [List.filter_cons_of_pos own, List.filter_cons_of_pos own, ih sorted]
        by_cases keep : p a
        · rw [if_pos keep, if_pos keep, List.orderedInsert_of_not_le r _ first]
        · rw [if_neg keep, if_neg keep]
      · rw [List.filter_cons_of_neg own, List.filter_cons_of_neg own, ih sorted]

/-- A stable sort and a selection commute. -/
theorem filter_insertionSort (total : ∀ a b, r a b ∨ r b a) (trans : ∀ a b c, r a b → r b c → r a c) (l : List α) :
    (l.insertionSort r).filter p = (l.filter p).insertionSort r := by
  have : Std.Total r := ⟨total⟩
  have : IsTrans α r := ⟨trans⟩
  induction l with
  | nil => rfl
  | cons a l ih =>
    rw [List.insertionSort_cons, filter_orderedInsert trans (List.pairwise_insertionSort r l), ih]
    by_cases keep : p a
    · rw [if_pos keep, List.filter_cons_of_pos keep, List.insertionSort_cons]
    · rw [if_neg keep, List.filter_cons_of_neg keep]

end

end GuloGulo.Data.Rounds
