import GuloGulo.Js.Lines
import Mathlib.Data.List.Infix

/-!
# Replacing what a pattern matches

`replace` with a pattern and the flag `g`: the text is read from the left, what
is matched is replaced and passed over, and everything else is kept. A pattern
is a function from the rest of the text to the length of its match there and
what it is replaced by.
-/

namespace GuloGulo.Js

abbrev Matcher := JsString → Option (Nat × JsString)

/-- `skip` counts the units of a match that are still to be passed over. -/
def replaceMatches (m : Matcher) : Nat → JsString → JsString
  | _, [] => []
  | skip + 1, _ :: rest => replaceMatches m skip rest
  | 0, u :: rest =>
    match m (u :: rest) with
    | some (n, r) => r ++ replaceMatches m (n - 1) rest
    | none => u :: replaceMatches m 0 rest

def replaceWith (m : Matcher) (s : JsString) : JsString := replaceMatches m 0 s

/-- The pattern matches nowhere in the text. -/
def Clear (m : Matcher) (s : JsString) : Prop := ∀ t, t <:+ s → m t = none

instance (m : Matcher) (s : JsString) : Decidable (Clear m s) :=
  decidable_of_iff (∀ t ∈ s.tails, (m t).isNone) <| by
    simp [Clear, List.mem_tails]

/-- A match anywhere in the text is replaced by something shorter. -/
def Shrinks (m : Matcher) (s : JsString) : Prop :=
  ∀ t, t <:+ s → ∀ n r, m t = some (n, r) → r.length < n ∧ n ≤ t.length

theorem Shrinks.suffix {m : Matcher} {s t : JsString} (h : Shrinks m s) (ht : t <:+ s) : Shrinks m t :=
  fun t' ht' => h t' (ht'.trans ht)

theorem replaceMatches_drop (m : Matcher) (n : Nat) (s : JsString) :
    replaceMatches m n s = replaceMatches m 0 (s.drop n) := by
  induction s generalizing n with
  | nil => cases n <;> rfl
  | cons u s ih =>
    cases n with
    | zero => rfl
    | succ n => exact ih n

attribute [local simp] replaceMatches in
theorem replaceWith_cons_none {m : Matcher} {u : UInt16} {s : JsString} (h : m (u :: s) = none) :
    replaceWith m (u :: s) = u :: replaceWith m s := by
  rw [replaceWith, replaceMatches, h]
  rfl

theorem replaceWith_cons_some {m : Matcher} {u : UInt16} {s r : JsString} {n : Nat}
    (h : m (u :: s) = some (n + 1, r)) : replaceWith m (u :: s) = r ++ replaceWith m (s.drop n) := by
  rw [replaceWith, replaceMatches, h]
  exact congrArg (r ++ ·) (replaceMatches_drop m n s)

theorem replaceWith_clear {m : Matcher} {s : JsString} (h : Clear m s) : replaceWith m s = s := by
  induction s with
  | nil => rfl
  | cons u s ih =>
    rw [replaceWith_cons_none (h _ List.suffix_rfl), ih fun t ht => h t (ht.trans (List.suffix_cons u s))]

theorem forall_mem_replaceWith {m : Matcher} {s : JsString} {p : UInt16 → Prop} (h : ∀ u ∈ s, p u)
    (inserted : ∀ t n r, m t = some (n, r) → ∀ u ∈ r, p u) : ∀ u ∈ replaceWith m s, p u := by
  have any (skip : Nat) : ∀ u ∈ replaceMatches m skip s, p u := by
    induction s generalizing skip with
    | nil =>
      cases skip
      · nofun
      · nofun
    | cons v s ih =>
      rw [List.forall_mem_cons] at h
      cases skip with
      | succ skip => exact ih h.2 skip
      | zero =>
        rw [replaceMatches]
        split
        · rename_i n r found
          rw [List.forall_mem_append]
          exact ⟨inserted _ n r found, ih h.2 _⟩
        · rw [List.forall_mem_cons]
          exact ⟨h.1, ih h.2 0⟩
  exact any 0

theorem replaceMatches_length {m : Matcher} {s : JsString} (shrinks : Shrinks m s) (skip : Nat) :
    (replaceMatches m skip s).length ≤ s.length - skip := by
  induction s generalizing skip with
  | nil => simp [replaceMatches]
  | cons u s ih =>
    have rest := ih (shrinks.suffix (List.suffix_cons u s))
    cases skip with
    | succ skip =>
      have := rest skip
      simp only [replaceMatches, List.length_cons]
      omega
    | zero =>
      rw [replaceMatches]
      split
      · rename_i n r found
        obtain ⟨short, inside⟩ := shrinks _ List.suffix_rfl n r found
        have := rest (n - 1)
        rw [List.length_cons] at inside
        rw [List.length_append, List.length_cons]
        omega
      · have := rest 0
        simp only [List.length_cons]
        omega

theorem replaceWith_length {m : Matcher} {s : JsString} (shrinks : Shrinks m s) :
    (replaceWith m s).length ≤ s.length := by
  have := replaceMatches_length shrinks 0
  exact this

/-- A text that is matched somewhere gets shorter. -/
theorem replaceWith_shorter {m : Matcher} {s : JsString} (shrinks : Shrinks m s) (h : ¬ Clear m s) :
    (replaceWith m s).length < s.length := by
  induction s with
  | nil =>
    exfalso
    apply h
    intro t ht
    rw [List.suffix_nil.mp ht]
    cases found : m [] with
    | none => rfl
    | some p =>
      have := shrinks [] List.suffix_rfl p.1 p.2 found
      rw [List.length_nil] at this
      omega
  | cons u s ih =>
    cases found : m (u :: s) with
    | some p =>
      obtain ⟨n, r⟩ := p
      obtain ⟨short, inside⟩ := shrinks _ List.suffix_rfl n r found
      cases n with
      | zero => omega
      | succ n =>
        rw [List.length_cons] at inside
        rw [replaceWith_cons_some found, List.length_append, List.length_cons]
        have dropped : s.drop n <:+ u :: s := (List.drop_suffix n s).trans (List.suffix_cons u s)
        have rest := replaceWith_length (shrinks.suffix dropped)
        rw [List.length_drop] at rest
        omega
    | none =>
      rw [replaceWith_cons_none found, List.length_cons, List.length_cons]
      have rest : ¬ Clear m s := by
        intro clear
        apply h
        intro t ht
        rcases List.suffix_cons_iff.mp ht with rfl | ht
        · exact found
        · exact clear t ht
      exact Nat.succ_lt_succ (ih (shrinks.suffix (List.suffix_cons u s)) rest)

theorem replaceWith_eq_self {m : Matcher} {s : JsString} (shrinks : Shrinks m s) :
    replaceWith m s = s ↔ Clear m s := by
  constructor
  · intro same
    by_contra h
    have := replaceWith_shorter shrinks h
    rw [same] at this
    exact Nat.lt_irrefl _ this
  · exact replaceWith_clear

/-! ## Separators -/

/-- `replace` with two strings: the first occurrence only. -/
def replaceFirst (s t r : JsString) : JsString :=
  if startsWith s t then r ++ s.drop t.length
  else match s with
    | [] => []
    | u :: rest => u :: replaceFirst rest t r

/-- `indexOf` of a text, as what is before it and what is after it. -/
def cutString (t s : JsString) : Option (JsString × JsString) :=
  if startsWith s t then some ([], s.drop t.length)
  else match s with
    | [] => none
    | u :: rest => (cutString t rest).map fun p => (u :: p.1, p.2)

/-- `line` is what has been read of the part, from its end. -/
def splitFrom (t : JsString) : Nat → JsString → JsString → List JsString
  | _, line, [] => [line.reverse]
  | skip + 1, line, _ :: rest => splitFrom t skip line rest
  | 0, line, u :: rest =>
    if startsWith (u :: rest) t then line.reverse :: splitFrom t (t.length - 1) [] rest
    else splitFrom t 0 (u :: line) rest

/-- `split` at a text. -/
def splitString (t s : JsString) : List JsString := splitFrom t 0 [] s

theorem mem_replaceFirst {s t r : JsString} {u : UInt16} (h : u ∈ replaceFirst s t r) : u ∈ r ∨ u ∈ s := by
  induction s with
  | nil =>
    rw [replaceFirst] at h
    split at h
    · rcases List.mem_append.mp h with h | h
      · exact .inl h
      · rw [List.drop_nil] at h
        cases h
    · cases h
  | cons v s ih =>
    rw [replaceFirst] at h
    split at h
    · rcases List.mem_append.mp h with h | h
      · exact .inl h
      · exact .inr (List.mem_of_mem_drop h)
    · rcases List.mem_cons.mp h with rfl | h
      · exact .inr List.mem_cons_self
      · exact (ih h).imp_right (List.mem_cons_of_mem v)

theorem startsWith_cons_ne {u v : UInt16} (h : u ≠ v) (s t : JsString) : startsWith (u :: s) (v :: t) = false := by
  rw [startsWith, List.isPrefixOf_cons_cons, beq_false_of_ne h.symm, Bool.false_and]

theorem cutString_append {v : UInt16} {t a : JsString} (h : v ∉ a) (s : JsString) :
    cutString (v :: t) (a ++ s) = (cutString (v :: t) s).map fun p => (a ++ p.1, p.2) := by
  induction a with
  | nil => exact Option.map_id'.symm
  | cons u a ih =>
    rw [List.mem_cons, not_or] at h
    rw [List.cons_append, cutString, startsWith_cons_ne (Ne.symm h.1), if_neg Bool.false_ne_true, ih h.2, Option.map_map]
    rfl

attribute [local simp] splitFrom in
theorem splitFrom_append {v : UInt16} {t a line : JsString} (h : v ∉ a) (s : JsString) :
    splitFrom (v :: t) 0 line (a ++ s) = splitFrom (v :: t) 0 (a.reverse ++ line) s := by
  induction a generalizing line with
  | nil => rfl
  | cons u a ih =>
    rw [List.mem_cons, not_or] at h
    rw [List.cons_append, splitFrom, startsWith_cons_ne (Ne.symm h.1), if_neg Bool.false_ne_true, ih h.2,
      List.reverse_cons, List.append_assoc]
    rfl

/-- Splitting undoes joining. -/
theorem splitString_join {v : UInt16} {t : JsString} {lines : List JsString} (some' : lines ≠ [])
    (clean : ∀ l ∈ lines, v ∉ l) : splitString (v :: t) (join lines (v :: t)) = lines := by
  have passed (n : Nat) (line s : JsString) : splitFrom (v :: t) n line s = splitFrom (v :: t) 0 line (s.drop n) := by
    induction s generalizing n with
    | nil => cases n <;> rfl
    | cons u s ih =>
      cases n with
      | zero => rfl
      | succ n => exact ih n
  induction lines with
  | nil => exact absurd rfl some'
  | cons l lines ih =>
    rw [List.forall_mem_cons] at clean
    cases lines with
    | nil =>
      rw [splitString, join, List.intercalate_singleton, ← List.append_nil l, splitFrom_append clean.1, splitFrom,
        List.append_nil, List.reverse_reverse, List.append_nil]
    | cons m lines =>
      have found (s : JsString) : startsWith (v :: (t ++ s)) (v :: t) = true := by
        rw [startsWith, List.isPrefixOf_iff_prefix]
        exact List.prefix_append (v :: t) s
      have rest := ih (by simp) clean.2
      rw [splitString] at rest
      rw [splitString, join, List.intercalate_cons_cons, List.append_assoc, splitFrom_append clean.1,
        List.cons_append, splitFrom, found, if_pos rfl, passed]
      simp only [List.append_nil, List.reverse_reverse, List.length_cons, Nat.add_sub_cancel, List.drop_left]
      exact congrArg (l :: ·) rest

/-! ## Line breaks -/

/-- Every line break is a CRLF. -/
inductive CrlfOnly : JsString → Prop where
  | nil : CrlfOnly []
  | unit {u : UInt16} {s : JsString} (cr : u ≠ 13) (lf : u ≠ 10) (rest : CrlfOnly s) : CrlfOnly (u :: s)
  | newline {s : JsString} (rest : CrlfOnly s) : CrlfOnly (13 :: 10 :: s)

/-- `/\r\n|\r|\n/`, replaced by CRLF. -/
def newline : Matcher
  | 13 :: 10 :: _ => some (2, crlf)
  | 13 :: _ => some (1, crlf)
  | 10 :: _ => some (1, crlf)
  | _ => none

/-- `replace(/\r\n|\r|\n/gu, '\r\n')`. -/
def normalizeNewlines (s : JsString) : JsString := replaceWith newline s

theorem normalizeNewlines_unit {u : UInt16} (cr : u ≠ 13) (lf : u ≠ 10) (s : JsString) :
    normalizeNewlines (u :: s) = u :: normalizeNewlines s := by
  apply replaceWith_cons_none
  unfold newline
  split
  · simp_all
  · simp_all
  · simp_all
  · rfl

theorem normalizeNewlines_crlf (s : JsString) : normalizeNewlines (13 :: 10 :: s) = 13 :: 10 :: normalizeNewlines s :=
  replaceWith_cons_some (n := 1) (r := crlf) rfl

theorem normalizeNewlines_lf (s : JsString) : normalizeNewlines (10 :: s) = 13 :: 10 :: normalizeNewlines s :=
  replaceWith_cons_some (n := 0) (r := crlf) rfl

theorem normalizeNewlines_cr {s : JsString} (h : ∀ t, s ≠ 10 :: t) :
    normalizeNewlines (13 :: s) = 13 :: 10 :: normalizeNewlines s := by
  apply replaceWith_cons_some (n := 0) (r := crlf)
  unfold newline
  split
  · rename_i t same
    cases same
    exact absurd rfl (h _)
  · rfl
  · rename_i same
    cases same
  · rename_i one two three
    exact absurd rfl (two _)

theorem crlfOnly_append {s t : JsString} (hs : CrlfOnly s) (ht : CrlfOnly t) : CrlfOnly (s ++ t) := by
  induction hs with
  | nil => exact ht
  | unit cr lf _ ih => exact .unit cr lf ih
  | newline _ ih => exact .newline ih

theorem crlfOnly_clean {s : JsString} (cr : 13 ∉ s) (lf : 10 ∉ s) : CrlfOnly s := by
  induction s with
  | nil => exact .nil
  | cons u s ih =>
    rw [List.mem_cons, not_or] at cr lf
    exact .unit (Ne.symm cr.1) (Ne.symm lf.1) (ih cr.2 lf.2)

theorem crlfOnly_crlf : CrlfOnly crlf := .newline .nil

theorem toWellFormed_cons {u : UInt16} (hi : isHighSurrogate u = false) (lo : isLowSurrogate u = false) (s : JsString) :
    toWellFormed (u :: s) = u :: toWellFormed s := by
  cases s with
  | nil => simp [toWellFormed, hi, lo]
  | cons v s => rw [toWellFormed, hi, lo, if_neg Bool.false_ne_true, if_neg Bool.false_ne_true]

/-- Line breaks stand in no surrogate pair. -/
theorem normalizeNewlines_toWellFormed (s : JsString) (h : toWellFormed s = s) :
    toWellFormed (normalizeNewlines s) = normalizeNewlines s := by
  have cr (t : JsString) : toWellFormed (13 :: t) = 13 :: toWellFormed t := toWellFormed_cons rfl rfl t
  have lf (t : JsString) : toWellFormed (10 :: t) = 10 :: toWellFormed t := toWellFormed_cons rfl rfl t
  have surrogate {u : UInt16} (hu : isHighSurrogate u = true ∨ isLowSurrogate u = true) : u ≠ 13 ∧ u ≠ 10 := by
    refine ⟨?_, ?_⟩
    · rintro rfl
      rcases hu with hu | hu
      · cases hu
      · cases hu
    · rintro rfl
      rcases hu with hu | hu
      · cases hu
      · cases hu
  have lone {u : UInt16} (hu : isHighSurrogate u = true ∨ isLowSurrogate u = true) : u ≠ 0xFFFD := by
    rintro rfl
    rcases hu with hu | hu
    · cases hu
    · cases hu
  induction len : s.length using Nat.strongRecOn generalizing s with
  | _ n ih =>
    cases s with
    | nil => rfl
    | cons u s =>
      rw [List.length_cons] at len
      by_cases pair : isHighSurrogate u = true ∨ isLowSurrogate u = true
      · have plain := surrogate pair
        cases s with
        | nil =>
          rw [toWellFormed, if_pos (Bool.or_eq_true_iff.mpr pair)] at h
          exact absurd (List.cons.inj h).1.symm (lone pair)
        | cons v s =>
          by_cases hi : isHighSurrogate u = true
          · by_cases lo : isLowSurrogate v = true
            · rw [toWellFormed, if_pos hi, if_pos lo] at h
              have rest := ih s.length (by simp only [List.length_cons] at len; omega) s
                (List.cons.inj (List.cons.inj h).2).2 rfl
              have next := surrogate (.inr lo)
              rw [normalizeNewlines_unit plain.1 plain.2, normalizeNewlines_unit next.1 next.2, toWellFormed, if_pos hi,
                if_pos lo, rest]
            · rw [toWellFormed, if_pos hi, if_neg lo] at h
              exact absurd (List.cons.inj h).1.symm (lone pair)
          · have lo := pair.resolve_left hi
            rw [toWellFormed, if_neg hi, if_pos lo] at h
            exact absurd (List.cons.inj h).1.symm (lone pair)
      · rw [not_or, Bool.not_eq_true, Bool.not_eq_true] at pair
        rw [toWellFormed_cons pair.1 pair.2] at h
        have inside := (List.cons.inj h).2
        have rest := ih s.length (by omega) s inside rfl
        by_cases isCr : u = 13
        · subst isCr
          by_cases next : ∃ t, s = 10 :: t
          · obtain ⟨t, rfl⟩ := next
            rw [lf] at inside
            have below := ih t.length (by simp only [List.length_cons] at len; omega) t (List.cons.inj inside).2 rfl
            rw [normalizeNewlines_crlf, cr, lf, below]
          · rw [normalizeNewlines_cr (fun t eq => next ⟨t, eq⟩), cr, lf, rest]
        · by_cases isLf : u = 10
          · subst isLf
            rw [normalizeNewlines_lf, cr, lf, rest]
          · rw [normalizeNewlines_unit isCr isLf, toWellFormed_cons pair.1 pair.2, rest]

theorem normalizeNewlines_of_crlfOnly {s : JsString} (h : CrlfOnly s) : normalizeNewlines s = s := by
  induction h with
  | nil => rfl
  | unit cr lf _ ih => rw [normalizeNewlines_unit cr lf, ih]
  | newline _ ih => rw [normalizeNewlines_crlf, ih]

theorem head_normalizeNewlines {v : UInt16} (cr : v ≠ 13) (lf : v ≠ 10) (s : JsString) :
    (normalizeNewlines s).head? = some v ↔ s.head? = some v := by
  cases s with
  | nil => exact Iff.rfl
  | cons u s =>
    by_cases isCr : u = 13
    · subst isCr
      have first : (normalizeNewlines (13 :: s)).head? = some 13 := by
        by_cases next : ∃ t, s = 10 :: t
        · obtain ⟨t, rfl⟩ := next
          rw [normalizeNewlines_crlf, List.head?_cons]
        · rw [normalizeNewlines_cr fun t eq => next ⟨t, eq⟩, List.head?_cons]
      rw [first, List.head?_cons]
    · by_cases isLf : u = 10
      · subst isLf
        rw [normalizeNewlines_lf, List.head?_cons, List.head?_cons, Option.some_inj, Option.some_inj]
        exact ⟨fun eq => absurd eq.symm cr, fun eq => absurd eq.symm lf⟩
      · rw [normalizeNewlines_unit isCr isLf, List.head?_cons, List.head?_cons]

end GuloGulo.Js
