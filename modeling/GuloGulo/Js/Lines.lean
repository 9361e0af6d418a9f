import GuloGulo.Js.Effect
import Mathlib.Algebra.Ring.Nat

/-!
# Folded lines

Content lines end in CRLF, and a line that starts with a blank continues the
one before it. The formats that use them unfold a text and write the result
back with one line per property; here is what reading that form again gives.
-/

namespace GuloGulo.Js

def crlf : JsString := [13, 10]
def lf : JsString := [10]
def cr : JsString := [13]

attribute [local simp] startsWith in
theorem includes_self (s rest : JsString) : includes (s ++ rest) s = true := by
  have h : startsWith (s ++ rest) s = true := by
    rw [startsWith, List.isPrefixOf_iff_prefix]; exact List.prefix_append ..
  unfold includes
  simp [h]

theorem includes_append (a : JsString) {s t : JsString} (h : includes s t = true) :
    includes (a ++ s) t = true := by
  induction a with
  | nil => exact h
  | cons u a ih => rw [List.cons_append, includes, ih, Bool.or_true]

attribute [local simp] replaceFrom in
theorem replaceAll_of_not_mem {s r : JsString} {u : UInt16} (h : u ∉ s) : replaceAll s [u] r = s := by
  unfold replaceAll
  induction s with
  | nil => rfl
  | cons v s ih =>
    have hv : u ≠ v := by rintro rfl; simp at h
    have hs : u ∉ s := fun hm => h (List.mem_cons_of_mem _ hm)
    simp [replaceFrom, startsWith, hv, ih hs]

/-- Replacing one unit leaves none of it, unless the replacement has it. -/
theorem not_mem_replaceAll {s r : JsString} {u : UInt16} (h : u ∉ r) : u ∉ replaceAll s [u] r := by
  unfold replaceAll
  induction s with
  | nil => simp [replaceFrom]
  | cons v s ih =>
    by_cases hv : u = v
    · subst hv; simp [replaceFrom, startsWith, h, ih]
    · simp [replaceFrom, startsWith, hv, ih]

theorem mem_of_mem_replaceFrom {t r s : JsString} {u : UInt16} {skip : Nat}
    (h : u ∈ replaceFrom t r skip s) : u ∈ r ∨ u ∈ s := by
  induction s generalizing skip with
  | nil => simp [replaceFrom] at h
  | cons v s ih =>
    cases skip with
    | succ skip => exact (ih h).imp_right (List.mem_cons_of_mem _)
    | zero =>
      simp only [replaceFrom] at h
      split at h
      · rcases List.mem_append.mp h with h | h
        · exact .inl h
        · exact (ih h).imp_right (List.mem_cons_of_mem _)
      · rcases List.mem_cons.mp h with rfl | h
        · simp
        · exact (ih h).imp_right (List.mem_cons_of_mem _)

/-- `lines.join(end) + end` ends every line. -/
theorem join_terminated {lines : List JsString} (h : lines ≠ []) (sep : JsString) :
    join lines sep ++ sep = lines.flatMap (· ++ sep) := by
  unfold join
  induction lines with
  | nil => exact absurd rfl h
  | cons l lines ih =>
    cases lines with
    | nil => simp
    | cons m lines =>
      rw [List.intercalate_cons_cons, List.flatMap_cons, ← ih (by simp)]
      simp

theorem replaceAll_crlf_line {l : JsString} (h : 10 ∉ l) (rest : JsString) :
    replaceAll (l ++ crlf ++ rest) crlf lf = l ++ lf ++ replaceAll rest crlf lf := by
  unfold replaceAll
  induction l with
  | nil => simp [replaceFrom, startsWith, crlf]
  | cons u l ih =>
    have hl : 10 ∉ l := fun hm => h (List.mem_cons_of_mem _ hm)
    have hmatch : startsWith (u :: (l ++ crlf ++ rest)) crlf = false := by
      cases l with
      | nil => simp [startsWith, crlf, List.isPrefixOf]
      | cons v l =>
        have : 10 ≠ v := by rintro rfl; simp at hl
        simp [startsWith, crlf, List.isPrefixOf, this]
    simp only [List.cons_append, replaceFrom, hmatch, Bool.false_eq_true, ↓reduceIte]
    rw [ih hl]

theorem replaceAll_crlf_lines {lines : List JsString} (h : ∀ l ∈ lines, 10 ∉ l) :
    replaceAll (lines.flatMap (· ++ crlf)) crlf lf = lines.flatMap (· ++ lf) := by
  induction lines with
  | nil => rfl
  | cons l lines ih =>
    rw [List.flatMap_cons, replaceAll_crlf_line (h l (by simp)), ih fun m hm => h m (by simp [hm]),
      List.flatMap_cons]

theorem byteLength_lines (lines : List JsString) :
    byteLength (lines.flatMap (· ++ crlf)) = (lines.map fun l => byteLength l + 2).sum := by
  induction lines with
  | nil => rfl
  | cons l lines ih =>
    have crlf_utf8 (rest : JsString) : utf8 (crlf ++ rest) = [13, 10] ++ utf8 rest := by
      cases rest <;> rfl
    rw [List.flatMap_cons, List.append_assoc, byteLength, crlf, List.cons_append,
      utf8_append _ _ (by decide), ← List.cons_append, ← crlf, crlf_utf8]
    rw [byteLength] at ih
    simp only [List.length_append, List.map_cons, List.sum_cons, ih, byteLength, List.length_cons,
      List.length_nil]
    omega

theorem isWellFormed_lines (lines : List JsString) :
    isWellFormed (lines.flatMap (· ++ crlf)) ↔ ∀ l ∈ lines, isWellFormed l := by
  simp only [isWellFormed, beq_iff_eq]
  induction lines with
  | nil => simp [toWellFormed]
  | cons l lines ih =>
    have crlf_wf (rest : JsString) : toWellFormed (crlf ++ rest) = crlf ++ toWellFormed rest := by
      cases rest <;> rfl
    rw [List.flatMap_cons, List.append_assoc, crlf, List.cons_append,
      toWellFormed_append _ _ (by decide), ← List.cons_append, ← crlf, crlf_wf]
    rw [List.forall_mem_cons, ← ih]
    constructor
    · intro h
      obtain ⟨hl, hrest⟩ := List.append_inj h (toWellFormed_length l)
      exact ⟨hl, List.append_cancel_left hrest⟩
    · rintro ⟨hl, hrest⟩
      rw [hl, hrest]

theorem not_mem_of_mem_split {s l : JsString} {u : UInt16} (h : l ∈ split s u) : u ∉ l := by
  unfold split at h
  induction s generalizing l with
  | nil => simp at h; simp [h]
  | cons v s ih =>
    rw [List.splitOn_cons_eq_if_modifyHead] at h
    split at h
    · rcases List.mem_cons.mp h with rfl | h
      · simp
      · exact ih h
    · rename_i hv
      cases hs : List.splitOn u s with
      | nil => exact absurd hs (List.splitOn_ne_nil u s)
      | cons first others =>
        rw [hs] at ih h
        simp only [List.modifyHead_cons, List.mem_cons] at h
        rcases h with rfl | h
        · have hne : u ≠ v := by rintro rfl; simp at hv
          simp [hne, ih (List.mem_cons_self ..)]
        · exact ih (List.mem_cons_of_mem _ h)

theorem mem_of_mem_split {s l : JsString} {u v : UInt16} (h : l ∈ split s u) (hv : v ∈ l) : v ∈ s := by
  have spec : [u].intercalate (s.splitOn u) = s := List.intercalate_splitOn u
  rw [← spec]
  have mem : ∀ ls : List JsString, l ∈ ls → v ∈ [u].intercalate ls := by
    intro ls
    induction ls with
    | nil => simp
    | cons m ls ih =>
      intro hl
      cases ls with
      | nil => simp only [List.mem_singleton] at hl; subst hl; simpa using hv
      | cons n ls =>
        rw [List.intercalate_cons_cons]
        rcases List.mem_cons.mp hl with rfl | hl
        · simp [hv]
        · simp [ih hl]
  exact mem _ h

/-- A unit of a text is the separator or stands in one of the parts. -/
theorem mem_split_of_mem {s : JsString} {u v : UInt16} (hv : v ∈ s) (ne : v ≠ u) :
    ∃ l ∈ split s u, v ∈ l := by
  have spec : [u].intercalate (s.splitOn u) = s := List.intercalate_splitOn u
  have mem : ∀ ls : List JsString, v ∈ [u].intercalate ls → ∃ l ∈ ls, v ∈ l := by
    intro ls
    induction ls with
    | nil => simp
    | cons m ls ih =>
      intro h
      cases ls with
      | nil => exact ⟨m, by simp, by simpa using h⟩
      | cons n ls =>
        rw [List.intercalate_cons_cons, List.mem_append, List.mem_append, List.mem_singleton] at h
        rcases h with (h | h) | h
        · exact ⟨m, List.mem_cons_self, h⟩
        · exact absurd h ne
        · obtain ⟨l, hl, hv⟩ := ih h
          exact ⟨l, List.mem_cons_of_mem _ hl, hv⟩
  rw [← spec] at hv
  exact mem _ hv

attribute [local simp] cut in
theorem cut_eq_some {s : JsString} {u : UInt16} {a b : JsString} (h : cut s u = some (a, b)) :
    s = a ++ u :: b := by
  induction s generalizing a with
  | nil => cases h
  | cons v rest ih =>
    unfold cut at h
    split at h
    · rename_i hv
      cases h
      rw [hv]
      rfl
    · obtain ⟨⟨a', b'⟩, hcut, heq⟩ := Option.map_eq_some_iff.mp h
      cases heq
      rw [ih hcut]
      rfl

theorem cut_append {a : JsString} {u : UInt16} (h : u ∉ a) (b : JsString) : cut (a ++ u :: b) u = some (a, b) := by
  induction a with
  | nil => simp [cut]
  | cons v a ih =>
    rw [List.mem_cons, not_or] at h
    rw [List.cons_append, cut, if_neg (Ne.symm h.1), ih h.2]
    rfl

theorem not_mem_of_cut {s a b : JsString} {u : UInt16} (h : cut s u = some (a, b)) : u ∉ a := by
  induction s generalizing a with
  | nil => cases h
  | cons v s ih =>
    unfold cut at h
    split at h
    · cases h
      exact List.not_mem_nil
    · rename_i other
      cases rest : cut s u with
      | none =>
        rw [rest] at h
        cases h
      | some p =>
        rw [rest] at h
        cases h
        simp only [List.mem_cons, not_or]
        exact ⟨fun same => other same.symm, ih rest⟩

/-- The lines of a text whose last line may lack its end. -/
def splitLines (s : JsString) : List JsString :=
  let lines := split s 10
  if lines.getLast? == some [] then lines.dropLast else lines

theorem mem_split_of_mem_splitLines {s l : JsString} (h : l ∈ splitLines s) : l ∈ split s 10 := by
  simp only [splitLines] at h
  split at h
  · exact List.dropLast_subset _ h
  · exact h

theorem splitLines_terminated {lines : List JsString} (h : ∀ l ∈ lines, 10 ∉ l) :
    splitLines (lines.flatMap (· ++ lf)) = lines := by
  have hsplit : split (lines.flatMap (· ++ lf)) 10 = lines ++ [[]] := by
    unfold split
    induction lines with
    | nil => rfl
    | cons l lines ih =>
      have ih := ih fun m hm => h m (by simp [hm])
      rw [List.flatMap_cons, lf, List.append_assoc, List.singleton_append,
        List.splitOn_append_cons_self_of_not_mem (h l (by simp))]
      exact congrArg (l :: ·) ih
  simp [splitLines, hsplit]

def startsWithBlank : JsString → Bool
  | u :: _ => u == 32 || u == 9
  | [] => false

section
variable {ε : Type} {err : ε}

/-- One physical line onto the logical lines before it, the last of which
stands first. -/
def unfoldLine (err : ε) (unfolded : List JsString) (line : JsString) :
    Except ε (List JsString) :=
  if startsWithBlank line then
    match unfolded with
    | last :: before => .ok ((last ++ line.drop 1) :: before)
    | [] => .error err
  else .ok (line :: unfolded)

def unfoldLines (err : ε) (lines : List JsString) : Except ε (List JsString) := do
  let unfolded ← lines.foldlM (unfoldLine err) []
  return unfolded.reverse

attribute [local simp] unfoldLine in
theorem foldlM_unfoldLine_flat {lines unfolded : List JsString}
    (h : ∀ l ∈ lines, startsWithBlank l = false) :
    lines.foldlM (unfoldLine err) unfolded = .ok (lines.reverse ++ unfolded) := by
  induction lines generalizing unfolded with
  | nil => rfl
  | cons l lines ih =>
    have hl := h l (by simp)
    simp only [List.foldlM_cons, unfoldLine, hl, Bool.false_eq_true, ↓reduceIte, ok_bind]
    rw [ih fun m hm => h m (by simp [hm])]
    simp

/-- Lines of which none continues another are the logical lines. -/
theorem unfoldLines_flat {lines : List JsString} (h : ∀ l ∈ lines, startsWithBlank l = false) :
    unfoldLines err lines = .ok lines := by
  simp [unfoldLines, foldlM_unfoldLine_flat h, pure, Except.pure]

theorem unfoldLine_spec {unfolded unfolded' : List JsString} {line : JsString}
    (h : unfoldLine err unfolded line = .ok unfolded') :
    unfolded' ≠ [] ∧ unfolded'.length ≤ unfolded.length + 1 ∧
      ∀ l ∈ unfolded', ∀ u ∈ l, u ∈ line ∨ ∃ m ∈ unfolded, u ∈ m := by
  unfold unfoldLine at h
  split at h
  · cases unfolded with
    | nil => cases h
    | cons last before =>
      cases h
      refine ⟨by simp, by simp, fun l hl u hu => ?_⟩
      rcases List.mem_cons.mp hl with rfl | hl
      · rcases List.mem_append.mp hu with hu | hu
        · exact .inr ⟨last, by simp, hu⟩
        · exact .inl (List.mem_of_mem_drop hu)
      · exact .inr ⟨l, by simp [hl], hu⟩
  · cases h
    refine ⟨by simp, by simp, fun l hl u hu => ?_⟩
    rcases List.mem_cons.mp hl with rfl | hl
    · exact .inl hu
    · exact .inr ⟨l, hl, hu⟩

theorem foldlM_unfoldLine_spec {lines unfolded unfolded' : List JsString}
    (h : lines.foldlM (unfoldLine err) unfolded = .ok unfolded') :
    unfolded'.length ≤ unfolded.length + lines.length ∧
      (lines ≠ [] ∨ unfolded ≠ [] → unfolded' ≠ []) ∧
      ∀ l ∈ unfolded', ∀ u ∈ l, ∃ m, (m ∈ lines ∨ m ∈ unfolded) ∧ u ∈ m := by
  induction lines generalizing unfolded with
  | nil =>
    cases h
    exact ⟨by simp, by simp, fun l hl u hu => ⟨l, .inr hl, hu⟩⟩
  | cons line lines ih =>
    rw [List.foldlM_cons, bind_eq_ok] at h
    obtain ⟨mid, hline, hrest⟩ := h
    obtain ⟨hne, hlen, hunits⟩ := unfoldLine_spec hline
    obtain ⟨hlen', hne', hunits'⟩ := ih hrest
    refine ⟨by simp only [List.length_cons]; omega, fun _ => hne' (.inr hne), fun l hl u hu => ?_⟩
    obtain ⟨m, hm | hm, hum⟩ := hunits' l hl u hu
    · exact ⟨m, .inl (by simp [hm]), hum⟩
    · rcases hunits m hm u hum with hu | ⟨n, hn, hun⟩
      · exact ⟨line, .inl (by simp), hu⟩
      · exact ⟨n, .inr hn, hun⟩

/-- Unfolding makes no line and no unit. -/
theorem unfoldLines_spec {lines unfolded : List JsString} (h : unfoldLines err lines = .ok unfolded) :
    unfolded.length ≤ lines.length ∧ (lines ≠ [] → unfolded ≠ []) ∧
      ∀ l ∈ unfolded, ∀ u ∈ l, ∃ m ∈ lines, u ∈ m := by
  simp only [unfoldLines, bind_eq_ok, pure, Except.pure, Except.ok.injEq] at h
  obtain ⟨rev, hfold, rfl⟩ := h
  obtain ⟨hlen, hne, hunits⟩ := foldlM_unfoldLine_spec hfold
  refine ⟨by simpa using hlen, fun h => by simpa using hne (.inl h), fun l hl u hu => ?_⟩
  obtain ⟨m, hm | hm, hum⟩ := hunits l (List.mem_reverse.mp hl) u hu
  · exact ⟨m, hm, hum⟩
  · cases hm

end

/-- The logical lines of a text with LF line ends; none, if it starts with a
continuation. -/
def logicalLines (unix : JsString) : List JsString :=
  match unfoldLines () (splitLines unix) with
  | .ok unfolded => unfolded
  | .error _ => []

theorem foldlM_unfoldLine_ok {ε ε' : Type} {err : ε} {lines unfolded unfolded' : List JsString}
    (h : lines.foldlM (unfoldLine err) unfolded = .ok unfolded') (err' : ε') :
    lines.foldlM (unfoldLine err') unfolded = .ok unfolded' := by
  induction lines generalizing unfolded with
  | nil => cases h; rfl
  | cons line lines ih =>
    rw [List.foldlM_cons, bind_eq_ok] at h ⊢
    obtain ⟨mid, hline, hrest⟩ := h
    refine ⟨mid, ?_, ih hrest⟩
    unfold unfoldLine at hline ⊢
    split at hline
    · rename_i hblank
      cases unfolded with
      | nil => cases hline
      | cons last before => cases hline; simp [hblank]
    · rename_i hblank
      cases hline; simp [hblank]

theorem logicalLines_of_unfoldLines {ε : Type} {err : ε} {unix : JsString} {unfolded : List JsString}
    (h : unfoldLines err (splitLines unix) = .ok unfolded) : logicalLines unix = unfolded := by
  simp only [unfoldLines, bind_eq_ok, pure, Except.pure, Except.ok.injEq] at h
  obtain ⟨rev, hfold, rfl⟩ := h
  simp [logicalLines, unfoldLines, foldlM_unfoldLine_ok hfold (), pure, Except.pure]

end GuloGulo.Js
