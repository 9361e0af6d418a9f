import GuloGulo.CalDav.ICalendar
import GuloGulo.CardDav.VCard

/-!
# TEXT values

A property value of type TEXT is written with its backslashes, semicolons,
commas and line breaks escaped. `unescapeText` undoes the escapes with five
replacements one after the other, and the CardDAV store with one pass.

Both are read here run by run: a text is a list of runs of backslashes, each
with the unit that ends it.

* `unescapeText_run`, `replaceWith_run`: what either makes of one run;
* `unescapeText_eq_unescapeOnce`: the two agree as long as no run of an even
  number of backslashes, at least two, ends in an N;
* `unescapeOnce_escapes`: the one pass undoes every escaping.
-/

namespace GuloGulo.CalDav
open Js CardDav

def isLetterN (u : UInt16) : Bool := u == 110 || u == 78
def isLetterR (u : UInt16) : Bool := u == 114 || u == 82

/-- `e` is the text with its escapes: a line break is a backslash and an N of
either case, and the other marks follow a backslash. -/
inductive Escapes : JsString → JsString → Prop where
  | nil : Escapes [] []
  | newline {s e : JsString} {n : UInt16} : isLetterN n = true → Escapes s e → Escapes (10 :: s) (92 :: n :: e)
  | mark {s e : JsString} {u : UInt16} : u = 92 ∨ u = 59 ∨ u = 44 → Escapes s e → Escapes (u :: s) (92 :: u :: e)
  | plain {s e : JsString} {u : UInt16} : u ≠ 92 → u ≠ 59 → u ≠ 44 → u ≠ 10 → Escapes s e →
      Escapes (u :: s) (u :: e)

/-- One escape, decoded once. -/
def textEscape : Matcher
  | 92 :: u :: _ =>
    if isLetterN u then some (2, [10])
    else if u == 44 || u == 59 || u == 92 then some (2, [u])
    else none
  | _ => none

/-- The single pass from left to right. -/
def unescapeOnce (value : JsString) : JsString := replaceWith textEscape value

abbrev run (k : Nat) : JsString := List.replicate k 92

/-- Some run of `k` backslashes, the given number before the text among them,
ends in a unit `u` with `p k u`. -/
def someRun (p : Nat → UInt16 → Bool) : Nat → JsString → Bool
  | _, [] => false
  | k, u :: rest => if u = 92 then someRun p (k + 1) rest else p k u || someRun p 0 rest

/-- A run of an even number of backslashes, at least two, ends in an N. -/
def evenRunBeforeN (s : JsString) : Bool :=
  someRun (fun k u => decide (0 < k) && decide (k % 2 = 0) && isLetterN u) 0 s

/-- A run of an odd number of backslashes ends in an R. -/
def oddRunBeforeR (s : JsString) : Bool := someRun (fun k u => decide (k % 2 = 1) && isLetterR u) 0 s

theorem run_cons (k : Nat) (s : JsString) : run k ++ 92 :: s = run (k + 1) ++ s := by
  rw [run, run, List.replicate_succ', List.append_assoc]
  rfl

theorem someRun_append (p : Nat → UInt16 → Bool) (j k : Nat) (s : JsString) :
    someRun p j (run k ++ s) = someRun p (j + k) s := by
  induction k generalizing j with
  | zero => rfl
  | succ k ih =>
    rw [run, List.replicate_succ, List.cons_append, someRun, if_pos rfl, ih]
    congr 1
    omega

theorem someRun_run (p : Nat → UInt16 → Bool) (k : Nat) {u : UInt16} (hu : u ≠ 92) (rest : JsString) :
    someRun p 0 (run k ++ u :: rest) = (p k u || someRun p 0 rest) := by
  rw [someRun_append, Nat.zero_add, someRun, if_neg hu]

theorem someRun_only (p : Nat → UInt16 → Bool) (k : Nat) : someRun p 0 (run k) = false := by
  rw [← List.append_nil (run k), someRun_append]
  rfl

/-- A text is a last run of backslashes, or a run, the unit that ends it, and
the rest. -/
theorem runs_induction {motive : JsString → Prop} (only : ∀ k, motive (run k))
    (ended : ∀ k u rest, u ≠ 92 → motive rest → motive (run k ++ u :: rest)) (s : JsString) : motive s := by
  have any (k : Nat) : motive (run k ++ s) := by
    induction s generalizing k with
    | nil => simpa using only k
    | cons u s ih =>
      by_cases hu : u = 92
      · rw [hu, run_cons]
        exact ih (k + 1)
      · exact ended k u s hu (ih 0)
  exact any 0

/-- Two texts that start with runs agree only run by run. -/
theorem runs_eq_iff {j k : Nat} {u v : UInt16} (hu : u ≠ 92) (hv : v ≠ 92) (s t : JsString) :
    run j ++ u :: s = run k ++ v :: t ↔ (j = k ∧ u = v) ∧ s = t := by
  constructor
  · intro h
    induction j generalizing k with
    | zero =>
      cases k with
      | zero =>
        obtain ⟨huv, hst⟩ := List.cons.inj h
        exact ⟨⟨rfl, huv⟩, hst⟩
      | succ k => exact absurd (List.cons.inj h).1 hu
    | succ j ih =>
      cases k with
      | zero => exact absurd (List.cons.inj h).1.symm hv
      | succ k =>
        obtain ⟨⟨hjk, huv⟩, hst⟩ := ih (List.cons.inj h).2
        exact ⟨⟨congrArg (· + 1) hjk, huv⟩, hst⟩
  · rintro ⟨⟨rfl, rfl⟩, rfl⟩
    rfl

theorem startsWith_of_ne {u v : UInt16} (h : u ≠ v) (s t : JsString) : startsWith (u :: s) (v :: t) = false := by
  have : ¬ v = u := fun e => h e.symm
  simp [startsWith, List.isPrefixOf, this]

theorem startsWith_second_ne {u v : UInt16} (h : u ≠ v) (w : UInt16) (s : JsString) :
    startsWith (w :: u :: s) [w, v] = false := by
  have : ¬ v = u := fun e => h e.symm
  simp [startsWith, List.isPrefixOf, this]

/-- Replacing a backslash and a unit takes the last backslash of a run. -/
theorem replaceAll_run {v : UInt16} (hv : v ≠ 92) (r : JsString) (k : Nat) {u : UInt16} (hu : u ≠ 92)
    (rest : JsString) :
    replaceAll (run k ++ u :: rest) [92, v] r =
      (if 0 < k ∧ u = v then run (k - 1) ++ r else run k ++ [u]) ++ replaceAll rest [92, v] r := by
  unfold replaceAll
  induction k with
  | zero =>
    simp [run, replaceFrom, startsWith_of_ne hu]
  | succ k ih =>
    rw [run, List.replicate_succ, List.cons_append, replaceFrom]
    cases k with
    | zero =>
      by_cases h : u = v
      · simp [startsWith, h, replaceFrom]
      · simp [startsWith_second_ne h, h, replaceFrom, startsWith_of_ne hu]
    | succ k =>
      have start : startsWith (92 :: (List.replicate (k + 1) 92 ++ u :: rest)) [92, v] = false :=
        startsWith_second_ne hv.symm 92 _
      rw [start]
      simp only [Bool.false_eq_true, ↓reduceIte]
      rw [ih]
      by_cases h : u = v
      · simp [h, List.replicate_succ]
      · simp [h, List.replicate_succ]

theorem replaceAll_only_run {v : UInt16} (hv : v ≠ 92) (r : JsString) (k : Nat) :
    replaceAll (run k) [92, v] r = run k := by
  unfold replaceAll
  induction k with
  | zero => rfl
  | succ k ih =>
    have start : startsWith (92 :: run k) [92, v] = false := by
      cases k with
      | zero => rfl
      | succ k => exact startsWith_second_ne hv.symm 92 _
    rw [run, List.replicate_succ, replaceFrom, start]
    simp [ih]

/-- Replacing two backslashes by one halves a run. -/
theorem replaceAll_pairs (k : Nat) {u : UInt16} (hu : u ≠ 92) (rest : JsString) :
    replaceAll (run k ++ u :: rest) [92, 92] [92] =
      run ((k + 1) / 2) ++ u :: replaceAll rest [92, 92] [92] := by
  unfold replaceAll
  induction k using Nat.strong_induction_on with
  | _ k ih =>
    match k with
    | 0 => simp [run, replaceFrom, startsWith_of_ne hu]
    | 1 => simp [run, replaceFrom, startsWith_of_ne hu, startsWith_second_ne hu]
    | k + 2 =>
      have half : (k + 2 + 1) / 2 = (k + 1) / 2 + 1 := by omega
      have step := ih k (by omega)
      simp only [run, List.replicate_succ, List.cons_append, half] at step ⊢
      simp [replaceFrom, startsWith, step]

theorem replaceAll_only_pairs (k : Nat) : replaceAll (run k) [92, 92] [92] = run ((k + 1) / 2) := by
  unfold replaceAll
  induction k using Nat.strong_induction_on with
  | _ k ih =>
    match k with
    | 0 => rfl
    | 1 => rfl
    | k + 2 =>
      have half : (k + 2 + 1) / 2 = (k + 1) / 2 + 1 := by omega
      have step := ih k (by omega)
      simp only [run, List.replicate_succ, half] at step ⊢
      simp [replaceFrom, startsWith, step]

/-- What `unescapeText` makes of a run: how many backslashes stay, and the unit
that ends them. -/
def unescapedRun (k : Nat) (u : UInt16) : Nat × UInt16 :=
  if isLetterN u then (k / 2, if 0 < k then 10 else u)
  else if u = 44 ∨ u = 59 then (k / 2, u)
  else ((k + 1) / 2, u)

theorem unescapeText_eq (s : JsString) :
    unescapeText s = replaceAll (replaceAll (replaceAll (replaceAll (replaceAll s [92, 78] [10])
      [92, 110] [10]) [92, 44] [44]) [92, 59] [59]) [92, 92] [92] := rfl

theorem unescapeText_run (k : Nat) {u : UInt16} (hu : u ≠ 92) (rest : JsString) :
    unescapeText (run k ++ u :: rest) =
      run (unescapedRun k u).1 ++ (unescapedRun k u).2 :: unescapeText rest := by
  have passed (j : Nat) {v w : UInt16} (hv : v ≠ 92) (hw : w ≠ 92) (h : j = 0 ∨ w ≠ v) (r s : JsString) :
      replaceAll (run j ++ w :: s) [92, v] r = run j ++ w :: replaceAll s [92, v] r := by
    rw [replaceAll_run hv r j hw, if_neg (by rcases h with h | h <;> simp [h])]
    simp
  have taken (j : Nat) {v : UInt16} (hv : v ≠ 92) (w : UInt16) (s : JsString) :
      replaceAll (run (j + 1) ++ v :: s) [92, v] [w] = run j ++ w :: replaceAll s [92, v] [w] := by
    rw [replaceAll_run hv [w] (j + 1) hv, if_pos (by simp)]
    simp
  have N : (78 : UInt16) ≠ 92 := by decide
  have n : (110 : UInt16) ≠ 92 := by decide
  have comma : (44 : UInt16) ≠ 92 := by decide
  have semicolon : (59 : UInt16) ≠ 92 := by decide
  have newline : (10 : UInt16) ≠ 92 := by decide
  rw [unescapeText_eq, unescapeText_eq]
  cases k with
  | zero =>
    rw [passed 0 N hu (.inl rfl), passed 0 n hu (.inl rfl), passed 0 comma hu (.inl rfl),
      passed 0 semicolon hu (.inl rfl), replaceAll_pairs 0 hu]
    simp [unescapedRun]
  | succ j =>
    by_cases h78 : u = 78
    · subst h78
      rw [taken j N, passed j n newline (.inr (by decide)), passed j comma newline (.inr (by decide)),
        passed j semicolon newline (.inr (by decide)), replaceAll_pairs j newline]
      simp [unescapedRun, isLetterN]
    by_cases h110 : u = 110
    · subst h110
      rw [passed _ N n (.inr (by decide)), taken j n, passed j comma newline (.inr (by decide)),
        passed j semicolon newline (.inr (by decide)), replaceAll_pairs j newline]
      simp [unescapedRun, isLetterN]
    by_cases h44 : u = 44
    · subst h44
      rw [passed _ N comma (.inr (by decide)), passed _ n comma (.inr (by decide)), taken j comma,
        passed j semicolon comma (.inr (by decide)), replaceAll_pairs j comma]
      simp [unescapedRun, isLetterN]
    by_cases h59 : u = 59
    · subst h59
      rw [passed _ N semicolon (.inr (by decide)), passed _ n semicolon (.inr (by decide)), passed _ comma semicolon (.inr (by decide)),
        taken j semicolon, replaceAll_pairs j semicolon]
      simp [unescapedRun, isLetterN]
    rw [passed _ N hu (.inr h78), passed _ n hu (.inr h110), passed _ comma hu (.inr h44),
      passed _ semicolon hu (.inr h59), replaceAll_pairs _ hu]
    simp [unescapedRun, isLetterN, h78, h110, h44, h59]

theorem unescapeText_only (k : Nat) : unescapeText (run k) = run ((k + 1) / 2) := by
  rw [unescapeText_eq, replaceAll_only_run (by decide), replaceAll_only_run (by decide),
    replaceAll_only_run (by decide), replaceAll_only_run (by decide), replaceAll_only_pairs]

/-- A pass that takes an escaped backslash as such and leaves every unit that
no backslash escapes. -/
structure Pass (m : Matcher) (decoded : UInt16 → Option UInt16) : Prop where
  backslash : decoded 92 = some 92
  escape (u : UInt16) (s : JsString) : m (92 :: u :: s) = (decoded u).map fun v => (2, [v])
  last : m [92] = none
  plain (u : UInt16) (s : JsString) : u ≠ 92 → m (u :: s) = none

/-- What a pass makes of a run. -/
def decodedRun (decoded : UInt16 → Option UInt16) (k : Nat) (u : UInt16) : Nat × UInt16 :=
  if k % 2 = 0 then (k / 2, u)
  else match decoded u with
    | some v => (k / 2, v)
    | none => (k / 2 + 1, u)

theorem Pass.run {m : Matcher} {decoded : UInt16 → Option UInt16} (h : Pass m decoded) (k : Nat) {u : UInt16}
    (hu : u ≠ 92) (rest : JsString) :
    replaceWith m (run k ++ u :: rest) =
      CalDav.run (decodedRun decoded k u).1 ++ (decodedRun decoded k u).2 :: replaceWith m rest := by
  induction k using Nat.strong_induction_on with
  | _ k ih =>
    match k with
    | 0 => simp [CalDav.run, decodedRun, replaceWith_cons_none (h.plain u rest hu)]
    | 1 =>
      have matched := h.escape u rest
      cases hd : decoded u with
      | some v =>
        rw [hd] at matched
        simp [CalDav.run, decodedRun, hd, replaceWith_cons_some matched]
      | none =>
        rw [hd] at matched
        simp [CalDav.run, decodedRun, hd, replaceWith_cons_none matched, replaceWith_cons_none (h.plain u rest hu)]
    | k + 2 =>
      have matched := h.escape 92 (CalDav.run k ++ u :: rest)
      rw [h.backslash] at matched
      have step := ih k (by omega)
      have parity : (k + 2) % 2 = k % 2 := by omega
      have half : (k + 2) / 2 = k / 2 + 1 := by omega
      have more : decodedRun decoded (k + 2) u = ((decodedRun decoded k u).1 + 1, (decodedRun decoded k u).2) := by
        unfold decodedRun
        rw [parity, half]
        by_cases even : k % 2 = 0
        · simp [even]
        · cases decoded u <;> simp [even]
      rw [CalDav.run, List.replicate_succ, List.replicate_succ, List.cons_append, List.cons_append,
        replaceWith_cons_some matched, more]
      simp only [List.drop_succ_cons, List.drop_zero, CalDav.run, List.replicate_succ] at step ⊢
      rw [step]
      rfl

theorem Pass.only {m : Matcher} {decoded : UInt16 → Option UInt16} (h : Pass m decoded) (k : Nat) :
    replaceWith m (CalDav.run k) = CalDav.run ((k + 1) / 2) := by
  induction k using Nat.strong_induction_on with
  | _ k ih =>
    match k with
    | 0 => rfl
    | 1 => exact replaceWith_cons_none h.last
    | k + 2 =>
      have matched := h.escape 92 (CalDav.run k)
      rw [h.backslash] at matched
      have half : (k + 2 + 1) / 2 = (k + 1) / 2 + 1 := by omega
      rw [CalDav.run, List.replicate_succ, List.replicate_succ, replaceWith_cons_some matched, half]
      have step := ih k (by omega)
      simp only [List.drop_succ_cons, List.drop_zero, CalDav.run] at step ⊢
      rw [step]
      rfl

def decodedText (u : UInt16) : Option UInt16 :=
  if isLetterN u then some 10 else if u = 44 ∨ u = 59 ∨ u = 92 then some u else none

def decodedVCardText (u : UInt16) : Option UInt16 :=
  if isLetterN u ∨ isLetterR u then some 10 else if u = 44 ∨ u = 59 ∨ u = 92 then some u else none

attribute [local simp] decodedText in
theorem textEscape_pass : Pass textEscape decodedText where
  backslash := rfl
  escape u s := by
    unfold textEscape decodedText
    by_cases n : isLetterN u = true <;> by_cases marks : u = 44 ∨ u = 59 ∨ u = 92 <;> simp_all [or_assoc]
  last := rfl
  plain u s hu := by
    unfold textEscape
    split
    · rename_i h
      exact absurd (List.cons.inj h).1 hu
    · rfl

theorem vCardEscape_pass : Pass vCardEscape decodedVCardText where
  backslash := rfl
  escape u s := by
    unfold vCardEscape decodedVCardText isLetterN isLetterR
    by_cases h : u = 110 ∨ u = 78 ∨ u = 114 ∨ u = 82
    · rcases h with rfl | rfl | rfl | rfl <;> rfl
    · simp only [not_or] at h
      by_cases marks : u = 44 ∨ u = 59 ∨ u = 92
      · rcases marks with rfl | rfl | rfl <;> rfl
      · simp only [not_or] at marks
        simp [h, marks]
  last := rfl
  plain u s hu := by
    unfold vCardEscape
    split
    · rename_i h
      exact absurd (List.cons.inj h).1 hu
    · rfl

theorem unescapedRun_unit_ne (k : Nat) {u : UInt16} (hu : u ≠ 92) : (unescapedRun k u).2 ≠ 92 := by
  unfold unescapedRun
  split
  · split
    · exact (by decide : (10 : UInt16) ≠ 92)
    · exact hu
  · split
    · exact hu
    · exact hu

theorem decodedRun_unit_ne {decoded : UInt16 → Option UInt16} (h : ∀ v, v ≠ 92 → decoded v ≠ some 92) (k : Nat)
    {u : UInt16} (hu : u ≠ 92) : (decodedRun decoded k u).2 ≠ 92 := by
  unfold decodedRun
  split
  · exact hu
  · split
    · rename_i v hv
      rintro rfl
      exact h u hu hv
    · exact hu

/-- The two agree on a text when they agree on each of its runs. -/
theorem unescapeText_eq_pass {m : Matcher} {decoded : UInt16 → Option UInt16} (pass : Pass m decoded)
    (h : ∀ v, v ≠ 92 → decoded v ≠ some 92) {p : Nat → UInt16 → Bool}
    (differ : ∀ k u, u ≠ 92 → (unescapedRun k u = decodedRun decoded k u ↔ p k u = false)) (s : JsString) :
    unescapeText s = replaceWith m s ↔ someRun p 0 s = false := by
  induction s using runs_induction with
  | only k => simp [unescapeText_only, pass.only, someRun_only]
  | ended k u rest hu ih =>
    rw [unescapeText_run k hu, pass.run k hu, someRun_run p k hu, Bool.or_eq_false_iff, ← ih, ← differ k u hu,
      runs_eq_iff (unescapedRun_unit_ne k hu) (decodedRun_unit_ne h k hu), Prod.ext_iff]

/-- Where five replacements and one pass make the same of a run. -/
theorem unescapedRun_eq_decodedRun (k : Nat) {u : UInt16} (hu : u ≠ 92) :
    unescapedRun k u = decodedRun decodedText k u ↔
      (decide (0 < k) && decide (k % 2 = 0) && isLetterN u) = false := by
  unfold unescapedRun decodedRun decodedText
  by_cases n : isLetterN u = true
  · have newline : u ≠ 10 := by rintro rfl; exact absurd n (by decide)
    by_cases zero : k = 0
    · simp [n, zero]
    · by_cases even : k % 2 = 0
      · simp [n, even, Nat.pos_of_ne_zero zero, newline.symm]
      · simp [n, even, Nat.pos_of_ne_zero zero]
  · by_cases marks : u = 44 ∨ u = 59
    · have : u = 44 ∨ u = 59 ∨ u = 92 := marks.elim .inl fun h => .inr (.inl h)
      by_cases even : k % 2 = 0
      · simp [n, marks, even]
      · simp [n, marks, this, even]
    · have : ¬ (u = 44 ∨ u = 59 ∨ u = 92) := by simpa [hu] using marks
      by_cases even : k % 2 = 0
      · simp [n, marks, even]
        omega
      · simp [n, marks, this, even]
        omega

/-- Five replacements decode as one pass does, as long as no escaped backslash
comes right before an N. -/
theorem unescapeText_eq_unescapeOnce (s : JsString) :
    unescapeText s = unescapeOnce s ↔ evenRunBeforeN s = false := by
  apply unescapeText_eq_pass textEscape_pass
  · intro v hv
    unfold decodedText
    split
    · simp
    · split
      · simpa using hv
      · simp
  · intro k u hu
    exact unescapedRun_eq_decodedRun k hu

theorem someRun_or (p q : Nat → UInt16 → Bool) (k : Nat) (s : JsString) :
    someRun (fun k u => p k u || q k u) k s = (someRun p k s || someRun q k s) := by
  induction s generalizing k with
  | nil => rfl
  | cons u s ih =>
    unfold someRun
    split
    · exact ih (k + 1)
    · rw [ih 0]
      cases p k u <;> cases q k u <;> simp

/-- The CardDAV store decodes an R as it does an N. -/
theorem unescapeText_eq_unescapeVCardText (s : JsString) :
    unescapeText s = unescapeVCardText s ↔ evenRunBeforeN s = false ∧ oddRunBeforeR s = false := by
  rw [← Bool.or_eq_false_iff, evenRunBeforeN, oddRunBeforeR, ← someRun_or]
  apply unescapeText_eq_pass vCardEscape_pass
  · intro v hv
    unfold decodedVCardText
    split
    · simp
    · split
      · simpa using hv
      · simp
  · intro k u hu
    by_cases r : isLetterR u = true
    · have other : isLetterN u = false ∧ ¬ (u = 44 ∨ u = 59) ∧ u ≠ 10 := by
        simp only [isLetterR, Bool.or_eq_true, beq_iff_eq] at r
        rcases r with rfl | rfl <;> decide
      unfold unescapedRun decodedRun decodedVCardText
      by_cases even : k % 2 = 0
      · have : (k + 1) / 2 = k / 2 := by omega
        simp [r, other, even, this]
      · have : (k + 1) / 2 ≠ k / 2 := by omega
        have odd : k % 2 = 1 := by omega
        simp [r, other, odd, this]
    · have same : decodedRun decodedVCardText k u = decodedRun decodedText k u := by
        simp [decodedRun, decodedVCardText, decodedText, r]
      rw [same, unescapedRun_eq_decodedRun k hu]
      simp [r]

theorem Pass.escaped {m : Matcher} {decoded : UInt16 → Option UInt16} (h : Pass m decoded) {u v : UInt16}
    (hd : decoded u = some v) (s : JsString) : replaceWith m (92 :: u :: s) = v :: replaceWith m s := by
  have matched := h.escape u s
  rw [hd] at matched
  exact replaceWith_cons_some matched

theorem unescapeOnce_escapes {s e : JsString} (h : Escapes s e) : unescapeOnce e = s := by
  unfold unescapeOnce
  induction h with
  | nil => rfl
  | newline hn _ ih =>
    have decoded : decodedText _ = some 10 := if_pos hn
    rw [textEscape_pass.escaped decoded, ih]
  | @mark _ _ u hu _ ih =>
    have decoded : decodedText u = some u := by rcases hu with rfl | rfl | rfl <;> rfl
    rw [textEscape_pass.escaped decoded, ih]
  | plain hu _ _ _ _ ih => rw [replaceWith_cons_none (textEscape_pass.plain _ _ hu), ih]

/-- A backslash, of the text or one of the given number before it, comes right
before an N. -/
def backslashBeforeN : Nat → JsString → Bool := someRun fun k u => decide (0 < k) && isLetterN u

theorem evenRun_escapes {s e : JsString} (h : Escapes s e) (k : Nat) :
    someRun (fun k u => decide (0 < k) && decide (k % 2 = 0) && isLetterN u) (2 * k) e = backslashBeforeN k s := by
  unfold backslashBeforeN
  induction h generalizing k with
  | nil => rfl
  | @newline _ _ n hn _ ih =>
    have hn' : n ≠ 92 := by rintro rfl; exact absurd hn (by decide)
    have newline : isLetterN 10 = false := rfl
    have rest := ih 0
    simp only [Nat.mul_zero] at rest
    simp [someRun, hn', newline, rest]
  | mark hu _ ih =>
    rcases hu with rfl | hu
    · have rest := ih (k + 1)
      simp only [someRun, ↓reduceIte]
      exact rest
    · have rest := ih 0
      simp only [Nat.mul_zero] at rest
      have notN : isLetterN 59 = false ∧ isLetterN 44 = false := ⟨rfl, rfl⟩
      rcases hu with rfl | rfl
      · simp [someRun, notN, rest]
      · simp [someRun, notN, rest]
  | plain hu _ _ _ _ ih =>
    have rest := ih 0
    simp only [Nat.mul_zero] at rest
    have even : 2 * k % 2 = 0 := by omega
    simp [someRun, hu, even, rest]

theorem backslashBeforeN_iff (k : Nat) (s : JsString) :
    backslashBeforeN k s = ((decide (0 < k) && (startsWith s (js "n") || startsWith s (js "N"))) ||
      (includes s (js "\\n") || includes s (js "\\N"))) := by
  unfold backslashBeforeN
  have n : js "n" = [110] := rfl
  have N : js "N" = [78] := rfl
  have escaped_n : js "\\n" = [92, 110] := rfl
  have escaped_N : js "\\N" = [92, 78] := rfl
  rw [n, N, escaped_n, escaped_N]
  have unit (u v : UInt16) (t : JsString) : startsWith (u :: t) [v] = (u == v) := by
    simp [startsWith, List.isPrefixOf, Bool.beq_comm]
  have escaped (u v : UInt16) (t : JsString) : includes (u :: t) [92, v] =
      ((u == 92 && startsWith t [v]) || includes t [92, v]) := by
    rw [includes]
    simp [startsWith, List.isPrefixOf, Bool.beq_comm]
  induction s generalizing k with
  | nil => simp [someRun, includes, startsWith]
  | cons u s ih =>
    unfold someRun
    rw [unit, unit, escaped, escaped]
    by_cases hu : u = 92
    · subst hu
      rw [if_pos rfl, ih]
      simp [Bool.or_assoc, Bool.or_left_comm]
    · have other : (u == 92) = false := beq_false_of_ne hu
      rw [if_neg hu, ih, other]
      simp [isLetterN]

/-- Five replacements undo every escaping of a text exactly when no backslash
of the text comes right before an N; and they decode a value as one pass over
it does exactly when no run of backslashes, an even number of them, does. -/
theorem unescapeText_exact {s e : JsString} (h : Escapes s e) (value : JsString) :
    (unescapeText e = s ↔ includes s (js "\\n") = false ∧ includes s (js "\\N") = false) ∧
    (unescapeText value = unescapeOnce value ↔ evenRunBeforeN value = false) ∧
    (unescapeText value = unescapeVCardText value ↔
      evenRunBeforeN value = false ∧ oddRunBeforeR value = false) := by
  refine ⟨?_, unescapeText_eq_unescapeOnce value, unescapeText_eq_unescapeVCardText value⟩
  have once := unescapeText_eq_unescapeOnce e
  rw [unescapeOnce_escapes h] at once
  rw [once, evenRunBeforeN, ← Nat.mul_zero 2, evenRun_escapes h, backslashBeforeN_iff]
  simp

theorem newFolder_escapes : Escapes (js "C:\\new") (js "C:\\\\new") :=
  .plain (by decide) (by decide) (by decide) (by decide) <|
  .plain (by decide) (by decide) (by decide) (by decide) <|
  .mark (.inl rfl) <|
  .plain (by decide) (by decide) (by decide) (by decide) <|
  .plain (by decide) (by decide) (by decide) (by decide) <|
  .plain (by decide) (by decide) (by decide) (by decide) .nil

theorem unescapeText_exact_newFolder :
    (unescapeText (js "C:\\\\new") = js "C:\\new" ↔
      includes (js "C:\\new") (js "\\n") = false ∧ includes (js "C:\\new") (js "\\N") = false) ∧
    (unescapeText (js "a\\\\,b") = unescapeOnce (js "a\\\\,b") ↔ evenRunBeforeN (js "a\\\\,b") = false) ∧
    (unescapeText (js "a\\\\,b") = unescapeVCardText (js "a\\\\,b") ↔
      evenRunBeforeN (js "a\\\\,b") = false ∧ oddRunBeforeR (js "a\\\\,b") = false) :=
  unescapeText_exact newFolder_escapes (js "a\\\\,b")

/-- The escaped form of a path is read back with a line break in it. -/
theorem unescapeText_newFolder :
    ¬ ((∀ s e, Escapes s e → unescapeText e = s) ∧ ∀ value, unescapeText value = unescapeOnce value) := by
  intro h
  have undone := h.1 _ _ newFolder_escapes
  exact absurd undone (by decide)

end GuloGulo.CalDav
