import Mathlib.Logic.Function.Basic

/-!
# Change logs

A collection as the replay of its log, and what a client needs to catch up: a
`Delta` says for each id whether it changed and to what. Over an ordered log
the entries past a revision bring any snapshot taken at or after that revision
up to date (`patch_since`).
-/

namespace GuloGulo.Data.ChangeLog

/-- One change; `value` is `none` when the id was deleted. -/
structure Entry (ι ν : Type) where
  revision : Nat
  id : ι
  value : Option ν

/-- The live ids and their values. -/
abbrev Snapshot (ι ν : Type) := ι → Option ν

/-- The ids that changed, and to what. -/
abbrev Delta (ι ν : Type) := ι → Option (Option ν)

section
variable {ι ν : Type} [DecidableEq ι]

/-- The value of the last entry of each id. -/
def last : List (Entry ι ν) → Delta ι ν
  | [], _ => none
  | e :: rest, i => (last rest i).or (if e.id = i then some e.value else none)

def replay (log : List (Entry ι ν)) : Snapshot ι ν := fun i => (last log i).join

def since (log : List (Entry ι ν)) (r : Nat) : List (Entry ι ν) :=
  log.filter fun e => r < e.revision

def patch (d : Delta ι ν) (m : Snapshot ι ν) : Snapshot ι ν := fun i => (d i).getD (m i)

def Ordered (log : List (Entry ι ν)) : Prop := log.Pairwise fun a b => a.revision < b.revision

attribute [local simp] last in
theorem last_append (a b : List (Entry ι ν)) (i : ι) :
    last (a ++ b) i = (last b i).or (last a i) := by
  induction a with
  | nil => simp [last]
  | cons e a ih => simp [last, ih, Option.or_assoc]

theorem last_eq_none {log : List (Entry ι ν)} {i : ι} :
    last log i = none ↔ ∀ e ∈ log, e.id ≠ i := by
  induction log with
  | nil => simp [last]
  | cons e rest ih => simp [last, ih, and_comm]

theorem replay_snoc (log : List (Entry ι ν)) (e : Entry ι ν) :
    replay (log ++ [e]) = Function.update (replay log) e.id e.value := by
  funext i
  by_cases h : e.id = i
  · subst h; simp [replay, last_append, last]
  · simp [replay, last_append, last, h, Function.update_of_ne (Ne.symm h)]

omit [DecidableEq ι] in
theorem since_append (a b : List (Entry ι ν)) (r : Nat) :
    since (a ++ b) r = since a r ++ since b r :=
  List.filter_append ..

omit [DecidableEq ι] in
theorem since_of_later {log : List (Entry ι ν)} {r : Nat} (h : ∀ e ∈ log, r < e.revision) :
    since log r = log :=
  List.filter_eq_self.mpr fun e he => by simpa using h e he

omit [DecidableEq ι] in
/-- An ordered log is what it held at a revision, then what came after. -/
theorem ordered_split {log : List (Entry ι ν)} (h : Ordered log) (r : Nat) :
    log = log.filter (fun e => e.revision ≤ r) ++ since log r := by
  induction log with
  | nil => rfl
  | cons e log ih =>
    obtain ⟨he, hlog⟩ := List.pairwise_cons.mp h
    by_cases hr : e.revision ≤ r
    · have hn : ¬ r < e.revision := by omega
      simpa [since, hr, hn] using ih hlog
    · have later : ∀ f ∈ log, r < f.revision := fun f hf => by have := he f hf; omega
      have none : log.filter (fun e => e.revision ≤ r) = [] :=
        List.filter_eq_nil_iff.mpr fun f hf => by have := later f hf; simp; omega
      have hs : since log r = log := since_of_later later
      have hlt : r < e.revision := by omega
      simp only [since] at hs
      simp [since, hr, hlt, none, hs]

/-- The last entry past a revision is the last of all. -/
theorem last_of_since {log : List (Entry ι ν)} (h : Ordered log) {r : Nat} {i : ι} {v : Option ν}
    (hv : last (since log r) i = some v) : last log i = some v := by
  rw [ordered_split h r, last_append, hv, Option.some_or]

attribute [local simp] patch in
/-- Changes that a snapshot has seen can be sent again. -/
theorem patch_last (a b c : List (Entry ι ν)) :
    patch (last (b ++ c)) (replay (a ++ b)) = replay (a ++ b ++ c) := by
  funext i
  simp only [patch, replay, last_append]
  cases last c i with
  | some v => simp
  | none =>
    cases last b i with
    | some v => simp
    | none => simp

theorem patch_since {old new : List (Entry ι ν)} {r : Nat} (hold : Ordered old)
    (hnew : ∀ e ∈ new, r < e.revision) :
    patch (last (since (old ++ new) r)) (replay old) = replay (old ++ new) := by
  have split := ordered_split hold r
  rw [since_append, since_of_later hnew]
  calc patch (last (since old r ++ new)) (replay old)
      = patch (last (since old r ++ new)) (replay (old.filter (fun e => e.revision ≤ r) ++ since old r)) := by
        rw [← split]
    _ = replay (old.filter (fun e => e.revision ≤ r) ++ since old r ++ new) := patch_last _ _ _
    _ = replay (old ++ new) := by rw [← split]

omit [DecidableEq ι] in
/-- A delta that tells the truth about the ids it names and misses no id that
changed brings the snapshot to the current state. -/
theorem patch_eq {d : Delta ι ν} {m current : Snapshot ι ν}
    (told : ∀ i v, d i = some v → v = current i) (missed : ∀ i, d i = none → m i = current i) :
    patch d m = current := by
  funext i
  cases h : d i with
  | none => simpa [patch, h] using missed i h
  | some v => simpa [patch, h] using told i v h

/-- Remove the deleted ids, then overwrite with the live ones. -/
def applyResponse (live : List (ι × ν)) (gone : List ι) (m : Snapshot ι ν) : Snapshot ι ν :=
  live.foldl (fun m p => Function.update m p.1 (some p.2))
    (gone.foldl (fun m i => Function.update m i none) m)

/-- Apply changes one after the other. -/
def applyEntries (entries : List (Entry ι ν)) (m : Snapshot ι ν) : Snapshot ι ν :=
  entries.foldl (fun m e => Function.update m e.id e.value) m

theorem foldl_remove (gone : List ι) (m : Snapshot ι ν) (i : ι) :
    gone.foldl (fun (m : Snapshot ι ν) i => Function.update m i none) m i = if i ∈ gone then none else m i := by
  induction gone generalizing m with
  | nil => simp
  | cons j gone ih =>
    rw [List.foldl_cons, ih]
    by_cases h : i = j
    · subst h; simp
    · simp [h]

theorem foldl_overwrite {live : List (ι × ν)} {m : Snapshot ι ν} {i : ι}
    (same : ∀ v w, (i, v) ∈ live → (i, w) ∈ live → v = w) :
    live.foldl (fun (m : Snapshot ι ν) p => Function.update m p.1 (some p.2)) m i =
      ((live.find? fun p => p.1 = i).map Prod.snd).or (m i) := by
  induction live generalizing m with
  | nil => simp
  | cons p live ih =>
    rw [List.foldl_cons, ih (fun v w hv hw => same v w (by simp [hv]) (by simp [hw]))]
    obtain ⟨j, v⟩ := p
    by_cases h : j = i
    · subst h
      simp only [List.find?_cons, decide_true, Function.update_self, Option.map_some, Option.some_or]
      cases hf : live.find? fun p => decide (p.1 = j) with
      | none => simp
      | some q =>
        have hq : q.1 = j := by simpa using List.find?_some hf
        have hmem : (j, q.2) ∈ live := by
          have := List.mem_of_find?_eq_some hf
          rwa [← hq]
        simp [same q.2 v (by simp [hmem]) (by simp)]
    · simp [h, Function.update_of_ne (Ne.symm h)]

/-- A response that lists each changed id once, under what it became, is
applied as the delta it renders. -/
theorem applyResponse_eq_patch {live : List (ι × ν)} {gone : List ι} {d : Delta ι ν}
    (hlive : ∀ i v, (i, v) ∈ live ↔ d i = some (some v)) (hgone : ∀ i, i ∈ gone ↔ d i = some none)
    (m : Snapshot ι ν) : applyResponse live gone m = patch d m := by
  funext i
  have same : ∀ v w, (i, v) ∈ live → (i, w) ∈ live → v = w := by
    intro v w hv hw
    have := ((hlive i v).mp hv).symm.trans ((hlive i w).mp hw)
    simpa using this
  rw [applyResponse, foldl_overwrite same, foldl_remove]
  have mem_of_find {q : ι × ν} (hf : live.find? (fun p => p.1 = i) = some q) : d i = some (some q.2) := by
    have hq : q.1 = i := by simpa using List.find?_some hf
    exact (hlive i q.2).mp (by have := List.mem_of_find?_eq_some hf; rwa [← hq])
  cases hf : live.find? fun p => decide (p.1 = i) with
  | some q => simp [patch, mem_of_find hf]
  | none =>
    have absent : ∀ v, d i ≠ some (some v) := by
      intro v hv
      have := List.find?_eq_none.mp hf (i, v) ((hlive i v).mpr hv)
      simp at this
    simp only [patch, Option.map_none, Option.none_or]
    cases hd : d i with
    | none => simp [hgone, hd]
    | some v =>
      cases v with
      | none => simp [hgone, hd]
      | some v => exact absurd hd (absent v)

end

end GuloGulo.Data.ChangeLog
