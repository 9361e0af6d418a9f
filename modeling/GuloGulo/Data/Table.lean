import Mathlib.Algebra.Ring.Int.Defs
import Mathlib.Data.List.Basic

/-!
# Keyed tables

Rows in insertion order, no two with the same key. A JavaScript `Map` and an
SQL table with a primary key are both of this kind; the invariant is a field,
so a table with two rows of one key cannot be built.
-/

namespace GuloGulo.Data

structure Table {ρ κ : Type} (key : ρ → κ) where
  rows : List ρ
  nodup : (rows.map key).Nodup

namespace Table
variable {ρ κ : Type} [DecidableEq κ] {key : ρ → κ}

def empty : Table key := ⟨[], List.nodup_nil⟩

def lookup (t : Table key) (k : κ) : Option ρ := t.rows.find? fun r => key r = k

theorem key_of_lookup {t : Table key} {k : κ} {r : ρ} (h : t.lookup k = some r) : key r = k := by
  simpa using List.find?_some h

theorem mem_of_lookup {t : Table key} {k : κ} {r : ρ} (h : t.lookup k = some r) : r ∈ t.rows :=
  List.mem_of_find?_eq_some h

theorem lookup_eq_none {t : Table key} {k : κ} : t.lookup k = none ↔ ∀ r ∈ t.rows, key r ≠ k := by
  simp [lookup]

/-- In a list without repeated keys, the first row of a key is the only one. -/
theorem find?_of_mem {rows : List ρ} (nodup : (rows.map key).Nodup) {r : ρ} (h : r ∈ rows) :
    rows.find? (fun x => key x = key r) = some r := by
  induction rows with
  | nil => simp at h
  | cons x rows ih =>
    simp only [List.map_cons, List.nodup_cons, List.mem_map, not_exists, not_and] at nodup
    rcases List.mem_cons.mp h with rfl | h
    · simp
    · have hne : key x ≠ key r := fun e => nodup.1 r h e.symm
      simpa [List.find?_cons, hne] using ih nodup.2 h

theorem lookup_of_mem {t : Table key} {r : ρ} (h : r ∈ t.rows) : t.lookup (key r) = some r :=
  find?_of_mem t.nodup h

theorem mem_iff_lookup {t : Table key} {r : ρ} : r ∈ t.rows ↔ t.lookup (key r) = some r :=
  ⟨lookup_of_mem, mem_of_lookup⟩

theorem nodup_append {t : Table key} {r : ρ} (h : t.lookup (key r) = none) :
    ((t.rows ++ [r]).map key).Nodup := by
  have hn := lookup_eq_none.mp h
  rw [List.map_append, List.nodup_append]
  refine ⟨t.nodup, by simp, ?_⟩
  intro a ha b hb
  obtain ⟨x, hx, rfl⟩ := List.mem_map.mp ha
  simp only [List.map_cons, List.map_nil, List.mem_singleton] at hb
  exact hb ▸ hn x hx

/-- A row under a fresh key; `none` is the primary-key violation. -/
def insert? (t : Table key) (r : ρ) : Option (Table key) :=
  if h : t.lookup (key r) = none then some ⟨t.rows ++ [r], nodup_append h⟩ else none

theorem insert?_eq_some {t u : Table key} {r : ρ} (h : t.insert? r = some u) :
    t.lookup (key r) = none ∧ u.rows = t.rows ++ [r] := by
  unfold insert? at h
  split at h
  · rename_i hn; cases h; exact ⟨hn, rfl⟩
  · cases h

theorem insert?_of_fresh {t : Table key} {r : ρ} (h : t.lookup (key r) = none) :
    ∃ u, t.insert? r = some u ∧ u.rows = t.rows ++ [r] := by
  simp [insert?, h]

theorem lookup_append {t u : Table key} {r : ρ} (h : u.rows = t.rows ++ [r]) (k : κ) :
    u.lookup k = (t.lookup k).or (if key r = k then some r else none) := by
  simp only [lookup, h, List.find?_append, List.find?_cons, List.find?_nil]
  by_cases hk : key r = k <;> simp [hk]

theorem lookup_insert? {t u : Table key} {r : ρ} (h : t.insert? r = some u) (k : κ) :
    u.lookup k = if key r = k then some r else t.lookup k := by
  obtain ⟨hn, hrows⟩ := insert?_eq_some h
  rw [lookup_append hrows]
  by_cases hk : key r = k
  · subst hk; simp [hn]
  · simp [hk]

/-- An update that leaves the key columns alone. -/
def modify (t : Table key) (k : κ) (f : ρ → ρ) (hf : ∀ r, key (f r) = key r) : Table key where
  rows := t.rows.map fun r => if key r = k then f r else r
  nodup := by
    have same : (key ∘ fun r => if key r = k then f r else r) = key := by
      funext r; simp only [Function.comp]; split <;> simp [hf]
    rw [List.map_map, same]; exact t.nodup

theorem lookup_modify (t : Table key) (k : κ) (f : ρ → ρ) (hf : ∀ r, key (f r) = key r) (j : κ) :
    (t.modify k f hf).lookup j = if j = k then (t.lookup j).map f else t.lookup j := by
  simp only [lookup, modify, List.find?_map]
  have same : ((fun r => decide (key r = j)) ∘ fun r => if key r = k then f r else r) =
      fun r => decide (key r = j) := by
    funext r; simp only [Function.comp]; split <;> simp [hf]
  rw [same]
  cases hfind : t.rows.find? (fun r => key r = j) with
  | none => simp
  | some r =>
    have : key r = j := by simpa using List.find?_some hfind
    subst this
    by_cases hk : key r = k <;> simp [hk]

/-- `Map.set`: replaces the row of the key where it stands, or appends. -/
def put (t : Table key) (r : ρ) : Table key :=
  if h : t.lookup (key r) = none then ⟨t.rows ++ [r], nodup_append h⟩
  else
    ⟨t.rows.map fun x => if key x = key r then r else x, by
      have same : (key ∘ fun x => if key x = key r then r else x) = key := by
        funext x; simp only [Function.comp]; split <;> simp_all
      rw [List.map_map, same]; exact t.nodup⟩

theorem lookup_put (t : Table key) (r : ρ) (k : κ) :
    (t.put r).lookup k = if key r = k then some r else t.lookup k := by
  unfold put
  split
  · rename_i h
    exact lookup_insert? (show t.insert? r = some ⟨t.rows ++ [r], nodup_append h⟩ by
      simp [insert?, h]) k
  · rename_i h
    simp only [lookup, List.find?_map]
    have same : ((fun x => decide (key x = k)) ∘ fun x => if key x = key r then r else x) =
        fun x => decide (key x = k) := by
      funext x; simp only [Function.comp]; split <;> simp_all
    rw [same]
    cases hfind : t.rows.find? (fun x => key x = k) with
    | none =>
      have hne : key r ≠ k := by
        intro e; subst e; exact h hfind
      simp [hne]
    | some x =>
      have hx : key x = k := by simpa using List.find?_some hfind
      by_cases e : key r = k
      · simp [e, hx]
      · have : key x ≠ key r := fun e' => e (e' ▸ hx)
        simp [e, this]

theorem rows_put (t : Table key) (r : ρ) :
    (t.put r).rows = if t.lookup (key r) = none then t.rows ++ [r]
      else t.rows.map fun x => if key x = key r then r else x := by
  unfold put
  split <;> simp_all

/-- Only the last value of a key counts. -/
theorem put_put (t : Table key) {r r' : ρ} (h : key r = key r') : (t.put r).put r' = t.put r' := by
  have rows : ((t.put r).put r').rows = (t.put r').rows := by
    rw [rows_put, lookup_put, if_pos h, if_neg (by simp), rows_put, rows_put, h]
    split
    · rename_i fresh
      have others : t.rows.map (fun x => if key x = key r' then r' else x) = t.rows := by
        rw [List.map_congr_left fun x hx => if_neg (lookup_eq_none.mp fresh x hx), List.map_id']
      rw [List.map_append, others, List.map_singleton, if_pos h]
    · rw [List.map_map]
      congr 1
      funext x
      by_cases hx : key x = key r' <;> simp [hx, h]
  cases hp : (t.put r).put r'
  cases hq : t.put r'
  simp_all

/-- Deletes the rows a condition selects. -/
def deleteWhere (t : Table key) (p : ρ → Bool) : Table key where
  rows := t.rows.filter fun r => !p r
  nodup := t.nodup.sublist (List.filter_sublist.map key)

omit [DecidableEq κ] in
theorem mem_deleteWhere {t : Table key} {p : ρ → Bool} {r : ρ} :
    r ∈ (t.deleteWhere p).rows ↔ r ∈ t.rows ∧ p r = false := by
  simp [deleteWhere]

theorem lookup_deleteWhere (t : Table key) (p : ρ → Bool) (k : κ) :
    (t.deleteWhere p).lookup k = (t.lookup k).filter fun r => !p r := by
  cases h : t.lookup k with
  | none =>
    rw [lookup_eq_none] at h
    rw [Option.filter_none, lookup_eq_none]
    exact fun r hr => h r (mem_deleteWhere.mp hr).1
  | some r =>
    have hk := key_of_lookup h
    cases hp : p r with
    | false =>
      have hmem : r ∈ (t.deleteWhere p).rows := mem_deleteWhere.mpr ⟨mem_of_lookup h, hp⟩
      rw [← hk, lookup_of_mem hmem, Option.filter_some]
      simp [hp]
    | true =>
      have gone : (t.deleteWhere p).lookup k = none := by
        rw [lookup_eq_none]
        intro x hx e
        obtain ⟨hmem, hpx⟩ := mem_deleteWhere.mp hx
        have := lookup_of_mem hmem
        rw [e, h, Option.some.injEq] at this
        rw [← this, hp] at hpx
        cases hpx
      rw [gone, Option.filter_some]
      simp [hp]

omit [DecidableEq κ] in
theorem eq_of_rows {t u : Table key} (h : t.rows = u.rows) : t = u := by
  cases t
  cases u
  cases h
  rfl

/-- Where a selected row replaces none but a selected one, the deletion does
not see it. -/
theorem deleteWhere_put_gone {t : Table key} {p : ρ → Bool} {r : ρ} (new : p r = true)
    (old : ∀ x, t.lookup (key r) = some x → p x = true) : (t.put r).deleteWhere p = t.deleteWhere p := by
  apply eq_of_rows
  show (t.put r).rows.filter (fun x => !p x) = t.rows.filter fun x => !p x
  rw [rows_put]
  split
  · simp [new]
  · have here (x : ρ) (hx : x ∈ t.rows) (same : key x = key r) : p x = true := old x (same ▸ lookup_of_mem hx)
    generalize t.rows = rows at here
    induction rows with
    | nil => rfl
    | cons x rows ih =>
      have rest := ih fun y hy => here y (List.mem_cons_of_mem _ hy)
      by_cases same : key x = key r
      · simp [same, new, here x List.mem_cons_self same, rest]
      · simp [same, List.filter_cons, rest]

/-- Where a row that stays replaces none but one that stays, the deletion does
not matter to it. -/
theorem deleteWhere_put_kept {t : Table key} {p : ρ → Bool} {r : ρ} (new : p r = false)
    (old : ∀ x, t.lookup (key r) = some x → p x = false) : (t.put r).deleteWhere p = (t.deleteWhere p).put r := by
  have present : (t.deleteWhere p).lookup (key r) = t.lookup (key r) := by
    rw [lookup_deleteWhere]
    cases found : t.lookup (key r) with
    | none => rfl
    | some x => simp [old x found]
  apply eq_of_rows
  show (t.put r).rows.filter (fun x => !p x) = ((t.deleteWhere p).put r).rows
  rw [rows_put, rows_put, present]
  split
  · simp [deleteWhere, new]
  · have here (x : ρ) (hx : x ∈ t.rows) (same : key x = key r) : p x = false := old x (same ▸ lookup_of_mem hx)
    show _ = (t.rows.filter fun x => !p x).map _
    generalize t.rows = rows at here
    induction rows with
    | nil => rfl
    | cons x rows ih =>
      have rest := ih fun y hy => here y (List.mem_cons_of_mem _ hy)
      by_cases same : key x = key r
      · simp [same, new, here x List.mem_cons_self same, rest]
      · cases kept : p x <;> simp [same, kept, rest]

/-- `Map.delete`, and a delete by primary key. -/
def erase (t : Table key) (k : κ) : Table key := t.deleteWhere fun r => key r = k

theorem lookup_erase (t : Table key) (k j : κ) :
    (t.erase k).lookup j = if j = k then none else t.lookup j := by
  rw [erase, lookup_deleteWhere]
  cases h : t.lookup j with
  | none => simp
  | some r =>
    have hr := key_of_lookup h
    by_cases e : j = k <;> simp [hr, e]

@[simp] theorem lookup_empty (k : κ) : (empty : Table key).lookup k = none := rfl

omit [DecidableEq κ] in
@[simp] theorem rows_empty : (empty : Table key).rows = [] := rfl

end Table

/-- A `Map`: pairs keyed by their first component, in insertion order. -/
abbrev OrderedMap (κ ν : Type) := Table (Prod.fst : κ × ν → κ)

namespace OrderedMap
variable {κ ν : Type} [DecidableEq κ]

def get (m : OrderedMap κ ν) (k : κ) : Option ν := (m.lookup k).map Prod.snd
def set (m : OrderedMap κ ν) (k : κ) (v : ν) : OrderedMap κ ν := m.put (k, v)
def values (m : OrderedMap κ ν) : List ν := m.rows.map Prod.snd
def delete (m : OrderedMap κ ν) (k : κ) : OrderedMap κ ν := Table.erase m k

/-- Changes the value of a key in place, if it has one. -/
def adjust (m : OrderedMap κ ν) (k : κ) (f : ν → ν) : OrderedMap κ ν :=
  Table.modify m k (fun p => (p.1, f p.2)) fun _ => rfl

def size (m : OrderedMap κ ν) : Nat := m.rows.length

def keys (m : OrderedMap κ ν) : List κ := m.rows.map Prod.fst

@[simp] theorem get_empty (k : κ) : get (Table.empty : OrderedMap κ ν) k = none := rfl

attribute [local simp] get in
theorem get_set (m : OrderedMap κ ν) (k : κ) (v : ν) (j : κ) :
    (m.set k v).get j = if k = j then some v else m.get j := by
  simp only [get, set, Table.lookup_put]
  split <;> rfl

theorem set_set (m : OrderedMap κ ν) (k : κ) (v w : ν) : (m.set k v).set k w = m.set k w :=
  Table.put_put m rfl

theorem get_delete (m : OrderedMap κ ν) (k j : κ) :
    (m.delete k).get j = if j = k then none else m.get j := by
  simp only [get, delete, Table.lookup_erase]
  split <;> rfl

theorem get_adjust (m : OrderedMap κ ν) (k : κ) (f : ν → ν) (j : κ) :
    (m.adjust k f).get j = if j = k then (m.get j).map f else m.get j := by
  simp only [get, adjust, Table.lookup_modify]
  split
  · rw [Option.map_map, Option.map_map]; rfl
  · rfl

theorem mem_rows {m : OrderedMap κ ν} {k : κ} {v : ν} : (k, v) ∈ m.rows ↔ m.get k = some v := by
  rw [Table.mem_iff_lookup]
  constructor
  · intro h; simp [get, h]
  · intro h
    simp only [get, Option.map_eq_some_iff] at h
    obtain ⟨⟨j, w⟩, hl, rfl⟩ := h
    have : j = k := Table.key_of_lookup hl
    subst this
    exact hl

theorem mem_values {m : OrderedMap κ ν} {v : ν} : v ∈ m.values ↔ ∃ k, m.get k = some v := by
  simp only [values, List.mem_map, Prod.exists, exists_eq_right, mem_rows]

/-- An adjustment changes nothing just where it leaves the value. -/
theorem adjust_eq_self {m : OrderedMap κ ν} {k : κ} {v : ν} {f : ν → ν} (present : m.get k = some v) :
    m.adjust k f = m ↔ f v = v := by
  constructor
  · intro same
    have there := get_adjust m k f k
    rw [same, present, if_pos rfl] at there
    exact (Option.some.inj there).symm
  · intro fixed
    apply Table.eq_of_rows
    have pointwise : ∀ p ∈ m.rows, (if p.1 = k then (p.1, f p.2) else p) = p := by
      rintro ⟨j, w⟩ mem
      by_cases here : j = k
      · subst here
        cases present.symm.trans (mem_rows.mp mem)
        simp only [if_true, fixed]
      · simp only [if_neg here]
    exact (List.map_congr_left pointwise).trans (List.map_id _)

/-- Values that only one key can have are at most one. -/
theorem filter_values_le_one {m : OrderedMap κ ν} {p : ν → Bool} {k : κ}
    (only : ∀ j v, m.get j = some v → p v → j = k) : (m.values.filter p).length ≤ 1 := by
  have keys : ((m.rows.filter fun r => p r.2).map Prod.fst).Nodup := m.nodup.sublist (List.filter_sublist.map _)
  have same : (m.rows.filter fun r => p r.2).map Prod.fst =
      List.replicate (m.rows.filter fun r => p r.2).length k := by
    rw [List.eq_replicate_iff]
    refine ⟨List.length_map _, ?_⟩
    intro j hj
    obtain ⟨⟨i, v⟩, hv, rfl⟩ := List.mem_map.mp hj
    obtain ⟨inside, chosen⟩ := List.mem_filter.mp hv
    exact only i v (mem_rows.mp inside) chosen
  rw [same, List.nodup_replicate] at keys
  rw [values, List.filter_map, List.length_map]
  exact keys

theorem size_eq_zero {m : OrderedMap κ ν} : m.size = 0 ↔ ∀ k, m.get k = none := by
  rw [size, List.length_eq_zero_iff]
  constructor
  · intro h k
    simp [get, Table.lookup, h]
  · intro h
    cases hm : m.rows with
    | nil => rfl
    | cons p rest =>
      have hp : (p.1, p.2) ∈ m.rows := by simp [hm]
      rw [mem_rows, h] at hp
      cases hp

theorem get_eq_none_of_keys {m : OrderedMap κ ν} {k : κ} (h : k ∉ m.keys) : m.get k = none := by
  cases found : m.get k with
  | none => rfl
  | some v => exact absurd (List.mem_map.mpr ⟨_, mem_rows.mpr found, rfl⟩) h

theorem mem_rows_set {m : OrderedMap κ ν} {k : κ} {v : ν} {r : κ × ν} (h : r ∈ (m.set k v).rows) :
    r ∈ m.rows ∨ r = (k, v) := by
  rw [set, Table.rows_put] at h
  split at h
  · rcases List.mem_append.mp h with h | h
    · exact .inl h
    · exact .inr (List.mem_singleton.mp h)
  · obtain ⟨x, hx, same⟩ := List.mem_map.mp h
    split at same
    · exact .inr same.symm
    · exact .inl (same ▸ hx)

theorem rows_set_fresh {m : OrderedMap κ ν} {k : κ} (h : m.get k = none) (v : ν) :
    (m.set k v).rows = m.rows ++ [(k, v)] := by
  rw [set, Table.rows_put, if_pos]
  exact Option.map_eq_none_iff.mp h

theorem rows_set_present {m : OrderedMap κ ν} {k : κ} {old : ν} (h : m.get k = some old) (v : ν) :
    (m.set k v).rows = m.rows.map fun r => if r.1 = k then (k, v) else r := by
  rw [set, Table.rows_put, if_neg]
  intro absent
  rw [get, absent] at h
  cases h

attribute [local simp] keys in
theorem keys_set_fresh {m : OrderedMap κ ν} {k : κ} (h : k ∉ m.keys) (v : ν) : (m.set k v).keys = m.keys ++ [k] := by
  have absent : m.lookup k = none := Option.map_eq_none_iff.mp (get_eq_none_of_keys h)
  rw [keys, set, Table.rows_put, if_pos absent, List.map_append]
  rfl

theorem keys_set_present {m : OrderedMap κ ν} {k : κ} {old : ν} (h : m.get k = some old) (v : ν) :
    (m.set k v).keys = m.keys := by
  rw [keys, rows_set_present h, keys, List.map_map]
  apply List.map_congr_left
  rintro ⟨j, w⟩ _
  simp only [Function.comp]
  split
  · rename_i same
    exact same.symm
  · rfl

theorem values_eq (m : OrderedMap κ ν) : m.values = m.keys.filterMap m.get := by
  rw [values, keys, List.filterMap_map, ← List.filterMap_eq_map]
  apply List.filterMap_congr
  rintro ⟨k, v⟩ member
  exact (mem_rows.mp member).symm

/-- Values that are changed in place. -/
theorem values_map {m m' : OrderedMap κ ν} (keys : m'.keys = m.keys) {f : ν → ν}
    (get : ∀ k, m'.get k = (m.get k).map f) : m'.values = m.values.map f := by
  rw [values_eq, values_eq, keys, List.map_filterMap]
  apply List.filterMap_congr
  intro k _
  exact get k

/-- How many rows a condition selects once one value has been changed. -/
theorem countP_adjust {m : OrderedMap κ ν} {k : κ} {v : ν} (h : m.get k = some v) (f : ν → ν) (p : κ × ν → Bool) :
    (m.adjust k f).rows.countP p + (if p (k, v) then 1 else 0) =
      m.rows.countP p + if p (k, f v) then 1 else 0 := by
  have change (rows : List (κ × ν)) (nodup : (rows.map Prod.fst).Nodup) (inside : (k, v) ∈ rows) :
      (rows.map fun r => if r.1 = k then (r.1, f r.2) else r).countP p + (if p (k, v) then 1 else 0) =
        rows.countP p + if p (k, f v) then 1 else 0 := by
    induction rows with
    | nil => cases inside
    | cons row rows ih =>
      rw [List.map_cons, List.nodup_cons] at nodup
      rw [List.map_cons, List.countP_cons, List.countP_cons]
      by_cases own : row.1 = k
      · have others : rows.map (fun r => if r.1 = k then (r.1, f r.2) else r) = rows := by
          have kept : ∀ r ∈ rows, (if r.1 = k then (r.1, f r.2) else r) = r := by
            intro r hr
            apply if_neg
            intro same
            exact nodup.1 (List.mem_map.mpr ⟨r, hr, same.trans own.symm⟩)
          rw [List.map_congr_left kept, List.map_id']
        have first : row = (k, v) := by
          rcases List.mem_cons.mp inside with same | later
          · exact same.symm
          · exact absurd (List.mem_map.mpr ⟨_, later, own.symm⟩) nodup.1
        rw [others, first, if_pos rfl]
        show rows.countP p + (if p (k, f v) then 1 else 0) + (if p (k, v) then 1 else 0) = _
        omega
      · have later : (k, v) ∈ rows := by
          rcases List.mem_cons.mp inside with same | later
          · exact absurd (congrArg Prod.fst same).symm own
          · exact later
        have rest := ih nodup.2 later
        rw [if_neg own]
        omega
  exact change m.rows m.nodup (mem_rows.mpr h)

theorem keys_adjust (m : OrderedMap κ ν) (k : κ) (f : ν → ν) : (m.adjust k f).keys = m.keys := by
  show List.map Prod.fst (m.rows.map fun r => if r.1 = k then (r.1, f r.2) else r) = m.rows.map Prod.fst
  rw [List.map_map]
  apply List.map_congr_left
  intro r _
  show (if r.1 = k then (r.1, f r.2) else r).1 = r.1
  split
  · rfl
  · rfl

/-- Deletes the first `n` keys. -/
def dropOldest (m : OrderedMap κ ν) (n : Nat) : OrderedMap κ ν :=
  ⟨m.rows.drop n, m.nodup.sublist ((List.drop_sublist n m.rows).map Prod.fst)⟩

omit [DecidableEq κ] in
theorem size_dropOldest (m : OrderedMap κ ν) (n : Nat) : (m.dropOldest n).size = m.size - n := List.length_drop

omit [DecidableEq κ] in
@[simp] theorem dropOldest_zero (m : OrderedMap κ ν) : m.dropOldest 0 = m := rfl

theorem get_dropOldest_some {m : OrderedMap κ ν} {n : Nat} {k : κ} {v : ν} (h : (m.dropOldest n).get k = some v) :
    m.get k = some v :=
  mem_rows.mp (List.mem_of_mem_drop (mem_rows.mpr h))

/-- The sum of the values of all other keys. -/
def sumExcept (m : OrderedMap κ Int) (k : κ) : Int := ((m.rows.filter fun p => p.1 ≠ k).map Prod.snd).sum

theorem sum_rows {rows : List (κ × Int)} (nodup : (rows.map Prod.fst).Nodup) (k : κ) :
    (rows.map Prod.snd).sum = ((rows.filter fun p => p.1 ≠ k).map Prod.snd).sum +
      ((rows.find? fun p => p.1 = k).map Prod.snd).getD 0 := by
  induction rows with
  | nil => rfl
  | cons p rows ih =>
    rw [List.map_cons, List.nodup_cons] at nodup
    have rest := ih nodup.2
    by_cases hp : p.1 = k
    · have absent : rows.find? (fun p => p.1 = k) = none := by
        rw [List.find?_eq_none]
        intro q hq same
        have same : q.1 = k := of_decide_eq_true same
        exact nodup.1 (List.mem_map.mpr ⟨q, hq, same.trans hp.symm⟩)
      rw [absent] at rest
      simp only [List.map_cons, List.sum_cons, List.filter_cons, List.find?_cons, hp, rest]
      simp
      omega
    · simp only [List.map_cons, List.sum_cons, List.filter_cons, List.find?_cons, rest]
      simp [hp]
      omega

theorem sum_values (m : OrderedMap κ Int) (k : κ) : m.values.sum = m.sumExcept k + (m.get k).getD 0 :=
  sum_rows m.nodup k

theorem sumExcept_set (m : OrderedMap κ Int) (k : κ) (v : Int) : (m.set k v).sumExcept k = m.sumExcept k := by
  have others : (m.set k v).rows.filter (fun p => p.1 ≠ k) = m.rows.filter fun p => p.1 ≠ k := by
    rw [set, Table.rows_put]
    split
    · simp
    · rw [List.filter_map]
      have kept : (fun p : κ × Int => decide (p.1 ≠ k)) ∘ (fun x => if x.1 = (k, v).1 then (k, v) else x) =
          fun p => decide (p.1 ≠ k) := by
        funext p
        by_cases hp : p.1 = k <;> simp [hp]
      rw [kept]
      refine (List.map_congr_left ?_).trans (List.map_id _)
      intro p hp
      rw [List.mem_filter] at hp
      exact if_neg (of_decide_eq_true hp.2)
  rw [sumExcept, others]
  rfl

theorem sum_set (m : OrderedMap κ Int) (k : κ) (v : Int) : (m.set k v).values.sum = m.sumExcept k + v := by
  rw [sum_values _ k, sumExcept_set, get_set, if_pos rfl, Option.getD_some]

theorem get_deleteWhere (m : OrderedMap κ ν) (p : ν → Bool) (k : κ) :
    get (m.deleteWhere fun row => p row.2) k = (m.get k).filter fun v => !p v := by
  simp only [get, Table.lookup_deleteWhere]
  cases m.lookup k with
  | none => rfl
  | some row => cases hp : p row.2 <;> simp [Option.filter, hp]

theorem delete_eq_self {m : OrderedMap κ ν} {k : κ} : m.delete k = m ↔ m.get k = none := by
  constructor
  · intro same
    rw [← same, get_delete, if_pos rfl]
  · intro absent
    apply Table.eq_of_rows
    show m.rows.filter _ = m.rows
    rw [List.filter_eq_self]
    intro row member
    have other : row.1 ≠ k := by
      rintro rfl
      rw [mem_rows.mp member] at absent
      cases absent
    simpa using other

end OrderedMap

section
variable {α : Type} [DecidableEq α]

/-- `[...new Set(xs)]`: each item where it first stands. -/
def unique : List α → List α
  | [] => []
  | x :: xs => x :: (unique xs).filter fun y => y ≠ x

attribute [local simp] unique in
@[simp] theorem mem_unique {xs : List α} {x : α} : x ∈ unique xs ↔ x ∈ xs := by
  induction xs with
  | nil => rfl
  | cons y xs ih =>
    by_cases h : x = y <;> simp [unique, ih, h]

end

end GuloGulo.Data
