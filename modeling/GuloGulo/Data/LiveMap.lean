import Mathlib.Data.List.ReduceOption

/-!
# A map while it is iterated

A JavaScript `Map` keeps a slot for every entry, in the order of insertion, and
empties the slot of an entry it deletes. A loop over the map goes from slot to
slot: it passes those emptied before it gets there and comes to those added
before it ends.
-/

namespace GuloGulo.Data

structure LiveMap (κ ν : Type) where
  slots : List (Option (κ × ν))
  nodup : (slots.reduceOption.map Prod.fst).Nodup

namespace LiveMap
variable {κ ν : Type}

def empty : LiveMap κ ν := ⟨[], List.nodup_nil⟩

def entries (m : LiveMap κ ν) : List (κ × ν) := m.slots.reduceOption

def size (m : LiveMap κ ν) : Nat := m.entries.length

/-- A slot, emptied if its key is `gone`. -/
def kept (gone : κ → Bool) (slot : Option (κ × ν)) : Option (κ × ν) := slot.filter fun p => !gone p.1

theorem kept_some (gone : κ → Bool) (p : κ × ν) : kept gone (some p) = if gone p.1 then none else some p := by
  cases h : gone p.1 <;> simp [kept, Option.filter, h]

theorem kept_kept (gone also : κ → Bool) (slot : Option (κ × ν)) :
    kept also (kept gone slot) = kept (fun k => gone k || also k) slot := by
  cases slot with
  | none => rfl
  | some p =>
    rw [kept_some, kept_some]
    cases gone p.1 with
    | true => rfl
    | false => exact kept_some also p

theorem reduceOption_kept (gone : κ → Bool) (slots : List (Option (κ × ν))) :
    (slots.map (kept gone)).reduceOption = slots.reduceOption.filter fun p => !gone p.1 := by
  induction slots with
  | nil => rfl
  | cons slot slots ih =>
    cases slot with
    | none => exact ih
    | some p =>
      rw [List.map_cons, kept_some, List.reduceOption_cons_of_some, List.filter_cons]
      cases gone p.1 with
      | true => exact ih
      | false => exact congrArg (p :: ·) ih

section
variable [DecidableEq κ]

def get (m : LiveMap κ ν) (k : κ) : Option ν := (m.entries.find? fun p => p.1 = k).map Prod.snd

theorem get_eq_none {m : LiveMap κ ν} {k : κ} : m.get k = none ↔ ∀ p ∈ m.entries, p.1 ≠ k := by
  simp [get]

/-- `Map.delete`. -/
def delete (m : LiveMap κ ν) (k : κ) : LiveMap κ ν where
  slots := m.slots.map (kept fun j => j = k)
  nodup := by
    rw [reduceOption_kept]
    exact m.nodup.sublist (List.filter_sublist.map Prod.fst)

theorem slots_add_nodup {m : LiveMap κ ν} {k : κ} {v : ν} (h : m.get k = none) :
    ((m.slots ++ [some (k, v)]).reduceOption.map Prod.fst).Nodup := by
  rw [List.reduceOption_append, List.map_append, List.nodup_append]
  refine ⟨m.nodup, by simp [List.reduceOption], ?_⟩
  intro a ha b hb
  obtain ⟨p, hp, rfl⟩ := List.mem_map.mp ha
  have same : b = k := by simpa [List.reduceOption] using hb
  rw [same]
  exact get_eq_none.mp h p hp

/-- A slot with the value of `k` replaced. -/
def replaced (k : κ) (v : ν) (slot : Option (κ × ν)) : Option (κ × ν) :=
  slot.map fun p => if p.1 = k then (k, v) else p

theorem slots_replaced_keys (k : κ) (v : ν) (slots : List (Option (κ × ν))) :
    (slots.map (replaced k v)).reduceOption.map Prod.fst = slots.reduceOption.map Prod.fst := by
  induction slots with
  | nil => rfl
  | cons slot slots ih =>
    cases slot with
    | none => exact ih
    | some p =>
      have same : (if p.1 = k then (k, v) else p).1 = p.1 := by
        split
        · rename_i h
          exact h.symm
        · rfl
      simp only [List.map_cons, replaced, Option.map_some, List.reduceOption_cons_of_some, same]
      exact congrArg (p.1 :: ·) ih

/-- `Map.set`: a new key takes a new slot. -/
def set (m : LiveMap κ ν) (k : κ) (v : ν) : LiveMap κ ν :=
  if h : m.get k = none then ⟨m.slots ++ [some (k, v)], slots_add_nodup h⟩
  else ⟨m.slots.map (replaced k v), by rw [slots_replaced_keys]; exact m.nodup⟩

theorem slots_set {m : LiveMap κ ν} {k : κ} {v : ν} (h : m.get k = none) :
    (m.set k v).slots = m.slots ++ [some (k, v)] := by
  rw [set, dif_pos h]

end

end LiveMap

end GuloGulo.Data
