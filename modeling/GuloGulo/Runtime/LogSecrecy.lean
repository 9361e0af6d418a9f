import GuloGulo.Runtime.InlineSecrets
import GuloGulo.Runtime.Logger
import Mathlib.Data.Fintype.Card

/-!
# What a log line shows

Two values that are the same but for what is stored under sensitive keys are
visited in step, and what is under such a key is not visited at all.
-/

namespace GuloGulo.Runtime
open Js

section
variable {ν : Type} (num : Numbers ν)

section
variable {n n' : Nat} (rel : Fin n → Fin n' → Prop)

inductive SameValue : LogValue ν n → LogValue ν n' → Prop where
  | undefined : SameValue .undefined .undefined
  | null : SameValue .null .null
  | symbol : SameValue .symbol .symbol
  | bool (b : Bool) : SameValue (.bool b) (.bool b)
  | number (x : ν) : SameValue (.number x) (.number x)
  | bigint (text : JsString) : SameValue (.bigint text) (.bigint text)
  | string (s : JsString) : SameValue (.string s) (.string s)
  | ref {a : Fin n} {b : Fin n'} (same : rel a b) : SameValue (.ref a) (.ref b)

/-- Entries with the same key, and with the same value unless the key is sensitive. -/
def SameEntry (e : JsString × LogValue ν n) (e' : JsString × LogValue ν n') : Prop :=
  e.1 = e'.1 ∧ (isSensitiveKey e.1 = false → SameValue rel e.2 e'.2)

inductive SameObject : LogObject ν n → LogObject ν n' → Prop where
  | error (name message : JsString) : SameObject (.error name message) (.error name message)
  | array {items : List (LogValue ν n)} {items' : List (LogValue ν n')} (same : List.Forall₂ (SameValue rel) items items') :
      SameObject (.array items) (.array items')
  | plain {entries : List (JsString × LogValue ν n)} {entries' : List (JsString × LogValue ν n')}
      (same : List.Forall₂ (SameEntry rel) entries entries') : SameObject (.plain entries) (.plain entries')

end

/-- The objects of two graphs that stand for each other, one for one. -/
structure Matches (g g' : Graph ν) (rel : Fin g.size → Fin g'.size → Prop) : Prop where
  unique : ∀ a a' b b', rel a b → rel a' b' → (a = a' ↔ b = b')
  objects : ∀ a b, rel a b → SameObject rel (g.objects a) (g'.objects b)
  root : SameValue rel g.root g'.root

/-- The graphs differ only in what is stored under sensitive keys. -/
def Alike (g g' : Graph ν) : Prop := ∃ rel, Matches g g' rel

section
variable {n : Nat} {α β : Type}

/-- A visit of what it can see has an answer, and forgets nothing. -/
def Visits (seen : Seen n) (o : Option (β × Seen n)) : Prop :=
  ∃ y seen', o = some (y, seen') ∧ seen'.Nodup ∧ seen.length ≤ seen'.length

theorem mapSeen_visits {f : Seen n → α → Option (β × Seen n)} {seen : Seen n} (nodup : seen.Nodup)
    (visits : ∀ seen', seen'.Nodup → seen.length ≤ seen'.length → ∀ x, Visits seen' (f seen' x)) (xs : List α) :
    Visits seen (mapSeen f seen xs) := by
  induction xs generalizing seen with
  | nil => exact ⟨[], seen, rfl, nodup, Nat.le_refl _⟩
  | cons x xs ih =>
    obtain ⟨y, seen₁, first, nodup₁, more₁⟩ := visits seen nodup (Nat.le_refl _) x
    obtain ⟨ys, seen₂, later, nodup₂, more₂⟩ :=
      ih nodup₁ fun seen' nodup' more x => visits seen' nodup' (more₁.trans more) x
    refine ⟨y :: ys, seen₂, ?_, nodup₂, more₁.trans more₂⟩
    simp [mapSeen, first, later]

theorem visits_here {y : β} {seen : Seen n} (nodup : seen.Nodup) : Visits seen (some (y, seen)) :=
  ⟨y, seen, rfl, nodup, Nat.le_refl _⟩

theorem visits_map {γ : Type} {o : Option (α × Seen n)} {seen : Seen n} (f : α → γ) (visits : Visits seen o) :
    Visits seen (o.map fun r => (f r.1, r.2)) := by
  obtain ⟨y, seen', rfl, nodup, more⟩ := visits
  exact ⟨f y, seen', rfl, nodup, more⟩

theorem visits_more {y : Fin n} {o : Option (β × Seen n)} {seen : Seen n} (visits : Visits (y :: seen) o) :
    Visits seen o := by
  obtain ⟨y', seen', some, nodup, more⟩ := visits
  exact ⟨y', seen', some, nodup, (Nat.le_succ _).trans more⟩

/-- What is left when an object is visited that was not. -/
theorem left_of_fresh {seen : Seen n} {a : Fin n} {left : Nat} (nodup : seen.Nodup) (fresh : a ∉ seen)
    (enough : n ≤ left + seen.length) : ∃ rest, left = rest + 1 ∧ (a :: seen).Nodup ∧ n ≤ rest + (a :: seen).length := by
  have nodup' : (a :: seen).Nodup := List.nodup_cons.mpr ⟨fresh, nodup⟩
  have few : (a :: seen).length ≤ n := by
    have := nodup'.length_le_card
    rwa [Fintype.card_fin] at this
  rw [List.length_cons] at few
  refine ⟨left - 1, by omega, nodup', ?_⟩
  rw [List.length_cons]
  omega

theorem sanitizeLogValue_visits (objects : Fin n → LogObject ν n) {left : Nat} {seen : Seen n} (nodup : seen.Nodup)
    (enough : n ≤ left + seen.length) (key : JsString) (value : LogValue ν n) :
    Visits seen (sanitizeLogValue num objects left seen key value) := by
  induction left generalizing seen key value with
  | zero =>
    unfold sanitizeLogValue
    split
    · exact visits_here nodup
    · cases value with
      | ref a =>
        have here : a ∈ seen := by
          by_contra fresh
          obtain ⟨rest, none, _⟩ := left_of_fresh nodup fresh enough
          cases none
        simp only [here, if_true]
        cases objects a <;> exact visits_here nodup
      | _ => exact visits_here nodup
  | succ left ih =>
    unfold sanitizeLogValue
    split
    · exact visits_here nodup
    · cases value with
      | ref a =>
        by_cases here : a ∈ seen
        · simp only [here, if_true]
          cases objects a <;> exact visits_here nodup
        · obtain ⟨rest, same, nodup', enough'⟩ := left_of_fresh nodup here enough
          cases same
          simp only [here, if_false]
          cases objects a with
          | error name message => exact visits_here nodup
          | array items =>
            apply visits_more (y := a)
            exact visits_map LogTree.array (mapSeen_visits nodup' (fun seen' nodup more item =>
              ih nodup (enough'.trans (Nat.add_le_add_left more left)) [] item) items)
          | plain entries =>
            apply visits_more (y := a)
            exact visits_map LogTree.object (mapSeen_visits nodup' (fun seen' nodup more entry =>
              visits_map (fun tree => (entry.1, tree))
                (ih nodup (enough'.trans (Nat.add_le_add_left more left)) entry.1 entry.2)) entries)
      | _ => exact visits_here nodup

end

section
variable {n n' : Nat} {rel : Fin n → Fin n' → Prop} {α α' β : Type}

/-- Of two objects that stand for each other either both were visited or none. -/
def SeenAlike (rel : Fin n → Fin n' → Prop) (seen : Seen n) (seen' : Seen n') : Prop :=
  ∀ a b, rel a b → (a ∈ seen ↔ b ∈ seen')

/-- Two visits that come to the same, if both come to something. -/
def Agree (rel : Fin n → Fin n' → Prop) (o : Option (β × Seen n)) (o' : Option (β × Seen n')) : Prop :=
  ∀ y seen y' seen', o = some (y, seen) → o' = some (y', seen') → y = y' ∧ SeenAlike rel seen seen'

theorem agree_here {y : β} {seen : Seen n} {seen' : Seen n'} (alike : SeenAlike rel seen seen') :
    Agree rel (some (y, seen)) (some (y, seen')) := by
  intro y seen y' seen' first second
  cases first
  cases second
  exact ⟨rfl, alike⟩

theorem agree_map {γ : Type} {o : Option (α × Seen n)} {o' : Option (α × Seen n')} (f : α → γ) (agree : Agree rel o o') :
    Agree rel (o.map fun r => (f r.1, r.2)) (o'.map fun r => (f r.1, r.2)) := by
  intro y seen y' seen' first second
  obtain ⟨⟨x, t⟩, some, same⟩ := Option.map_eq_some_iff.mp first
  obtain ⟨⟨x', t'⟩, some', same'⟩ := Option.map_eq_some_iff.mp second
  cases same
  cases same'
  obtain ⟨rfl, alike⟩ := agree x t x' t' some some'
  exact ⟨rfl, alike⟩

theorem mapSeen_agree {r : α → α' → Prop} {f : Seen n → α → Option (β × Seen n)} {f' : Seen n' → α' → Option (β × Seen n')}
    (agree : ∀ seen seen' x x', r x x' → SeenAlike rel seen seen' → Agree rel (f seen x) (f' seen' x'))
    {xs : List α} {xs' : List α'} (same : List.Forall₂ r xs xs') {seen : Seen n} {seen' : Seen n'}
    (alike : SeenAlike rel seen seen') : Agree rel (mapSeen f seen xs) (mapSeen f' seen' xs') := by
  induction same generalizing seen seen' with
  | nil => exact agree_here alike
  | @cons x x' xs xs' first _ ih =>
    intro y t y' t' some some'
    simp only [mapSeen, Option.bind_eq_bind, Option.bind_eq_some_iff, Option.pure_def, Option.some.injEq] at some some'
    obtain ⟨⟨y₁, t₁⟩, h₁, ⟨ys, t₂⟩, h₂, same₂⟩ := some
    obtain ⟨⟨y₁', t₁'⟩, h₁', ⟨ys', t₂'⟩, h₂', same₂'⟩ := some'
    cases same₂
    cases same₂'
    obtain ⟨rfl, alike₁⟩ := agree seen seen' x x' first alike _ _ _ _ h₁ h₁'
    obtain ⟨rfl, alike₂⟩ := ih alike₁ _ _ _ _ h₂ h₂'
    exact ⟨rfl, alike₂⟩

theorem seenAlike_cons (unique : ∀ a a' b b', rel a b → rel a' b' → (a = a' ↔ b = b')) {a : Fin n} {b : Fin n'}
    (same : rel a b) {seen : Seen n} {seen' : Seen n'} (alike : SeenAlike rel seen seen') :
    SeenAlike rel (a :: seen) (b :: seen') := by
  intro c d same'
  rw [List.mem_cons, List.mem_cons, unique c a d b same' same, alike c d same']

variable {objects : Fin n → LogObject ν n} {objects' : Fin n' → LogObject ν n'}

theorem agree_none {o' : Option (β × Seen n')} : Agree rel (none : Option (β × Seen n)) o' := by
  intro y seen y' seen' none
  cases none

theorem none_agree {o : Option (β × Seen n)} : Agree rel o (none : Option (β × Seen n')) := by
  intro y seen y' seen' _ none
  cases none

/-- An object is visited in both graphs or in none, and its entries are visited
in step. -/
theorem sanitizeLogValue_agree (unique : ∀ a a' b b', rel a b → rel a' b' → (a = a' ↔ b = b'))
    (same : ∀ a b, rel a b → SameObject rel (objects a) (objects' b)) (left left' : Nat) (key : JsString)
    {seen : Seen n} {seen' : Seen n'} {value : LogValue ν n} {value' : LogValue ν n'}
    (values : isSensitiveKey key = false → SameValue rel value value') (alike : SeenAlike rel seen seen') :
    Agree rel (sanitizeLogValue num objects left seen key value) (sanitizeLogValue num objects' left' seen' key value') := by
  induction left generalizing left' seen seen' key value value' with
  | zero =>
    unfold sanitizeLogValue
    cases sensitive : isSensitiveKey key with
    | true => exact agree_here alike
    | false =>
      cases values sensitive with
      | @ref a b here =>
        have object := same a b here
        simp only [Bool.false_eq_true, if_false]
        generalize objects a = o at object
        generalize objects' b = o' at object
        cases object
        · exact agree_here alike
        all_goals
          by_cases visited : a ∈ seen
          · simp only [visited, (alike a b here).mp visited, if_true]
            exact agree_here alike
          · simp only [visited, if_false]
            exact agree_none
      | _ => exact agree_here alike
  | succ left ih =>
    unfold sanitizeLogValue
    cases sensitive : isSensitiveKey key with
    | true => exact agree_here alike
    | false =>
      cases values sensitive with
      | @ref a b here =>
        have object := same a b here
        simp only [Bool.false_eq_true, if_false]
        generalize objects a = o at object
        generalize objects' b = o' at object
        by_cases visited : a ∈ seen
        · have visited' := (alike a b here).mp visited
          simp only [visited, visited', if_true]
          cases object <;> exact agree_here alike
        · have fresh : b ∉ seen' := fun visited' => visited ((alike a b here).mpr visited')
          simp only [visited, fresh, if_false]
          have alike' := seenAlike_cons unique here alike
          cases left' with
          | zero =>
            cases object with
            | error => exact agree_here alike
            | array => exact none_agree
            | plain => exact none_agree
          | succ left' =>
            cases object with
            | error => exact agree_here alike
            | array items =>
              apply agree_map LogTree.array
              refine mapSeen_agree (r := SameValue rel) ?_ items alike'
              intro seen seen' item item' same alike
              exact ih left' [] (fun _ => same) alike
            | plain entries =>
              apply agree_map LogTree.object
              refine mapSeen_agree (r := SameEntry rel) ?_ entries alike'
              rintro seen seen' ⟨key, value⟩ ⟨key', value'⟩ ⟨rfl, values⟩ alike
              exact agree_map (fun tree => (key, tree)) (ih left' key values alike)
      | _ => exact agree_here alike

end

theorem seenAlike_nil {n n' : Nat} (rel : Fin n → Fin n' → Prop) : SeenAlike rel [] [] := by
  intro a b _
  simp

attribute [local simp] LogTree.sanitize in
theorem sanitize_total (g : Graph ν) : ∃ tree, g.sanitize num = some tree := by
  obtain ⟨tree, seen, same, _⟩ := sanitizeLogValue_visits num g.objects (List.nodup_nil : ([] : Seen g.size).Nodup)
    (Nat.le_refl _) [] g.root
  exact ⟨tree, by simp [Graph.sanitize, same]⟩

theorem sanitize_alike {g g' : Graph ν} (alike : Alike g g') : g.sanitize num = g'.sanitize num := by
  obtain ⟨rel, unique, objects, root⟩ := alike
  obtain ⟨tree, seen, same, _⟩ := sanitizeLogValue_visits num g.objects (List.nodup_nil : ([] : Seen g.size).Nodup)
    (Nat.le_refl _) [] g.root
  obtain ⟨tree', seen', same', _⟩ := sanitizeLogValue_visits num g'.objects (List.nodup_nil : ([] : Seen g'.size).Nodup)
    (Nat.le_refl _) [] g'.root
  obtain ⟨rfl, _⟩ := sanitizeLogValue_agree num unique objects g.size g'.size [] (fun _ => root) (seenAlike_nil rel)
    tree seen tree' seen' same same'
  simp [Graph.sanitize, same, same']

theorem createLogger_alike (options : LoggerOptions) {g g' : Graph ν} (alike : Alike g g') :
    createLogger num options g = createLogger num options g' := by
  rw [createLogger, createLogger, sanitize_alike num alike]

section
variable {α β : Type} {n n' : Nat}

/-- Properties with the same keys, and with values in a relation that the key may decide. -/
def SameField (r : JsString → α → β → Prop) (f : JsString × α) (f' : JsString × β) : Prop :=
  f.1 = f'.1 ∧ r f.1 f.2 f'.2

variable {r : JsString → α → β → Prop} {fields : List (JsString × α)} {fields' : List (JsString × β)}

theorem setField_same (same : List.Forall₂ (SameField r) fields fields') {key : JsString} {x : α} {x' : β}
    (value : r key x x') :
    List.Forall₂ (SameField r) (setField fields key x) (setField fields' key x') := by
  have present : fields.any (·.1 = key) = fields'.any (·.1 = key) := by
    induction same with
    | nil => rfl
    | cons first _ ih => rw [List.any_cons, List.any_cons, first.1, ih]
  have replaced : List.Forall₂ (SameField r) (fields.map fun f => if f.1 = key then (key, x) else f)
      (fields'.map fun f => if f.1 = key then (key, x') else f) := by
    clear present
    induction same with
    | nil => exact .nil
    | @cons f f' _ _ first _ ih =>
      refine .cons ?_ ih
      dsimp only
      rw [first.1]
      split
      · exact ⟨rfl, value⟩
      · exact first
  unfold setField
  rw [present]
  split
  · exact replaced
  · exact List.rel_append same (.cons ⟨rfl, value⟩ .nil)

theorem setFields_same (same : List.Forall₂ (SameField r) fields fields') {more : List (JsString × α)}
    {more' : List (JsString × β)} (later : List.Forall₂ (SameField r) more more') :
    List.Forall₂ (SameField r) (setFields fields more) (setFields fields' more') := by
  induction later generalizing fields fields' with
  | nil => exact same
  | @cons f f' more more' first _ ih =>
    obtain ⟨key, x⟩ := f
    obtain ⟨key', x'⟩ := f'
    obtain ⟨rfl, value⟩ := first
    exact ih (setField_same same value)

theorem forall₂_pairs (same : List.Forall₂ (SameField r) fields fields') : ∃ both : List (JsString × α × β),
    fields = both.map (fun f => (f.1, f.2.1)) ∧ fields' = both.map (fun f => (f.1, f.2.2)) ∧
      ∀ f ∈ both, r f.1 f.2.1 f.2.2 := by
  induction same with
  | nil => exact ⟨[], rfl, rfl, by simp⟩
  | @cons f f' _ _ first _ ih =>
    obtain ⟨both, rfl, rfl, values⟩ := ih
    refine ⟨(f.1, f.2, f'.2) :: both, rfl, by simp [first.1], ?_⟩
    intro g member
    rcases List.mem_cons.mp member with rfl | later
    · exact first.2
    · exact values g later

theorem ownOrder_map (g : α → β) (fields : List (JsString × α)) :
    ownOrder (fields.map fun f => (f.1, g f.2)) = (ownOrder fields).map fun f => (f.1, g f.2) := by
  simp only [ownOrder, List.filter_map, List.map_append]
  rw [List.map_mergeSort]
  · rfl
  · exact fun _ _ _ _ => rfl

theorem mem_ownOrder {f : JsString × α} (member : f ∈ ownOrder fields) : f ∈ fields := by
  simp only [ownOrder, List.mem_append, List.mem_mergeSort, List.mem_filter] at member
  rcases member with member | member
  · exact member.1
  · exact member.1

theorem ownOrder_same (same : List.Forall₂ (SameField r) fields fields') :
    List.Forall₂ (SameField r) (ownOrder fields) (ownOrder fields') := by
  obtain ⟨both, rfl, rfl, values⟩ := forall₂_pairs same
  rw [ownOrder_map, ownOrder_map (g := fun f : α × β => f.2), List.forall₂_map_left_iff, List.forall₂_map_right_iff]
  apply List.forall₂_same.mpr
  exact fun f member => ⟨rfl, values f (mem_ownOrder member)⟩

end

section
variable {n n' : Nat} {rel : Fin n → Fin n' → Prop}

theorem zipIdx_same {items : List (LogValue ν n)} {items' : List (LogValue ν n')}
    (same : List.Forall₂ (SameValue rel) items items') (k : Nat) :
    List.Forall₂ (SameEntry rel) ((items.zipIdx k).map fun item => (decimal item.2, item.1))
      ((items'.zipIdx k).map fun item => (decimal item.2, item.1)) := by
  induction same generalizing k with
  | nil => exact .nil
  | cons first _ ih => exact .cons ⟨rfl, fun _ => first⟩ (ih (k + 1))

end

theorem entries_same {g g' : Graph ν} {rel : Fin g.size → Fin g'.size → Prop} (alike : Matches g g' rel) :
    List.Forall₂ (SameEntry rel) g.entries g'.entries := by
  unfold Graph.entries
  have root := alike.root
  have objects := alike.objects
  generalize g.root = value at root
  generalize g'.root = value' at root
  cases root with
  | string s =>
    rw [List.forall₂_map_left_iff, List.forall₂_map_right_iff]
    exact List.forall₂_same.mpr fun u _ => ⟨rfl, fun _ => .string [u.1]⟩
  | @ref a b same =>
    have object := objects a b same
    dsimp only
    generalize g.objects a = o at object
    generalize g'.objects b = o' at object
    cases object with
    | error => exact .nil
    | array items => exact zipIdx_same items 0
    | plain entries => exact entries
  | _ => exact .nil

/-- What a child's context is made of. -/
def SamePart {n n' : Nat} (rel : Fin n → Fin n' → Prop) (key : JsString) :
    LogTree ν ⊕ LogValue ν n → LogTree ν ⊕ LogValue ν n' → Prop
  | .inl tree, .inl tree' => tree = tree'
  | .inr value, .inr value' => isSensitiveKey key = false → SameValue rel value value'
  | _, _ => False

theorem parts_visit (logger : Logger ν) (g : Graph ν) : Visits [] (mapSeen (sanitizePart num g) [] (mergedParts logger g)) := by
  apply mapSeen_visits List.nodup_nil
  rintro seen nodup _ ⟨key, tree | value⟩
  · exact visits_here nodup
  · exact visits_map (fun tree => (key, tree)) (sanitizeLogValue_visits num g.objects nodup (Nat.le_add_right _ _) key value)

theorem child_alike (logger : Logger ν) {g g' : Graph ν} (alike : Alike g g') :
    logger.child num g = logger.child num g' := by
  obtain ⟨rel, alike⟩ := alike
  have parts : List.Forall₂ (SameField (SamePart rel)) (mergedParts logger g) (mergedParts logger g') := by
    apply ownOrder_same
    apply setFields_same
    · rw [List.forall₂_map_left_iff, List.forall₂_map_right_iff]
      exact List.forall₂_same.mpr fun f _ => ⟨rfl, rfl⟩
    · rw [List.forall₂_map_left_iff, List.forall₂_map_right_iff]
      exact (entries_same alike).imp fun _ _ same => same
  have agree : Agree rel (mapSeen (sanitizePart num g) [] (mergedParts logger g))
      (mapSeen (sanitizePart num g') [] (mergedParts logger g')) := by
    refine mapSeen_agree (r := SameField (SamePart rel)) ?_ parts (seenAlike_nil rel)
    rintro seen seen' ⟨key, tree | value⟩ ⟨key', tree' | value'⟩ ⟨rfl, same⟩ alike_
    · cases same
      exact agree_here alike_
    · exact absurd same id
    · exact absurd same id
    · exact agree_map (fun tree => (key, tree)) (sanitizeLogValue_agree num alike.unique alike.objects _ _ key same alike_)
  obtain ⟨fields, seen, some, _⟩ := parts_visit num logger g
  obtain ⟨fields', seen', some', _⟩ := parts_visit num logger g'
  obtain ⟨rfl, _⟩ := agree fields seen fields' seen' some some'
  rw [Logger.child, Logger.child, some, some']
  rfl

theorem child_total (logger : Logger ν) (g : Graph ν) : ∃ logger', logger.child num g = some logger' := by
  obtain ⟨fields, seen, some, _⟩ := parts_visit num logger g
  exact ⟨_, by rw [Logger.child, some]; rfl⟩

theorem createLogger_total (options : LoggerOptions) (g : Graph ν) : ∃ logger, createLogger num options g = some logger := by
  obtain ⟨tree, some⟩ := sanitize_total num g
  exact ⟨_, by rw [createLogger, some]; rfl⟩

/-- A logger with a context, and those its children add. -/
def loggerOf (num : Numbers ν) (options : LoggerOptions) (context : Graph ν) (children : List (Graph ν)) :
    Option (Logger ν) :=
  children.foldl (fun logger child => logger.bind fun logger => logger.child num child) (createLogger num options context)

theorem children_alike {children children' : List (Graph ν)} (alike : List.Forall₂ Alike children children')
    (logger : Option (Logger ν)) :
    children.foldl (fun logger child => logger.bind fun logger => logger.child num child) logger =
      children'.foldl (fun logger child => logger.bind fun logger => logger.child num child) logger := by
  induction alike generalizing logger with
  | nil => rfl
  | @cons g g' _ _ first _ ih =>
    have step : (logger.bind fun logger => logger.child num g) = logger.bind fun logger => logger.child num g' := by
      cases logger with
      | none => rfl
      | some logger => exact child_alike num logger first
    rw [List.foldl_cons, List.foldl_cons, step]
    exact ih _

theorem loggerOf_total (options : LoggerOptions) (context : Graph ν) (children : List (Graph ν)) :
    ∃ logger, loggerOf num options context children = some logger := by
  have fold (logger : Logger ν) : ∃ logger',
      children.foldl (fun logger child => logger.bind fun logger => logger.child num child) (some logger) = some logger' := by
    induction children generalizing logger with
    | nil => exact ⟨logger, rfl⟩
    | cons g children ih =>
      obtain ⟨logger', step⟩ := child_total num logger g
      rw [List.foldl_cons, Option.bind_some, step]
      exact ih logger'
  obtain ⟨logger, some⟩ := createLogger_total num options context
  rw [loggerOf, some]
  exact fold logger

theorem log_total (logger : Logger ν) (method : Method) (timestamp event : JsString) (details : Graph ν) :
    ∃ line, logger.log num method timestamp event details = some line := by
  obtain ⟨tree, some⟩ := sanitize_total num details.orEmpty
  exact ⟨_, by rw [Logger.log, some]; rfl⟩

theorem orEmpty_alike {g g' : Graph ν} (alike : Alike g g') : Alike g.orEmpty g'.orEmpty := by
  have whole := alike
  obtain ⟨rel, alike⟩ := alike
  have root := alike.root
  obtain ⟨n, objects, value⟩ := g
  obtain ⟨n', objects', value'⟩ := g'
  dsimp only at root
  cases root with
  | undefined =>
    refine ⟨fun _ _ => True, ?_, fun _ _ _ => .plain .nil, .ref trivial⟩
    have one (a a' : Fin 1) : a = a' := Subsingleton.elim a a'
    exact fun a a' b b' _ _ => ⟨fun _ => one b b', fun _ => one a a'⟩
  | _ => exact whole

theorem log_alike (logger : Logger ν) (method : Method) (timestamp event : JsString) {g g' : Graph ν} (alike : Alike g g') :
    logger.log num method timestamp event g = logger.log num method timestamp event g' := by
  rw [Logger.log, Logger.log, sanitize_alike num (orEmpty_alike alike)]

/-- A string as the details. -/
def textDetails (text : JsString) : Graph ν := ⟨0, Fin.elim0, .string text⟩

theorem log_text (logger : Logger ν) (method : Method) (timestamp event text : JsString) :
    logger.log num method timestamp event (textDetails text) =
      some (method.stream, recordText num (record logger method timestamp event (.string (redactText text))) ++ js "\n") := by
  have plain : isSensitiveKey [] = false := by decide
  have sanitized : (textDetails text : Graph ν).orEmpty.sanitize num = some (.string (redactText text)) := by
    show Option.map Prod.fst (sanitizeLogValue num Fin.elim0 0 [] [] (.string text)) = _
    unfold sanitizeLogValue
    rw [plain]
    rfl
  rw [Logger.log, sanitized]
  rfl

/-- A unit that is no part of a pair stands by itself. -/
theorem jsonUnits_append {u : UInt16} (high : isHighSurrogate u = false) (low : isLowSurrogate u = false) (a z : JsString) :
    jsonUnits (a ++ u :: z) = jsonUnits a ++ (jsonUnit u ++ jsonUnits z) := by
  have first (z : JsString) : jsonUnits (u :: z) = jsonUnit u ++ jsonUnits z := by
    cases z with
    | nil => simp [jsonUnits]
    | cons w z => simp [jsonUnits, high]
  induction a using jsonUnits.induct with
  | case1 => exact first z
  | case2 w =>
    show jsonUnits (w :: u :: z) = jsonUnit w ++ (jsonUnit u ++ jsonUnits z)
    rw [jsonUnits, low, Bool.and_false, if_neg (by simp), first]
  | case3 w w' rest pair ih =>
    simp only [List.cons_append, jsonUnits, pair, if_true, ih]
  | case4 w w' rest single ih =>
    rw [List.cons_append] at ih
    simp only [List.cons_append, jsonUnits, single, if_false, ih, List.append_assoc, Bool.false_eq_true]

theorem setField_fresh {α : Type} {fields : List (JsString × α)} {key : JsString} (fresh : key ∉ fields.map Prod.fst)
    (x : α) : setField fields key x = fields ++ [(key, x)] := by
  have none : fields.any (·.1 = key) = false := by
    rw [List.any_eq_false]
    intro f member same
    exact fresh (List.mem_map.mpr ⟨f, member, of_decide_eq_true same⟩)
  rw [setField, none]
  rfl

theorem ownOrder_names {α : Type} {fields : List (JsString × α)} (names : ∀ f ∈ fields, indexOfKey f.1 = none) :
    ownOrder fields = fields := by
  have first : fields.filter (fun f => (indexOfKey f.1).isSome) = [] := by
    rw [List.filter_eq_nil_iff]
    intro f member
    simp [names f member]
  have rest : fields.filter (fun f => (indexOfKey f.1).isNone) = fields := by
    rw [List.filter_eq_self]
    intro f member
    simp [names f member]
  rw [ownOrder, first, rest, List.mergeSort_nil, List.nil_append]

def fixedKeys : List JsString :=
  ["timestamp", "level", "service", "environment", "version", "build", "event", "tenant", "actor", "subject",
    "correlation_id", "request_id", "result", "reason"].map js

theorem fixedKeys_facts : js "details" ∉ fixedKeys ∧ (∀ key ∈ js "details" :: fixedKeys, indexOfKey key = none) ∧
    js "details" ∉ reservedFields := by decide

/-- The record of a string ends with it, if the logger has no context. -/
theorem record_text (options : LoggerOptions) (method : Method) (timestamp event text : JsString) :
    record (⟨options, []⟩ : Logger ν) method timestamp event (.string text) =
      fixedFields ⟨options, []⟩ method timestamp event ++ [(js "details", .string text)] := by
  obtain ⟨fresh, names, free⟩ := fixedKeys_facts
  have keys : (fixedFields (⟨options, []⟩ : Logger ν) method timestamp event).map Prod.fst = fixedKeys := rfl
  have details : ownOrder (eventDetails (LogTree.string text : LogTree ν)) = [(js "details", .string text)] := by
    have kept : eventDetails (LogTree.string text : LogTree ν) = [(js "details", .string text)] := by simp [eventDetails, free]
    rw [kept, ownOrder_names]
    intro f member
    rw [List.mem_singleton.mp member]
    exact names _ List.mem_cons_self
  simp only [record, details, setFields, List.foldl_cons, List.foldl_nil]
  rw [setField_fresh (by rw [keys]; exact fresh), ownOrder_names]
  intro f member
  rcases List.mem_append.mp member with first | last
  · have known : f.1 ∈ fixedKeys := keys ▸ List.mem_map.mpr ⟨f, first, rfl⟩
    exact names f.1 (List.mem_cons_of_mem _ known)
  · rw [List.mem_singleton.mp last]
    exact names _ List.mem_cons_self

theorem join_append {ls : List JsString} (l sep : JsString) (some : ls ≠ []) :
    join (ls ++ [l]) sep = join ls sep ++ (sep ++ l) := by
  unfold join
  induction ls with
  | nil => exact absurd rfl some
  | cons first ls ih =>
    cases ls with
    | nil => simp [List.intercalate_cons_cons, List.intercalate_singleton]
    | cons second ls =>
      have rest := ih (List.cons_ne_nil second ls)
      simp only [List.cons_append] at rest
      simp only [List.cons_append, List.intercalate_cons_cons, rest, List.append_assoc]

attribute [local simp] jsonFields in
theorem jsonFields_append (num : Numbers ν) (fields : Fields ν) (key : JsString) (text : JsString) :
    jsonFields num (fields ++ [(key, .string text)]) = jsonFields num fields ++ [jsonString key ++ js ":" ++ jsonString text] := by
  induction fields with
  | nil => rfl
  | cons f fields ih =>
    obtain ⟨name, tree⟩ := f
    rw [List.cons_append, jsonFields, jsonFields, ih]
    cases tree.json num <;> rfl

theorem log_shows (num : Numbers ν) (options : LoggerOptions) (method : Method) (timestamp event : JsString) :
    ∃ a z : JsString, ∀ text, Logger.log num ⟨options, []⟩ method timestamp event (textDetails text) =
      some (method.stream, a ++ (jsonUnits (redactText text) ++ z)) := by
  let fixed := jsonFields num (fixedFields ⟨options, []⟩ method timestamp event)
  have some : fixed ≠ [] := by simp [fixed, fixedFields, jsonFields, LogTree.json]
  refine ⟨js "\x7b" ++ (join fixed (js ",") ++ (js "," ++ (jsonString (js "details") ++ (js ":" ++ js "\"")))),
    js "\"" ++ (js "\x7d" ++ js "\n"), fun text => ?_⟩
  have quoted : jsonString (redactText text) = js "\"" ++ jsonUnits (redactText text) ++ js "\"" := rfl
  rw [log_text num, record_text, recordText, jsonFields_append, join_append _ _ some, quoted]
  simp only [List.append_assoc, fixed]

/-- Every line with the secret in its event or in its details is the same for
all credentials. -/
def LineHides (i : InlineSecret) (p : JsString) : Prop :=
  ∀ (ν : Type) (num : Numbers ν) (logger : Logger ν) (method : Method) (timestamp : JsString) (v v' : JsString),
    IsCredential v → IsCredential v' →
      (∀ event, logger.log num method timestamp event (textDetails (p ++ i.text v)) =
        logger.log num method timestamp event (textDetails (p ++ i.text v'))) ∧
      ∀ details, logger.log num method timestamp (p ++ i.text v) details =
        logger.log num method timestamp (p ++ i.text v') details

theorem lineHides_iff (i : InlineSecret) (p : JsString) : LineHides i p ↔ i.Hidden (pending i.after p) := by
  constructor
  · intro hides
    by_contra shows
    obtain ⟨a, z, revealed⟩ := i.revealed p shows
    let num : Numbers Unit := ⟨fun _ => true, fun _ => []⟩
    obtain ⟨b, y, lines⟩ := log_shows num ⟨[], [], [], []⟩ .info [] []
    have same := (hides Unit num ⟨⟨[], [], [], []⟩, []⟩ .info [] [97] [98] (isCredential_singleton rfl)
      (isCredential_singleton rfl)).1 []
    rw [lines, lines, revealed 97 (by decide), revealed 98 (by decide), jsonUnits_append (by decide) (by decide),
      jsonUnits_append (by decide) (by decide)] at same
    have texts := (Prod.mk.inj (Option.some.inj same)).2
    simp only [List.append_assoc, List.append_cancel_left_eq] at texts
    exact absurd (List.append_inj_left texts rfl) (by decide)
  · intro hides ν num logger method timestamp v v' credential credential'
    obtain ⟨out, same⟩ := i.hidden p hides
    constructor
    · intro event
      rw [log_text num, log_text num, same v credential, same v' credential']
    · intro details
      simp only [Logger.log, record, fixedFields, same v credential, same v' credential']

/-- Loggers whose contexts differ only under sensitive keys write the same line
for details that do. -/
def SensitiveHidden : Prop :=
  ∀ (ν : Type) (num : Numbers ν) (options : LoggerOptions) (context context' : Graph ν) (children children' : List (Graph ν))
    (method : Method) (timestamp event : JsString) (details details' : Graph ν),
    Alike context context' → List.Forall₂ Alike children children' → Alike details details' →
      ∃ logger logger' line, loggerOf num options context children = some logger ∧
        loggerOf num options context' children' = some logger' ∧
        logger.log num method timestamp event details = some line ∧
        logger'.log num method timestamp event details' = some line

theorem sensitive_hidden : SensitiveHidden := by
  intro ν num options context context' children children' method timestamp event details details' alike later same
  have loggers : loggerOf num options context children = loggerOf num options context' children' := by
    rw [loggerOf, loggerOf, createLogger_alike num options alike]
    exact children_alike num later _
  obtain ⟨logger, made⟩ := loggerOf_total num options context children
  obtain ⟨line, written⟩ := log_total num logger method timestamp event details
  exact ⟨logger, logger, line, made, loggers ▸ made, written, log_alike num logger method timestamp event same ▸ written⟩

/-- What is stored under sensitive keys is never shown, and a secret in a text is
hidden just where what is open takes it along. -/
theorem log_secrecy_iff (i : InlineSecret) (p : JsString) :
    SensitiveHidden ∧ (LineHides i p ↔ i.Hidden (pending i.after p)) :=
  ⟨sensitive_hidden, lineHides_iff i p⟩

end

def tokenSecret (scheme gap : String) (isScheme : (js scheme = [] ∧ js gap = []) ∨ (lower (js scheme) ∈ schemes ∧ js gap ≠ []))
    (isGap : (js gap).all isWhiteSpace = true) : InlineSecret where
  keyword := js "token"
  sign := 61
  spaces := []
  scheme := js scheme
  gap := js gap
  after := js " x"
  isKeyword := by decide
  marks := by decide
  areSpaces := by simp
  isScheme := isScheme
  isGap := List.all_eq_true.mp isGap
  separates := ⟨32, [120], by decide +kernel, by decide⟩

/-- Behind a word, `token=abc` is hidden, whatever the credential. -/
example : LineHides (tokenSecret "" "" (.inl (by decide)) (by decide)) (js "user ") := by
  have free : pending (js " x") (js "user ") = .free := by decide
  rw [lineHides_iff]
  show InlineSecret.Hidden _ (pending (js " x") (js "user "))
  rw [free]
  show js "" = []
  decide

/-- `Bearer token=abc x`: the scheme word takes the keyword for its credential. -/
theorem bearer_token_shown : ¬ ∀ (i : InlineSecret) (p : JsString), LineHides i p := by
  intro hides
  have hidden := (lineHides_iff _ _).mp
    (hides (tokenSecret "" "" (.inl (by decide)) (by decide)) (js "Bearer "))
  have open_ : pending (js " x") (js "Bearer ") = .credential := by decide
  have none : js "" = [] := by decide
  change InlineSecret.Hidden _ (pending (js " x") (js "Bearer ")) at hidden
  rw [open_] at hidden
  exact hidden none

example : redactText (js "Bearer token=abc x, token=Bearer abc x") = js "[REDACTED]abc x, [REDACTED] abc x" := by
  decide +kernel

end GuloGulo.Runtime
