import GuloGulo.Data.Rounds
import GuloGulo.Lifecycle.PurgeBatch

/-!
# Batch after batch

A batch takes the first items in the order of their dates, and an item whose
adapter fails stays in its place. Whether the others come to be purged depends
on how many of them stand before.
-/

namespace GuloGulo.Lifecycle.Retention
open Js Data
open Eff (check wp)

/-- The order of the candidates is one. -/
structure Collates (host : Host) : Prop where
  total : ∀ a b, host.localeLe a b ∨ host.localeLe b a
  trans : ∀ a b c, host.localeLe a b → host.localeLe b c → host.localeLe a c

section
variable {host : Host} (collates : Collates host)
include collates

theorem candidateLe_total (l r : Entry) : candidateLe host l r ∨ candidateLe host r l := by
  have dates := collates.total ((l.item.retentionUntil.map isoString).getD [])
    ((r.item.retentionUntil.map isoString).getD [])
  have texts := collates.total l.item.text r.item.text
  simp only [candidateLe]
  grind

theorem candidateLe_trans (a b c : Entry) (first : candidateLe host a b) (second : candidateLe host b c) :
    candidateLe host a c := by
  have trans := collates.trans
  have dates := trans ((a.item.retentionUntil.map isoString).getD []) ((b.item.retentionUntil.map isoString).getD [])
    ((c.item.retentionUntil.map isoString).getD [])
  have back := trans ((c.item.retentionUntil.map isoString).getD []) ((b.item.retentionUntil.map isoString).getD [])
    ((a.item.retentionUntil.map isoString).getD [])
  have ab := trans ((b.item.retentionUntil.map isoString).getD []) ((c.item.retentionUntil.map isoString).getD [])
    ((a.item.retentionUntil.map isoString).getD [])
  have cb := trans ((c.item.retentionUntil.map isoString).getD []) ((a.item.retentionUntil.map isoString).getD [])
    ((b.item.retentionUntil.map isoString).getD [])
  have texts := trans a.item.text b.item.text c.item.text
  simp only [candidateLe] at first second ⊢
  grind

end

/-- The candidates of a batch without a limit, in the order they are taken. -/
def line (cfg : RetentionConfig) (s : RetentionStore) (tenant user : Option JsString) (asOf : Int) : List Entry :=
  (s.records.values.filter (isCandidate tenant user asOf)).insertionSort fun l r => candidateLe cfg.host l r

def Entry.scope (e : Entry) : RetentionScope := e.item.toRetentionScope

def scopes (cfg : RetentionConfig) (s : RetentionStore) (tenant user : Option JsString) (asOf : Int) :
    List RetentionScope := (line cfg s tenant user asOf).map Entry.scope

/-- The item is stored as purged. -/
def IsPurged (s : RetentionStore) (scope : RetentionScope) : Prop :=
  ∃ e, s.records.get scope = some e ∧ e.item.state = .purged

section
variable {cfg : RetentionConfig} {s : RetentionStore} {tenant user : Option JsString} {asOf : Int} {limit : Nat}

theorem mem_line {e : Entry} :
    e ∈ line cfg s tenant user asOf ↔ e ∈ s.records.values ∧ isCandidate tenant user asOf e := by
  rw [line, List.mem_insertionSort, List.mem_filter]

theorem candidates_line :
    candidates cfg s tenant user asOf limit =
      ((line cfg s tenant user asOf).take limit).map fun e => publicItem e.item e.holds := rfl

theorem values_scope (keyed : Keyed s) {e : Entry} (member : e ∈ s.records.values) :
    s.records.get e.scope = some e := by
  obtain ⟨scope, stored⟩ := OrderedMap.mem_values.mp member
  rw [Entry.scope, (keyed scope e stored).1]
  exact stored

theorem values_nodup (keyed : Keyed s) : (s.records.values.map Entry.scope).Nodup := by
  have scopes : s.records.values.map Entry.scope = s.records.keys := by
    rw [OrderedMap.values, OrderedMap.keys, List.map_map]
    apply List.map_congr_left
    rintro ⟨scope, e⟩ h
    exact (keyed scope e (OrderedMap.mem_rows.mp h)).1
  rw [scopes]
  exact s.records.nodup

theorem scopes_nodup (keyed : Keyed s) : (scopes cfg s tenant user asOf).Nodup := by
  have perm := List.perm_insertionSort (fun l r => candidateLe cfg.host l r)
    (s.records.values.filter (isCandidate tenant user asOf))
  have sublist := (List.filter_sublist (p := isCandidate tenant user asOf) (l := s.records.values)).map Entry.scope
  exact (perm.map Entry.scope).nodup_iff.mpr ((values_nodup keyed).sublist sublist)

end

/-- The adapter fails on some items, succeeds on all others, and makes no calls
on the store. -/
def Adapter (fails : RetentionScope → Bool) (callback : Option Callback) : Prop :=
  match callback with
  | some callback => ∀ n item s, (callback n item s).1 = [] ∧
      (callback n item s).2.failure.isSome = fails item.toRetentionScope
  | none => ∀ scope, fails scope = false

namespace BatchContext

/-- What becomes of an entry that is taken. -/
def settle (ctx : BatchContext) (fails : RetentionScope → Bool) (lease : Int) (e : Entry) : Entry :=
  Entry.update { e with item := ctx.lockItem e lease } e.item.generation
    (if fails e.scope then unlock else purgeAt ctx.startedAt)

variable {ctx : BatchContext} {fails : RetentionScope → Bool} {lease : Int}

theorem settle_item (e : Entry) : (ctx.settle fails lease e).item =
    if fails e.scope then unlock (ctx.lockItem e lease) else purgeAt ctx.startedAt (ctx.lockItem e lease) := by
  rw [settle, update_item, if_pos (show (ctx.lockItem e lease).generation = e.item.generation from rfl)]
  split <;> rfl

@[simp] theorem settle_scope (e : Entry) : (ctx.settle fails lease e).scope = e.scope := by
  rw [Entry.scope, settle_item]
  split <;> rfl

theorem settle_due (e : Entry) : (ctx.settle fails lease e).item.retentionUntil = e.item.retentionUntil := by
  rw [settle_item]
  split <;> rfl

theorem settle_candidate {tenant user : Option JsString} {asOf : Int} {e : Entry}
    (candidate : isCandidate tenant user asOf e) : isCandidate tenant user asOf (ctx.settle fails lease e) = fails e.scope := by
  have held : (ctx.settle fails lease e).holds = e.holds := rfl
  simp only [isCandidate, isDue, Bool.and_eq_true] at candidate
  simp only [isCandidate, isDue, settle_item, held]
  by_cases fail : fails e.scope
  · simp only [fail, if_true, unlock, lockItem, locked, Option.any_none, Bool.not_false, candidate.1.1.1,
      candidate.1.1.2, candidate.1.2.1.1, candidate.1.2.1.2, candidate.1.2.2, Bool.and_self]
  · simp only [fail, if_false, purgeAt, Bool.false_eq_true]
    simp

theorem settle_state (e : Entry) :
    (ctx.settle fails lease e).item.state = if fails e.scope then e.item.state else .purged := by
  rw [settle_item]
  split <;> rfl

end BatchContext

section
variable {ctx : BatchContext} {fails : RetentionScope → Bool} {lease : Int} {s : RetentionStore} {b : Batch}
  {c : RetentionItem} {e : Entry}

theorem answered_adapter (adapter : Adapter fails ctx.callback) :
    (ctx.answered b s e lease).1 = [] ∧ (ctx.answered b s e lease).2.failure.isSome = fails e.scope := by
  unfold BatchContext.answered BatchContext.answer
  unfold Adapter at adapter
  cases callback : ctx.callback with
  | none =>
    rw [callback] at adapter
    exact ⟨rfl, (adapter e.scope).symm⟩
  | some callback' =>
    rw [callback] at adapter
    exact adapter _ _ _

theorem called_adapter (adapter : Adapter fails ctx.callback) : ctx.called b s e lease = ctx.lockStore s e lease := by
  rw [BatchContext.called, (answered_adapter adapter).1]
  rfl

/-- The stored entry is the one that is referred to. -/
theorem lockStore_referred (keyed : Keyed s) (hands : ctx.Hands c s e lease) :
    (ctx.lockStore s e lease).referred (ctx.lockItem e lease) = (ctx.lockItem e lease, e.holds) := by
  have own := (keyed _ e (ready_present hands.ready).1).1
  have stored := lockStore_get keyed hands c.toRetentionScope
  rw [if_pos rfl] at stored
  have scope : (ctx.lockItem e lease).toRetentionScope = c.toRetentionScope := own
  rw [RetentionStore.referred, scope, stored]
  show (Entry.referred _ _, _) = _
  rw [Entry.referred]
  have self : RecordItem.isGeneration (ctx.lockItem e lease).generation (ctx.lockItem e lease) := by
    simp [RecordItem.isGeneration]
  rw [List.find?_cons_of_pos self]
  rfl

theorem lockStore_keys (keyed : Keyed s) (hands : ctx.Hands c s e lease) :
    (ctx.lockStore s e lease).records.keys = s.records.keys := by
  have present := (ready_present hands.ready).1
  have own : e.item.toRetentionScope = c.toRetentionScope := (keyed _ e present).1
  show (s.records.set e.item.toRetentionScope _).keys = _
  rw [own]
  exact OrderedMap.keys_set_present present _

/-- A store in which the items of some scopes are settled. -/
structure Settles (ctx : BatchContext) (fails : RetentionScope → Bool) (lease : Int) (taken : List RetentionScope)
    (s s' : RetentionStore) : Prop where
  keys : s'.records.keys = s.records.keys
  get : ∀ k, s'.records.get k =
    if k ∈ taken then (s.records.get k).map (ctx.settle fails lease) else s.records.get k

theorem lockStore_update (keyed : Keyed s) (hands : ctx.Hands c s e lease) (f : RecordItem → RecordItem)
    (settles : f = if fails e.scope then unlock else purgeAt ctx.startedAt) {s' : RetentionStore}
    (same : s'.records = ((ctx.lockStore s e lease).update (ctx.lockItem e lease) f).records) :
    Settles ctx fails lease [c.toRetentionScope] s s' := by
  obtain ⟨present, _⟩ := ready_present hands.ready
  have own : e.item.toRetentionScope = c.toRetentionScope := (keyed _ e present).1
  constructor
  · rw [same, RetentionStore.update, OrderedMap.keys_adjust, lockStore_keys keyed hands]
  · intro k
    rw [same, update_get, lockStore_get keyed hands]
    have scope : (ctx.lockItem e lease).toRetentionScope = c.toRetentionScope := own
    rw [scope]
    simp only [List.mem_singleton]
    by_cases here : k = c.toRetentionScope
    · rw [if_pos here, if_pos here, if_pos here, here, present]
      simp only [Option.map_some, BatchContext.settle, settles]
      rfl
    · rw [if_neg here, if_neg here, if_neg here]

theorem turn_settles (keyed : Keyed s) (adapter : Adapter fails ctx.callback) (ready : ctx.ready s c = some e)
    (hlease : dateAt (ctx.startedAt + 30000) = .ok lease) :
    ∃ b' s', turn ctx c b s = (.ok b', s') ∧ Settles ctx fails lease [c.toRetentionScope] s s' := by
  obtain ⟨b', returns⟩ : ∃ b', (turn ctx c b s).1 = .ok b' := turn_returns (isOk_of_eq hlease)
  refine ⟨b', (turn ctx c b s).2, Prod.ext returns rfl, ?_⟩
  have outcome : Turn ctx c b s (turn ctx c b s).1 (turn ctx c b s).2 := turn_outcome
  rw [returns] at outcome
  generalize (turn ctx c b s).2 = s' at outcome
  cases outcome with
  | passed none => cases ready.symm.trans none
  | failed e₁ lease₁ code event hands code_ =>
    cases ready.symm.trans hands.ready
    cases hlease.symm.trans hands.lease
    have fail : (ctx.answered b s e lease).2.failure.isSome = fails e.scope := (answered_adapter adapter).2
    rw [code_] at fail
    rw [called_adapter adapter]
    apply lockStore_update keyed hands unlock
    · rw [← fail]
      rfl
    · rfl
  | changed e₁ lease₁ hands accepts notDue =>
    cases ready.symm.trans hands.ready
    cases hlease.symm.trans hands.lease
    rw [BatchContext.found, called_adapter adapter, lockStore_referred keyed hands] at notDue
    have due : isDue e.item e.holds ctx.startedAt := (ready_present ready).2.1
    exact absurd (show isDue e.item e.holds ctx.startedAt = false from notDue) (by simp [due])
  | purged e₁ lease₁ event hands accepts due =>
    cases ready.symm.trans hands.ready
    cases hlease.symm.trans hands.lease
    have fail : (ctx.answered b s e lease).2.failure.isSome = fails e.scope := (answered_adapter adapter).2
    rw [accepts] at fail
    rw [called_adapter adapter]
    apply lockStore_update keyed hands (purgeAt ctx.startedAt)
    · rw [← fail]
      rfl
    · rfl

theorem settles_refl (ctx : BatchContext) (fails : RetentionScope → Bool) (lease : Int) (s : RetentionStore) :
    Settles ctx fails lease [] s s := ⟨rfl, fun _ => rfl⟩

theorem settles_trans {k : RetentionScope} {taken : List RetentionScope} {s₁ s₂ : RetentionStore} (other : k ∉ taken)
    (first : Settles ctx fails lease [k] s s₁) (second : Settles ctx fails lease taken s₁ s₂) :
    Settles ctx fails lease (k :: taken) s s₂ := by
  refine ⟨second.keys.trans first.keys, fun j => ?_⟩
  rw [second.get, first.get]
  simp only [List.mem_cons, List.not_mem_nil, or_false]
  by_cases same : j = k
  · subst same
    rw [if_neg other, if_pos rfl, if_pos (.inl rfl)]
  · by_cases later : j ∈ taken
    · rw [if_pos later, if_neg same, if_pos (.inr later)]
    · rw [if_neg later, if_neg same, if_neg (by simp [same, later])]

theorem loop_settles {cs : List RetentionItem} (keyed : Keyed s) (adapter : Adapter fails ctx.callback)
    (distinct : (cs.map (·.toRetentionScope)).Nodup) (ready : ∀ c ∈ cs, (ctx.ready s c).isSome)
    (hlease : dateAt (ctx.startedAt + 30000) = .ok lease) :
    ∃ b' s', purgeLoop ctx cs b s = (.ok b', s') ∧
      Settles ctx fails lease (cs.map (·.toRetentionScope)) s s' := by
  induction cs generalizing b s with
  | nil => exact ⟨b, s, rfl, settles_refl ctx fails lease s⟩
  | cons c cs ih =>
    obtain ⟨fresh, distinct⟩ := List.nodup_cons.mp distinct
    obtain ⟨e, hready⟩ := Option.isSome_iff_exists.mp (ready c List.mem_cons_self)
    obtain ⟨b₁, s₁, turned, settles⟩ := turn_settles (b := b) keyed adapter hready hlease
    have keyed₁ : Keyed s₁ := by
      have outcome : Turn ctx c b s (turn ctx c b s).1 (turn ctx c b s).2 := turn_outcome
      rw [turned] at outcome
      exact turn_keyed keyed outcome
    have ready₁ : ∀ d ∈ cs, (ctx.ready s₁ d).isSome := by
      intro d hd
      have still := ready d (List.mem_cons_of_mem c hd)
      have other : d.toRetentionScope ∉ [c.toRetentionScope] := by
        rw [List.mem_singleton]
        intro same
        exact fresh (List.mem_map.mpr ⟨d, hd, same⟩)
      rw [BatchContext.ready] at still ⊢
      rw [settles.get, if_neg other]
      exact still
    obtain ⟨b₂, s₂, looped, settles'⟩ := ih (b := b₁) keyed₁ distinct ready₁
    refine ⟨b₂, s₂, ?_, settles_trans fresh settles settles'⟩
    show Eff.bind (turn ctx c b) (purgeLoop ctx cs) s = _
    rw [Eff.bind, turned]
    exact looped

end

section
variable {cfg : RetentionConfig} {s s' : RetentionStore} {call : BatchCall} {key : BatchKey} {limit : Nat}
  {startedAt lease : Int} {fails : RetentionScope → Bool}

/-- What a batch takes. -/
def taken (cfg : RetentionConfig) (s : RetentionStore) (key : BatchKey) (startedAt : Int) (limit : Nat) :
    List RetentionScope := (scopes cfg s key.tenant key.user startedAt).take limit

theorem candidates_scopes : (candidates cfg s key.tenant key.user startedAt limit).map (·.toRetentionScope) =
    taken cfg s key startedAt limit := by
  rw [candidates_line, taken, scopes, List.map_map, ← List.map_take]
  rfl

theorem batch_settles (keyed : Keyed s) (begins : Begins cfg call s key limit startedAt)
    (adapter : Adapter fails call.callback) (hlease : dateAt (startedAt + 30000) = .ok lease) :
    Settles (batchContext cfg call key startedAt) fails lease (taken cfg s key startedAt limit) s
      (runPurgeBatch cfg call s).2 := by
  have outcome : BatchOutcome cfg call s (runPurgeBatch cfg call s).1 (runPurgeBatch cfg call s).2 :=
    batch_outcome call
  obtain ⟨b, s₁, loop, settles⟩ : ∃ b s₁, batchLoop cfg call s key limit startedAt = (.ok b, s₁) ∧
      Settles (batchContext cfg call key startedAt) fails lease (taken cfg s key startedAt limit) s s₁ := by
    have keyed' : Keyed (batchStore s (candidates cfg s key.tenant key.user startedAt limit).length) := keyed
    have ready : ∀ c ∈ candidates cfg s key.tenant key.user startedAt limit,
        ((batchContext cfg call key startedAt).ready
          (batchStore s (candidates cfg s key.tenant key.user startedAt limit).length) c).isSome :=
      fun c member => Option.isSome_iff_exists.mpr (candidates_ready keyed rfl member)
    obtain ⟨b, s₁, loop, settles⟩ := loop_settles (b := .empty) keyed' adapter (candidates_nodup keyed) ready hlease
    rw [candidates_scopes] at settles
    exact ⟨b, s₁, loop, settles.keys, settles.get⟩
  generalize (runPurgeBatch cfg call s).1 = r at outcome
  generalize (runPurgeBatch cfg call s).2 = s' at outcome
  cases outcome with
  | refused e never => exact absurd begins (never key limit startedAt)
  | replayed key' limit' prior identified stored =>
    cases begins.identified.symm.trans identified
    cases begins.fresh.symm.trans stored
  | loopThrew key' limit' startedAt' e s₂ begins' loop' =>
    cases begins.identified.symm.trans begins'.identified
    cases begins.checked.symm.trans begins'.checked
    cases loop.symm.trans loop'
  | clockThrew key' limit' startedAt' e b' s₂ begins' loop' =>
    cases begins.identified.symm.trans begins'.identified
    cases begins.checked.symm.trans begins'.checked
    cases loop.symm.trans loop'
    exact ⟨settles.keys, settles.get⟩
  | completed key' limit' startedAt' b' s₂ output s₃ begins' loop' _ _ _ _ quiet =>
    cases begins.identified.symm.trans begins'.identified
    cases begins.checked.symm.trans begins'.checked
    cases loop.symm.trans loop'
    refine ⟨?_, fun k => ?_⟩
    · rw [quiet.records]
      exact settles.keys
    · rw [quiet.records]
      exact settles.get k

section
variable {ctx : BatchContext} {ks : List RetentionScope}

theorem settles_values (keyed : Keyed s) (settles : Settles ctx fails lease ks s s') :
    s'.records.values = s.records.values.map fun e => if e.scope ∈ ks then ctx.settle fails lease e else e := by
  apply OrderedMap.values_map settles.keys
  intro k
  rw [settles.get]
  cases stored : s.records.get k with
  | none => split <;> rfl
  | some e =>
    have own : e.scope = k := (keyed k e stored).1
    rw [Option.map_some, Option.map_some, own]
    split <;> rfl

theorem isPurged_settles (settles : Settles ctx fails lease ks s s') (stored : ∀ k ∈ ks, (s.records.get k).isSome)
    (keyed : Keyed s) (k : RetentionScope) : IsPurged s' k ↔ IsPurged s k ∨ (k ∈ ks ∧ fails k = false) := by
  by_cases looked : k ∈ ks
  · obtain ⟨e, present⟩ := Option.isSome_iff_exists.mp (stored k looked)
    have own : e.scope = k := (keyed k e present).1
    have present' : s'.records.get k = some (ctx.settle fails lease e) := by
      rw [settles.get, if_pos looked, present]
      rfl
    simp only [IsPurged, present, present', Option.some.injEq, exists_eq_left', BatchContext.settle_state, own, looked,
      true_and]
    cases fails k <;> simp
  · have same : s'.records.get k = s.records.get k := by rw [settles.get, if_neg looked]
    simp only [IsPurged, same, looked, false_and, or_false]

/-- The candidates that stay are those the batch has not purged. -/
theorem scopes_settles {tenant user : Option JsString} {asOf : Int} (collates : Collates cfg.host) (keyed : Keyed s)
    (settles : Settles ctx fails lease ((scopes cfg s tenant user asOf).take limit) s s') :
    scopes cfg s' tenant user asOf = Rounds.next limit fails (scopes cfg s tenant user asOf) := by
  let ks := (scopes cfg s tenant user asOf).take limit
  let g (e : Entry) : Entry := if e.scope ∈ ks then ctx.settle fails lease e else e
  let keep (k : RetentionScope) : Bool := !(decide (k ∈ ks) && !fails k)
  have scope (e : Entry) : (g e).scope = e.scope := by
    show Entry.scope (if _ then _ else _) = _
    split
    · exact BatchContext.settle_scope e
    · rfl
  have date (e : Entry) : (g e).item.retentionUntil = e.item.retentionUntil := by
    show (Entry.item (if _ then _ else _)).retentionUntil = _
    split
    · exact BatchContext.settle_due e
    · rfl
  have selected (e : Entry) (member : e ∈ s.records.values) :
      isCandidate tenant user asOf (g e) = (isCandidate tenant user asOf e && keep e.scope) := by
    show isCandidate tenant user asOf (if _ then _ else _) = (_ && !(decide (e.scope ∈ ks) && !fails e.scope))
    by_cases looked : e.scope ∈ ks
    · obtain ⟨e', inLine, same⟩ := List.mem_map.mp (List.mem_of_mem_take looked)
      obtain ⟨member', candidate⟩ := mem_line.mp inLine
      have : e' = e := by
        have stored := values_scope keyed member
        rw [← same, values_scope keyed member'] at stored
        exact Option.some.inj stored
      subst this
      rw [if_pos looked, BatchContext.settle_candidate candidate, candidate]
      simp [looked]
    · rw [if_neg looked]
      simp [looked]
  have order (a : Entry) (_ : a ∈ (s.records.values.filter (isCandidate tenant user asOf)).filter (keep ∘ Entry.scope))
      (b : Entry) (_ : b ∈ (s.records.values.filter (isCandidate tenant user asOf)).filter (keep ∘ Entry.scope)) :
      candidateLe cfg.host a b ↔ candidateLe cfg.host (g a) (g b) := by
    have text (e : Entry) : (g e).item.text = e.item.text := by
      show (g e).item.toRetentionScope.text = e.item.toRetentionScope.text
      exact congrArg RetentionScope.text (scope e)
    simp only [candidateLe, date, text]
  have filtered : s'.records.values.filter (isCandidate tenant user asOf) =
      ((s.records.values.filter (isCandidate tenant user asOf)).filter (keep ∘ Entry.scope)).map g := by
    rw [settles_values keyed settles, List.filter_map, List.filter_filter]
    congr 1
    apply List.filter_congr
    intro e member
    rw [Function.comp_apply, selected e member, Bool.and_comm]
    rfl
  have sorted : line cfg s' tenant user asOf = ((line cfg s tenant user asOf).filter (keep ∘ Entry.scope)).map g := by
    rw [line, filtered, ← List.map_insertionSort (fun l r => candidateLe cfg.host l r)
      (fun l r => candidateLe cfg.host l r) g _ order, line, Rounds.filter_insertionSort (candidateLe_total collates)
        (candidateLe_trans collates)]
  rw [Rounds.next_eq_filter (scopes_nodup keyed), scopes, sorted, List.map_map, scopes, List.filter_map]
  apply List.map_congr_left
  intro e _
  exact scope e

end

end

def afterBatches (cfg : RetentionConfig) (calls : List BatchCall) (s : RetentionStore) : RetentionStore :=
  calls.foldl (fun s call => (runPurgeBatch cfg call s).2) s

/-- Batches over the same items, each with an operation id that is new, the same
`startedAt` and the same limit, whose adapter fails on the same items. -/
def Repeats (cfg : RetentionConfig) (tenant user : Option JsString) (limit : Nat) (startedAt : Int)
    (fails : RetentionScope → Bool) : List BatchCall → RetentionStore → Prop
  | [], _ => True
  | call :: calls, s =>
    (∃ key, key.tenant = tenant ∧ key.user = user ∧ Begins cfg call s key limit startedAt) ∧
      Adapter fails call.callback ∧
      Repeats cfg tenant user limit startedAt fails calls (runPurgeBatch cfg call s).2

section
variable {cfg : RetentionConfig} {s : RetentionStore} {calls : List BatchCall} {tenant user : Option JsString}
  {limit : Nat} {startedAt lease : Int} {fails : RetentionScope → Bool}

theorem taken_stored (keyed : Keyed s) {k : RetentionScope}
    (member : k ∈ (scopes cfg s tenant user startedAt).take limit) : (s.records.get k).isSome := by
  obtain ⟨e, inLine, rfl⟩ := List.mem_map.mp (List.mem_of_mem_take member)
  rw [values_scope keyed (mem_line.mp inLine).1]
  rfl

/-- What is purged in the end was purged in one of the batches. -/
theorem isPurged_afterBatches (collates : Collates cfg.host) (keyed : Keyed s)
    (hlease : dateAt (startedAt + 30000) = .ok lease)
    (repeats : Repeats cfg tenant user limit startedAt fails calls s) (k : RetentionScope) :
    IsPurged (afterBatches cfg calls s) k ↔
      IsPurged s k ∨
        ∃ n < calls.length, Rounds.LeavesAt limit fails (scopes cfg s tenant user startedAt) n k := by
  induction calls generalizing s with
  | nil => simp [afterBatches]
  | cons call calls ih =>
    obtain ⟨⟨key, rfl, rfl, begins⟩, adapter, repeats⟩ := repeats
    have settles := batch_settles keyed begins adapter hlease
    have keyed' : Keyed (runPurgeBatch cfg call s).2 := runPurgeBatch_keyed call keyed
    have now := isPurged_settles settles (fun k => taken_stored keyed) keyed k
    have line := scopes_settles collates keyed settles
    show IsPurged (afterBatches cfg calls (runPurgeBatch cfg call s).2) k ↔ _
    rw [ih keyed' repeats, now, line, or_assoc]
    apply or_congr_right
    constructor
    · rintro (first | ⟨n, within, later⟩)
      · exact ⟨0, Nat.succ_pos _, first⟩
      · exact ⟨n + 1, Nat.succ_lt_succ within, later⟩
    · rintro ⟨n | n, within, leaves⟩
      · exact .inl leaves
      · exact .inr ⟨n, Nat.lt_of_succ_lt_succ within, leaves⟩

theorem candidate_not_purged (keyed : Keyed s) {k : RetentionScope}
    (member : k ∈ scopes cfg s tenant user startedAt) : ¬ IsPurged s k := by
  obtain ⟨e, inLine, rfl⟩ := List.mem_map.mp member
  obtain ⟨stored, candidate⟩ := mem_line.mp inLine
  rintro ⟨e', present, purged⟩
  cases (values_scope keyed stored).symm.trans present
  simp [isCandidate, isDue, purged] at candidate

/-- In as many batches as there are candidates, or more, an item whose adapter
succeeds comes to be purged just if less failing ones stand before it than a
batch takes. -/
theorem purged_iff (reachable : Reachable cfg s) (collates : Collates cfg.host) (inTime : (dateAt (startedAt + 30000)).isOk)
    (repeats : Repeats cfg tenant user limit startedAt fails calls s)
    (enough : (scopes cfg s tenant user startedAt).length ≤ calls.length) {k : RetentionScope}
    (candidate : k ∈ scopes cfg s tenant user startedAt) (succeeds : fails k = false) :
    IsPurged (afterBatches cfg calls s) k ↔
      (Rounds.ahead fails (scopes cfg s tenant user startedAt) k).length < limit := by
  have keyed := reachable_keyed reachable
  obtain ⟨lease, hlease⟩ := eq_ok_of_toBool inTime
  rw [isPurged_afterBatches collates keyed hlease repeats, or_iff_right (candidate_not_purged keyed candidate)]
  exact Rounds.leaves_iff candidate succeeds enough

end

theorem asciiHost_collates : Collates asciiHost where
  total a b := by
    simp only [asciiHost, decide_eq_true_eq]
    exact List.le_total a b
  trans a b c := by
    simp only [asciiHost, decide_eq_true_eq]
    exact List.le_trans

/-- A message of `alice` is deleted on day 0. -/
def deleteOne (item : String) : ItemCall where
  env := sampleEnv 0
  method := .markDeleted
  argument := .object ([("tenantId", "acme"), ("userId", "alice"), ("itemId", item), ("resourceType", "mail"),
    ("idempotencyKey", item)].map fun f => (js f.1, .string (js f.2)))

/-- A batch of one item on day 28, with an adapter that rejects one item. -/
def purgeOne (operationId rejected : String) : BatchCall where
  env := sampleEnv 28
  argument := .object [(js "workerId", .string (js "w1")), (js "operationId", .string (js operationId)),
    (js "limit", .number 1)]
  given := .callable
  configured := false
  behaviour := fun _ item _ => ([], if item.itemId == js rejected then .returnsFalse else .accepts)

def twoMessages : RetentionStore :=
  ((deleteOne "m2").run sampleRetention ((deleteOne "m1").run sampleRetention .empty).2).2

theorem twoMessages_reachable : Reachable sampleRetention twoMessages := .item (.item .created _) _

def isItem (item : String) (scope : RetentionScope) : Bool := scope.itemId == js item

theorem purgeOne_adapter (operationId rejected : String) :
    Adapter (isItem rejected) (purgeOne operationId rejected).callback := by
  intro n item s
  refine ⟨rfl, ?_⟩
  show (AdapterAnswer.failure (if item.itemId == js rejected then _ else _)).isSome = (item.itemId == js rejected)
  cases item.itemId == js rejected <;> rfl

theorem purgeOne_begins {operationId rejected : String} {s : RetentionStore}
    (identified : identifyBatch sampleRetention (purgeOne operationId rejected).env (purgeOne operationId rejected).input =
      .ok (⟨js "w1", none, none, js operationId⟩, 1))
    (fresh : (s.batchResults.get ⟨js "w1", none, none, js operationId⟩).isNone) :
    ∃ key : BatchKey, key.tenant = none ∧ key.user = none ∧
      Begins sampleRetention (purgeOne operationId rejected) s key 1 (28 * msPerDay) :=
  ⟨_, rfl, rfl, identified, Option.isNone_iff_eq_none.mp fresh, rfl⟩

/-- Two batches of one item each. -/
theorem purgeOne_repeats {rejected : String}
    (fresh : ((runPurgeBatch sampleRetention (purgeOne "b1" rejected) twoMessages).2.batchResults.get
      ⟨js "w1", none, none, js "b2"⟩).isNone) :
    Repeats sampleRetention none none 1 (28 * msPerDay) (isItem rejected)
      [purgeOne "b1" rejected, purgeOne "b2" rejected] twoMessages :=
  ⟨purgeOne_begins rfl (by decide), purgeOne_adapter _ _, purgeOne_begins rfl fresh, purgeOne_adapter _ _, trivial⟩

/-- The first message fails, and the second is never tried. -/
theorem failing_item_blocks : ¬ ∀ (cfg : RetentionConfig) (s : RetentionStore) (calls : List BatchCall)
    (tenant user : Option JsString) (limit : Nat) (startedAt : Int) (fails : RetentionScope → Bool) (k : RetentionScope),
    Reachable cfg s → Collates cfg.host → (dateAt (startedAt + 30000)).isOk →
      Repeats cfg tenant user limit startedAt fails calls s →
      (scopes cfg s tenant user startedAt).length ≤ calls.length → k ∈ scopes cfg s tenant user startedAt →
      fails k = false → IsPurged (afterBatches cfg calls s) k := by
  intro always
  obtain ⟨e, stored, purged⟩ := always sampleRetention twoMessages [purgeOne "b1" "m1", purgeOne "b2" "m1"] none none 1
    (28 * msPerDay) (isItem "m1") ⟨js "acme", js "alice", js "m2"⟩ twoMessages_reachable asciiHost_collates rfl
    (purgeOne_repeats (by decide)) (by decide) (by decide) (by decide)
  have trashed : ((afterBatches sampleRetention [purgeOne "b1" "m1", purgeOne "b2" "m1"] twoMessages).records.get
      ⟨js "acme", js "alice", js "m2"⟩).map (fun e => e.item.state) = some .trashed := by decide
  rw [stored, Option.map_some, purged] at trashed
  cases trashed

/-- The second message fails, and the first is purged. -/
theorem purged_iff_alice :
    IsPurged (afterBatches sampleRetention [purgeOne "b1" "m2", purgeOne "b2" "m2"] twoMessages)
      ⟨js "acme", js "alice", js "m1"⟩ :=
  (purged_iff twoMessages_reachable asciiHost_collates rfl (purgeOne_repeats (by decide)) (by decide)
    (by decide) (by decide)).mpr (by decide)

end GuloGulo.Lifecycle.Retention
