import GuloGulo.Lifecycle.PurgeBatch
import GuloGulo.Lifecycle.RetentionOutcomes

/-!
# Retention holds

What happens to a store is a sequence of calls on items, some of them made by
the callback of a batch, and of records that batches mark as purged. A hold
stays in the map of its item, whatever happens, until a call releases it; and
while it is there and not expired, no record of the item is marked.
-/

namespace GuloGulo.Lifecycle.Retention
open Js Data
open Eff (check wp ReadOnly)

inductive Happening where
  | call (call : ItemCall)
  /-- A batch marks a record of the item as purged. -/
  | purge (item : RetentionScope) (startedAt : Int)

/-- What happened, each with the store it happened to. -/
abbrev History := List (RetentionStore × Happening)

def callsHistory (cfg : RetentionConfig) : List ItemCall → RetentionStore → History
  | [], _ => []
  | call :: calls, s => (s, .call call) :: callsHistory cfg calls (call.run cfg s).2

/-- A round: the calls of the callback, and the purge if the adapter accepts the
item and the second look finds it due. -/
def turnHistory (ctx : BatchContext) (candidate : RetentionItem) (b : Batch) (s : RetentionStore) : History :=
  match ctx.ready s candidate, dateAt (ctx.startedAt + 30000) with
  | some e, .ok lease =>
    let (calls, answer) := ctx.answered b s e lease
    let (now, holds) := ctx.found b s e lease
    callsHistory ctx.cfg calls (ctx.lockStore s e lease) ++
      if answer.failure.isNone && isDue now holds ctx.startedAt then
        [(ctx.called b s e lease, .purge now.toRetentionScope ctx.startedAt)]
      else []
  | _, _ => []

def loopHistory (ctx : BatchContext) : List RetentionItem → Batch → RetentionStore → History
  | [], _, _ => []
  | candidate :: rest, b, s =>
    turnHistory ctx candidate b s ++
      match (turn ctx candidate b s).1 with
      | .ok b' => loopHistory ctx rest b' (turn ctx candidate b s).2
      | .error _ => []

def batchHistory (cfg : RetentionConfig) (call : BatchCall) (s : RetentionStore) : History :=
  match identifyBatch cfg call.env call.input, checkBatch cfg call with
  | .ok (key, limit), .ok startedAt =>
    if (s.batchResults.get key).isSome then []
    else
      let listed := candidates cfg s key.tenant key.user startedAt limit
      loopHistory (batchContext cfg call key startedAt) listed .empty (batchStore s listed.length)
  | _, _ => []

def Operation.history (cfg : RetentionConfig) (s : RetentionStore) : Operation → History
  | item call => [(s, .call call)]
  | batch call => batchHistory cfg call s

/-- What happens in the course of operations. -/
def history (cfg : RetentionConfig) : List Operation → RetentionStore → History
  | [], _ => []
  | operation :: operations, s => operation.history cfg s ++ history cfg operations (operation.after cfg s)

/-- A hold that expires, if at all, no earlier than another. -/
def Outlasts (expiry other : Option Int) : Prop := ∀ t, expiry = some t → ∃ u, other = some u ∧ u ≤ t

/-- The item has the hold, and it lasts at least as long as promised. -/
def Held (scope : RetentionScope) (holdId : JsString) (expiry : Option Int) (s : RetentionStore) : Prop :=
  ∃ e hold, s.records.get scope = some e ∧ e.holds.get holdId = some hold ∧ Outlasts hold.expiresAt expiry

/-- A call of `addHold` that returns, for this item, id and expiry. -/
def ItemCall.Adds (cfg : RetentionConfig) (s : RetentionStore) (call : ItemCall) (scope : RetentionScope)
    (holdId : JsString) (expiry : Option Int) : Prop :=
  call.method = .addHold ∧ (∃ output, (call.run cfg s).1 = .ok output) ∧
    ∃ q, (checkHold cfg call.env call.input s).1 = .ok q ∧ q.scope = scope ∧ q.holdId = holdId ∧ q.expiresAt = expiry

/-- A call of `releaseHold` for this item and id. -/
def Happening.Releases (scope : RetentionScope) (holdId : JsString) : Happening → Prop
  | call c => c.method = .releaseHold ∧ scopeOf c.input = .ok scope ∧
      assertOperationId (c.input.get "holdId") "holdId" = .ok holdId
  | purge .. => False

/-- The item has no hold of this id yet, or one that lasts at least as long. -/
def Unspent (s : RetentionStore) (scope : RetentionScope) (holdId : JsString) (expiry : Option Int) : Prop :=
  ∀ e hold, s.records.get scope = some e → e.holds.get holdId = some hold → Outlasts hold.expiresAt expiry

section
variable {cfg : RetentionConfig} {s s' s'' : RetentionStore} {scope : RetentionScope} {holdId : JsString}
  {expiry : Option Int}

theorem outlasts_refl (expiry : Option Int) : Outlasts expiry expiry := fun t h => ⟨t, h, Int.le_refl t⟩

theorem checkHoldRelease_identified {input : JsValue} {e : Entry}
    (h : (checkHoldRelease input s).1 = .ok (scope, holdId, e)) :
    scopeOf input = .ok scope ∧ assertOperationId (input.get "holdId") "holdId" = .ok holdId := by
  obtain ⟨_, hscope, h⟩ := Eff.check_bind_eq_ok h
  obtain ⟨_, hid, h⟩ := Eff.check_bind_eq_ok h
  obtain ⟨_, _, h⟩ := Eff.readOnly_bind_eq_ok Eff.readOnly_get h
  obtain ⟨_, _, h⟩ := Eff.check_bind_eq_ok h
  cases h
  exact ⟨hscope, hid⟩

/-- The entry a call puts has the holds of the one before, but for a hold that is released. -/
theorem change_holds {call : ItemCall} {entry e : Entry} {hold : Hold}
    (change : Change cfg call.env call.input s call.method scope entry) (present : s.records.get scope = some e)
    (held : e.holds.get holdId = some hold) (keeps : ¬ (Happening.call call).Releases scope holdId) :
    entry.holds.get holdId = some hold := by
  generalize hm : call.method = method at change
  cases change with
  | deleted key type deletedAt retentionUntil checked =>
    rw [trashed, present]
    exact held
  | restored _ e' date present' =>
    cases present.symm.trans present'
    exact held
  | held q createdAt checked fresh =>
    cases present.symm.trans (checkHold_ok checked)
    have other : q.holdId ≠ holdId := by
      rintro rfl
      rw [fresh] at held
      cases held
    rw [OrderedMap.get_set, if_neg other]
    exact held
  | released _ holdId' e' checked =>
    cases present.symm.trans (checkHoldRelease_ok checked)
    obtain ⟨hscope, hid⟩ := checkHoldRelease_identified checked
    have other : holdId' ≠ holdId := by
      rintro rfl
      exact keeps ⟨hm, hscope, hid⟩
    rw [OrderedMap.get_delete, if_neg (Ne.symm other)]
    exact held
  | locked _ e' lock present' =>
    cases present.symm.trans present'
    exact held
  | unlocked _ e' present' =>
    cases present.symm.trans present'
    exact held

theorem call_held (call : ItemCall) (held : Held scope holdId expiry s)
    (keeps : ¬ (Happening.call call).Releases scope holdId) : Held scope holdId expiry (call.run cfg s).2 := by
  obtain ⟨e, hold, present, hhold, outlasts⟩ := held
  have outcome := call_outcome cfg call s
  generalize (call.run cfg s).1 = r at outcome
  generalize (call.run cfg s).2 = s' at outcome
  have puts {k : RetentionScope} {entry : Entry} (change : Change cfg call.env call.input s call.method k entry)
      (puts : Puts s k entry s') : Held scope holdId expiry s' := by
    by_cases hk : scope = k
    · subst hk
      refine ⟨entry, hold, ?_, change_holds change present hhold keeps, outlasts⟩
      rw [puts.records, put_get, if_pos rfl]
    · refine ⟨e, hold, ?_, hhold, outlasts⟩
      rw [puts.records, put_get, if_neg hk, present]
  cases outcome with
  | refused | answered => exact ⟨e, hold, present, hhold, outlasts⟩
  | interrupted k entry _ _ change put => exact puts change put
  | done k entry _ _ change put => exact puts change put

/-- What `addHold` answers for: the hold is there, with its expiry or the one it had. -/
theorem addHold_held {env : Ambient} {input : JsValue} {q : HoldRequest}
    (checked : (checkHold cfg env input s).1 = .ok q) :
    wp (addHold cfg env input) s fun r s' => ∀ output, r = .ok output →
      ∃ e hold, s'.records.get q.scope = some e ∧ e.holds.get q.holdId = some hold ∧
        (hold.expiresAt = q.expiresAt ∨ (s' = s ∧ q.entry.holds.get q.holdId = some hold)) := by
  refine Eff.wp_readOnly_bind checkHold_readOnly (fun _ _ _ h => (nomatch h)) ?_
  intro q' checked'
  cases checked.symm.trans checked'
  have present := checkHold_ok checked
  dsimp only
  cases old : q.entry.holds.get q.holdId with
  | some hold =>
    intro output _
    exact ⟨q.entry, hold, present, old, .inr ⟨rfl, rfl⟩⟩
  | none =>
    refine Eff.wp_lift_bind.mpr ⟨fun _ _ _ h => (nomatch h), ?_⟩
    intro createdAt _
    refine wp_put_bind.mpr (wp_increment_bind.mpr (wp_increment_bind.mpr ?_))
    refine Eff.wp_check_bind.mpr ⟨fun _ _ _ h => (nomatch h), fun _ _ => ?_⟩
    refine Eff.wp_lift_bind.mpr ⟨fun _ _ _ h => (nomatch h), fun _ _ => ?_⟩
    intro output _
    refine ⟨_, _, (put_get ..).trans (if_pos rfl), (OrderedMap.get_set ..).trans (if_pos rfl), .inl rfl⟩

theorem adds_held {call : ItemCall} (adds : call.Adds cfg s scope holdId expiry)
    (unspent : Unspent s scope holdId expiry) : Held scope holdId expiry (call.run cfg s).2 := by
  obtain ⟨method, ⟨output, returns⟩, q, checked, rfl, rfl, rfl⟩ := adds
  have run : call.run cfg s = addHold cfg call.env call.input s := by rw [ItemCall.run, method]; rfl
  rw [run] at returns ⊢
  obtain ⟨e, hold, present, held, own | ⟨same, old⟩⟩ := addHold_held checked output returns
  · exact ⟨e, hold, present, held, own ▸ outlasts_refl _⟩
  · exact ⟨e, hold, present, held, unspent q.entry hold (checkHold_ok checked) old⟩

/-- An item with a hold that outlasts a moment has an active one then. -/
theorem held_active {startedAt : Int} (held : Held scope holdId expiry s)
    (before : ∀ t, expiry = some t → startedAt < t) :
    ∃ e, s.records.get scope = some e ∧ (activeHolds e.holds startedAt).isEmpty = false := by
  obtain ⟨e, hold, present, hhold, outlasts⟩ := held
  refine ⟨e, present, ?_⟩
  have active : hold ∈ activeHolds e.holds startedAt := by
    apply List.mem_filter.mpr
    refine ⟨OrderedMap.mem_values.mpr ⟨holdId, hhold⟩, ?_⟩
    cases expires : hold.expiresAt with
    | none => rfl
    | some t =>
      obtain ⟨u, hu, le⟩ := outlasts t expires
      have := before u hu
      simp only [Option.all_some, decide_eq_true_eq]
      omega
  cases hactive : activeHolds e.holds startedAt with
  | nil =>
    rw [hactive] at active
    cases active
  | cons => rfl

/-- The items have the same holds. -/
def SameHolds (s s' : RetentionStore) : Prop :=
  ∀ k, (s.records.get k).map (·.holds) = (s'.records.get k).map (·.holds)

/-- The history leads from one store to the other, calls as the code makes
them, no purge of an item with an active hold, and the holds untouched in between. -/
inductive Happens (cfg : RetentionConfig) : RetentionStore → History → RetentionStore → Prop where
  | nothing {s s' : RetentionStore} (same : SameHolds s s') : Happens cfg s [] s'
  | call {s t s' : RetentionStore} {h : History} (call : ItemCall) (same : SameHolds s t)
      (rest : Happens cfg (call.run cfg t).2 h s') : Happens cfg s ((t, .call call) :: h) s'
  | purge {s t s' : RetentionStore} {h : History} (item : RetentionScope) (startedAt : Int) (same : SameHolds s t)
      (free : ∀ e, t.records.get item = some e → (activeHolds e.holds startedAt).isEmpty)
      (rest : Happens cfg t h s') : Happens cfg s ((t, .purge item startedAt) :: h) s'

theorem sameHolds_refl (s : RetentionStore) : SameHolds s s := fun _ => rfl

theorem sameHolds_of_records (records : s'.records = s.records) : SameHolds s s' := fun k => by rw [records]

theorem sameHolds_trans (first : SameHolds s s') (second : SameHolds s' s'') : SameHolds s s'' :=
  fun k => (first k).trans (second k)

theorem held_same (same : SameHolds s s') (held : Held scope holdId expiry s) : Held scope holdId expiry s' := by
  obtain ⟨e, hold, present, hhold, outlasts⟩ := held
  have equal := same scope
  rw [present, Option.map_some] at equal
  obtain ⟨e', present', holds⟩ := Option.map_eq_some_iff.mp equal.symm
  exact ⟨e', hold, present', by rw [holds]; exact hhold, outlasts⟩

theorem happens_same {h : History} (same : SameHolds s s') (rest : Happens cfg s' h s'') : Happens cfg s h s'' := by
  cases rest with
  | nothing same' => exact .nothing (sameHolds_trans same same')
  | call c same' rest => exact .call c (sameHolds_trans same same') rest
  | purge item startedAt same' free rest => exact .purge item startedAt (sameHolds_trans same same') free rest

theorem happens_append {h h' : History} (first : Happens cfg s h s') (second : Happens cfg s' h' s'') :
    Happens cfg s (h ++ h') s'' := by
  induction first with
  | nothing same => exact happens_same same second
  | call c same _ ih => exact .call c same (ih second)
  | purge item startedAt same free _ ih => exact .purge item startedAt same free (ih second)

theorem happens_split {h h' : History} (happens : Happens cfg s (h ++ h') s'') :
    ∃ s', Happens cfg s h s' ∧ Happens cfg s' h' s'' := by
  induction h generalizing s with
  | nil => exact ⟨s, .nothing (sameHolds_refl s), happens⟩
  | cons x h ih =>
    cases happens with
    | call c same rest =>
      obtain ⟨s', first, second⟩ := ih rest
      exact ⟨s', .call c same first, second⟩
    | purge item startedAt same free rest =>
      obtain ⟨s', first, second⟩ := ih rest
      exact ⟨s', .purge item startedAt same free first, second⟩

/-- A hold stays until it is released. -/
theorem happens_held {h : History} (happens : Happens cfg s h s') (held : Held scope holdId expiry s)
    (keeps : ∀ x ∈ h, ¬ x.2.Releases scope holdId) : Held scope holdId expiry s' := by
  induction happens with
  | nothing same => exact held_same same held
  | call c same _ ih =>
    rw [List.forall_mem_cons] at keeps
    exact ih (call_held c (held_same same held) keeps.1) keeps.2
  | purge item startedAt same _ _ ih =>
    rw [List.forall_mem_cons] at keeps
    exact ih (held_same same held) keeps.2

theorem calls_happen (calls : List ItemCall) (s : RetentionStore) :
    Happens cfg s (callsHistory cfg calls s) (runCalls cfg calls s) := by
  induction calls generalizing s with
  | nil => exact .nothing (sameHolds_refl s)
  | cons call calls ih => exact .call call (sameHolds_refl s) (ih _)

theorem sameHolds_update (s : RetentionStore) (item : RecordItem) (f : RecordItem → RecordItem) :
    SameHolds s (s.update item f) := by
  intro k
  rw [update_get]
  split
  · rw [Option.map_map]
    rfl
  · rfl

theorem turn_happens {ctx : BatchContext} {c : RetentionItem} {b : Batch} (keyed : Keyed s) :
    Happens ctx.cfg s (turnHistory ctx c b s) (turn ctx c b s).2 := by
  have outcome : Turn ctx c b s (turn ctx c b s).1 (turn ctx c b s).2 := turn_outcome
  have throws (h : ¬ ∃ b', (turn ctx c b s).1 = .ok b') : ∃ e, dateAt (ctx.startedAt + 30000) = .error e := by
    cases lease : dateAt (ctx.startedAt + 30000) with
    | ok t => exact absurd (turn_returns (isOk_of_eq lease)) h
    | error e => exact ⟨e, rfl⟩
  generalize (turn ctx c b s).1 = r at outcome throws
  generalize (turn ctx c b s).2 = s' at outcome
  have called {e : Entry} {lease : Int} (hands : ctx.Hands c s e lease) :
      Happens ctx.cfg s (callsHistory ctx.cfg (ctx.answered b s e lease).1 (ctx.lockStore s e lease))
        (ctx.called b s e lease) := by
    refine happens_same ?_ (calls_happen _ _)
    intro k
    rw [lockStore_get keyed hands]
    split
    · rename_i hk
      rw [hk, (ready_present hands.ready).1]
      rfl
    · rfl
  unfold turnHistory
  cases outcome with
  | passed ready =>
    rw [ready]
    exact .nothing (sameHolds_refl s)
  | thrown e =>
    obtain ⟨e', lease⟩ := throws (by rintro ⟨b', h⟩; cases h)
    rw [lease]
    cases ctx.ready s c <;> exact .nothing (sameHolds_refl s)
  | failed e lease code event hands fails isFailure =>
    simp only [hands.ready, hands.lease, fails, Option.isNone_some, Bool.false_and, Bool.false_eq_true, ↓reduceIte,
      List.append_nil]
    have last : Happens ctx.cfg (ctx.called b s e lease) []
        ((((ctx.called b s e lease).increment .purgeFailures 1).record event).update (ctx.lockItem e lease) unlock) :=
      .nothing (sameHolds_update (((ctx.called b s e lease).increment .purgeFailures 1).record event) _ _)
    have whole := happens_append (called hands) last
    rwa [List.append_nil] at whole
  | changed e lease hands accepts notDue =>
    simp only [hands.ready, hands.lease, accepts, Option.isNone_none, notDue, Bool.and_false, Bool.false_eq_true,
      ↓reduceIte, List.append_nil]
    have last : Happens ctx.cfg (ctx.called b s e lease) [] ((ctx.called b s e lease).update (ctx.lockItem e lease) unlock) :=
      .nothing (sameHolds_update _ _ _)
    have whole := happens_append (called hands) last
    rwa [List.append_nil] at whole
  | purged e lease event hands accepts due isPurge =>
    simp only [hands.ready, hands.lease, accepts, Option.isNone_none, due, Bool.and_self, ↓reduceIte]
    refine happens_append (called hands) (.purge _ _ (sameHolds_refl _) ?_ (.nothing (sameHolds_update _ _ _)))
    intro e' present
    have keyed' := (called_called keyed hands b).keyed keyed
    have found : ctx.found b s e lease = (e'.referred (ctx.lockItem e lease), e'.holds) := by
      rw [BatchContext.found, RetentionStore.referred, ← (referred_identity keyed' (ctx.lockItem e lease)).1]
      rw [BatchContext.found] at present
      rw [present]
    rw [found] at due
    simp only [isDue, Bool.and_eq_true] at due
    exact due.2

theorem loop_happens (ctx : BatchContext) (cs : List RetentionItem) (b : Batch) (keyed : Keyed s) :
    Happens ctx.cfg s (loopHistory ctx cs b s) (purgeLoop ctx cs b s).2 := by
  induction cs generalizing b s with
  | nil => exact .nothing (sameHolds_refl s)
  | cons c cs ih =>
    have first : Happens ctx.cfg s (turnHistory ctx c b s) (turn ctx c b s).2 := turn_happens keyed
    have outcome : Turn ctx c b s (turn ctx c b s).1 (turn ctx c b s).2 := turn_outcome
    have keyed' := turn_keyed keyed outcome
    rw [loopHistory]
    change Happens ctx.cfg s _ (Eff.bind (turn ctx c b) (purgeLoop ctx cs) s).2
    unfold Eff.bind
    rcases hturn : turn ctx c b s with ⟨r, s₁⟩
    rw [hturn] at first keyed'
    cases r with
    | error e =>
      rw [List.append_nil]
      exact first
    | ok b₁ => exact happens_append first (ih b₁ keyed')

theorem batch_happens (call : BatchCall) (keyed : Keyed s) :
    Happens cfg s (batchHistory cfg call s) (runPurgeBatch cfg call s).2 := by
  have outcome : BatchOutcome cfg call s (runPurgeBatch cfg call s).1 (runPurgeBatch cfg call s).2 :=
    batch_outcome call
  generalize (runPurgeBatch cfg call s).1 = r at outcome
  generalize (runPurgeBatch cfg call s).2 = s' at outcome
  have looped {key : BatchKey} {limit : Nat} {startedAt : Int} (begins : Begins cfg call s key limit startedAt) :
      Happens cfg s (batchHistory cfg call s) (batchLoop cfg call s key limit startedAt).2 := by
    have start : Keyed (batchStore s (candidates cfg s key.tenant key.user startedAt limit).length) := keyed
    have loop : Happens cfg (batchStore s (candidates cfg s key.tenant key.user startedAt limit).length) _
        (batchLoop cfg call s key limit startedAt).2 :=
      loop_happens (batchContext cfg call key startedAt) (candidates cfg s key.tenant key.user startedAt limit) .empty
        start
    simp only [batchHistory, begins.identified, begins.checked, begins.fresh, Option.isSome_none, Bool.false_eq_true,
      ↓reduceIte]
    have same : SameHolds s (batchStore s (candidates cfg s key.tenant key.user startedAt limit).length) :=
      sameHolds_of_records rfl
    exact happens_same same loop
  have never (h : ∀ key limit startedAt, ¬ Begins cfg call s key limit startedAt) : batchHistory cfg call s = [] := by
    unfold batchHistory
    split
    · rename_i key limit startedAt identified checked
      split
      · rfl
      · rename_i stored
        exact absurd ⟨identified, by simpa using stored, checked⟩ (h key limit startedAt)
    · rfl
  have quiet {s₁ : RetentionStore} (first : Happens cfg s (batchHistory cfg call s) s₁)
      (records : s'.records = s₁.records) : Happens cfg s (batchHistory cfg call s) s' := by
    have whole := happens_append first (.nothing (sameHolds_of_records records))
    rwa [List.append_nil] at whole
  cases outcome with
  | refused e h =>
    rw [never h]
    exact .nothing (sameHolds_refl s)
  | replayed key limit prior identified stored =>
    rw [never]
    · exact .nothing (sameHolds_refl s)
    · intro key' limit' startedAt begins
      cases identified.symm.trans begins.identified
      cases stored.symm.trans begins.fresh
  | loopThrew key limit startedAt e s₁ begins loop =>
    have first := looped begins
    rw [loop] at first
    exact first
  | clockThrew key limit startedAt e b s₁ begins loop =>
    have first := looped begins
    rw [loop] at first
    exact quiet first rfl
  | completed key limit startedAt b s₁ output _ begins loop clock started noted counts same =>
    have first := looped begins
    rw [loop] at first
    exact quiet first same.records

theorem operation_happens (operation : Operation) (keyed : Keyed s) :
    Happens cfg s (operation.history cfg s) (operation.after cfg s) := by
  cases operation with
  | item call => exact .call call (sameHolds_refl s) (.nothing (sameHolds_refl _))
  | batch call => exact batch_happens call keyed

theorem operation_keyed (operation : Operation) (keyed : Keyed s) : Keyed (operation.after cfg s) := by
  cases operation with
  | item call => exact call_keyed cfg call keyed
  | batch call => exact runPurgeBatch_keyed call keyed

theorem history_happens (operations : List Operation) (keyed : Keyed s) :
    ∃ s', Happens cfg s (history cfg operations s) s' := by
  induction operations generalizing s with
  | nil => exact ⟨s, .nothing (sameHolds_refl s)⟩
  | cons operation operations ih =>
    obtain ⟨s', rest⟩ := ih (operation_keyed operation keyed)
    exact ⟨s', happens_append (operation_happens operation keyed) rest⟩

/-- Once a call of `addHold` has returned, for an id the item has no hold of that
expires earlier, no batch that starts before the hold's expiry purges a record
of the item, until the hold is released. -/
theorem addHold_honoured {operations : List Operation} {past between later : History} {s t : RetentionStore}
    {call : ItemCall} {scope : RetentionScope} {holdId : JsString} {expiry : Option Int} {startedAt : Int}
    (run : history cfg operations .empty =
      past ++ (s, .call call) :: (between ++ (t, .purge scope startedAt) :: later))
    (adds : call.Adds cfg s scope holdId expiry) (unspent : Unspent s scope holdId expiry)
    (kept : ∀ x ∈ between, ¬ x.2.Releases scope holdId) : ∃ e, expiry = some e ∧ e ≤ startedAt := by
  have empty : Keyed .empty := fun _ _ h => nomatch h
  obtain ⟨s', happens⟩ := history_happens operations empty
  rw [run] at happens
  obtain ⟨s₁, _, happens⟩ := happens_split happens
  cases happens with
  | call _ _ rest =>
    obtain ⟨s₂, middle, last⟩ := happens_split rest
    have held := happens_held middle (adds_held adds unspent) kept
    cases last with
    | purge _ _ same free _ =>
      by_contra none
      have before : ∀ u, expiry = some u → startedAt < u := by
        intro u hu
        by_contra late
        exact none ⟨u, hu, by omega⟩
      obtain ⟨e, present, active⟩ := held_active (held_same same held) before
      rw [free e present] at active
      cases active

end

/-- A hold `h1` on the message, placed on one day and expiring on another. -/
def holdMessage (day expires : Int) : ItemCall where
  env := sampleEnv day
  method := .addHold
  argument := .object ([("tenantId", "acme"), ("userId", "alice"), ("itemId", "m1"), ("holdId", "h1"),
    ("reasonCode", "legal")].map (fun f => (js f.1, JsValue.string (js f.2))) ++
      [(js "expiresAt", .date (some (expires * msPerDay)))])

/-- The stores in which the message is deleted, and was held from day 0 until day 10. -/
def onceHeld : RetentionStore := ((holdMessage 0 10).run sampleRetention sampleStore).2

/-- The message is deleted on day 0, with a hold on the same day and another one
later, each with its expiry. A batch on day 28 follows. -/
def holdTwice (day first second : Int) : List Operation :=
  [.item (deleteMessage 0 "d1"), .item (holdMessage 0 first), .item (holdMessage day second), .batch (purgeMessages [])]

/-- What a purge says, of a history. -/
def History.marks (h : History) : List (Option (RetentionScope × Int)) :=
  h.map fun x => match x.2 with
    | .purge item startedAt => some (item, startedAt)
    | .call _ => none

theorem purge_of_marks {h : History} {item : RetentionScope} {startedAt : Int}
    (marks : h.marks = [some (item, startedAt)]) : ∃ t, h = [(t, .purge item startedAt)] := by
  match h with
  | [] => cases marks
  | _ :: _ :: _ =>
    have length := congrArg List.length marks
    simp [History.marks] at length
  | [(t, .call c)] => cases marks
  | [(t, .purge item' startedAt')] =>
    obtain ⟨rfl, rfl⟩ := Prod.mk.inj (Option.some.inj (List.cons.inj marks).1)
    exact ⟨t, rfl⟩

/-- What a hold of the message answers for, by evaluation. -/
theorem holdMessage_adds {s : RetentionStore} {day expires : Int}
    (facts : (((holdMessage day expires).run sampleRetention s).1.isOk,
      (checkHold sampleRetention (holdMessage day expires).env (holdMessage day expires).input s).1.toOption.map
        fun q => (q.scope, q.holdId, q.expiresAt)) = (true, some (sampleMessage, js "h1", some (expires * msPerDay)))) :
    (holdMessage day expires).Adds sampleRetention s sampleMessage (js "h1") (some (expires * msPerDay)) := by
  obtain ⟨returns, checked⟩ := Prod.mk.inj facts
  refine ⟨rfl, eq_ok_of_toBool returns, ?_⟩
  cases hq : (checkHold sampleRetention (holdMessage day expires).env (holdMessage day expires).input s).1 with
  | error e =>
    rw [hq] at checked
    cases checked
  | ok q =>
    rw [hq] at checked
    obtain ⟨scope, rest⟩ := Prod.mk.inj (Option.some.inj checked)
    obtain ⟨holdId, expiry⟩ := Prod.mk.inj rest
    exact ⟨q, rfl, scope, holdId, expiry⟩

/-- The batch on day 28 purges the message, whatever the second hold says. -/
theorem holdTwice_purges : ∃ t, history sampleRetention (holdTwice 20 10 100) .empty =
    [(.empty, .call (deleteMessage 0 "d1")), (sampleStore, .call (holdMessage 0 10)),
      (onceHeld, .call (holdMessage 20 100)), (t, .purge sampleMessage (28 * msPerDay))] := by
  have marks : (batchHistory sampleRetention (purgeMessages [])
      ((holdMessage 20 100).run sampleRetention onceHeld).2).marks = [some (sampleMessage, 28 * msPerDay)] := by
    decide +kernel
  obtain ⟨t, purges⟩ := purge_of_marks marks
  refine ⟨t, ?_⟩
  change _ :: _ :: _ :: (batchHistory sampleRetention (purgeMessages [])
    ((holdMessage 20 100).run sampleRetention onceHeld).2 ++ []) = _
  rw [purges]
  rfl

/-- The hold expires on day 10; placed again on day 20 until day 100, it is
answered for, and the batch on day 28 purges the message. -/
theorem addHold_spent :
    ∃ past s between t later, history sampleRetention (holdTwice 20 10 100) .empty =
        past ++ (s, .call (holdMessage 20 100)) :: (between ++ (t, .purge sampleMessage (28 * msPerDay)) :: later) ∧
      (holdMessage 20 100).Adds sampleRetention s sampleMessage (js "h1") (some (100 * msPerDay)) ∧
      (∀ x ∈ between, ¬ x.2.Releases sampleMessage (js "h1")) := by
  obtain ⟨t, run⟩ := holdTwice_purges
  refine ⟨[_, _], _, [], t, [], run, ?_, by simp⟩
  exact holdMessage_adds (by decide +kernel)

/-- The first hold of the same run, which has expired when the batch starts. -/
theorem addHold_honoured_alice :
    ∃ past s between t later, history sampleRetention (holdTwice 20 10 100) .empty =
        past ++ (s, .call (holdMessage 0 10)) :: (between ++ (t, .purge sampleMessage (28 * msPerDay)) :: later) ∧
      ∃ e, some (10 * msPerDay) = some e ∧ e ≤ 28 * msPerDay := by
  obtain ⟨t, run⟩ := holdTwice_purges
  refine ⟨[_], sampleStore, [_], t, [], run, ?_⟩
  have adds : (holdMessage 0 10).Adds sampleRetention sampleStore sampleMessage (js "h1") (some (10 * msPerDay)) :=
    holdMessage_adds (by decide +kernel)
  have split : history sampleRetention (holdTwice 20 10 100) .empty = [(.empty, .call (deleteMessage 0 "d1"))] ++
      (sampleStore, .call (holdMessage 0 10)) :: ([(onceHeld, .call (holdMessage 20 100))] ++
        (t, .purge sampleMessage (28 * msPerDay)) :: []) := run
  apply addHold_honoured split adds
  · intro e hold present held
    have fresh : ((sampleStore.records.get sampleMessage).bind fun e => e.holds.get (js "h1")).isNone := by
      decide +kernel
    rw [present, Option.bind_some, held] at fresh
    cases fresh
  · intro x hx released
    cases List.mem_singleton.mp hx
    cases released.1

end GuloGulo.Lifecycle.Retention
