import GuloGulo.Secrets.Mutations

/-!
# What a call knows when it writes

A call follows whether it holds the lock and what it has read since. It may
rename a new state onto the old one only with both, and once: the rules here
show it of every program of the store, whatever it is answered.
-/

namespace GuloGulo.Secrets
open Js Sql

/-- The active version of what `active.json` holds, if it is there. -/
def IsActive (reference : JsString) (contents : Option (Option JsValue)) (version : Option JsString) : Prop :=
  contents.map (fun c => (parseState c reference).map ActiveStateFile.activeVersion) = version.map .ok

def Mutation.Expects (expected : Option JsString) : Mutation → Prop
  | rotate _ options => readExpected (options.get "expectedVersion") = .ok expected
  | rollback options => (assertSecretVersion (options.get "expectedCurrentVersion")).map some = .ok expected

/-- What `after` is to what was read: the version that was active is the one
before it, and it is another version or the one before that. -/
structure Follows (reference : JsString) (before : Option (Option JsValue)) (expected : Option JsString)
    (after : Option JsValue) : Prop where
  active : IsActive reference before expected
  next : ∃ s, parseState after reference = .ok s ∧ s.previousVersion = expected ∧
    (some s.activeVersion ≠ expected ∨
      ∃ c r, before = some c ∧ parseState c reference = .ok r ∧ r.previousVersion = some s.activeVersion)

structure Knowledge where
  holding : Bool
  /-- `active.json` as it was read under the lock. -/
  read : Option (Option (Option JsValue))
  committed : Bool

def Knowledge.nothing : Knowledge := ⟨false, none, false⟩

def Knowledge.after (k : Knowledge) : (op : Operation) → op.Answer → Knowledge
  | .openExclusive .lock, .ok _ => { k with holding := true }
  | .unlink .lock, .ok _ => { k with holding := false, read := none }
  | .readFile .state, .ok contents => { k with read := some (some contents) }
  | .readFile .state, .error .enoent => { k with read := some none }
  | .rename _, .ok _ => { k with read := none, committed := true }
  | _, _ => k

/-- Whether the operation may be done by a call that knows this. -/
def Knowledge.Allows (reference : JsString) (mutation : Mutation) (k : Knowledge) : Operation → Prop
  | .rename after => k.holding = true ∧ k.committed = false ∧ ∃ before expected,
      k.read = some before ∧ mutation.Expects expected ∧ Follows reference before expected after
  | .readFile .state => k.holding = true
  | .openExclusive .state | .write .state _ _ | .unlink .state => False
  | _ => True

/-- Any answer that some directory gives, to what may be asked. -/
def knowing (reference : JsString) (mutation : Mutation) : Environment Operation.Answer Knowledge where
  step k op r k' := (∃ d d', Answers Operation.mayFail d op r d') ∧ k' = k.after op r
  may k op := k.Allows reference mutation op

section
variable {reference : JsString} {mutation : Mutation} {k : Knowledge} {o : NormalizedOptions} {α β : Type}

/-- Operations that tell a call nothing and that it may always do. -/
def Operation.Neutral : Operation → Prop
  | .openExclusive .lock | .unlink .lock | .readFile .state | .rename _ => False
  | .openExclusive .state | .write .state _ _ | .unlink .state => False
  | _ => True

attribute [local simp] Knowledge.after in
theorem Knowledge.after_neutral {op : Operation} (h : op.Neutral) (k : Knowledge) (r : op.Answer) : k.after op r = k := by
  unfold Knowledge.after
  split
  · exact h.elim
  · exact h.elim
  · exact h.elim
  · exact h.elim
  · exact h.elim
  · rfl

attribute [local simp] Knowledge.Allows in
theorem Knowledge.allows_neutral {op : Operation} (h : op.Neutral) (k : Knowledge) : k.Allows reference mutation op := by
  unfold Knowledge.Allows
  split
  · exact h.elim
  · exact h.elim
  · exact h.elim
  · exact h.elim
  · exact h.elim
  · trivial

theorem neutral_wp {p : Call α} (only : p.Only Operation.Neutral) : p.wp (knowing reference mutation) (fun _ k' => k' = k)
    (fun _ k' => k' = k) k := by
  refine only.keeps ?_ rfl
  rintro k' op neutral rfl
  exact ⟨k'.allows_neutral neutral, fun r k'' step => step.2.trans (k'.after_neutral neutral r)⟩

/-- Operations that a call may do after its rename. -/
def Operation.Later : Operation → Prop
  | .readFile .state | .rename _ | .openExclusive .state | .write .state _ _ | .unlink .state => False
  | _ => True

theorem Knowledge.committed_after {op : Operation} (h : op.Later) (k : Knowledge) (r : op.Answer) :
    (k.after op r).committed = k.committed := by
  unfold Knowledge.after
  split
  · rfl
  · rfl
  · rfl
  · rfl
  · exact h.elim
  · rfl

theorem Knowledge.allows_later {op : Operation} (h : op.Later) (k : Knowledge) : k.Allows reference mutation op := by
  unfold Knowledge.Allows
  split
  · exact h.elim
  · exact h.elim
  · exact h.elim
  · exact h.elim
  · exact h.elim
  · trivial

theorem later_wp {p : Call α} (only : p.Only Operation.Later) : p.wp (knowing reference mutation)
    (fun _ k' => k'.committed = k.committed) (fun _ k' => k'.committed = k.committed) k := by
  refine only.keeps ?_ rfl
  intro k' op later committed
  refine ⟨k'.allows_later later, fun r k'' step => ?_⟩
  rw [step.2, k'.committed_after later]
  exact committed

theorem neutral_bind {p : Call α} {f : α → Call β} {ok : β → Knowledge → Prop} (only : p.Only Operation.Neutral)
    (rest : ∀ a, (f a).wp (knowing reference mutation) ok (fun _ _ => True) k) :
    (p >>= f).wp (knowing reference mutation) ok (fun _ _ => True) k := by
  refine Program.wp_bind.mpr (Program.wp_mono (neutral_wp only) ?_ fun _ _ _ => trivial)
  rintro a k' rfl
  exact rest a

/-- Nothing has been read and nothing written. -/
structure Knowledge.Fresh (k : Knowledge) : Prop where
  read : k.read = none
  committed : k.committed = false

theorem Knowledge.fresh_after {op : Operation} (h : op.Locking) {k : Knowledge} (fresh : k.Fresh) (r : op.Answer) :
    (k.after op r).Fresh := by
  unfold Knowledge.after
  split
  · exact ⟨fresh.read, fresh.committed⟩
  · exact ⟨rfl, fresh.committed⟩
  · exact h.elim
  · exact h.elim
  · exact h.elim
  · exact fresh

theorem locking_wp {p : Call α} (only : p.Only Operation.Locking) (fresh : k.Fresh) :
    p.wp (knowing reference mutation) (fun _ => Knowledge.Fresh) (fun _ => Knowledge.Fresh) k := by
  refine only.keeps ?_ fresh
  intro k' op locking fresh
  refine ⟨?_, ?_⟩
  · show k'.Allows reference mutation op
    unfold Knowledge.Allows
    split
    · exact locking.elim
    · exact locking.elim
    · exact locking.elim
    · exact locking.elim
    · exact locking.elim
    · trivial
  · rintro r _ ⟨_, rfl⟩
    exact Knowledge.fresh_after locking fresh r

theorem neutral_opened {handle : Nat} {token : JsString} : (writeOpened .lock handle token).Only Operation.Neutral :=
  only_writeOpened trivial trivial trivial

theorem neutral_value {op : Operation} {version : JsString} {contents : List UInt8}
    (h : op.Writes (.value version) contents) : op.Neutral := by
  rcases h with rfl | ⟨_, rfl⟩ | rfl | rfl <;> trivial

theorem neutral_metadata {op : Operation} {version : JsString} {contents : Option JsValue}
    (h : op.Writes (.metadata version) contents) : op.Neutral := by
  rcases h with rfl | ⟨_, rfl⟩ | rfl | rfl <;> trivial

theorem later_prunes {op : Operation} {kept : List JsString} (h : op.Prunes kept) : op.Later := by
  cases op with
  | readFile path | openExclusive path | write path | unlink path => cases path <;> trivial
  | rename => exact h.elim
  | _ => trivial

theorem later_locking {op : Operation} (h : op.Locking) : op.Later := by
  cases op with
  | readFile path | openExclusive path | write path | unlink path => cases path <;> trivial
  | rename => exact h.elim
  | _ => trivial

/-- With the lock file opened the call holds the lock. -/
def Knowledge.Locked (k : Knowledge) : Prop := k.Fresh ∧ k.holding = true

theorem openLock_wp {token : JsString} (fresh : k.Fresh) : (openLock token).wp (knowing reference mutation)
    (fun _ => Knowledge.Locked) (fun _ => Knowledge.Fresh) k := by
  refine Program.wp_bind.mpr (wp_call.mpr ⟨trivial, ?_⟩)
  rintro r _ ⟨_, rfl⟩
  cases r with
  | error e => exact ⟨nofun, fun _ _ => fresh⟩
  | ok handle =>
    refine ⟨fun handle _ => ?_, nofun⟩
    refine Program.wp_bind.mpr (Program.wp_mono (neutral_wp neutral_opened) ?_ ?_)
    · rintro _ k' rfl
      exact ⟨⟨fresh.read, fresh.committed⟩, rfl⟩
    · rintro _ k' rfl
      exact ⟨fresh.read, fresh.committed⟩

theorem lockAttempt_wp {attempt : Nat} {last : Bool} {next : Call JsString}
    (rest : ∀ k : Knowledge, k.Fresh → next.wp (knowing reference mutation) (fun _ => Knowledge.Locked) (fun _ _ => True) k)
    (fresh : k.Fresh) : (lockAttempt o attempt last next).wp (knowing reference mutation) (fun _ => Knowledge.Locked)
      (fun _ _ => True) k := by
  refine neutral_bind (only_call trivial) fun now => ?_
  refine neutral_bind (only_toISOString _) fun time => ?_
  refine neutral_bind (only_call trivial) fun id => ?_
  refine Program.wp_tryCatch.mpr (Program.wp_mono (openLock_wp fresh) (fun _ _ locked => locked) fun e k fresh => ?_)
  by_cases other : e ≠ .eexist
  · rw [if_pos other]
    trivial
  · rw [if_neg other]
    have again (stale : Bool) {k : Knowledge} (fresh : k.Fresh) : (if stale then next
        else if last then throwCode .rotationLockTimeout
        else do
          call (.sleep (min 1000 (o.retryBaseMs * Nat.pow 2 attempt)))
          next).wp (knowing reference mutation) (fun _ => Knowledge.Locked) (fun _ _ => True) k := by
      split
      · exact rest k fresh
      · split
        · trivial
        · exact neutral_bind (only_call trivial) fun _ => rest k fresh
    refine Program.wp_bind.mpr (Program.wp_tryCatch.mpr (Program.wp_mono
      (locking_wp (only_removeStale fun _ h => h) fresh) (fun stale k fresh => again stale fresh) fun e k fresh => ?_))
    split
    · exact again true fresh
    · trivial

theorem acquireLock_wp : (acquireLock o).wp (knowing reference mutation) (fun _ => Knowledge.Locked) (fun _ _ => True)
    .nothing := by
  refine neutral_bind (only_call trivial) fun _ => ?_
  have attempts (left attempt : Nat) {k : Knowledge} (fresh : k.Fresh) : (acquireFrom o left attempt).wp
      (knowing reference mutation) (fun _ => Knowledge.Locked) (fun _ _ => True) k := by
    induction left generalizing attempt k with
    | zero => exact lockAttempt_wp (fun _ _ => trivial) fresh
    | succ left ih => exact lockAttempt_wp (fun _ fresh => ih _ fresh) fresh
  exact attempts _ _ ⟨rfl, rfl⟩

/-- What has been read under the lock is what the call takes for the state. -/
def Knowledge.Knows (reference : JsString) (current : Option ActiveStateFile) (k : Knowledge) : Prop :=
  k.holding = true ∧ k.committed = false ∧
    ∃ before, k.read = some before ∧ before.map (fun c => parseState c reference) = current.map .ok

theorem retryState_wp (left attempt : Nat) (locked : k.holding = true ∧ k.committed = false) :
    (retryFrom o (call (.readFile .state)) left attempt).wp (knowing reference mutation)
      (fun contents k' => (k'.holding = true ∧ k'.committed = false) ∧ k'.read = some (some contents))
      (fun e k' => (k'.holding = true ∧ k'.committed = false) ∧ (e = .enoent → k'.read = some none)) k := by
  have reading {k : Knowledge} (locked : k.holding = true ∧ k.committed = false) :
      (call (.readFile .state)).wp (knowing reference mutation)
        (fun contents k' => (k'.holding = true ∧ k'.committed = false) ∧ k'.read = some (some contents))
        (fun e k' => (k'.holding = true ∧ k'.committed = false) ∧ (e = .enoent → k'.read = some none)) k := by
    refine wp_call.mpr ⟨locked.1, ?_⟩
    rintro r _ ⟨_, rfl⟩
    cases r with
    | ok contents =>
      refine ⟨fun _ same => ?_, nofun⟩
      cases same
      exact ⟨locked, rfl⟩
    | error e =>
      refine ⟨nofun, fun _ same => ?_⟩
      cases same
      cases e with
      | enoent => exact ⟨locked, fun _ => rfl⟩
      | _ => exact ⟨locked, nofun⟩
  induction left generalizing attempt k with
  | zero => exact reading locked
  | succ left ih =>
    refine Program.wp_tryCatch.mpr (Program.wp_mono (reading locked) (fun _ _ h => h) fun e k h => ?_)
    by_cases transient : e = .transient
    · rw [if_pos transient]
      refine Program.wp_bind.mpr (wp_call.mpr ⟨trivial, ?_⟩)
      rintro r _ ⟨⟨d, d', answers⟩, rfl⟩
      refine ⟨fun _ _ => ih _ h.1, fun e' failed => ⟨h.1, ?_⟩⟩
      subst failed
      cases answers with
      | fails can =>
        rintro rfl
        exact absurd rfl (not_enoent_of_mayFail (.inl can))
    · rw [if_neg transient]
      exact h

theorem readState_wp (locked : k.holding = true ∧ k.committed = false) : (readState o reference).wp
    (knowing reference mutation) (fun current => Knowledge.Knows reference current) (fun _ _ => True) k := by
  refine wp_whenMissing.mpr (Program.wp_bind.mpr (Program.wp_mono (retryState_wp _ _ locked) ?_ ?_))
  · rintro contents k' ⟨locked, read⟩
    refine Program.wp_bind.mpr (wp_checked.mpr ⟨fun state valid => ?_, fun _ _ => ⟨nofun, fun _ => trivial⟩⟩)
    refine ⟨locked.1, locked.2, _, read, ?_⟩
    exact congrArg some valid
  · rintro e k' ⟨locked, absent⟩
    refine ⟨fun same => ?_, fun _ => trivial⟩
    exact ⟨locked.1, locked.2, none, absent same, rfl⟩

theorem Knowledge.Knows.isActive {current : Option ActiveStateFile} {before : Option (Option JsValue)}
    (h : before.map (fun c => parseState c reference) = current.map .ok) :
    IsActive reference before (current.map ActiveStateFile.activeVersion) := by
  have active := congrArg (Option.map (Except.map ActiveStateFile.activeVersion)) h
  rw [Option.map_map, Option.map_map] at active
  rw [IsActive, Option.map_map]
  exact active

theorem Knowledge.Knows.valid {s : ActiveStateFile} (h : k.Knows reference (some s)) :
    secretVersionPattern s.activeVersion = true := by
  obtain ⟨_, _, before, _, found⟩ := h
  obtain ⟨_, _, valid⟩ := Option.map_eq_some_iff.mp found
  exact (parseState_valid valid).1

theorem writeAtomic_knows {current : Option ActiveStateFile} {state : ActiveStateFile} {expected : Option JsString}
    (expects : mutation.Expects expected) (knows : k.Knows reference current)
    (isExpected : current.map ActiveStateFile.activeVersion = expected)
    (parsed : parseState (some (stateRecord reference state)) reference = .ok state) (previous : state.previousVersion = expected)
    (next : some state.activeVersion ≠ expected ∨ ∃ s, current = some s ∧ s.previousVersion = some state.activeVersion) :
    (writeAtomic (some (stateRecord reference state))).wp (knowing reference mutation) (fun _ k' => k'.committed = true)
      (fun _ _ => True) k := by
  obtain ⟨holding, uncommitted, before, read, found⟩ := knows
  refine neutral_bind (only_call trivial) fun id => ?_
  refine neutral_bind (only_call trivial) fun _ => ?_
  refine neutral_bind (Program.only_andFinally (Program.only_bind (only_call trivial) fun _ => only_call trivial)
    (only_call trivial)) fun _ => ?_
  refine Program.wp_tryCatch.mpr (wp_call.mpr ⟨⟨holding, uncommitted, before, expected, read, expects, ?_⟩, ?_⟩)
  · refine ⟨isExpected ▸ Knowledge.Knows.isActive found, state, parsed, previous, next.imp_right ?_⟩
    rintro ⟨s, rfl, was⟩
    obtain ⟨c, there, valid⟩ := Option.map_eq_some_iff.mp found
    exact ⟨c, s, there, valid, was⟩
  · rintro r _ ⟨_, rfl⟩
    cases r with
    | ok => exact ⟨fun _ _ => rfl, nofun⟩
    | error e =>
      refine ⟨nofun, fun e _ => ?_⟩
      exact neutral_bind (only_ignored (only_call trivial)) fun _ => trivial

/-- Once it is written a state stays written. -/
theorem committed_bind {p : Call α} {f : α → Call β} {ok : β → Knowledge → Prop} (only : p.Only Operation.Later)
    (committed : k.committed = true)
    (rest : ∀ a (k' : Knowledge), k'.committed = true → (f a).wp (knowing reference mutation) ok (fun _ _ => True) k') :
    (p >>= f).wp (knowing reference mutation) ok (fun _ _ => True) k := by
  refine Program.wp_bind.mpr (Program.wp_mono (later_wp only) ?_ fun _ _ _ => trivial)
  exact fun a k' same => rest a k' (same.trans committed)

theorem neutral_checkChanged (current : Option ActiveStateFile) (candidate : JsString) :
    (checkChanged o current candidate).Only Operation.Neutral := by
  cases current with
  | none => trivial
  | some state =>
    exact Program.only_bind (only_readValue trivial trivial fun _ => trivial) fun _ => only_refuse _ _

theorem rotateHolding_knows {host : Host} {candidate : JsString} {expectedVersion correlationId : Option JsString}
    {expiresAt : Int} (expects : mutation.Expects expectedVersion) (locked : k.holding = true ∧ k.committed = false) :
    (rotateHolding o host reference candidate expectedVersion correlationId expiresAt).wp (knowing reference mutation)
      (fun _ k' => k'.committed = true) (fun _ _ => True) k := by
  refine Program.wp_bind.mpr (Program.wp_mono (readState_wp locked) ?_ fun _ _ _ => trivial)
  intro current k knows
  refine Program.wp_bind.mpr (wp_refuse.mpr ⟨fun same => ?_, fun _ => trivial⟩)
  have isExpected : current.map ActiveStateFile.activeVersion = expectedVersion := by simpa using same
  refine neutral_bind (neutral_checkChanged _ _) fun _ => ?_
  refine neutral_bind (only_call trivial) fun now => ?_
  refine neutral_bind (only_toISOString _) fun occurredAt => ?_
  refine neutral_bind (only_call trivial) fun generated => ?_
  refine Program.wp_bind.mpr (wp_checked.mpr ⟨fun version valid => ?_, fun _ _ => trivial⟩)
  refine Program.wp_bind.mpr (wp_refuse.mpr ⟨fun fresh => ?_, fun _ => trivial⟩)
  have fresh : current.map ActiveStateFile.activeVersion ≠ some version := of_decide_eq_false fresh
  refine neutral_bind (only_call trivial) fun _ => ?_
  refine neutral_bind (only_writeExclusive fun op h => neutral_value h) fun _ => ?_
  refine neutral_bind (Program.only_tryCatch (only_writeExclusive fun op h => neutral_metadata h) fun _ => ?_) fun _ => ?_
  · exact Program.only_bind (only_ignored (only_call trivial)) fun _ => trivial
  refine neutral_bind (only_rotationDeadline current occurredAt) fun rollbackUntil => ?_
  refine Program.wp_bind.mpr (Program.wp_mono (writeAtomic_knows expects knows isExpected ?_ isExpected
    (.inl fun same => fresh (isExpected.trans same.symm))) ?_ fun _ _ _ => trivial)
  · refine parseState_stateRecord (assertSecretVersion_eq_ok valid).2 fun previous was => ?_
    obtain ⟨s, rfl, rfl⟩ := Option.map_eq_some_iff.mp was
    exact knows.valid
  · intro _ k' committed
    refine committed_bind (only_audit trivial) committed fun _ k' committed => ?_
    refine committed_bind (only_ignored (only_prune fun op h => later_prunes h)) committed fun _ k' committed => ?_
    exact committed

theorem rollbackHolding_knows {expectedCurrentVersion targetVersion : JsString} {correlationId : Option JsString}
    (expects : mutation.Expects (some expectedCurrentVersion)) (target : secretVersionPattern targetVersion = true)
    (locked : k.holding = true ∧ k.committed = false) :
    (rollbackHolding o reference expectedCurrentVersion targetVersion correlationId).wp (knowing reference mutation)
      (fun _ k' => k'.committed = true) (fun _ _ => True) k := by
  refine Program.wp_bind.mpr (Program.wp_mono (readState_wp locked) ?_ fun _ _ _ => trivial)
  intro current k knows
  refine Program.wp_bind.mpr (wp_existing.mpr ⟨fun s there => ?_, fun _ => trivial⟩)
  subst there
  refine Program.wp_bind.mpr (wp_refuse.mpr ⟨fun same => ?_, fun _ => trivial⟩)
  have isExpected : s.activeVersion = expectedCurrentVersion := by simpa using same
  refine Program.wp_bind.mpr (wp_refuse.mpr ⟨fun was => ?_, fun _ => trivial⟩)
  have previous : s.previousVersion = some targetVersion := by simpa using was
  refine Program.wp_bind.mpr (wp_existing.mpr ⟨fun deadline _ => ?_, fun _ => trivial⟩)
  refine neutral_bind (only_call trivial) fun now => ?_
  refine neutral_bind (only_refuse _ _) fun _ => ?_
  refine neutral_bind (only_readMetadata trivial fun _ => trivial) fun targetMetadata => ?_
  refine neutral_bind (only_refuse _ _) fun _ => ?_
  refine neutral_bind (only_readValue trivial trivial fun _ => trivial) fun _ => ?_
  refine neutral_bind (only_toISOString _) fun occurredAt => ?_
  refine neutral_bind (only_toISOString _) fun rollbackUntil => ?_
  refine Program.wp_bind.mpr (Program.wp_mono (writeAtomic_knows expects knows (congrArg some isExpected) ?_
    (congrArg some isExpected) (.inr ⟨s, rfl, previous⟩)) ?_ fun _ _ _ => trivial)
  · refine parseState_stateRecord target fun version was => ?_
    cases was
    exact knows.valid
  · intro _ k' committed
    exact committed_bind (only_audit trivial) committed fun _ k' committed => committed

theorem holding_knows {body : Call SecretMutationResult} {failure : SecretFailure → SecretAuditEvent} {token : JsString}
    (ends : body.wp (knowing reference mutation) (fun _ k' => k'.committed = true) (fun _ _ => True) k) :
    (Program.andFinally (body.tryCatch fun error => do
        audit o (failure error)
        rethrow error) (release token)).wp (knowing reference mutation) (fun _ k' => k'.committed = true)
      (fun _ _ => True) k := by
  have last (k : Knowledge) {ok : Unit → Knowledge → Prop} (h : ∀ k' : Knowledge, k'.committed = k.committed → ok () k') :
      (release token).wp (knowing reference mutation) ok (fun _ _ => True) k :=
    Program.wp_mono (later_wp (only_release (fun _ => later_locking) token)) (fun _ => h) fun _ _ _ => trivial
  refine Program.wp_andFinally.mpr (Program.wp_tryCatch.mpr (Program.wp_mono ends ?_ ?_))
  · exact fun _ k' committed => last k' fun k'' same => same.trans committed
  · intro e k' _
    refine Program.wp_bind.mpr (Program.wp_mono (neutral_wp (only_audit trivial)) ?_ ?_)
    · exact fun _ k'' _ => last k'' fun _ _ => trivial
    · exact fun _ k'' _ => last k'' fun _ _ => trivial

theorem mutation_knows (o : NormalizedOptions) (host : Host) (reference : JsString) (mutation : Mutation) :
    (mutation.call o host reference).wp (knowing reference mutation) (fun _ k => k.committed = true) (fun _ _ => True)
      .nothing := by
  have acquired {token : JsString → Call SecretMutationResult}
      (rest : ∀ t (k : Knowledge), k.Locked → (token t).wp (knowing reference mutation) (fun _ k => k.committed = true)
        (fun _ _ => True) k) : (acquireLock o >>= token).wp (knowing reference mutation)
        (fun _ k => k.committed = true) (fun _ _ => True) .nothing :=
    Program.wp_bind.mpr (Program.wp_mono acquireLock_wp rest fun _ _ _ => trivial)
  cases mutation with
  | rotate candidate options =>
    refine Program.wp_bind.mpr (wp_checked.mpr ⟨fun checkedReference valid => ?_, fun _ _ => trivial⟩)
    obtain rfl := assertSecretReference_string valid
    cases candidate with
    | string candidate =>
      refine neutral_bind (only_refuse _ _) fun _ => ?_
      refine neutral_bind (only_refuse _ _) fun _ => ?_
      refine neutral_bind (only_refuse _ _) fun _ => ?_
      refine Program.wp_bind.mpr (wp_checked.mpr ⟨fun expectedVersion expects => ?_, fun _ _ => trivial⟩)
      refine neutral_bind (only_checked _) fun correlationId => ?_
      refine neutral_bind (only_expiry trivial) fun expiresAt => ?_
      exact acquired fun token k locked =>
        holding_knows (rotateHolding_knows expects ⟨locked.2, locked.1.committed⟩)
    | _ => trivial
  | rollback options =>
    refine Program.wp_bind.mpr (wp_checked.mpr ⟨fun checkedReference valid => ?_, fun _ _ => trivial⟩)
    obtain rfl := assertSecretReference_string valid
    refine neutral_bind (only_refuse _ _) fun _ => ?_
    refine Program.wp_bind.mpr (wp_checked.mpr ⟨fun expectedCurrentVersion read => ?_, fun _ _ => trivial⟩)
    refine Program.wp_bind.mpr (wp_checked.mpr ⟨fun targetVersion target => ?_, fun _ _ => trivial⟩)
    refine neutral_bind (only_checked _) fun correlationId => ?_
    have expects : (Mutation.rollback options).Expects (some expectedCurrentVersion) := by
      show (assertSecretVersion (options.get "expectedCurrentVersion")).map some = _
      rw [read]
      rfl
    exact acquired fun token k locked => holding_knows
      (rollbackHolding_knows expects (assertSecretVersion_eq_ok target).2 ⟨locked.2, locked.1.committed⟩)

end

end GuloGulo.Secrets
