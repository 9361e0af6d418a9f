import GuloGulo.Auth.Totp

/-!
# One TOTP factor

What can be seen of a factor from outside, what one call may do to it, and from
it which codes are accepted and how many are compared.
-/

namespace GuloGulo.Auth.Totp
open Js Data

variable {m : TotpManager}

/-- What can be seen of a factor: the calls that succeeded on it, and the codes
that were not accepted. -/
inductive Seen where
  | enrolled (tenantId userId : JsString)
  | confirmed (tenantId userId : JsString) (counter : Nat)
  | verified (tenantId userId : JsString) (counter : Nat)
  | failed (reason : TotpFailure) (lockedUntil : Option Int)
  | revoked (tenantId userId : JsString)
  deriving DecidableEq

namespace Seen

def counter : Seen → Option Nat
  | confirmed _ _ counter | verified _ _ counter => some counter
  | enrolled _ _ | failed _ _ | revoked _ _ => none

def attempt : Seen → Option Lockout.Attempt
  | confirmed _ _ _ | verified _ _ _ => some .success
  | failed _ lockedUntil => some (.failure lockedUntil)
  | enrolled _ _ | revoked _ _ => none

/-- Whether a code was compared with those of the secret. -/
def compared : Seen → Bool
  | confirmed _ _ _ | verified _ _ _ => true
  | failed reason _ => reason.compared
  | enrolled _ _ | revoked _ _ => false

/-- The tenant and the user of a call that succeeded. -/
def scope : Seen → Option (JsString × JsString)
  | enrolled t u | confirmed t u _ | verified t u _ | revoked t u => some (t, u)
  | failed _ _ => none

/-- The end of the lock that a failure sets. -/
def lock : Seen → Option Int
  | failed _ lockedUntil => lockedUntil
  | enrolled _ _ | confirmed _ _ _ | verified _ _ _ | revoked _ _ => none

end Seen

/-- The wrong codes that were compared since the last success, the last lock or
the enrollment; the latest stands first. -/
def guesses : List Seen → Nat
  | .failed reason none :: history => guesses history + if reason.compared then 1 else 0
  | _ => 0

theorem guesses_le_failures (history : List Seen) : guesses history ≤ Lockout.failures (history.filterMap Seen.attempt) := by
  induction history with
  | nil => exact Nat.le_refl _
  | cons x history ih =>
    cases x with
    | failed reason lockedUntil =>
      cases lockedUntil with
      | some t => exact Nat.zero_le _
      | none =>
        show guesses history + _ ≤ Lockout.failures (history.filterMap Seen.attempt) + 1
        split
        · exact Nat.succ_le_succ ih
        · exact Nat.le_succ_of_le ih
    | enrolled | confirmed | verified | revoked => exact Nat.zero_le _

theorem locks_of_history (history : List Seen) :
    Lockout.locksOf (history.filterMap Seen.attempt) = history.filterMap Seen.lock := by
  rw [Lockout.locksOf, List.filterMap_filterMap]
  congr 1
  funext x
  cases x <;> rfl

/-- What the manager holds of a factor. -/
structure Factor where
  record : Option TotpRecord
  attempts : Option Attempts

def TotpState.factor (s : TotpState) (id : JsString) : Factor := ⟨s.factors.get id, s.attempts.get id⟩

/-- What one call may do to a factor. -/
inductive Moves (m : TotpManager) (now : Int) : Factor → Option Seen → Factor → Prop where
  | rest (f : Factor) : Moves m now f none f
  | enrolled (r : TotpRecord) (a : Option Attempts) (started : 0 ≤ now) (pending : r.status = .pending)
      (unused : r.lastUsedCounter = none) :
    Moves m now ⟨none, a⟩ (some (.enrolled r.tenantId r.userId)) ⟨some r, a⟩
  | lapsed (r : TotpRecord) (a : Option Attempts) (live : r.status ≠ .revoked) (free : Lockout.locks a now = false) :
    Moves m now ⟨some r, a⟩ none ⟨some r, Lockout.lapse a now⟩
  | failed (r : TotpRecord) (a : Option Attempts) (reason : TotpFailure) (b : Attempts) (live : r.status ≠ .revoked)
      (failure : b = m.lockout.fail a now ∧ reason.compared = false ∨
        Lockout.locks a now = false ∧ b = m.lockout.fail (Lockout.lapse a now) now) :
    Moves m now ⟨some r, a⟩ (some (.failed reason (Lockout.announced b now))) ⟨some r, some b⟩
  | confirmed (r : TotpRecord) (a : Option Attempts) (counter : Nat) (time confirmedAt : Int)
      (pending : r.status = .pending) (free : Lockout.locks a now = false)
      (later : ∀ last, r.lastUsedCounter = some last → last < counter) :
    Moves m now ⟨some r, a⟩ (some (.confirmed r.tenantId r.userId counter))
      ⟨some ((r.used counter time).confirmed confirmedAt), none⟩
  | verified (r : TotpRecord) (a : Option Attempts) (counter : Nat) (time : Int) (active : r.status = .active)
      (free : Lockout.locks a now = false) (later : ∀ last, r.lastUsedCounter = some last → last < counter) :
    Moves m now ⟨some r, a⟩ (some (.verified r.tenantId r.userId counter)) ⟨some (r.used counter time), none⟩
  | revoked (r : TotpRecord) (a : Option Attempts) (time : Int) :
    Moves m now ⟨some r, a⟩ (some (.revoked r.tenantId r.userId))
      ⟨some (r.revoked time), none⟩

/-- What is known of an enrolled factor from its history. -/
structure Known (m : TotpManager) (history : List Seen) (now : Int) (r : TotpRecord) (a : Option Attempts) : Prop where
  enrolled : .enrolled r.tenantId r.userId ∈ history
  scope : ∀ x ∈ history, ∀ p, x.scope = some p → p = (r.tenantId, r.userId)
  kept : r.status ≠ .revoked → now ≤ maxTime → Lockout.Kept m.lockout (history.filterMap Seen.attempt) now a
  unrevoked : r.status ≠ .revoked → ∀ t u, .revoked t u ∉ history
  confirmed : r.status = .active → ∃ t u c, .confirmed t u c ∈ history
  last : ∀ c ∈ history.filterMap Seen.counter, ∃ last, r.lastUsedCounter = some last ∧ c ≤ last
  sorted : (history.filterMap Seen.counter).Pairwise (· > ·)

def Safe (m : TotpManager) (history : List Seen) (now : Int) (f : Factor) : Prop :=
  match f.record with
  | none => history = [] ∧ f.attempts = none
  | some r => Known m history now r f.attempts

section
variable {history : List Seen} {now : Int} {f f' : Factor} {seen : Option Seen} {r : TotpRecord} {a : Option Attempts}

theorem Known.cons_scope (h : Known m history now r a) {x : Seen} (same : ∀ p, x.scope = some p → p = (r.tenantId, r.userId)) :
    ∀ y ∈ x :: history, ∀ p, y.scope = some p → p = (r.tenantId, r.userId) := by
  rw [List.forall_mem_cons]
  exact ⟨same, h.scope⟩

/-- A code that is accepted. -/
theorem Known.accept (h : Known m history now r a) (live : r.status ≠ .revoked) (free : Lockout.locks a now = false)
    {counter : Nat} (later : ∀ last, r.lastUsedCounter = some last → last < counter) {x : Seen} (counts : x.counter = some counter)
    (attempt : x.attempt = some .success) (scope : x.scope = some (r.tenantId, r.userId)) {r' : TotpRecord}
    (tenant : r'.tenantId = r.tenantId) (user : r'.userId = r.userId) (used : r'.lastUsedCounter = some counter)
    (confirmed : ∃ t u c, .confirmed t u c ∈ x :: history) : Known m (x :: history) now r' none where
  enrolled := by
    rw [tenant, user]
    exact List.mem_cons_of_mem _ h.enrolled
  scope := by
    rw [tenant, user]
    apply h.cons_scope
    intro p hp
    rw [scope] at hp
    exact (Option.some.inj hp).symm
  kept _ within := by
    rw [List.filterMap_cons_some attempt]
    exact Lockout.kept_moves (h.kept live within) (.succeeded free)
  unrevoked _ t u revoked := by
    rcases List.mem_cons.mp revoked with rfl | revoked
    · cases attempt
    · exact h.unrevoked live t u revoked
  confirmed _ := confirmed
  last c hc := by
    rw [List.filterMap_cons_some counts] at hc
    refine ⟨counter, used, ?_⟩
    rcases List.mem_cons.mp hc with rfl | hc
    · exact Nat.le_refl _
    · obtain ⟨last, before, bound⟩ := h.last c hc
      exact Nat.le_trans bound (Nat.le_of_lt (later last before))
  sorted := by
    rw [List.filterMap_cons_some counts]
    refine List.Pairwise.cons (fun c hc => ?_) h.sorted
    obtain ⟨last, before, bound⟩ := h.last c hc
    exact Nat.lt_of_le_of_lt bound (later last before)

theorem Known.fail (h : Known m history now r a) (live : r.status ≠ .revoked) (reason : TotpFailure) {lockedUntil : Option Int}
    {b : Option Attempts} (moves : Lockout.Moves m.lockout now a (some (.failure lockedUntil)) b) :
    Known m (.failed reason lockedUntil :: history) now r b where
  enrolled := List.mem_cons_of_mem _ h.enrolled
  scope := h.cons_scope nofun
  kept _ within := Lockout.kept_moves (h.kept live within) moves
  unrevoked _ t u revoked := by
    rcases List.mem_cons.mp revoked with same | revoked
    · cases same
    · exact h.unrevoked live t u revoked
  confirmed active := by
    obtain ⟨t, u, c, confirmed⟩ := h.confirmed active
    exact ⟨t, u, c, List.mem_cons_of_mem _ confirmed⟩
  last := h.last
  sorted := h.sorted

/-- What may be seen of a factor after its history. -/
structure Allowed (m : TotpManager) (history : List Seen) (now : Int) (x : Seen) : Prop where
  /-- A call succeeds under the tenant and the user of the enrollment only. -/
  scope : ∀ t u, x.scope = some (t, u) → x = .enrolled t u ∨ .enrolled t u ∈ history ∧ ∀ t' u', .enrolled t' u' ∈ history → t' = t ∧ u' = u
  /-- A factor that verifies has been confirmed. -/
  confirmed : ∀ t u c, x = .verified t u c → ∃ t' u' c', .confirmed t' u' c' ∈ history
  /-- No code is accepted after a revocation. -/
  unrevoked : ∀ c, x.counter = some c → ∀ t u, .revoked t u ∉ history
  /-- No code is accepted twice, and none after a later one. -/
  later : ∀ c, x.counter = some c → ∀ c' ∈ history.filterMap Seen.counter, c' < c
  /-- No code is compared while a lock lasts. -/
  unlocked : x.compared → now ≤ maxTime → ∀ t ∈ history.filterMap Seen.lock, t ≤ now
  /-- One more wrong code does not exceed the limit. -/
  bounded : x.compared → now ≤ maxTime → x.counter = none → guesses history + 1 ≤ m.lockout.maxFailures

theorem Known.bounded (h : Known m history now r a) (live : r.status ≠ .revoked) (within : now ≤ maxTime) :
    guesses history + 1 ≤ m.lockout.maxFailures := by
  have bound : Lockout.failures (history.filterMap Seen.attempt) + 1 ≤ m.lockout.maxFailures :=
    Lockout.failures_bound (h.kept live within)
  have fewer := guesses_le_failures history
  omega

theorem Known.unlocked (h : Known m history now r a) (live : r.status ≠ .revoked) (within : now ≤ maxTime)
    (free : Lockout.locks a now = false) : ∀ t ∈ history.filterMap Seen.lock, t ≤ now := by
  rw [← locks_of_history]
  exact Lockout.locks_over (h.kept live within) free

theorem Known.scoped (h : Known m history now r a) : .enrolled r.tenantId r.userId ∈ history ∧
    ∀ t u, .enrolled t u ∈ history → t = r.tenantId ∧ u = r.userId := by
  refine ⟨h.enrolled, fun t u other => ?_⟩
  exact Prod.mk.inj (h.scope _ other (t, u) rfl)

theorem Known.accepts (h : Known m history now r a) (live : r.status ≠ .revoked) (free : Lockout.locks a now = false)
    {counter : Nat} (later : ∀ last, r.lastUsedCounter = some last → last < counter) {x : Seen} (counts : x.counter = some counter)
    (scope : x.scope = some (r.tenantId, r.userId)) (confirmed : ∀ t u c, x = .verified t u c → r.status = .active) :
    Allowed m history now x where
  scope t u hx := by
    cases hx.symm.trans scope
    exact .inr h.scoped
  confirmed t u c hx := h.confirmed (confirmed t u c hx)
  unrevoked _ _ := h.unrevoked live
  later c hc c' hc' := by
    cases hc.symm.trans counts
    obtain ⟨last, before, bound⟩ := h.last c' hc'
    exact Nat.lt_of_le_of_lt bound (later last before)
  unlocked _ within := h.unlocked live within free
  bounded _ _ none := by
    rw [counts] at none
    cases none

end

end GuloGulo.Auth.Totp
