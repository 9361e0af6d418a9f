import GuloGulo.Auth.Recovery
import Mathlib.Logic.Function.Basic

/-!
# One set of recovery codes

What can be seen of a factor from outside, what one call may do to it, and from
it which codes are accepted and how often.
-/

namespace GuloGulo.Auth.Recovery
open Js Data

variable {host : Host} {m : RecoveryManager}

/-! ## Codes and their entries -/

/-- With a salt, no two codes have the same digest. -/
def SaltedInjective (host : Host) : Prop :=
  ∀ salt c c', salt.length = 16 → codePattern c = true → codePattern c' = true →
    hashCode host salt c = hashCode host salt c' → c = c'

/-- The codes of a list of texts. -/
def spelled (host : Host) (clearCodes : List JsString) : List JsString :=
  clearCodes.filterMap fun clear => normalizeCode host (.string clear)

/-- Every entry has the digest of the code that stands under its key, and these
are the codes that were issued. -/
structure Issued (host : Host) (code : JsString → JsString) (codes : OrderedMap JsString RecoveryEntry)
    (clearCodes : List JsString) : Prop where
  keys : codes.keys.map code = spelled host clearCodes
  entries : ∀ k e, codes.get k = some e →
    e.salt.length = 16 ∧ codePattern (code k) = true ∧ e.digest = hashCode host e.salt (code k)

/-- What holds before every turn of the loop that issues the codes. -/
structure Issuing (host : Host) (index : Nat) (code : JsString → JsString) (codes : OrderedMap JsString RecoveryEntry)
    (clearCodes : List JsString) : Prop extends Issued host code codes clearCodes where
  unused : ∀ k e, codes.get k = some e → e.usedAt = none
  early : ∀ k ∈ codes.keys, ∃ i < index, ∃ salt, k = codeKey i salt

/-- What can be seen of a factor: the calls that succeeded on it, and the codes
that were not accepted. -/
inductive Seen where
  | enrolled (tenantId userId : JsString) (clearCodes : List JsString)
  | consumed (tenantId userId code : JsString)
  | failed (reason : RecoveryFailure) (lockedUntil : Option Int)
  | revoked (tenantId userId : JsString)

namespace Seen

def code : Seen → Option JsString
  | consumed _ _ code => some code
  | enrolled _ _ _ | failed _ _ | revoked _ _ => none

def attempt : Seen → Option Lockout.Attempt
  | consumed _ _ _ => some .success
  | failed _ lockedUntil => some (.failure lockedUntil)
  | enrolled _ _ _ | revoked _ _ => none

/-- Whether a code may have been compared with the entries. -/
def compared : Seen → Bool
  | consumed _ _ _ | failed .invalidCode _ => true
  | failed .rateLimitedOrLocked _ | enrolled _ _ _ | revoked _ _ => false

/-- The tenant and the user of a call that succeeded. -/
def scope : Seen → Option (JsString × JsString)
  | enrolled t u _ | consumed t u _ | revoked t u => some (t, u)
  | failed _ _ => none

/-- The end of the lock that a failure sets. -/
def lock : Seen → Option Int
  | failed _ lockedUntil => lockedUntil
  | enrolled _ _ _ | consumed _ _ _ | revoked _ _ => none

def fails : Seen → Bool
  | failed _ _ => true
  | enrolled _ _ _ | consumed _ _ _ | revoked _ _ => false

end Seen

theorem locks_of_history (history : List Seen) :
    Lockout.locksOf (history.filterMap Seen.attempt) = history.filterMap Seen.lock := by
  rw [Lockout.locksOf, List.filterMap_filterMap]
  congr 1
  funext x
  cases x <;> rfl

/-- What the manager holds of a factor. -/
structure Factor where
  record : Option RecoveryRecord
  attempts : Option Attempts

def RecoveryState.factor (s : RecoveryState) (id : JsString) : Factor := ⟨s.factors.get id, s.attempts.get id⟩

/-- What one call may do to a factor. -/
inductive Moves (host : Host) (m : RecoveryManager) (now : Int) : Factor → Option Seen → Factor → Prop where
  | rest (f : Factor) : Moves host m now f none f
  | enrolled (r : RecoveryRecord) (a : Option Attempts) (clearCodes : List JsString) (index : Nat) (code : JsString → JsString)
      (started : 0 ≤ now) (live : r.revokedAt = none) (issuing : Issuing host index code r.codes clearCodes) :
    Moves host m now ⟨none, a⟩ (some (.enrolled r.tenantId r.userId clearCodes)) ⟨some r, a⟩
  | failed (r : RecoveryRecord) (a : Option Attempts) (reason : RecoveryFailure) (b : Attempts) (live : r.revokedAt = none)
      (failure : b = m.lockout.fail a now ∧ reason = .rateLimitedOrLocked ∨
        Lockout.locks a now = false ∧ b = m.lockout.fail (Lockout.lapse a now) now) :
    Moves host m now ⟨some r, a⟩ (some (.failed reason (Lockout.announced b now))) ⟨some r, some b⟩
  | consumed (r : RecoveryRecord) (a : Option Attempts) (key c : JsString) (e : RecoveryEntry) (time : Int)
      (live : r.revokedAt = none) (free : Lockout.locks a now = false) (present : r.codes.get key = some e)
      (unused : e.usedAt = none) (digest : e.digest = hashCode host e.salt c) (pattern : codePattern c = true) :
    Moves host m now ⟨some r, a⟩ (some (.consumed r.tenantId r.userId c)) ⟨some (r.used key time), none⟩
  | revoked (r : RecoveryRecord) (a : Option Attempts) (time : Int) :
    Moves host m now ⟨some r, a⟩ (some (.revoked r.tenantId r.userId)) ⟨some (r.revoked time), none⟩

/-- The uses of a code among the entries. -/
def uses (code : JsString → JsString) (codes : OrderedMap JsString RecoveryEntry) (c : JsString) : Nat :=
  codes.rows.countP fun p => p.2.usedAt.isSome && code p.1 = c

/-- What is known of an enrolled factor from its history. -/
structure Known (host : Host) (m : RecoveryManager) (history : List Seen) (now : Int) (r : RecoveryRecord)
    (a : Option Attempts) : Prop where
  scope : ∀ x ∈ history, ∀ p, x.scope = some p → p = (r.tenantId, r.userId)
  kept : r.revokedAt = none → now ≤ maxTime → Lockout.Kept m.lockout (history.filterMap Seen.attempt) now a
  unrevoked : r.revokedAt = none → ∀ t u, .revoked t u ∉ history
  accounted : ∃ code clearCodes, .enrolled r.tenantId r.userId clearCodes ∈ history ∧
    (∀ t u other, .enrolled t u other ∈ history → other = clearCodes) ∧ Issued host code r.codes clearCodes ∧
    ∀ c, (history.filterMap Seen.code).count c = uses code r.codes c

def Safe (host : Host) (m : RecoveryManager) (history : List Seen) (now : Int) (f : Factor) : Prop :=
  match f.record with
  | none => history = [] ∧ f.attempts = none
  | some r => Known host m history now r f.attempts

section
variable {history : List Seen} {now : Int} {f f' : Factor} {seen : Option Seen} {r : RecoveryRecord} {a : Option Attempts}

theorem Known.cons_scope (h : Known host m history now r a) {x : Seen}
    (same : ∀ p, x.scope = some p → p = (r.tenantId, r.userId)) :
    ∀ y ∈ x :: history, ∀ p, y.scope = some p → p = (r.tenantId, r.userId) := by
  rw [List.forall_mem_cons]
  exact ⟨same, h.scope⟩

theorem Known.cons_unrevoked (h : Known host m history now r a) {x : Seen} (keeps : ∀ t u, x ≠ .revoked t u)
    (live : r.revokedAt = none) : ∀ t u, .revoked t u ∉ x :: history := by
  intro t u revoked
  rcases List.mem_cons.mp revoked with same | revoked
  · exact keeps t u same.symm
  · exact h.unrevoked live t u revoked

theorem uses_used {code : JsString → JsString} {key : JsString} {e : RecoveryEntry} (present : r.codes.get key = some e)
    (unused : e.usedAt = none) (time : Int) (c : JsString) :
    uses code (r.used key time).codes c = uses code r.codes c + if code key = c then 1 else 0 := by
  have change := OrderedMap.countP_adjust present (fun e => { e with usedAt := some time })
    fun p => p.2.usedAt.isSome && decide (code p.1 = c)
  simp only [unused, Option.isSome_none, Bool.false_and, Bool.false_eq_true, if_false, Nat.add_zero, Option.isSome_some,
    Bool.true_and, decide_eq_true_eq] at change
  exact change

theorem Issued.used {code : JsString → JsString} {clearCodes : List JsString} (h : Issued host code r.codes clearCodes)
    (key : JsString) (time : Int) : Issued host code (r.used key time).codes clearCodes where
  keys := by
    show (r.codes.adjust key _).keys.map code = _
    rw [OrderedMap.keys_adjust]
    exact h.keys
  entries k e present := by
    change (r.codes.adjust key _).get k = some e at present
    rw [OrderedMap.get_adjust] at present
    split at present
    · obtain ⟨e', before, rfl⟩ := Option.map_eq_some_iff.mp present
      exact h.entries k e' before
    · exact h.entries k e present

/-- The entry that is found is one of the code. -/
theorem Issued.code_eq {code : JsString → JsString} {codes : OrderedMap JsString RecoveryEntry} {clearCodes : List JsString}
    (h : Issued host code codes clearCodes) (salted : SaltedInjective host) {key c : JsString} {e : RecoveryEntry}
    (present : codes.get key = some e) (digest : e.digest = hashCode host e.salt c) (pattern : codePattern c = true) :
    code key = c := by
  obtain ⟨length, own, same⟩ := h.entries key e present
  exact salted e.salt (code key) c length own pattern (same.symm.trans digest)

theorem Known.consume (salted : SaltedInjective host) (h : Known host m history now r a) (live : r.revokedAt = none)
    (free : Lockout.locks a now = false) {key c : JsString} {e : RecoveryEntry} (present : r.codes.get key = some e)
    (unused : e.usedAt = none) (digest : e.digest = hashCode host e.salt c) (pattern : codePattern c = true) (time : Int) :
    Known host m (.consumed r.tenantId r.userId c :: history) now (r.used key time) none where
  scope := by
    apply h.cons_scope
    intro p hp
    exact (Option.some.inj hp).symm
  kept _ within := Lockout.kept_moves (h.kept live within) (.succeeded free)
  unrevoked := h.cons_unrevoked nofun
  accounted := by
    obtain ⟨code, clearCodes, enrolled, only, issued, counts⟩ := h.accounted
    refine ⟨code, clearCodes, List.mem_cons_of_mem _ enrolled, fun t u other inside => ?_, issued.used key time, fun c' => ?_⟩
    · rcases List.mem_cons.mp inside with same | inside
      · cases same
      · exact only t u other inside
    · have own : code key = c := issued.code_eq salted present digest pattern
      rw [uses_used present unused, own, ← counts c']
      show (c :: history.filterMap Seen.code).count c' = _
      rw [List.count_cons]
      by_cases same : c = c'
      · rw [if_pos same, if_pos (beq_iff_eq.mpr same)]
      · rw [if_neg same, if_neg fun equal => same (beq_iff_eq.mp equal)]

/-- What may be seen of a factor after its history. -/
structure Allowed (m : RecoveryManager) (history : List Seen) (now : Int) (x : Seen) : Prop where
  /-- A call succeeds under the tenant and the user of the enrollment only. -/
  scope : ∀ t u, x.scope = some (t, u) → (∃ clear, x = .enrolled t u clear) ∨
    (∃ clear, .enrolled t u clear ∈ history) ∧ ∀ t' u' clear, .enrolled t' u' clear ∈ history → t' = t ∧ u' = u
  /-- No code is accepted after a revocation. -/
  unrevoked : x.code ≠ none → ∀ t u, .revoked t u ∉ history
  /-- No code is compared while a lock lasts. -/
  unlocked : x.compared → now ≤ maxTime → ∀ t ∈ history.filterMap Seen.lock, t ≤ now
  /-- One more failure does not exceed the limit. -/
  bounded : x.fails → now ≤ maxTime → Lockout.failures (history.filterMap Seen.attempt) + 1 ≤ m.lockout.maxFailures

theorem Known.scoped (h : Known host m history now r a) :
    (∃ clear, .enrolled r.tenantId r.userId clear ∈ history) ∧
      ∀ t u clear, .enrolled t u clear ∈ history → t = r.tenantId ∧ u = r.userId := by
  obtain ⟨_, clearCodes, enrolled, _⟩ := h.accounted
  refine ⟨⟨clearCodes, enrolled⟩, fun t u clear other => ?_⟩
  exact Prod.mk.inj (h.scope _ other (t, u) rfl)

theorem Known.unlocked (h : Known host m history now r a) (live : r.revokedAt = none) (within : now ≤ maxTime)
    (free : Lockout.locks a now = false) : ∀ t ∈ history.filterMap Seen.lock, t ≤ now := by
  rw [← locks_of_history]
  exact Lockout.locks_over (h.kept live within) free

/-- The codes that a factor has left. -/
def Factor.remaining (f : Factor) : Option Nat := f.record.map RecoveryRecord.remainingCodes

end

end GuloGulo.Auth.Recovery
