import GuloGulo.CalDav.PostgresSync
import GuloGulo.Integrations.TenantTransaction

/-!
# A create that is tried again

`createCalendarObject` in its transaction. When the acknowledgement of its
`COMMIT` is lost, the create is run again, finds what it has stored itself, and
refuses.
-/

namespace GuloGulo.CalDav.Postgres
open Js Data Sql
open Integrations.Postgres (Fate Truthful Takes Loses World withTenantTransaction withTenantTransaction_truthful_iff)

/-- An object is there that was not. -/
def Stored (d d' : Db) : Prop := ∃ key id, contents d key id = none ∧ contents d' key id ≠ none

/-- `createCalendarObject` of the store, which may be attempted at several times. -/
def createCall (collate : JsString → JsString → Bool) (host : Host) (retryAttempts : Nat) (fates : Nat → Fate)
    (context : JsValue) (now : Nat → Int) (actor options : JsValue) (d : Db) :
    Except (Thrown CalDavError) CalDavAnswer × World Db :=
  withTenantTransaction (Stmt.exec collate) host retryAttempts fates context
    (fun n _ => program host (now n) (.createCalendarObject actor options)) ⟨d, none, []⟩

/-- A transaction commits what it answers, at most once, and nothing when it
rejects, just if no attempt takes effect without its acknowledgement; and then
no create that was stored is answered as a failed precondition. -/
theorem transaction_truthful_iff {ε Q α D : Type} {R : Q → Type} (exec : Program.Semantics (Thrown ε) R D) (host : Host)
    (retryAttempts : Nat) (fates : Nat → Fate) (context : JsValue)
    (callback : Nat → Integrations.Actor.TenantContext → Program (Thrown ε) R α) (d : D) :
    (Truthful (fun a d d' => ∃ canonical, Integrations.Actor.assertTenantContext host context = .ok canonical ∧
        Takes exec (fun n => callback n canonical) a d d') d
      (withTenantTransaction exec host retryAttempts fates context callback ⟨d, none, []⟩) ↔
      ¬ Loses exec host retryAttempts fates context callback d) ∧
    ∀ collate now actor options d,
      ¬ Loses (Stmt.exec collate) host retryAttempts fates context
        (fun n _ => program host (now n) (.createCalendarObject actor options)) d →
      Stored d (createCall collate host retryAttempts fates context now actor options d).2.committed →
      ∀ e, (createCall collate host retryAttempts fates context now actor options d).1 = .error (.contract e) →
        e.code ≠ .preconditionFailed := by
  refine ⟨withTenantTransaction_truthful_iff host retryAttempts fates context callback d, ?_⟩
  intro collate now actor options d kept stored e refused
  have truthful := (withTenantTransaction_truthful_iff host retryAttempts fates context _ d).mpr kept
  obtain ⟨key, id, before, after⟩ := stored
  rw [createCall, (truthful.rejected _ refused).2] at after
  exact absurd before after

def sampleContext : JsValue := Integrations.Actor.userContext (js "acme") (js "acme.example") (js "ada")

/-- `PUT` with `If-None-Match: *`. -/
def conditionalCreate : JsValue :=
  sampleOptions [("calendarId", js "work"), ("objectId", js "a"), ("ical", sampleEvent (js "SUMMARY:a")),
    ("ifNoneMatch", js "*")]

def smooth : Fate := ⟨false, false, false, fun _ => false, .acknowledged, false, false⟩

/-- The first attempt goes wrong, all later ones go well. -/
def firstFate (fate : Fate) : Nat → Fate
  | 0 => fate
  | _ + 1 => smooth

def createAttempt (_ : Nat) (_ : Integrations.Actor.TenantContext) : CalDavProgram CalDavAnswer :=
  program asciiHost 0 (.createCalendarObject (sampleActor "ada") conditionalCreate)

def createOnce (first : Fate) (d : Db) : Except (Thrown CalDavError) CalDavAnswer × World Db :=
  withTenantTransaction (Stmt.exec fun _ _ => true) asciiHost 1 (firstFate first) sampleContext createAttempt ⟨d, none, []⟩

/-- A create whose first attempt finds no connection. -/
theorem transaction_truthful_iff_connect : (createOnce { smooth with connect := true } (sampleDb [createWork])).1.isOk ∧
    ∃ d, (createOnce { smooth with connect := true } (sampleDb [createWork])).2.commits = [d] := by
  have answered : (createOnce { smooth with connect := true } (sampleDb [createWork])).1.isOk = true := by decide +kernel
  refine ⟨answered, ?_⟩
  have kept : ¬ Loses (Stmt.exec fun _ _ => true) asciiHost 1 (firstFate { smooth with connect := true }) sampleContext
      createAttempt (sampleDb [createWork]) := by
    rintro ⟨_, _, k, _, _, a, d', _, lost⟩
    have told (n : Nat) : (firstFate { smooth with connect := true } n).commit = .acknowledged := by
      cases n with
      | zero => rfl
      | succ n => rfl
    rw [told] at lost
    cases lost
  generalize sampleDb [createWork] = d at answered kept ⊢
  have truthful : Truthful _ d (createOnce { smooth with connect := true } d) :=
    (transaction_truthful_iff (Stmt.exec fun _ _ => true) asciiHost 1 _ sampleContext createAttempt d).1.mpr kept
  cases ends : (createOnce { smooth with connect := true } d).1 with
  | error e =>
    rw [ends] at answered
    cases answered
  | ok a =>
    obtain ⟨d', _, commits, _⟩ := truthful.resolved a ends
    exact ⟨d', commits⟩

/-- The code and the status of an answer that is an error of the contract. -/
def refusal : Except (Thrown CalDavError) CalDavAnswer → Option (CalDavCode × Nat)
  | .error (.contract e) => some (e.code, e.status)
  | _ => none

theorem refusal_eq_some {r : Except (Thrown CalDavError) CalDavAnswer} {code : CalDavCode} {status : Nat}
    (h : refusal r = some (code, status)) : ∃ e, r = .error (.contract e) ∧ e.code = code ∧ e.status = status := by
  unfold refusal at h
  split at h
  · rename_i e
    cases h
    exact ⟨e, rfl, rfl, rfl⟩
  · cases h

/-- The acknowledgement of the first attempt is lost: the object is stored, and
the answer is that it was there already. -/
theorem create_stored_refused :
    (∃ e, (createOnce { smooth with commit := .unacknowledged } (sampleDb [createWork])).1 = .error (.contract e) ∧
      e.code = .preconditionFailed ∧ e.status = 412) ∧
    Stored (sampleDb [createWork]) (createOnce { smooth with commit := .unacknowledged } (sampleDb [createWork])).2.committed ∧
    ∀ takes, ¬ Truthful takes (sampleDb [createWork]) (createOnce { smooth with commit := .unacknowledged } (sampleDb [createWork])) := by
  have run : refusal (createOnce { smooth with commit := .unacknowledged } (sampleDb [createWork])).1 = some (.preconditionFailed, 412) ∧
      (contents (sampleDb [createWork]) workScope (js "a")).isSome = false ∧
      (contents (createOnce { smooth with commit := .unacknowledged } (sampleDb [createWork])).2.committed workScope (js "a")).isSome = true := by
    decide +kernel
  generalize createOnce { smooth with commit := .unacknowledged } (sampleDb [createWork]) = r at run ⊢
  obtain ⟨refused, before, after⟩ := run
  obtain ⟨e, ends, code, status⟩ := refusal_eq_some refused
  refine ⟨⟨e, ends, code, status⟩, ⟨workScope, js "a", ?_, ?_⟩, ?_⟩
  · simpa using before
  · intro absent
    rw [absent] at after
    cases after
  · intro takes truthful
    rw [(truthful.rejected _ ends).2, before] at after
    cases after

end GuloGulo.CalDav.Postgres
