import GuloGulo.Js.Effect

/-!
# Database transactions as programs

A program is the tree of the statements it may send: each statement with what
is done for every answer. The tree can be run alone, or one statement at a time
among other programs. `Q` is the type of statements and `R q` that of the
answers to `q`.
-/

namespace GuloGulo.Sql
open Js

inductive Program (ε : Type) {Q : Type} (R : Q → Type) (α : Type) where
  | pure (a : α)
  | throw (e : ε)
  | query (q : Q) (next : R q → Program ε R α)

namespace Program
variable {ε Q α β γ : Type} {R : Q → Type}

def bind : Program ε R α → (α → Program ε R β) → Program ε R β
  | pure a, f => f a
  | throw e, _ => throw e
  | query q next, f => query q fun r => (next r).bind f

instance : Monad (Program ε R) where
  pure := pure
  bind := bind

def lift : Except ε α → Program ε R α
  | .ok a => pure a
  | .error e => throw e

/-- A check of the contract, made between statements. -/
def check (x : Except ε α) : Program (Thrown ε) R α := lift (x.mapError .contract)

/-- Sends one statement. -/
def send (q : Q) : Program ε R (R q) := query q pure

/-- What a statement does to the database, or the error it ends with. -/
abbrev Semantics (ε : Type) (R : Q → Type) (D : Type) := (q : Q) → D → Except ε (R q × D)

variable {D : Type} (exec : Semantics ε R D)

def run : Program ε R α → D → Except ε (α × D)
  | pure a, d => .ok (a, d)
  | throw e, _ => .error e
  | query q next, d => do
    let (r, d) ← exec q d
    (next r).run d

/-- A transaction with nothing beside it: commit, or roll back. -/
def transact (p : Program ε R α) : Eff ε D α := fun d =>
  match p.run exec d with
  | .ok (a, d') => (.ok a, d')
  | .error e => (.error e, d)

variable {exec}

theorem run_bind (p : Program ε R α) (f : α → Program ε R β) (d : D) :
    (p >>= f).run exec d = p.run exec d >>= fun (a, d') => (f a).run exec d' := by
  show (p.bind f).run exec d = _
  induction p generalizing d with
  | pure a => rfl
  | throw e => rfl
  | query q next ih =>
    simp only [bind, run]
    cases exec q d with
    | error e => rfl
    | ok r => simp only [ok_bind, ih]

theorem run_bind_ok {p : Program ε R α} {f : α → Program ε R β} {d d' : D} {a : α}
    (h : p.run exec d = .ok (a, d')) : (p >>= f).run exec d = (f a).run exec d' := by
  rw [run_bind, h, ok_bind]

theorem run_lift_bind {x : Except ε α} {f : α → Program ε R β} {d : D} :
    (lift x >>= f).run exec d = x >>= fun a => (f a).run exec d := by
  rw [run_bind]
  cases x <;> rfl

theorem run_check_bind {exec : Semantics (Thrown ε) R D} {x : Except ε α}
    {f : α → Program (Thrown ε) R β} {d : D} :
    (check x >>= f).run exec d = x.mapError Thrown.contract >>= fun a => (f a).run exec d :=
  run_lift_bind

theorem run_send_bind {q : Q} {f : R q → Program ε R β} {d : D} :
    (send q >>= f).run exec d = exec q d >>= fun (r, d') => (f r).run exec d' := rfl

theorem run_send_bind_eq_ok {q : Q} {f : R q → Program ε R β} {d d' : D} {b : β} :
    (send q >>= f).run exec d = .ok (b, d') ↔ ∃ r e, exec q d = .ok (r, e) ∧ (f r).run exec e = .ok (b, d') := by
  rw [run_send_bind, bind_eq_ok]
  constructor
  · rintro ⟨⟨r, e⟩, sent, rest⟩
    exact ⟨r, e, sent, rest⟩
  · rintro ⟨r, e, sent, rest⟩
    exact ⟨(r, e), sent, rest⟩

@[simp] theorem run_pure (a : α) (d : D) : (Pure.pure a : Program ε R α).run exec d = .ok (a, d) := rfl

@[simp] theorem run_throw (e : ε) (d : D) : (throw e : Program ε R α).run exec d = .error e := rfl

theorem run_bind_eq_ok {p : Program ε R α} {f : α → Program ε R β} {d d' : D} {b : β} :
    (p >>= f).run exec d = .ok (b, d') ↔
      ∃ a e, p.run exec d = .ok (a, e) ∧ (f a).run exec e = .ok (b, d') := by
  rw [run_bind, bind_eq_ok]
  constructor
  · rintro ⟨⟨a, e⟩, hp, hf⟩
    exact ⟨a, e, hp, hf⟩
  · rintro ⟨a, e, hp, hf⟩
    exact ⟨(a, e), hp, hf⟩

theorem run_check_bind_eq_ok {exec : Semantics (Thrown ε) R D} {x : Except ε α}
    {f : α → Program (Thrown ε) R β} {d d' : D} {b : β} :
    (check x >>= f).run exec d = .ok (b, d') ↔ ∃ a, x = .ok a ∧ (f a).run exec d = .ok (b, d') := by
  rw [run_check_bind, bind_eq_ok]
  simp only [mapError_eq_ok]

theorem run_send {q : Q} {d : D} : (send q : Program ε R (R q)).run exec d = exec q d := by
  show (exec q d >>= fun (r, d') => .ok (r, d')) = exec q d
  cases exec q d <;> rfl

theorem transact_eq_ok {p : Program ε R α} {d d' : D} {a : α} :
    p.transact exec d = (.ok a, d') ↔ p.run exec d = .ok (a, d') := by
  unfold transact
  cases p.run exec d with
  | ok r => simp [Prod.ext_iff]
  | error e => simp

/-- A program none of whose statements writes. -/
def ReadOnly (exec : Semantics ε R D) : Program ε R α → Prop
  | pure _ => True
  | throw _ => True
  | query q next => (∀ d r d', exec q d = .ok (r, d') → d' = d) ∧ ∀ r, (next r).ReadOnly exec

theorem run_readOnly {p : Program ε R α} (h : p.ReadOnly exec) {d d' : D} {a : α}
    (hr : p.run exec d = .ok (a, d')) : d' = d := by
  induction p generalizing d with
  | pure a => cases hr; rfl
  | throw e => cases hr
  | query q next ih =>
    simp only [run, bind_eq_ok] at hr
    obtain ⟨⟨r, e⟩, hexec, hr⟩ := hr
    obtain rfl := h.1 d r e hexec
    exact ih r (h.2 r) hr

theorem readOnly_bind {p : Program ε R α} {f : α → Program ε R β} (hp : p.ReadOnly exec)
    (hf : ∀ a, (f a).ReadOnly exec) : (p >>= f).ReadOnly exec := by
  show (p.bind f).ReadOnly exec
  induction p with
  | pure a => exact hf a
  | throw e => trivial
  | query q next ih => exact ⟨hp.1, fun r => ih r (hp.2 r)⟩

theorem readOnly_send_bind {q : Q} {f : R q → Program ε R β}
    (hq : ∀ d r d', exec q d = .ok (r, d') → d' = d) (hf : ∀ r, (f r).ReadOnly exec) :
    (send q >>= f).ReadOnly exec :=
  ⟨hq, hf⟩

theorem readOnly_lift (x : Except ε α) : (lift x : Program ε R α).ReadOnly exec := by
  cases x <;> trivial

end Program

end GuloGulo.Sql
