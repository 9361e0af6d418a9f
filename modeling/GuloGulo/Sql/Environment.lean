import GuloGulo.Sql.Program

/-!
# Programs among answers

A program whose queries are answered by the world around it, which may answer
in more than one way and also with a failure. `wp` is the weakest precondition
over all answers, with one postcondition for each way to end, and `Exec` the
runs it speaks of.
-/

namespace GuloGulo.Sql
open Js

/-- Which answers a query may get in a world and the world after each, and
which queries may be sent at all. -/
structure Environment {Q : Type} (R : Q → Type) (W : Type) where
  step : W → (q : Q) → R q → W → Prop
  may : W → Q → Prop := fun _ _ => True

namespace Program
variable {ε Q α β W : Type} {R : Q → Type}

/-- `try` and `catch`. -/
def tryCatch : Program ε R α → (ε → Program ε R α) → Program ε R α
  | pure a, _ => pure a
  | throw e, handler => handler e
  | query q next, handler => query q fun r => (next r).tryCatch handler

/-- `try` and `finally`. -/
def andFinally : Program ε R α → Program ε R Unit → Program ε R α
  | pure a, last => last.bind fun _ => pure a
  | throw e, last => last.bind fun _ => throw e
  | query q next, last => query q fun r => (next r).andFinally last

variable (env : Environment R W)

def wp : Program ε R α → (α → W → Prop) → (ε → W → Prop) → W → Prop
  | pure a, ok, _, w => ok a w
  | throw e, _, error, w => error e w
  | query q next, ok, error, w => env.may w q ∧ ∀ r w', env.step w q r w' → (next r).wp ok error w'

/-- Every query that may be sent is a `P`. -/
def Only (P : Q → Prop) : Program ε R α → Prop
  | pure _ => True
  | throw _ => True
  | query q next => P q ∧ ∀ r, (next r).Only P

inductive Exec : Program ε R α → W → Except ε α → W → Prop where
  | pure {a : α} {w : W} : Exec (.pure a) w (.ok a) w
  | throw {e : ε} {w : W} : Exec (.throw e) w (.error e) w
  | query {q : Q} {next : R q → Program ε R α} {w w' w'' : W} {r : R q} {result : Except ε α}
      (step : env.step w q r w') (rest : Exec (next r) w' result w'') : Exec (.query q next) w result w''

section
variable {env} {ok : α → W → Prop} {error : ε → W → Prop} {w w' : W}

theorem Exec.ends {p : Program ε R α} {result : Except ε α} (run : Exec env p w result w') (h : p.wp env ok error w) :
    (∀ a, result = .ok a → ok a w') ∧ ∀ e, result = .error e → error e w' := by
  induction run with
  | pure =>
    constructor
    · rintro _ ⟨⟩
      exact h
    · nofun
  | throw =>
    constructor
    · nofun
    · rintro _ ⟨⟩
      exact h
  | query step _ ih => exact ih (h.2 _ _ step)

@[simp] theorem wp_pure (a : α) : (Pure.pure a : Program ε R α).wp env ok error w ↔ ok a w := Iff.rfl

@[simp] theorem wp_throw (e : ε) : (throw e : Program ε R α).wp env ok error w ↔ error e w := Iff.rfl

theorem wp_send {q : Q} {ok : R q → W → Prop} :
    (send q).wp env ok error w ↔ env.may w q ∧ ∀ r w', env.step w q r w' → ok r w' := Iff.rfl

theorem wp_mono {p : Program ε R α} {ok' : α → W → Prop} {error' : ε → W → Prop} (h : p.wp env ok error w)
    (oks : ∀ a w', ok a w' → ok' a w') (errors : ∀ e w', error e w' → error' e w') : p.wp env ok' error' w := by
  induction p generalizing w with
  | pure a => exact oks a w h
  | throw e => exact errors e w h
  | query q next ih => exact ⟨h.1, fun r w' step => ih r (h.2 r w' step)⟩

attribute [local simp] wp in
theorem wp_bind {p : Program ε R α} {f : α → Program ε R β} {ok : β → W → Prop} :
    (p >>= f).wp env ok error w ↔ p.wp env (fun a w' => (f a).wp env ok error w') error w := by
  show (p.bind f).wp env ok error w ↔ _
  induction p generalizing w with
  | pure a => rfl
  | throw e => rfl
  | query q next ih => simp only [bind, wp, ih]

theorem wp_tryCatch {p : Program ε R α} {handler : ε → Program ε R α} :
    (p.tryCatch handler).wp env ok error w ↔ p.wp env ok (fun e w' => (handler e).wp env ok error w') w := by
  induction p generalizing w with
  | pure a => rfl
  | throw e => rfl
  | query q next ih => simp only [tryCatch, wp, ih]

theorem wp_andFinally {p : Program ε R α} {last : Program ε R Unit} :
    (p.andFinally last).wp env ok error w ↔
      p.wp env (fun a w' => last.wp env (fun _ => ok a) error w') (fun e w' => last.wp env (fun _ => error e) error w')
        w := by
  induction p generalizing w with
  | pure a => exact wp_bind
  | throw e => exact wp_bind
  | query q next ih => simp only [andFinally, wp, ih]

theorem wp_lift {x : Except ε α} :
    (lift x : Program ε R α).wp env ok error w ↔ (∀ a, x = .ok a → ok a w) ∧ ∀ e, x = .error e → error e w := by
  cases x <;> simp [lift, wp]

theorem exec_bind {p : Program ε R α} {f : α → Program ε R β} {result : Except ε β} :
    Exec env (p >>= f) w result w' ↔
      (∃ a v, Exec env p w (.ok a) v ∧ Exec env (f a) v result w') ∨
        ∃ e, result = .error e ∧ Exec env p w (.error e) w' := by
  show Exec env (p.bind f) w result w' ↔ _
  constructor
  · intro run
    induction p generalizing w with
    | pure a => exact .inl ⟨a, w, .pure, run⟩
    | throw e =>
      cases run
      exact .inr ⟨e, rfl, .throw⟩
    | query q next ih =>
      cases run with
      | query step rest =>
        rcases ih _ rest with ⟨a, v, first, rest⟩ | ⟨e, same, first⟩
        · exact .inl ⟨a, v, .query step first, rest⟩
        · exact .inr ⟨e, same, .query step first⟩
  · intro runs
    induction p generalizing w with
    | pure a =>
      rcases runs with ⟨_, _, first, rest⟩ | ⟨_, _, first⟩
      · cases first
        exact rest
      · cases first
    | throw e =>
      rcases runs with ⟨_, _, first, rest⟩ | ⟨_, rfl, first⟩
      · cases first
      · cases first
        exact .throw
    | query q next ih =>
      rcases runs with ⟨a, v, first, rest⟩ | ⟨e, same, first⟩
      · cases first with
        | query step first => exact .query step (ih _ (.inl ⟨a, v, first, rest⟩))
      · cases first with
        | query step first => exact .query step (ih _ (.inr ⟨e, same, first⟩))

theorem exec_pure {a : α} {result : Except ε α} :
    Exec env (Pure.pure a) w result w' ↔ result = .ok a ∧ w' = w := by
  constructor
  · intro run
    cases run
    exact ⟨rfl, rfl⟩
  · rintro ⟨rfl, rfl⟩
    exact .pure

theorem exec_throw {e : ε} {result : Except ε α} :
    Exec env (throw e) w result w' ↔ result = .error e ∧ w' = w := by
  constructor
  · intro run
    cases run
    exact ⟨rfl, rfl⟩
  · rintro ⟨rfl, rfl⟩
    exact .throw

theorem exec_lift {x result : Except ε α} : Exec env (lift x) w result w' ↔ result = x ∧ w' = w := by
  cases x with
  | ok a => exact exec_pure
  | error e => exact exec_throw

theorem exec_send {q : Q} {result : Except ε (R q)} :
    Exec env (send q) w result w' ↔ ∃ r, env.step w q r w' ∧ result = .ok r := by
  constructor
  · intro run
    cases run with
    | query step rest =>
      cases rest
      exact ⟨_, step, rfl⟩
  · rintro ⟨r, step, rfl⟩
    exact .query step .pure

theorem exec_tryCatch {p : Program ε R α} {handler : ε → Program ε R α} {result : Except ε α} :
    Exec env (p.tryCatch handler) w result w' ↔
      (∃ a, result = .ok a ∧ Exec env p w (.ok a) w') ∨
        ∃ e v, Exec env p w (.error e) v ∧ Exec env (handler e) v result w' := by
  constructor
  · intro run
    induction p generalizing w with
    | pure a =>
      cases run
      exact .inl ⟨a, rfl, .pure⟩
    | throw e => exact .inr ⟨e, w, .throw, run⟩
    | query q next ih =>
      cases run with
      | query step rest =>
        rcases ih _ rest with ⟨a, same, first⟩ | ⟨e, v, first, rest⟩
        · exact .inl ⟨a, same, .query step first⟩
        · exact .inr ⟨e, v, .query step first, rest⟩
  · intro runs
    induction p generalizing w with
    | pure a =>
      rcases runs with ⟨_, rfl, first⟩ | ⟨_, _, first, _⟩
      · exact first
      · cases first
    | throw e =>
      rcases runs with ⟨_, _, first⟩ | ⟨_, _, first, rest⟩
      · cases first
      · cases first
        exact rest
    | query q next ih =>
      rcases runs with ⟨a, same, first⟩ | ⟨e, v, first, rest⟩
      · cases first with
        | query step first => exact .query step (ih _ (.inl ⟨a, same, first⟩))
      · cases first with
        | query step first => exact .query step (ih _ (.inr ⟨e, v, first, rest⟩))

end

/-! ## Programs that only send some queries -/

section
variable {P : Q → Prop}

theorem only_bind {p : Program ε R α} {f : α → Program ε R β} (hp : p.Only P) (hf : ∀ a, (f a).Only P) :
    (p >>= f).Only P := by
  show (p.bind f).Only P
  induction p with
  | pure a => exact hf a
  | throw e => trivial
  | query q next ih => exact ⟨hp.1, fun r => ih r (hp.2 r)⟩

theorem only_tryCatch {p : Program ε R α} {handler : ε → Program ε R α} (hp : p.Only P)
    (handled : ∀ e, (handler e).Only P) : (p.tryCatch handler).Only P := by
  induction p with
  | pure a => trivial
  | throw e => exact handled e
  | query q next ih => exact ⟨hp.1, fun r => ih r (hp.2 r)⟩

theorem only_andFinally {p : Program ε R α} {last : Program ε R Unit} (hp : p.Only P) (hlast : last.Only P) :
    (p.andFinally last).Only P := by
  induction p with
  | pure a => exact only_bind hlast fun _ => trivial
  | throw e => exact only_bind hlast fun _ => trivial
  | query q next ih => exact ⟨hp.1, fun r => ih r (hp.2 r)⟩

theorem only_lift (x : Except ε α) : (lift x : Program ε R α).Only P := by
  cases x <;> trivial

theorem only_send {q : Q} (h : P q) : (send q : Program ε R (R q)).Only P := ⟨h, fun _ => trivial⟩

/-- What all these queries keep holds at the end. -/
theorem Only.keeps {env : Environment R W} {I : W → Prop} {p : Program ε R α} (h : p.Only P)
    (keeps : ∀ w q, P q → I w → env.may w q ∧ ∀ r w', env.step w q r w' → I w') {w : W} (holds : I w) :
    p.wp env (fun _ => I) (fun _ => I) w := by
  induction p generalizing w with
  | pure a => exact holds
  | throw e => exact holds
  | query q next ih =>
    obtain ⟨may, step⟩ := keeps w q h.1 holds
    exact ⟨may, fun r w' answered => ih r (h.2 r) (step r w' answered)⟩

/-- Worlds that answer these queries alike run the program alike. -/
theorem Exec.simulate {env : Environment R W} {Alike : W → W → Prop} {p : Program ε R α} (only : p.Only P)
    (alike : ∀ w v q r w', P q → Alike w v → env.step w q r w' → ∃ v', env.step v q r v' ∧ Alike w' v')
    {w w' v : W} {result : Except ε α} (run : Exec env p w result w') (h : Alike w v) :
    ∃ v', Exec env p v result v' ∧ Alike w' v' := by
  induction run generalizing v with
  | pure => exact ⟨v, .pure, h⟩
  | throw => exact ⟨v, .throw, h⟩
  | query step _ ih =>
    obtain ⟨v', step', h'⟩ := alike _ _ _ _ _ only.1 h step
    obtain ⟨v'', rest, last⟩ := ih (only.2 _) h'
    exact ⟨v'', .query step' rest, last⟩

end

/-! ## Runs that are computed -/

/-- The run in which these are the answers. -/
def play (answer : W → (q : Q) → R q × W) : Program ε R α → W → Except ε α × W
  | pure a, w => (.ok a, w)
  | throw e, w => (.error e, w)
  | query q next, w => (next (answer w q).1).play answer (answer w q).2

theorem exec_play {env : Environment R W} {answer : W → (q : Q) → R q × W} {I : W → Prop}
    (sound : ∀ w q, I w → env.step w q (answer w q).1 (answer w q).2 ∧ I (answer w q).2) (p : Program ε R α) {w : W}
    (holds : I w) : Exec env p w (p.play answer w).1 (p.play answer w).2 := by
  induction p generalizing w with
  | pure a => exact .pure
  | throw e => exact .throw
  | query q next ih => exact .query (sound w q holds).1 (ih _ (sound w q holds).2)

end Program

end GuloGulo.Sql
