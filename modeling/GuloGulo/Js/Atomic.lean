import GuloGulo.Js.Effect

/-!
# Throws that leave nothing behind

Mutations made before a throw stay. A computation is atomic where a throw finds
the state as it was. What only reads may stand in front; from the first
mutation on, every way to throw matters.
-/

namespace GuloGulo.Js.Eff
variable {ε σ α β : Type} {s : σ}

def Atomic (m : Eff ε σ α) (s : σ) : Prop := ∀ e, (m s).1 = .error e → (m s).2 = s

theorem bind_assoc {γ : Type} (m : Eff ε σ α) (f : α → Eff ε σ β) (g : β → Eff ε σ γ) :
    m >>= f >>= g = m >>= fun a => f a >>= g := by
  funext s
  show bind (bind m f) g s = bind m (fun a => bind (f a) g) s
  unfold bind
  rcases m s with ⟨r, t⟩
  cases r with
  | ok a => rfl
  | error e => rfl

theorem atomic_readOnly {m : Eff ε σ α} (h : ReadOnly m) (s : σ) : Atomic m s := fun _ _ => h s

/-- A computation that goes on in the same state. -/
theorem bind_of_readOnly {m : Eff ε σ β} (h : ReadOnly m) {f : β → Eff ε σ α} {b : β} (ok : (m s).1 = .ok b) :
    (m >>= f) s = f b s := by
  have run : m s = (.ok b, s) := Prod.ext ok (h s)
  show bind m f s = _
  simp only [bind, run]

theorem bind_of_error {m : Eff ε σ β} {f : β → Eff ε σ α} {e : ε} (error : (m s).1 = .error e) :
    (m >>= f) s = (.error e, (m s).2) := by
  have run : m s = (.error e, (m s).2) := Prod.ext error rfl
  show bind m f s = _
  simp only [bind]
  rw [run]

theorem atomic_bind {m : Eff ε σ β} (h : ReadOnly m) {f : β → Eff ε σ α} :
    Atomic (m >>= f) s ↔ ∀ b, (m s).1 = .ok b → Atomic (f b) s := by
  constructor
  · intro atomic b ok
    unfold Atomic at atomic ⊢
    rw [bind_of_readOnly h ok] at atomic
    exact atomic
  · intro rest
    cases hm : (m s).1 with
    | ok b =>
      have atomic := rest b hm
      unfold Atomic at atomic ⊢
      rw [bind_of_readOnly h hm]
      exact atomic
    | error e =>
      intro _ _
      rw [bind_of_error hm]
      exact h s

theorem atomic_check_bind {x : Except ε β} {f : β → Eff (Thrown ε) σ α} :
    Atomic (check x >>= f) s ↔ ∀ b, x = .ok b → Atomic (f b) s := by
  rw [atomic_bind (readOnly_check x)]
  simp only [check_fst_eq_ok]

theorem atomic_lift_bind {x : Except ε β} {f : β → Eff ε σ α} :
    Atomic (lift x >>= f) s ↔ ∀ b, x = .ok b → Atomic (f b) s :=
  atomic_bind (readOnly_lift x)

theorem atomic_get_bind {f : σ → Eff ε σ α} : Atomic (get >>= f) s ↔ Atomic (f s) s := Iff.rfl

theorem atomic_pure (a : α) (s : σ) : Atomic (pure a : Eff ε σ α) s := atomic_readOnly (readOnly_pure a) s

theorem bind_pure_run {m : Eff ε σ β} {f : β → α} : (m >>= fun b => pure (f b)) s = ((m s).1.map f, (m s).2) := by
  show bind m _ s = _
  rcases h : m s with ⟨r, s'⟩
  cases r with
  | ok b =>
    simp only [bind, h]
    rfl
  | error e =>
    simp only [bind, h]
    rfl

/-- What follows cannot throw. -/
theorem atomic_bind_answers {m : Eff ε σ β} {f : β → Eff ε σ α} (answers : ∀ b t, ∃ a, (f b t).1 = .ok a) :
    Atomic (m >>= f) s ↔ Atomic m s := by
  unfold Atomic
  cases hm : (m s).1 with
  | ok b =>
    have run : (m >>= f) s = f b (m s).2 := by
      have run : m s = (.ok b, (m s).2) := Prod.ext hm rfl
      show bind m f s = _
      simp only [bind]
      rw [run]
    constructor
    · intro _ e h
      cases h
    · intro _ e h
      obtain ⟨a, answered⟩ := answers b (m s).2
      rw [run, answered] at h
      cases h
  | error e =>
    rw [bind_of_error hm]
    constructor
    · intro h _ _
      exact h e rfl
    · intro h _ _
      exact h e rfl

/-- An answer that is only wrapped. -/
theorem atomic_map {m : Eff ε σ β} {f : β → α} : Atomic (m >>= fun b => pure (f b)) s ↔ Atomic m s :=
  atomic_bind_answers fun b _ => ⟨f b, rfl⟩

end GuloGulo.Js.Eff
