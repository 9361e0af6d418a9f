import GuloGulo.Js.Value

/-!
# Synchronous code that throws

`Except` is a function that only computes; `Eff` is one that also mutates. A
throw ends an `Eff` computation and keeps the mutations made before it, as in
JavaScript. `wp` is the weakest precondition, with one rule for each way a
computation is built.
-/

namespace GuloGulo.Js

instance decEqExcept {ε α : Type} [DecidableEq ε] [DecidableEq α] : DecidableEq (Except ε α)
  | .ok a, .ok b => decidable_of_iff (a = b) (by simp)
  | .error e, .error f => decidable_of_iff (e = f) (by simp)
  | .ok _, .error _ => isFalse nofun
  | .error _, .ok _ => isFalse nofun

section
variable {ε α β : Type}

/-- `if (c) throw e`. -/
def throwIf (c : Bool) (e : ε) : Except ε Unit := if c then .error e else .ok ()

theorem bind_eq_ok {x : Except ε α} {f : α → Except ε β} {b : β} :
    (x >>= f) = .ok b ↔ ∃ a, x = .ok a ∧ f a = .ok b := by
  cases x <;> simp [bind, Except.bind]

theorem eq_ok_of_toBool {x : Except ε α} (h : x.toBool) : ∃ a, x = .ok a := by
  cases x with
  | ok a => exact ⟨a, rfl⟩
  | error => cases h

theorem isOk_of_eq {x : Except ε α} {a : α} (h : x = .ok a) : x.isOk := by
  rw [h]
  rfl

theorem not_isOk_of_eq {x : Except ε α} {e : ε} (h : x = .error e) : ¬ x.isOk := by
  rw [h]
  exact Bool.false_ne_true

theorem map_eq_ok {x : Except ε α} {f : α → β} {b : β} : x.map f = .ok b ↔ ∃ a, x = .ok a ∧ f a = b := by
  cases x <;> simp [Except.map]

@[simp] theorem mapError_ok {ε' : Type} (a : α) (f : ε → ε') : (Except.ok a).mapError f = .ok a := rfl

@[simp] theorem mapError_error {ε' : Type} (e : ε) (f : ε → ε') :
    (Except.error e : Except ε α).mapError f = .error (f e) := rfl

theorem mapError_eq_ok {ε' : Type} {x : Except ε α} {f : ε → ε'} {a : α} :
    x.mapError f = .ok a ↔ x = .ok a := by
  cases x <;> simp

theorem throwIf_eq_ok {c : Bool} {e : ε} {u : Unit} : throwIf c e = .ok u ↔ c = false := by
  cases c <;> simp [throwIf]

@[simp] theorem ok_bind (a : α) (f : α → Except ε β) : (Except.ok a >>= f) = f a := rfl

@[simp] theorem error_bind (e : ε) (f : α → Except ε β) : (Except.error e >>= f) = .error e := rfl

@[simp] theorem throwIf_true (e : ε) : throwIf true e = .error e := rfl

@[simp] theorem throwIf_false (e : ε) : throwIf false e = .ok () := rfl

/-- Every error of `x` is a `p`. -/
def Fails (p : ε → Prop) (x : Except ε α) : Prop := ∀ e, x = .error e → p e

section
variable {p : ε → Prop}

theorem fails_ok {a : α} : Fails p (.ok a) := nofun

theorem fails_error {e : ε} (h : p e) : Fails p (.error e : Except ε α) := by
  intro e' same
  cases same
  exact h

theorem fails_bind {x : Except ε α} {f : α → Except ε β} (hx : Fails p x) (hf : ∀ a, Fails p (f a)) :
    Fails p (x >>= f) := by
  cases x with
  | ok a => exact hf a
  | error e => exact fails_error (hx e rfl)

theorem fails_map {x : Except ε α} {f : α → β} (hx : Fails p x) : Fails p (x.map f) := by
  cases x with
  | ok a => exact fails_ok
  | error e => exact fails_error (hx e rfl)

theorem fails_mapError {ε' : Type} {x : Except ε' α} {f : ε' → ε} (h : ∀ e, p (f e)) : Fails p (x.mapError f) := by
  cases x with
  | ok a => exact fails_ok
  | error e => exact fails_error (h e)

theorem fails_throwIf {c : Bool} {e : ε} (h : p e) : Fails p (throwIf c e) := by
  cases c with
  | false => exact fails_ok
  | true => exact fails_error h

theorem fails_mono {q : ε → Prop} {x : Except ε α} (h : Fails p x) (imp : ∀ e, p e → q e) : Fails q x :=
  fun e he => imp e (h e he)

end

theorem mapM_eq_ok {f : α → Except ε β} {xs : List α} {ys : List β}
    (h : xs.mapM f = .ok ys) : (∀ x ∈ xs, ∃ y ∈ ys, f x = .ok y) ∧ ∀ y ∈ ys, ∃ x ∈ xs, f x = .ok y := by
  induction xs generalizing ys with
  | nil =>
    cases h
    exact ⟨by simp, by simp⟩
  | cons x xs ih =>
    rw [List.mapM_cons, bind_eq_ok] at h
    obtain ⟨y, hy, h⟩ := h
    obtain ⟨ys', hys, h⟩ := bind_eq_ok.mp h
    cases h
    obtain ⟨images, origins⟩ := ih hys
    rw [List.forall_mem_cons, List.forall_mem_cons]
    refine ⟨⟨⟨y, List.mem_cons_self, hy⟩, ?_⟩, ⟨x, List.mem_cons_self, hy⟩, ?_⟩
    · intro z hz
      obtain ⟨w, hw, hf⟩ := images z hz
      exact ⟨w, List.mem_cons_of_mem _ hw, hf⟩
    · intro w hw
      obtain ⟨z, hz, hf⟩ := origins w hw
      exact ⟨z, List.mem_cons_of_mem _ hz, hf⟩

theorem mapM_ok_of_forall {f : α → Except ε β} {xs : List α}
    (h : ∀ x ∈ xs, ∃ y, f x = .ok y) : ∃ ys, xs.mapM f = .ok ys := by
  induction xs with
  | nil => exact ⟨[], rfl⟩
  | cons x xs ih =>
    rw [List.forall_mem_cons] at h
    obtain ⟨⟨y, hy⟩, hrest⟩ := h
    obtain ⟨ys, hys⟩ := ih hrest
    exact ⟨y :: ys, by rw [List.mapM_cons, hy, ok_bind, hys]; rfl⟩

theorem mapM_pairs {f : α → Except ε β} {xs : List α} {rows : List (α × β)}
    (h : xs.mapM (fun x => do
      let y ← f x
      return (x, y)) = .ok rows) : rows.map Prod.fst = xs ∧ ∀ p ∈ rows, f p.1 = .ok p.2 := by
  induction xs generalizing rows with
  | nil =>
    cases h
    exact ⟨rfl, by simp⟩
  | cons x xs ih =>
    rw [List.mapM_cons, bind_eq_ok] at h
    obtain ⟨row, hrow, h⟩ := h
    obtain ⟨y, hy, hrow⟩ := bind_eq_ok.mp hrow
    cases hrow
    obtain ⟨rest, hrest, h⟩ := bind_eq_ok.mp h
    cases h
    obtain ⟨firsts, images⟩ := ih hrest
    refine ⟨by rw [List.map_cons, firsts], ?_⟩
    rw [List.forall_mem_cons]
    exact ⟨hy, images⟩

end

/-- What a caller can see thrown: an error of the contract, or an exception of
a callback, of the runtime or of the database driver. -/
inductive Thrown (ε : Type) where
  | contract (e : ε)
  | foreign
  deriving DecidableEq

/-- How a callback ends. -/
inductive Answer where
  | threw
  | returned (value : JsValue)

/-- A computation over a mutable state. -/
def Eff (ε σ α : Type) : Type := σ → Except ε α × σ

namespace Eff
variable {ε σ α β : Type}

def bind (m : Eff ε σ α) (f : α → Eff ε σ β) : Eff ε σ β := fun s =>
  match m s with
  | (.ok a, s') => f a s'
  | (.error e, s') => (.error e, s')

instance : Monad (Eff ε σ) where
  pure a := fun s => (.ok a, s)
  bind := bind

def lift (x : Except ε α) : Eff ε σ α := fun s => (x, s)

instance : MonadLift (Except ε) (Eff ε σ) := ⟨lift⟩

/-- A check of the contract inside code that can also fail otherwise. -/
def check (x : Except ε α) : Eff (Thrown ε) σ α := lift (x.mapError .contract)

instance : MonadLift (Except ε) (Eff (Thrown ε) σ) := ⟨check⟩

def throw (e : ε) : Eff ε σ α := lift (.error e)

def get : Eff ε σ σ := fun s => (.ok s, s)

def modify (f : σ → σ) : Eff ε σ Unit := fun s => (.ok (), f s)

/-- A computation on a part of the state. -/
def zoom {τ : Type} (get : τ → σ) (set : σ → τ → τ) (m : Eff ε σ α) : Eff ε τ α := fun t =>
  ((m (get t)).1, set (m (get t)).2 t)

/-- `Q` holds of how `m` ends when it starts in `s`. -/
def wp (m : Eff ε σ α) (s : σ) (Q : Except ε α → σ → Prop) : Prop := Q (m s).1 (m s).2

variable {s : σ} {Q : Except ε α → σ → Prop}

@[simp] theorem wp_pure (a : α) : wp (pure a) s Q ↔ Q (.ok a) s := Iff.rfl

@[simp] theorem wp_lift (x : Except ε α) : wp (lift x) s Q ↔ Q x s := Iff.rfl

theorem wp_bind {m : Eff ε σ β} {f : β → Eff ε σ α} :
    wp (m >>= f) s Q ↔ wp m s fun r s' => match r with
      | .ok b => wp (f b) s' Q
      | .error e => Q (.error e) s' := by
  show Q (bind m f s).1 (bind m f s).2 ↔ _
  rcases h : m s with ⟨r, s'⟩
  cases r <;> simp [bind, wp, h]

/-- The rule for a computation whose result is only wrapped. -/
theorem wp_bind_pure {m : Eff ε σ β} {f : β → α} (h : wp m s fun r s' => Q (r.map f) s') :
    wp (m >>= fun b => pure (f b)) s Q := by
  rw [wp_bind]
  unfold wp at h ⊢
  cases hm : (m s).1 with
  | ok b =>
    rw [hm] at h
    exact h
  | error e =>
    rw [hm] at h
    exact h

theorem wp_bind_eq {m : Eff ε σ β} {f : β → Eff ε σ α} {r : Except ε β} {s' : σ} (h : m s = (r, s')) :
    wp (m >>= f) s Q ↔ match r with
      | .ok b => wp (f b) s' Q
      | .error e => Q (.error e) s' := by
  rw [wp_bind]
  cases r <;> simp [wp, h]

/-- The rule for a check or a computation in front: either it throws and
nothing has happened, or the rest runs. -/
theorem wp_lift_bind {x : Except ε β} {f : β → Eff ε σ α} :
    wp (lift x >>= f) s Q ↔
      (∀ e, x = .error e → Q (.error e) s) ∧ ∀ b, x = .ok b → wp (f b) s Q := by
  rw [wp_bind, wp_lift]
  cases x <;> simp

theorem wp_check_bind {x : Except ε β} {f : β → Eff (Thrown ε) σ α}
    {Q : Except (Thrown ε) α → σ → Prop} :
    wp (check x >>= f) s Q ↔
      (∀ e, x = .error e → Q (.error (.contract e)) s) ∧ ∀ b, x = .ok b → wp (f b) s Q := by
  rw [check, wp_lift_bind]
  cases x <;> simp

@[simp] theorem wp_get_bind {f : σ → Eff ε σ α} : wp (get >>= f) s Q ↔ wp (f s) s Q := Iff.rfl

@[simp] theorem wp_modify_bind {g : σ → σ} {f : Unit → Eff ε σ α} :
    wp (modify g >>= f) s Q ↔ wp (f ()) (g s) Q := Iff.rfl

theorem lift_ok_bind (b : β) (f : β → Eff ε σ α) : (lift (.ok b) >>= f) = f b := rfl

theorem check_ok_bind (b : β) (f : β → Eff (Thrown ε) σ α) : (check (.ok b) >>= f) = f b := rfl

theorem get_bind (f : σ → Eff ε σ α) : (get >>= f) s = f s s := rfl

theorem bind_fst_eq_ok {m : Eff ε σ β} {f : β → Eff ε σ α} {a : α}
    (h : ((m >>= f) s).1 = .ok a) : ∃ b, (m s).1 = .ok b ∧ (f b (m s).2).1 = .ok a := by
  change (bind m f s).1 = .ok a at h
  unfold bind at h
  split at h
  · rename_i b s' hm; exact ⟨b, by rw [hm], by rw [hm]; exact h⟩
  · cases h

theorem check_fst_eq_ok {x : Except ε α} {a : α} {s : σ} :
    ((check x : Eff (Thrown ε) σ α) s).1 = .ok a ↔ x = .ok a := by
  cases x <;> simp [check, lift]

/-- A computation that changes nothing. -/
def ReadOnly (m : Eff ε σ α) : Prop := ∀ s, (m s).2 = s

theorem readOnly_pure (a : α) : ReadOnly (pure a : Eff ε σ α) := fun _ => rfl

theorem readOnly_lift (x : Except ε α) : ReadOnly (lift x : Eff ε σ α) := fun _ => rfl

theorem readOnly_check (x : Except ε α) : ReadOnly (check x : Eff (Thrown ε) σ α) := fun _ => rfl

theorem readOnly_get : ReadOnly (get : Eff ε σ σ) := fun _ => rfl

theorem readOnly_bind {m : Eff ε σ β} {f : β → Eff ε σ α} (hm : ReadOnly m)
    (hf : ∀ b, ReadOnly (f b)) : ReadOnly (m >>= f) := by
  intro s
  show (bind m f s).2 = s
  have hs := hm s
  rcases h : m s with ⟨r, s'⟩
  obtain rfl : s' = s := by simpa [h] using hs
  cases r with
  | ok b => simpa [bind, h] using hf b s'
  | error e => simp [bind, h]

theorem readOnly_bind_eq_ok {m : Eff ε σ β} {f : β → Eff ε σ α} (hm : ReadOnly m) {a : α}
    (h : ((m >>= f) s).1 = .ok a) : ∃ b, (m s).1 = .ok b ∧ (f b s).1 = .ok a := by
  obtain ⟨b, hb, h⟩ := bind_fst_eq_ok h
  rw [hm] at h
  exact ⟨b, hb, h⟩

theorem check_bind_eq_ok {x : Except ε β} {f : β → Eff (Thrown ε) σ α} {a : α}
    (h : ((check x >>= f) s).1 = .ok a) : ∃ b, x = .ok b ∧ (f b s).1 = .ok a := by
  obtain ⟨b, hb, h⟩ := bind_fst_eq_ok h
  exact ⟨b, check_fst_eq_ok.mp hb, h⟩

theorem wp_readOnly_bind {m : Eff ε σ β} {f : β → Eff ε σ α} (hm : ReadOnly m)
    (err : ∀ e, (m s).1 = .error e → Q (.error e) s)
    (ok : ∀ b, (m s).1 = .ok b → wp (f b) s Q) : wp (m >>= f) s Q := by
  rw [wp_bind]
  have hs := hm s
  rcases h : m s with ⟨r, s'⟩
  obtain rfl : s' = s := by simpa [h] using hs
  cases r with
  | ok b => simpa [wp, h] using ok b (by rw [h])
  | error e => simpa [wp, h] using err e (by rw [h])

theorem wp_mono {m : Eff ε σ α} {P : Except ε α → σ → Prop} (h : wp m s P)
    (imp : ∀ r s', P r s' → Q r s') : wp m s Q :=
  imp _ _ h

end Eff

end GuloGulo.Js
