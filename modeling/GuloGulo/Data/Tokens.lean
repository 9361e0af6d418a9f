import Mathlib.Data.List.Nodup

/-!
# Tokens that are used once

Each owner is issued tokens that expire, that it uses up and that are revoked
all together; at most so many are kept. What is left of them is read off the
history of the events, the latest first.
-/

namespace GuloGulo.Data.Tokens

structure Entry (τ : Type) where
  token : τ
  issuedAt : Nat
  expiresAt : Nat
  deriving DecidableEq

inductive Event (κ τ : Type) where
  | issued (owner : κ) (entry : Entry τ)
  | consumed (owner : κ) (token : τ)
  | revoked (owner : κ)
  deriving DecidableEq

section
variable {κ τ : Type}

def entries : List (Event κ τ) → List (Entry τ)
  | [] => []
  | .issued _ x :: past => x :: entries past
  | .consumed _ _ :: past => entries past
  | .revoked _ :: past => entries past

/-- The tokens issued, to whomever. -/
def tokens (past : List (Event κ τ)) : List τ := (entries past).map (·.token)

/-- No token is issued twice or used up before it is issued, and the time does not run backwards. -/
def Orderly : List (Event κ τ) → Prop
  | [] => True
  | .issued _ x :: past => x.token ∉ tokens past ∧ (∀ y ∈ entries past, y.issuedAt ≤ x.issuedAt) ∧ Orderly past
  | .consumed _ t :: past => t ∈ tokens past ∧ Orderly past
  | .revoked _ :: past => Orderly past

def unexpired (now : Nat) (xs : List (Entry τ)) : List (Entry τ) := xs.filter fun x => decide (now < x.expiresAt)

variable [DecidableEq κ]

/-- The entries issued to an owner, the latest first. -/
def issuedTo (owner : κ) : List (Event κ τ) → List (Entry τ)
  | [] => []
  | .issued o x :: past => if o = owner then x :: issuedTo owner past else issuedTo owner past
  | .consumed _ _ :: past => issuedTo owner past
  | .revoked _ :: past => issuedTo owner past

variable [DecidableEq τ]

/-- What is kept for an owner, the latest first. Where an entry is issued, those
that have expired go and then the oldest, until one fewer than `max` are left. -/
def kept (max : Nat) (owner : κ) : List (Event κ τ) → List (Entry τ)
  | [] => []
  | .issued o x :: past =>
    if o = owner then x :: (unexpired x.issuedAt (kept max owner past)).take (max - 1)
    else kept max owner past
  | .consumed o t :: past =>
    if o = owner then (kept max owner past).filter fun y => decide (y.token ≠ t) else kept max owner past
  | .revoked o :: past => if o = owner then [] else kept max owner past

/-- Of the entries issued in a stretch of the history, those that are not used
up in it and have not expired at a time. -/
def remaining (owner : κ) (t : Nat) (stretch : List (Event κ τ)) : List (Entry τ) :=
  (issuedTo owner stretch).filter fun x => decide (t < x.expiresAt ∧ .consumed owner x.token ∉ stretch)

/-- Since a token was issued, another was at a moment when one fewer than `max`
of those issued in between remained. -/
def Displaced (max : Nat) (owner : κ) (later : List (Event κ τ)) : Prop :=
  ∃ after x between, later = after ++ .issued owner x :: between ∧
    max ≤ (remaining owner x.issuedAt between).length + 1

/-- A token of the owner that is neither expired nor used up, revoked or displaced. -/
def Outstanding (max : Nat) (past : List (Event κ τ)) (owner : κ) (token : τ) (now : Nat) : Prop :=
  ∃ later x earlier, past = later ++ .issued owner x :: earlier ∧ x.token = token ∧ now < x.expiresAt ∧
    .consumed owner token ∉ later ∧ .revoked owner ∉ later ∧ ¬ Displaced max owner later

end

/-! ## Histories -/

section
variable {κ τ : Type} {past later earlier : List (Event κ τ)} {owner : κ} {x : Entry τ} {t : τ}

attribute [local simp] entries in
theorem entries_append (later past : List (Event κ τ)) : entries (later ++ past) = entries later ++ entries past := by
  induction later with
  | nil => rfl
  | cons e later ih => cases e <;> simp [entries, ih]

theorem Orderly.of_append (orderly : Orderly (later ++ past)) : Orderly past := by
  induction later with
  | nil => exact orderly
  | cons e later ih =>
    cases e with
    | issued => exact ih orderly.2.2
    | consumed => exact ih orderly.2
    | revoked => exact ih orderly

/-- What is used up has been issued. -/
theorem Orderly.issued_of_consumed (orderly : Orderly past) (h : .consumed owner t ∈ past) : t ∈ tokens past := by
  induction past with
  | nil => cases h
  | cons e past ih =>
    cases e with
    | issued o x =>
      rcases List.mem_cons.mp h with same | h
      · cases same
      · exact List.mem_cons_of_mem _ (ih orderly.2.2 h)
    | consumed o u =>
      rcases List.mem_cons.mp h with same | h
      · cases same
        exact orderly.1
      · exact ih orderly.2 h
    | revoked o =>
      rcases List.mem_cons.mp h with same | h
      · cases same
      · exact ih orderly h

theorem Orderly.nodup (orderly : Orderly past) : (tokens past).Nodup := by
  induction past with
  | nil => exact List.nodup_nil
  | cons e past ih =>
    cases e with
    | issued => exact List.nodup_cons.mpr ⟨orderly.1, ih orderly.2.2⟩
    | consumed => exact ih orderly.2
    | revoked => exact ih orderly

theorem Orderly.unconsumed (orderly : Orderly (.issued owner x :: past)) (o : κ) : .consumed o x.token ∉ past :=
  fun h => orderly.1 (orderly.2.2.issued_of_consumed h)

variable [DecidableEq κ]

attribute [local simp] issuedTo in
theorem issuedTo_sublist (owner : κ) (past : List (Event κ τ)) : (issuedTo owner past).Sublist (entries past) := by
  induction past with
  | nil => exact List.Sublist.refl _
  | cons e past ih =>
    cases e with
    | issued o x =>
      rw [issuedTo, entries]
      split
      · exact ih.cons_cons x
      · exact ih.cons x
    | consumed => exact ih
    | revoked => exact ih

theorem issuedTo_append (owner : κ) (later past : List (Event κ τ)) :
    issuedTo owner (later ++ past) = issuedTo owner later ++ issuedTo owner past := by
  induction later with
  | nil => rfl
  | cons e later ih =>
    cases e with
    | issued o x =>
      rw [List.cons_append, issuedTo, issuedTo]
      split
      · rw [ih, List.cons_append]
      · exact ih
    | consumed => exact ih
    | revoked => exact ih

theorem Orderly.issuedAt_le {o : κ} (orderly : Orderly (.issued o x :: (later ++ past))) :
    ∀ y ∈ issuedTo owner later, y.issuedAt ≤ x.issuedAt := by
  intro y h
  apply orderly.2.1
  rw [entries_append]
  exact List.mem_append_left _ ((issuedTo_sublist owner later).subset h)

end

/-! ## What is kept -/

attribute [local simp] unexpired in
theorem mem_unexpired {τ : Type} {now : Nat} {xs : List (Entry τ)} {x : Entry τ} :
    x ∈ unexpired now xs ↔ x ∈ xs ∧ now < x.expiresAt := by
  rw [unexpired, List.mem_filter, decide_eq_true_eq]

theorem unexpired_cons {τ : Type} (now : Nat) (x : Entry τ) (xs : List (Entry τ)) :
    unexpired now (x :: xs) = if now < x.expiresAt then x :: unexpired now xs else unexpired now xs := by
  simp only [unexpired, List.filter_cons, decide_eq_true_eq]

theorem unexpired_append {τ : Type} (now : Nat) (xs ys : List (Entry τ)) :
    unexpired now (xs ++ ys) = unexpired now xs ++ unexpired now ys := List.filter_append ..

/-- What has expired does not come back. -/
theorem unexpired_unexpired {τ : Type} {earlier now : Nat} (h : earlier ≤ now) (xs : List (Entry τ)) :
    unexpired now (unexpired earlier xs) = unexpired now xs := by
  rw [unexpired, unexpired, List.filter_filter, unexpired]
  apply List.filter_congr
  intro x _
  rw [← Bool.decide_and, decide_eq_decide]
  omega

theorem unexpired_filter {τ : Type} (p : Entry τ → Bool) (now : Nat) (xs : List (Entry τ)) :
    unexpired now (xs.filter p) = (unexpired now xs).filter p := by
  rw [unexpired, unexpired, List.filter_comm]

section
variable {κ τ : Type} [DecidableEq κ] [DecidableEq τ] {max : Nat} {past later earlier : List (Event κ τ)} {owner : κ}
  {x : Entry τ} {t : τ} {now : Nat}

attribute [local simp] kept in
theorem kept_sublist (max : Nat) (owner : κ) (past : List (Event κ τ)) :
    (kept max owner past).Sublist (issuedTo owner past) := by
  induction past with
  | nil => exact List.Sublist.refl _
  | cons e past ih =>
    cases e with
    | issued o x =>
      rw [kept, issuedTo]
      split
      · exact (((List.take_sublist _ _).trans List.filter_sublist).trans ih).cons_cons x
      · exact ih
    | consumed o t =>
      rw [kept, issuedTo]
      split
      · exact List.filter_sublist.trans ih
      · exact ih
    | revoked o =>
      rw [kept, issuedTo]
      split
      · exact List.nil_sublist _
      · exact ih

theorem kept_nodup (max : Nat) (owner : κ) (orderly : Orderly past) : (kept max owner past).Nodup :=
  (List.Nodup.of_map _ orderly.nodup).sublist ((kept_sublist max owner past).trans (issuedTo_sublist owner past))

theorem kept_length (positive : 1 ≤ max) (owner : κ) (past : List (Event κ τ)) : (kept max owner past).length ≤ max := by
  induction past with
  | nil => exact Nat.zero_le _
  | cons e past ih =>
    cases e with
    | issued o x =>
      rw [kept]
      split
      · rw [List.length_cons, List.length_take]
        omega
      · exact ih
    | consumed o t =>
      rw [kept]
      split
      · exact Nat.le_trans (List.length_filter_le _ _) ih
      · exact ih
    | revoked o =>
      rw [kept]
      split
      · exact Nat.zero_le _
      · exact ih

theorem not_displaced_nil : ¬ Displaced max owner ([] : List (Event κ τ)) := by
  rintro ⟨after, x, between, none, _⟩
  simp at none

/-- The latest event displaces, or one before it has. -/
theorem displaced_cons {e : Event κ τ} : Displaced max owner (e :: later) ↔
    (∃ y, e = .issued owner y ∧ max ≤ (remaining owner y.issuedAt later).length + 1) ∨ Displaced max owner later := by
  constructor
  · rintro ⟨after, y, between, same, many⟩
    cases after with
    | nil =>
      obtain ⟨rfl, rfl⟩ := List.cons.inj same
      exact .inl ⟨y, rfl, many⟩
    | cons _ after =>
      obtain ⟨rfl, rfl⟩ := List.cons.inj same
      exact .inr ⟨after, y, between, rfl, many⟩
  · rintro (⟨y, rfl, many⟩ | ⟨after, y, between, rfl, many⟩)
    · exact ⟨[], y, later, rfl, many⟩
    · exact ⟨e :: after, y, between, rfl, many⟩

/-- Fewer than `max` later tokens displace none. -/
theorem not_displaced (few : (issuedTo owner later).length < max) : ¬ Displaced max owner later := by
  rintro ⟨after, x, between, rfl, many⟩
  have atMost : (remaining owner x.issuedAt between).length ≤ (issuedTo owner between).length := List.length_filter_le _ _
  rw [issuedTo_append, issuedTo, if_pos rfl, List.length_append, List.length_cons] at few
  omega

/-! ## What remains -/

theorem unexpired_remaining (owner : κ) (now : Nat) (past : List (Event κ τ)) :
    unexpired now (remaining owner now past) = remaining owner now past := by
  rw [unexpired, List.filter_eq_self]
  intro y h
  exact decide_eq_true (of_decide_eq_true (List.mem_filter.mp h).2).1

theorem remaining_issued (fresh : .consumed owner x.token ∉ past) (now : Nat) :
    remaining owner now (.issued owner x :: past) = unexpired now (x :: remaining owner now past) := by
  rw [unexpired_cons, unexpired_remaining, remaining, remaining, issuedTo, if_pos rfl, List.filter_cons]
  simp only [List.mem_cons, reduceCtorEq, false_or, fresh, not_false_eq_true, and_true, decide_eq_true_eq]

theorem remaining_consumed (owner : κ) (t : τ) (now : Nat) (past : List (Event κ τ)) :
    remaining owner now (.consumed owner t :: past) =
      (remaining owner now past).filter fun y => decide (y.token ≠ t) := by
  rw [remaining, remaining, issuedTo, List.filter_filter]
  congr 1
  funext y
  rw [← Bool.decide_and]
  congr 1
  simp only [List.mem_cons, Event.consumed.injEq, true_and, not_or, ne_eq, eq_iff_iff]
  tauto

theorem remaining_other {e : Event κ τ} (issues : issuedTo owner (e :: past) = issuedTo owner past)
    (consumes : ∀ t, e ≠ .consumed owner t) (now : Nat) : remaining owner now (e :: past) = remaining owner now past := by
  rw [remaining, remaining, issues]
  congr 1
  funext y
  simp only [List.mem_cons, (consumes y.token).symm, false_or]

/-- An entry whose owner has not lost it is kept, and of those kept in front of
it the ones in time are those that remain of the entries issued since. -/
theorem kept_split (orderly : Orderly (later ++ .issued owner x :: earlier)) (unconsumed : .consumed owner x.token ∉ later)
    (unrevoked : .revoked owner ∉ later) (inTime : ∀ y ∈ issuedTo owner later, y.issuedAt < x.expiresAt)
    (stays : ¬ Displaced max owner later) :
    ∃ newer older, kept max owner (later ++ .issued owner x :: earlier) = newer ++ x :: older ∧
      ∀ t, (∀ y ∈ issuedTo owner later, y.issuedAt ≤ t) → unexpired t newer = remaining owner t later := by
  induction later with
  | nil =>
    rw [List.nil_append, kept, if_pos rfl]
    exact ⟨[], _, rfl, fun _ _ => rfl⟩
  | cons e later ih =>
    have rest := ih (Orderly.of_append (show Orderly ([e] ++ _) from orderly)) (fun h => unconsumed (List.mem_cons_of_mem _ h))
      (fun h => unrevoked (List.mem_cons_of_mem _ h))
    have stays' : ¬ Displaced max owner later := fun h => stays (displaced_cons.mpr (.inr h))
    rw [List.cons_append] at orderly ⊢
    cases e with
    | issued o y =>
      by_cases own : o = owner
      · subst own
        rw [issuedTo, if_pos rfl, List.forall_mem_cons] at inTime
        obtain ⟨newer, older, split, left⟩ := rest inTime.2 stays'
        have earliest : ∀ z ∈ issuedTo o later, z.issuedAt ≤ y.issuedAt := orderly.issuedAt_le
        have room : (remaining o y.issuedAt later).length + 1 < max :=
          Nat.not_le.mp fun many => stays (displaced_cons.mpr (.inl ⟨y, rfl, many⟩))
        have fresh : .consumed o y.token ∉ later := fun h => orderly.unconsumed o (List.mem_append_left _ h)
        obtain ⟨places, count⟩ : ∃ n, max - 1 - (remaining o y.issuedAt later).length = n + 1 :=
          ⟨max - 2 - (remaining o y.issuedAt later).length, by omega⟩
        rw [kept, if_pos rfl, split, unexpired_append, left _ earliest, unexpired_cons, if_pos inTime.1,
          List.take_append, List.take_of_length_le (by omega), count, List.take_succ_cons]
        refine ⟨y :: remaining o y.issuedAt later, _, rfl, ?_⟩
        intro t seen
        rw [issuedTo, if_pos rfl, List.forall_mem_cons] at seen
        rw [remaining_issued fresh, ← left t seen.2, ← left _ earliest]
        rw [unexpired_cons, unexpired_cons, unexpired_unexpired seen.1, unexpired_unexpired (Nat.le_refl t)]
      · rw [issuedTo, if_neg own] at inTime
        obtain ⟨newer, older, split, left⟩ := rest inTime stays'
        rw [kept, if_neg own]
        refine ⟨newer, older, split, ?_⟩
        intro t seen
        have skipped : issuedTo owner (.issued o y :: later) = issuedTo owner later := if_neg own
        rw [remaining_other skipped (by simp) t]
        exact left t (skipped ▸ seen)
    | consumed o u =>
      obtain ⟨newer, older, split, left⟩ := rest inTime stays'
      by_cases own : o = owner
      · subst own
        have other : x.token ≠ u := by
          rintro rfl
          exact unconsumed List.mem_cons_self
        rw [kept, if_pos rfl, split, List.filter_append, List.filter_cons, if_pos (decide_eq_true other)]
        refine ⟨_, _, rfl, ?_⟩
        intro t seen
        rw [unexpired_filter, left t seen, remaining_consumed]
      · rw [kept, if_neg own]
        refine ⟨newer, older, split, ?_⟩
        intro t seen
        rw [remaining_other rfl _ t]
        · exact left t seen
        · rintro t ⟨⟩
          exact own rfl
    | revoked o =>
      obtain ⟨newer, older, split, left⟩ := rest inTime stays'
      have own : o ≠ owner := by
        rintro rfl
        exact unrevoked List.mem_cons_self
      rw [kept, if_neg own]
      refine ⟨newer, older, split, ?_⟩
      intro t seen
      rw [remaining_other rfl (by simp) t]
      exact left t seen

/-- An entry that is kept was issued to the owner and has not been lost since. -/
theorem issued_of_kept (orderly : Orderly past) (h : x ∈ kept max owner past) :
    ∃ later earlier, past = later ++ .issued owner x :: earlier ∧ .consumed owner x.token ∉ later ∧
      .revoked owner ∉ later ∧ (∀ y ∈ issuedTo owner later, y.issuedAt < x.expiresAt) ∧ ¬ Displaced max owner later := by
  induction past with
  | nil => cases h
  | cons e past ih =>
    cases e with
    | issued o y =>
      by_cases own : o = owner
      · subst own
        rw [kept, if_pos rfl] at h
        rcases List.mem_cons.mp h with rfl | h
        · exact ⟨[], past, rfl, List.not_mem_nil, List.not_mem_nil, by simp [issuedTo], not_displaced_nil⟩
        · obtain ⟨inside, soon⟩ := mem_unexpired.mp (List.mem_of_mem_take h)
          obtain ⟨later, earlier, rfl, unconsumed, unrevoked, inTime, stays⟩ := ih orderly.2.2 inside
          refine ⟨.issued o y :: later, earlier, rfl, by simpa using unconsumed, by simpa using unrevoked, ?_, ?_⟩
          · rw [issuedTo, if_pos rfl, List.forall_mem_cons]
            exact ⟨soon, inTime⟩
          · rw [displaced_cons]
            rintro (⟨z, ⟨⟩, many⟩ | displaced)
            · obtain ⟨newer, older, split, left⟩ := kept_split orderly.2.2 unconsumed unrevoked inTime stays
              have once := kept_nodup max o orderly.2.2
              rw [split, unexpired_append, left _ orderly.issuedAt_le, List.take_append_of_le_length (by omega),
                ← left _ orderly.issuedAt_le] at h
              rw [split] at once
              have front := (mem_unexpired.mp (List.mem_of_mem_take h)).1
              exact (List.nodup_append.mp once).2.2 x front x List.mem_cons_self rfl
            · exact stays displaced
      · rw [kept, if_neg own] at h
        obtain ⟨later, earlier, rfl, unconsumed, unrevoked, inTime, stays⟩ := ih orderly.2.2 h
        refine ⟨.issued o y :: later, earlier, rfl, by simpa using unconsumed, by simpa using unrevoked, ?_, ?_⟩
        · rw [issuedTo, if_neg own]
          exact inTime
        · rw [displaced_cons]
          rintro (⟨z, ⟨⟩, _⟩ | displaced)
          · exact own rfl
          · exact stays displaced
    | consumed o u =>
      have inside : x ∈ kept max owner past ∧ (o = owner → x.token ≠ u) := by
        rw [kept] at h
        split at h
        · obtain ⟨inside, other⟩ := List.mem_filter.mp h
          exact ⟨inside, fun _ => of_decide_eq_true other⟩
        · rename_i own
          exact ⟨h, fun same => absurd same own⟩
      obtain ⟨later, earlier, rfl, unconsumed, unrevoked, inTime, stays⟩ := ih orderly.2 inside.1
      refine ⟨.consumed o u :: later, earlier, rfl, ?_, by simpa using unrevoked, inTime, ?_⟩
      · rw [List.mem_cons, not_or]
        refine ⟨?_, unconsumed⟩
        rintro ⟨⟩
        exact inside.2 rfl rfl
      · rw [displaced_cons]
        rintro (⟨z, ⟨⟩, _⟩ | displaced)
        exact stays displaced
    | revoked o =>
      by_cases own : o = owner
      · rw [kept, if_pos own] at h
        cases h
      · rw [kept, if_neg own] at h
        obtain ⟨later, earlier, rfl, unconsumed, unrevoked, inTime, stays⟩ := ih orderly h
        refine ⟨.revoked o :: later, earlier, rfl, by simpa using unconsumed, ?_, inTime, ?_⟩
        · rw [List.mem_cons, not_or]
          refine ⟨?_, unrevoked⟩
          rintro ⟨⟩
          exact own rfl
        · rw [displaced_cons]
          rintro (⟨z, ⟨⟩, _⟩ | displaced)
          exact stays displaced

/-- What is kept and in time is what is outstanding. -/
theorem outstanding_iff (orderly : Orderly past) (seen : ∀ y ∈ issuedTo owner past, y.issuedAt ≤ now) :
    Outstanding max past owner t now ↔ ∃ x ∈ unexpired now (kept max owner past), x.token = t := by
  constructor
  · rintro ⟨later, x, earlier, rfl, rfl, soon, unconsumed, unrevoked, stays⟩
    have inTime : ∀ y ∈ issuedTo owner later, y.issuedAt < x.expiresAt := by
      intro y h
      have := seen y (by rw [issuedTo_append]; exact List.mem_append_left _ h)
      omega
    obtain ⟨newer, older, split, _⟩ := kept_split orderly unconsumed unrevoked inTime stays
    refine ⟨x, mem_unexpired.mpr ⟨?_, soon⟩, rfl⟩
    rw [split]
    exact List.mem_append_right _ List.mem_cons_self
  · rintro ⟨x, h, rfl⟩
    obtain ⟨inside, soon⟩ := mem_unexpired.mp h
    obtain ⟨later, earlier, rfl, unconsumed, unrevoked, _, stays⟩ := issued_of_kept orderly inside
    exact ⟨later, x, earlier, rfl, rfl, soon, unconsumed, unrevoked, stays⟩

end

end GuloGulo.Data.Tokens
