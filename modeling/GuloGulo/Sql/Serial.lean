import GuloGulo.Sql.Interleaving

/-!
# Transactions one after another

A program that from its lock on only touches what the lock protects ends as its
run from the database it commits to. If every transaction commits so, a server
gets to where the transactions lead in the order of their commits.
-/

namespace GuloGulo.Sql
open Js

namespace Program

section
variable {ε Q α β γ : Type} {R : Q → Type}

theorem bind_assoc (p : Program ε R α) (f : α → Program ε R β) (g : β → Program ε R γ) :
    p >>= f >>= g = p >>= fun a => f a >>= g := by
  show (p.bind f).bind g = p.bind fun a => (f a).bind g
  induction p with
  | pure a => rfl
  | throw e => rfl
  | query q next ih => exact congrArg (query q) (funext ih)

end

section
variable {ε Q α D K : Type} {R : Q → Type} {exec : Semantics ε R D} {locks : Q → D → List K} {rely : Rely D K}
  {agree frame : D → D → Prop}

/-- A program leaves alone what its statements leave alone. -/
theorem run_frame (agree frame : D → D → Prop) (refl : ∀ d, agree d d) (start : ∀ d, frame d d)
    (trans : ∀ {d e f}, frame d e → frame e f → frame d f) {p : Program ε R α} (hp : p.Local exec agree frame)
    {d d' : D} {a : α} (run : p.run exec d = .ok (a, d')) : frame d d' := by
  induction p generalizing d with
  | pure b =>
    cases run
    exact start _
  | throw e => cases run
  | query q next ih =>
    obtain ⟨⟨r, e⟩, sent, run⟩ := bind_eq_ok.mp run
    obtain ⟨e', sent', _, left⟩ := hp.1 d d r e (refl d) sent
    rw [sent] at sent'
    cases sent'
    exact trans left (ih r (hp.2 r) run)

section
variable (exec locks)

/-- The end of a program that sends its first statement to `d`, where it locks
nothing, and the rest to `d'`. -/
def interrupted (d d' : D) : Program ε R α → Option (Except ε (α × D))
  | query q next =>
    match exec q d with
    | .ok (r, _) => if (locks q d).isEmpty then some ((next r).run exec (effect exec q d')) else none
    | .error _ => none
  | _ => none

end

theorem interrupted_eq_some {d d' f : D} {a : α} {p : Program ε R α}
    (h : p.interrupted exec locks d d' = some (.ok (a, f))) : ∃ q next r e, p = .query q next ∧ locks q d = [] ∧
      exec q d = .ok (r, e) ∧ (next r).run exec (effect exec q d') = .ok (a, f) := by
  cases p with
  | pure b => cases h
  | throw e => cases h
  | query q next =>
    simp only [interrupted, List.isEmpty_iff] at h
    split at h
    · rename_i r e answers
      by_cases unlocked : locks q d = []
      · rw [if_pos unlocked] at h
        exact ⟨q, next, r, e, rfl, unlocked, answers, Option.some.inj h⟩
      · rw [if_neg unlocked] at h
        cases h
    · cases h

/-- Behind the lock `k`, a program ends as its run from where it commits. -/
theorem holds_run (agree frame : D → D → Prop) (symm : ∀ {d e}, agree d e → agree e d)
    (trans : ∀ {d e f}, agree d e → agree e f → agree d f)
    {p : Program ε R α} (hp : p.Local exec agree frame) {k : K} {d : D} {writes : D → D} {held : List K}
    (hk : k ∈ held) (laid : ∀ x, rely.same k d x → agree (writes d) (writes x)) :
    p.Holds exec locks rely (fun a d' w l => p.run exec (writes d') = .ok (a, w d') ∧ k ∈ l ∧ rely.same k d d')
      d writes held := by
  induction p generalizing d writes held with
  | pure a =>
    intro d' hd
    exact ⟨rfl, hk, hd.2 k hk⟩
  | throw e => trivial
  | query q next ih =>
    intro d' hd r v hv
    have same := hd.2 k hk
    have answers (x : D) (hx : rely.same k d' x) :
        ∃ e, exec q (writes x) = .ok (r, e) ∧ agree v e := by
      have both := trans (symm (laid d' same)) (laid x (rely.same_trans same hx))
      obtain ⟨e, sent, left, _⟩ := hp.1 _ _ _ _ both hv
      exact ⟨e, sent, left⟩
    have laid' (x : D) (hx : rely.same k d' x) :
        agree (effect exec q (writes d')) (effect exec q (writes x)) := by
      obtain ⟨e, sent, left⟩ := answers x hx
      simp only [effect, hv, sent]
      exact left
    refine holds_mono (ih r (hp.2 r) (List.mem_append_right _ hk) laid') ?_
    rintro a d'' w l ⟨run, lock, after⟩
    obtain ⟨e, sent, _⟩ := answers d'' after
    refine ⟨?_, lock, rely.same_trans same after⟩
    have left : effect exec q (writes d'') = e := by simp only [effect, sent]
    rw [left] at run
    simp only [Program.run, sent, ok_bind, run]

end

end Program

namespace Server

section
variable {ι ε Q α D K : Type} {R : Q → Type} [DecidableEq ι]

/-- The transactions that have committed, in order, with their answers. Session
`i` is an attempt at the `i`-th program. -/
inductive History (exec : Program.Semantics ε R D) (locks : Q → D → List K) (programs : ι → Program ε R α)
    (s : Server ι ε R D K α) : List (ι × α) → Server ι ε R D K α → Prop where
  | start : History exec locks programs s [] s
  | quiet {h : List (ι × α)} {t u : Server ι ε R D K α} {i : ι} {e : Event ε R α}
      (before : History exec locks programs s h t) (step : t.Step exec locks i e u) (still : ∀ a, e ≠ .commits a)
      (begins : ∀ p, e = .begins p → p = programs i) : History exec locks programs s h u
  | commits {h : List (ι × α)} {t u : Server ι ε R D K α} {i : ι} {a : α}
      (before : History exec locks programs s h t) (step : t.Step exec locks i (.commits a) u) :
      History exec locks programs s (h ++ [(i, a)]) u

/-- One after another; what a transaction does may depend on the databases that
have been committed, the one it commits to standing first. -/
inductive Replays (serial : List D → ι → α → D → D → Prop) (d : D) : List (ι × α) → List D → D → Prop where
  | start : Replays serial d [] [] d
  | next {h : List (ι × α)} {past : List D} {e f : D} {i : ι} {a : α} (before : Replays serial d h past e)
      (here : serial (e :: past) i a e f) : Replays serial d (h ++ [(i, a)]) (e :: past) f

section
variable {exec : Program.Semantics ε R D} {locks : Q → D → List K}

omit [DecidableEq ι] in
theorem sound_idle {rely : Rely D K} {post : ι → α → D → (D → D) → List K → Prop} (d : D) :
    Sound exec locks rely post ⟨d, fun _ => none⟩ := by
  constructor
  · intro i session running
    cases running
  · intro i j a b _ running
    cases running

variable {programs : ι → Program ε R α} {rely : (D → Prop) → Rely D K}
  {post : (D → Prop) → ι → α → D → (D → D) → List K → Prop}

/-- What every transaction does to the database it commits to, the history does
in the order of the commits. Between its statements a transaction sees nothing
but what has been committed. -/
theorem history_replays (serial : List D → ι → α → D → D → Prop)
    (begins : ∀ committed i d, committed d →
      (programs i).Holds exec locks (rely committed) (post committed i) d (fun x => x) [])
    (commits : ∀ committed i a d writes held, post committed i a d writes held → committed (writes d) →
      (rely committed).Commits d writes held)
    (alone : ∀ past i a d writes held, post (· ∈ past) i a d writes held → serial past i a d (writes d)) {d : D}
    {h : List (ι × α)} {s : Server ι ε R D K α} (history : History exec locks programs ⟨d, fun _ => none⟩ h s) :
    ∃ past, Replays serial d h past s.committed ∧ ∀ committed : D → Prop, (∀ e ∈ s.committed :: past, committed e) →
      s.Sound exec locks (rely committed) (post committed) := by
  induction history with
  | start => exact ⟨[], .start, fun _ _ => sound_idle d⟩
  | quiet before step still starts ih =>
    obtain ⟨past, replays, sound⟩ := ih
    rw [step_committed step still]
    refine ⟨past, replays, fun committed all => ?_⟩
    apply step_sound_at (sound committed all) step
    · intro p hp
      rw [starts p hp]
      exact begins _ _ _ (all _ List.mem_cons_self)
    · intro a writes held done same
      apply commits _ _ _ _ _ _ done
      rw [← same, step_committed step still]
      exact all _ List.mem_cons_self
  | commits before step ih =>
    rename_i t u i a
    obtain ⟨past, replays, sound⟩ := ih
    obtain ⟨writes, held, done, committed, _⟩ := commits_post (sound (· ∈ t.committed :: past) fun _ inside => inside) step
    refine ⟨t.committed :: past, ?_, fun all inside => ?_⟩
    · rw [committed]
      exact .next replays (alone _ _ _ _ _ _ done)
    · apply step_sound_at (sound all fun e earlier => inside e (List.mem_cons_of_mem _ earlier)) step
      · intro p hp
        cases hp
      · intro a writes held done same
        apply commits _ _ _ _ _ _ done
        rw [← same]
        exact inside _ List.mem_cons_self

end

variable {exec : Program.Semantics ε R D} {locks : Q → D → List K} {programs : ι → Program ε R α}

omit [DecidableEq ι] in
/-- More is known of each transaction from what holds before it. -/
theorem replays_mono {P : D → Prop} {serial serial' : List D → ι → α → D → D → Prop} {d e : D} {h : List (ι × α)}
    {past : List D} (replays : Replays serial d h past e) (start : P d)
    (step : ∀ past i a d d', P d → serial past i a d d' → P d' ∧ serial' past i a d d') :
    Replays serial' d h past e ∧ P e := by
  induction replays with
  | start => exact ⟨.start, start⟩
  | next _ here ih =>
    obtain ⟨before, holds⟩ := ih
    obtain ⟨after, here'⟩ := step _ _ _ _ _ holds here
    exact ⟨.next before here', after⟩

omit [DecidableEq ι] in
theorem replays_nil {serial : List D → ι → α → D → D → Prop} {d e : D} {past : List D}
    (replays : Replays serial d [] past e) : e = d := by
  generalize none : ([] : List (ι × α)) = l at replays
  cases replays with
  | start => rfl
  | next before here => simp at none

omit [DecidableEq ι] in
theorem replays_last {serial : List D → ι → α → D → D → Prop} {d f : D} {h : List (ι × α)} {i : ι} {a : α} {past : List D}
    (replays : Replays serial d (h ++ [(i, a)]) past f) :
    ∃ e earlier, past = e :: earlier ∧ Replays serial d h earlier e ∧ serial past i a e f := by
  generalize whole : h ++ [(i, a)] = l at replays
  cases replays with
  | start => simp at whole
  | next before here =>
    obtain ⟨rfl, last⟩ := List.append_inj' whole rfl
    cases last
    exact ⟨_, _, rfl, before, here⟩

theorem history_sends {s t u : Server ι ε R D K α} {h : List (ι × α)} {i : ι}
    (before : History exec locks programs s h t)
    (sends : Relation.ReflTransGen (fun a b => a.Step exec locks i .sends b) t u) :
    History exec locks programs s h u := by
  induction sends with
  | refl => exact before
  | tail _ step ih => exact .quiet ih step (fun a same => by cases same) fun p same => by cases same

/-- A session that runs to its end while no other holds a row. -/
theorem history_ends {s t : Server ι ε R D K α} {h : List (ι × α)} {i : ι} {p : Program ε R α} {writes : D → D}
    {held : List K} {a : α} {d : D} (before : History exec locks programs s h t)
    (running : t.sessions i = some ⟨p, writes, held⟩) (free : ∀ k, ¬ t.Busy i k)
    (run : p.run exec (writes t.committed) = .ok (a, d)) :
    ∃ u, History exec locks programs s h u ∧
      u.Step exec locks i (.commits a) ⟨d, Function.update t.sessions i none⟩ := by
  obtain ⟨writes', held', rfl, sends⟩ := runs_alone running free run
  have commits : Step exec locks
      { t with sessions := Function.update t.sessions i (some ⟨.pure a, writes', held'⟩) } i (.commits a)
      ⟨writes' t.committed, Function.update (Function.update t.sessions i (some ⟨.pure a, writes', held'⟩)) i none⟩ :=
    .commits a writes' held' (Function.update_self ..)
  rw [Function.update_idem] at commits
  exact ⟨_, history_sends before sends, commits⟩

theorem history_begins {s t : Server ι ε R D K α} {h : List (ι × α)} {i : ι}
    (before : History exec locks programs s h t) (closed : t.sessions i = none) :
    History exec locks programs s h
      { t with sessions := Function.update t.sessions i (some (.start (programs i))) } :=
  .quiet before (.begins (programs i) closed) (fun a same => by cases same) fun p same =>
    (Event.begins.inj same).symm

variable (locks programs) in
/-- A transaction falls between the first statement of another, which locks
nothing, and the rest. -/
theorem history_between {i j : ι} {a b : α} {d d' f : D} (distinct : i ≠ j)
    (between : (programs j).run exec d = .ok (b, d'))
    (around : (programs i).interrupted exec locks d d' = some (.ok (a, f))) :
    ∃ s, History exec locks programs ⟨d, fun _ => none⟩ [(j, b)] s ∧
      s.Step exec locks i (.commits a) ⟨f, fun _ => none⟩ := by
  obtain ⟨q, next, r, e, first, unlocked, answers, rest⟩ := Program.interrupted_eq_some around
  let waiting : Session ε R D K α := ⟨next r, fun x => effect exec q x, locks q d ++ []⟩
  let sessions : ι → Option (Session ε R D K α) := Function.update (fun _ => none) i (some waiting)
  have closed : sessions j = none := Function.update_of_ne (Ne.symm distinct) _ _
  have holdsNone (l : ι) (s : Session ε R D K α) (running : sessions l = some s) : s.held = [] := by
    by_cases same : l = i
    · subst same
      simp only [sessions, Function.update_self, Option.some.injEq] at running
      rw [← running]
      simp only [waiting, unlocked, List.append_nil]
    · simp only [sessions, Function.update_of_ne same] at running
      cases running
  have sent : History exec locks programs ⟨d, fun _ => none⟩ [] ⟨d, sessions⟩ := by
    have begun : History exec locks programs ⟨d, fun _ => none⟩ [] _ := history_begins (i := i) .start rfl
    rw [first] at begun
    have sends := history_sends begun (.single (.sends _ waiting (Function.update_self ..) (.mk (fun k locked => by
      rw [show locks q (id d) = [] from unlocked] at locked
      cases locked) answers)))
    rw [Function.update_idem] at sends
    exact sends
  obtain ⟨s, before, commits⟩ := history_ends (history_begins (i := j) sent closed) (Function.update_self ..) (fun k busy => by
    obtain ⟨l, s, other, running, locked⟩ := busy
    simp only [Function.update_of_ne other] at running
    rw [holdsNone l s running] at locked
    cases locked) between
  have back : Function.update (Function.update sessions j (some (.start (programs j)))) j none = sessions := by
    rw [Function.update_idem, ← closed, Function.update_eq_self]
  rw [back] at commits
  have running : sessions i = some waiting := Function.update_self ..
  have idle (l : ι) (other : l ≠ i) : sessions l = none := Function.update_of_ne other _ _
  have ends := history_ends (.commits before commits) running (not_busy idle) rest
  rw [show Function.update sessions i none = fun _ => none from
    (Function.update_idem ..).trans (Function.update_eq_self i fun _ => none)] at ends
  exact ends

end

end Server

end GuloGulo.Sql
