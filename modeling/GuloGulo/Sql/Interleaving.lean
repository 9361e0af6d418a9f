import GuloGulo.Sql.Program
import Mathlib.Logic.Function.Basic
import Mathlib.Logic.Relation

/-!
# Transactions among others

READ COMMITTED: a statement sees what is committed when it starts, under the
writes of its own transaction, and waits for the locks others hold on its rows.
So between two statements of a program the database may change, but not the
rows the program has locked. `Holds` proves a program against that, one
statement at a time, and `holds_serial` gives back the run without others for
the part of a program that only touches what it has locked.
-/

namespace GuloGulo.Sql
open Js

/-- A transaction under way: the statements to come, its writes over whatever
is committed beneath them, and the rows it has locked. -/
structure Session (ε : Type) {Q : Type} (R : Q → Type) (D K α : Type) where
  program : Program ε R α
  writes : D → D
  held : List K

section
variable {ε Q α β D K : Type} {R : Q → Type}

def Session.start (p : Program ε R α) : Session ε R D K α := ⟨p, id, []⟩

variable (exec : Program.Semantics ε R D) (locks : Q → D → List K)

/-- What a statement leaves of the database. -/
def effect (q : Q) (d : D) : D :=
  match exec q d with
  | .ok (_, d') => d'
  | .error _ => d

/-- One statement, over the committed `d`. -/
inductive Session.Sends (d : D) (busy : K → Prop) :
    Session ε R D K α → Session ε R D K α → Prop where
  | mk {q : Q} {next : R q → Program ε R α} {writes : D → D} {held : List K} {r : R q} {v : D}
      (free : ∀ k ∈ locks q (writes d), ¬ busy k) (ok : exec q (writes d) = .ok (r, v)) :
      Sends d busy ⟨.query q next, writes, held⟩
        ⟨next r, fun x => effect exec q (writes x), locks q (writes d) ++ held⟩

/-- What others may commit, and what a lock keeps them from changing. -/
structure Rely (D K : Type) where
  commit : D → D → Prop
  same : K → D → D → Prop
  commit_refl : ∀ d, commit d d
  commit_trans : ∀ {d e f}, commit d e → commit e f → commit d f
  same_refl : ∀ k d, same k d d
  same_trans : ∀ {k d e f}, same k d e → same k e f → same k d f

namespace Rely
variable (rely : Rely D K)

def Allows (held : List K) (d d' : D) : Prop := rely.commit d d' ∧ ∀ k ∈ held, rely.same k d d'

theorem allows_refl (held : List K) (d : D) : rely.Allows held d d :=
  ⟨rely.commit_refl d, fun k _ => rely.same_refl k d⟩

variable {rely}

theorem Allows.trans {held : List K} {d e f : D} (h : rely.Allows held d e) (h' : rely.Allows held e f) :
    rely.Allows held d f :=
  ⟨rely.commit_trans h.1 h'.1, fun k hk => rely.same_trans (h.2 k hk) (h'.2 k hk)⟩

end Rely

/-- However others commit between its statements, a program that gets to its
end gets there with `post`. -/
def Program.Holds (rely : Rely D K) (post : α → D → (D → D) → List K → Prop) :
    Program ε R α → D → (D → D) → List K → Prop
  | pure a, d, writes, held => ∀ d', rely.Allows held d d' → post a d' writes held
  | throw _, _, _, _ => True
  | query q next, d, writes, held => ∀ d', rely.Allows held d d' → ∀ r v, exec q (writes d') = .ok (r, v) →
      (next r).Holds rely post d' (fun x => effect exec q (writes x)) (locks q (writes d') ++ held)

def Session.Holds (rely : Rely D K) (post : α → D → (D → D) → List K → Prop)
    (s : Session ε R D K α) (d : D) : Prop :=
  s.program.Holds exec locks rely post d s.writes s.held

variable {exec locks} {rely : Rely D K} {post : α → D → (D → D) → List K → Prop}

/-- Others commit. -/
theorem Program.holds_commit {p : Program ε R α} {d d' : D} {writes : D → D} {held : List K}
    (h : p.Holds exec locks rely post d writes held) (commit : rely.Allows held d d') :
    p.Holds exec locks rely post d' writes held := by
  cases p with
  | pure a => exact fun e he => h e (commit.trans he)
  | throw e => trivial
  | query q next => exact fun e he => h e (commit.trans he)

/-- The session itself goes on. -/
theorem Session.holds_sends {s t : Session ε R D K α} {d : D} {busy : K → Prop}
    (h : s.Holds exec locks rely post d) (step : s.Sends exec locks d busy t) :
    t.Holds exec locks rely post d := by
  cases step with
  | mk free ok => exact h d (rely.allows_refl _ d) _ _ ok

theorem Session.holds_done {a : α} {d : D} {writes : D → D} {held : List K}
    (h : (⟨.pure a, writes, held⟩ : Session ε R D K α).Holds exec locks rely post d) :
    post a d writes held :=
  h d (rely.allows_refl _ d)

theorem Session.held_sends {s t : Session ε R D K α} {d : D} {busy : K → Prop}
    (step : s.Sends exec locks d busy t) {k : K} (hk : k ∈ t.held) : k ∈ s.held ∨ ¬ busy k := by
  cases step with
  | mk free ok =>
    rcases List.mem_append.mp hk with hk | hk
    · exact .inr (free k hk)
    · exact .inl hk

namespace Program

theorem holds_mono {p : Program ε R α} {post' : α → D → (D → D) → List K → Prop} {d : D} {writes : D → D}
    {held : List K} (h : p.Holds exec locks rely post d writes held)
    (imp : ∀ a d w l, post a d w l → post' a d w l) : p.Holds exec locks rely post' d writes held := by
  induction p generalizing d writes held with
  | pure a => exact fun d' hd => imp _ _ _ _ (h d' hd)
  | throw e => trivial
  | query q next ih => exact fun d' hd r v hv => ih r (h d' hd r v hv)

/-- The state at the end has come about by commits of others. -/
theorem holds_since {p : Program ε R α} {d : D} {writes : D → D} {held : List K}
    (h : p.Holds exec locks rely post d writes held) :
    p.Holds exec locks rely (fun a d' w l => rely.commit d d' ∧ post a d' w l) d writes held := by
  have from' {start : D} (p : Program ε R α) {d : D} {writes : D → D} {held : List K}
      (before : rely.commit start d) (h : p.Holds exec locks rely post d writes held) :
      p.Holds exec locks rely (fun a d' w l => rely.commit start d' ∧ post a d' w l) d writes held := by
    induction p generalizing d writes held with
    | pure a => exact fun d' hd => ⟨rely.commit_trans before hd.1, h d' hd⟩
    | throw e => trivial
    | query q next ih =>
      exact fun d' hd r v hv => ih r (rely.commit_trans before hd.1) (h d' hd r v hv)
  exact from' p (rely.commit_refl d) h

theorem holds_bind {p : Program ε R β} {f : β → Program ε R α} {d : D} {writes : D → D} {held : List K}
    (h : p.Holds exec locks rely (fun b d w l => (f b).Holds exec locks rely post d w l) d writes held) :
    (p >>= f).Holds exec locks rely post d writes held := by
  show (p.bind f).Holds exec locks rely post d writes held
  induction p generalizing d writes held with
  | pure b => exact h d (rely.allows_refl _ d)
  | throw e => trivial
  | query q next ih => exact fun d' hd r v hv => ih r (h d' hd r v hv)

theorem holds_map {p : Program ε R β} {g : β → α} {d : D} {writes : D → D} {held : List K}
    (h : p.Holds exec locks rely (fun b => post (g b)) d writes held) :
    (p >>= fun b => Pure.pure (g b)).Holds exec locks rely post d writes held := by
  show (p.bind fun b => pure (g b)).Holds exec locks rely post d writes held
  induction p generalizing d writes held with
  | pure b => exact h
  | throw e => trivial
  | query q next ih => exact fun d' hd r v hv => ih r (h d' hd r v hv)

theorem holds_send_bind {q : Q} {f : R q → Program ε R α} {d : D} {writes : D → D} {held : List K}
    (h : ∀ d', rely.Allows held d d' → ∀ r v, exec q (writes d') = .ok (r, v) →
      (f r).Holds exec locks rely post d' (fun x => effect exec q (writes x)) (locks q (writes d') ++ held)) :
    (send q >>= f).Holds exec locks rely post d writes held :=
  h

theorem holds_check_bind {exec : Semantics (Thrown ε) R D} {x : Except ε β}
    {f : β → Program (Thrown ε) R α} {d : D} {writes : D → D} {held : List K}
    (h : ∀ b, x = .ok b → (f b).Holds exec locks rely post d writes held) :
    (check x >>= f).Holds exec locks rely post d writes held := by
  cases x with
  | ok b => exact h b rfl
  | error e => trivial

section
variable (exec) (agree frame : D → D → Prop)

/-- The statement answers, and changes what two databases agree on, alike in
both, and nothing else. -/
def LocalStmt (q : Q) : Prop :=
  ∀ d e r d', agree d e → exec q d = .ok (r, d') →
    ∃ e', exec q e = .ok (r, e') ∧ agree d' e' ∧ frame e e'

def Local : Program ε R α → Prop
  | pure _ => True
  | throw _ => True
  | query q next => LocalStmt exec agree frame q ∧ ∀ r, (next r).Local

end

variable {agree frame : D → D → Prop}

theorem local_bind {p : Program ε R β} {f : β → Program ε R α} (hp : p.Local exec agree frame)
    (hf : ∀ b, (f b).Local exec agree frame) : (p >>= f).Local exec agree frame := by
  show (p.bind f).Local exec agree frame
  induction p with
  | pure b => exact hf b
  | throw e => trivial
  | query q next ih => exact ⟨hp.1, fun r => ih r (hp.2 r)⟩

theorem local_send_bind {q : Q} {f : R q → Program ε R α} (hq : LocalStmt exec agree frame q)
    (hf : ∀ r, (f r).Local exec agree frame) : (send q >>= f).Local exec agree frame :=
  ⟨hq, hf⟩

theorem local_check {exec : Semantics (Thrown ε) R D} (x : Except ε α) :
    (check x : Program (Thrown ε) R α).Local exec agree frame := by
  cases x <;> trivial

/-- A program that only touches what the lock `k` protects ends as it does
when it runs alone from `s`, and lays the same writes over any database. -/
theorem holds_serial (agree frame : D → D → Prop) (symm : ∀ {d e}, agree d e → agree e d)
    (trans : ∀ {d e f}, frame d e → frame e f → frame d f)
    {p : Program ε R α} (hp : p.Local exec agree frame) {k : K} {s d : D} {writes : D → D} {held : List K}
    (hk : k ∈ held) (laid : ∀ x, rely.same k d x → agree s (writes x) ∧ frame x (writes x)) :
    p.Holds exec locks rely (fun a d' w l => ∃ s', p.run exec s = .ok (a, s') ∧ k ∈ l ∧
      rely.same k d d' ∧ ∀ x, rely.same k d' x → agree s' (w x) ∧ frame x (w x)) d writes held := by
  induction p generalizing s d writes held with
  | pure a =>
    intro d' hd
    exact ⟨s, rfl, hk, hd.2 k hk, fun x hx => laid x (rely.same_trans (hd.2 k hk) hx)⟩
  | throw e => trivial
  | query q next ih =>
    intro d' hd r v hv
    have same := hd.2 k hk
    obtain ⟨s', hs, _, _⟩ := hp.1 _ _ _ _ (symm (laid d' same).1) hv
    have laid' (x : D) (hx : rely.same k d' x) :
        agree s' (effect exec q (writes x)) ∧ frame x (effect exec q (writes x)) := by
      obtain ⟨hagree, hframe⟩ := laid x (rely.same_trans same hx)
      obtain ⟨e', he, hagree', hframe'⟩ := hp.1 _ _ _ _ hagree hs
      simp only [effect, he]
      exact ⟨hagree', trans hframe hframe'⟩
    refine holds_mono (ih r (hp.2 r) (List.mem_append_right _ hk) laid') ?_
    rintro a d'' w l ⟨s'', hrun, hlock, hsame, hend⟩
    refine ⟨s'', ?_, hlock, rely.same_trans same hsame, hend⟩
    simp only [run, hs, ok_bind, hrun]

end Program

/-- What a session does to the rest when it commits. -/
def Rely.Commits (rely : Rely D K) (d : D) (writes : D → D) (held : List K) : Prop :=
  rely.commit d (writes d) ∧ ∀ k, k ∉ held → rely.same k d (writes d)

/-- A database with the sessions that are open on it. -/
structure Server (ι ε : Type) {Q : Type} (R : Q → Type) (D K α : Type) where
  committed : D
  sessions : ι → Option (Session ε R D K α)

inductive Event (ε : Type) {Q : Type} (R : Q → Type) (α : Type) where
  | begins (p : Program ε R α)
  | sends
  | commits (a : α)
  | rollsBack

namespace Server
variable {ι : Type} [DecidableEq ι]

/-- The rows that sessions other than `i` have locked. -/
def Busy (s : Server ι ε R D K α) (i : ι) (k : K) : Prop :=
  ∃ j session, j ≠ i ∧ s.sessions j = some session ∧ k ∈ session.held

/-- Session `i` begins, goes on by a statement, commits at its end, or is given up. -/
inductive Step (exec : Program.Semantics ε R D) (locks : Q → D → List K) (s : Server ι ε R D K α) (i : ι) :
    Event ε R α → Server ι ε R D K α → Prop where
  | begins (p : Program ε R α) (closed : s.sessions i = none) :
      Step exec locks s i (.begins p) { s with sessions := Function.update s.sessions i (some (.start p)) }
  | sends (session next : Session ε R D K α) (running : s.sessions i = some session)
      (sent : session.Sends exec locks s.committed (s.Busy i) next) :
      Step exec locks s i .sends { s with sessions := Function.update s.sessions i (some next) }
  | commits (a : α) (writes : D → D) (held : List K) (done : s.sessions i = some ⟨.pure a, writes, held⟩) :
      Step exec locks s i (.commits a) ⟨writes s.committed, Function.update s.sessions i none⟩
  | rollsBack (session : Session ε R D K α) (running : s.sessions i = some session) :
      Step exec locks s i .rollsBack { s with sessions := Function.update s.sessions i none }

/-- Every session will end with its `post`, and no row is locked twice. -/
structure Sound (exec : Program.Semantics ε R D) (locks : Q → D → List K) (rely : Rely D K)
    (post : ι → α → D → (D → D) → List K → Prop) (s : Server ι ε R D K α) : Prop where
  holds : ∀ i session, s.sessions i = some session → session.Holds exec locks rely (post i) s.committed
  exclusive : ∀ i j a b, i ≠ j → s.sessions i = some a → s.sessions j = some b → ∀ k ∈ a.held, k ∉ b.held

variable {post : ι → α → D → (D → D) → List K → Prop} {s s' : Server ι ε R D K α} {i : ι}

theorem exclusive_update {sessions : ι → Option (Session ε R D K α)} {o : Option (Session ε R D K α)}
    (exclusive : ∀ i j a b, i ≠ j → sessions i = some a → sessions j = some b → ∀ k ∈ a.held, k ∉ b.held)
    (alone : ∀ t ∈ o, ∀ j b, j ≠ i → sessions j = some b → ∀ k ∈ t.held, k ∉ b.held) :
    ∀ j l a b, j ≠ l → Function.update sessions i o j = some a → Function.update sessions i o l = some b →
      ∀ k ∈ a.held, k ∉ b.held := by
  intro j l a b hjl ha hb k hk hk'
  by_cases hj : j = i
  · subst hj
    rw [Function.update_self] at ha
    rw [Function.update_of_ne (Ne.symm hjl)] at hb
    exact alone a ha l b (Ne.symm hjl) hb k hk hk'
  · rw [Function.update_of_ne hj] at ha
    by_cases hl : l = i
    · subst hl
      rw [Function.update_self] at hb
      exact alone b hb j a hj ha k hk' hk
    · rw [Function.update_of_ne hl] at hb
      exact exclusive j l a b hjl ha hb k hk hk'

/-- This commit is one that every other session allows for. -/
theorem step_sound_at {e : Event ε R α} (sound : s.Sound exec locks rely post) (step : s.Step exec locks i e s')
    (begins : ∀ p, e = .begins p → p.Holds exec locks rely (post i) s.committed (fun x => x) [])
    (commits : ∀ a writes held, post i a s.committed writes held → s'.committed = writes s.committed →
      rely.Commits s.committed writes held) :
    s'.Sound exec locks rely post := by
  cases step with
  | begins p closed =>
    constructor
    · intro j session hj
      by_cases hji : j = i
      · subst hji
        simp only [Function.update_self, Option.some.injEq] at hj
        subst hj
        exact begins p rfl
      · simp only [Function.update_of_ne hji] at hj
        exact sound.holds j session hj
    · refine exclusive_update sound.exclusive ?_
      rintro t ht j b _ _ k hk
      cases ht
      cases hk
  | sends session next running sent =>
    constructor
    · intro j t hj
      by_cases hji : j = i
      · subst hji
        simp only [Function.update_self, Option.some.injEq] at hj
        subst hj
        exact Session.holds_sends (sound.holds j session running) sent
      · simp only [Function.update_of_ne hji] at hj
        exact sound.holds j t hj
    · refine exclusive_update sound.exclusive ?_
      rintro t ht j b hji hb k hk hkb
      cases ht
      rcases Session.held_sends sent hk with had | free
      · exact sound.exclusive i j session b (Ne.symm hji) running hb k had hkb
      · exact free ⟨j, b, hji, hb, hkb⟩
  | commits a writes held done =>
    have committed := commits a _ _ (Session.holds_done (sound.holds i _ done)) rfl
    constructor
    · intro j t hj
      by_cases hji : j = i
      · subst hji
        simp at hj
      · simp only [Function.update_of_ne hji] at hj
        refine Program.holds_commit (sound.holds j t hj) ⟨committed.1, ?_⟩
        intro k hk
        exact committed.2 k (sound.exclusive j i t _ hji hj done k hk)
    · refine exclusive_update sound.exclusive ?_
      rintro t ht
      cases ht
  | rollsBack session running =>
    constructor
    · intro j t hj
      by_cases hji : j = i
      · subst hji
        simp at hj
      · simp only [Function.update_of_ne hji] at hj
        exact sound.holds j t hj
    · refine exclusive_update sound.exclusive ?_
      rintro t ht
      cases ht

/-- A commit is one that every other session allows for. -/
theorem step_sound {e : Event ε R α} (sound : s.Sound exec locks rely post) (step : s.Step exec locks i e s')
    (begins : ∀ p, e = .begins p → p.Holds exec locks rely (post i) s.committed (fun x => x) [])
    (commits : ∀ i a d writes held, post i a d writes held → rely.Commits d writes held) :
    s'.Sound exec locks rely post :=
  step_sound_at sound step begins fun a writes held done _ => commits i a _ writes held done

theorem step_commit {e : Event ε R α} (sound : s.Sound exec locks rely post) (step : s.Step exec locks i e s')
    (commits : ∀ i a d writes held, post i a d writes held → rely.Commits d writes held) :
    rely.commit s.committed s'.committed := by
  cases step with
  | commits a writes held done => exact (commits i a _ _ _ (Session.holds_done (sound.holds i _ done))).1
  | begins | sends | rollsBack => exact rely.commit_refl _

/-- A session that is not open promises nothing. -/
theorem sound_of_closed {post' : ι → α → D → (D → D) → List K → Prop} (sound : s.Sound exec locks rely post)
    (closed : s.sessions i = none) (same : ∀ j, j ≠ i → post' j = post j) : s.Sound exec locks rely post' := by
  refine ⟨?_, sound.exclusive⟩
  intro j session hj
  by_cases hji : j = i
  · subst hji
    rw [closed] at hj
    cases hj
  · rw [same j hji]
    exact sound.holds j session hj

theorem commits_post {a : α} (sound : s.Sound exec locks rely post) (step : s.Step exec locks i (.commits a) s') :
    ∃ writes held, post i a s.committed writes held ∧ s'.committed = writes s.committed ∧
      s'.sessions i = none := by
  cases step with
  | commits _ writes held done =>
    exact ⟨writes, held, Session.holds_done (sound.holds i _ done), rfl, Function.update_self ..⟩

/-- Without a commit the database stays, and so do the other sessions. -/
theorem step_committed {e : Event ε R α} (step : s.Step exec locks i e s') (quiet : ∀ a, e ≠ .commits a) :
    s'.committed = s.committed := by
  cases step with
  | commits a => exact absurd rfl (quiet a)
  | begins | sends | rollsBack => rfl

theorem step_others {e : Event ε R α} (step : s.Step exec locks i e s') {j : ι} (hj : j ≠ i) :
    s'.sessions j = s.sessions j := by
  cases step with
  | begins | sends | commits | rollsBack => exact Function.update_of_ne hj _ _

/-- While no other session holds a row, a session gets to where its program gets alone. -/
theorem runs_alone {p : Program ε R α} {writes : D → D} {held : List K} {a : α} {d : D}
    (running : s.sessions i = some ⟨p, writes, held⟩) (free : ∀ k, ¬ s.Busy i k)
    (run : p.run exec (writes s.committed) = .ok (a, d)) :
    ∃ writes' held', writes' s.committed = d ∧
      Relation.ReflTransGen (fun s t => s.Step exec locks i .sends t) s
        { s with sessions := Function.update s.sessions i (some ⟨.pure a, writes', held'⟩) } := by
  induction p generalizing s writes held with
  | pure b =>
    cases run
    refine ⟨writes, held, rfl, ?_⟩
    rw [← running, Function.update_eq_self]
  | throw e => cases run
  | query q next ih =>
    simp only [Program.run, bind_eq_ok] at run
    obtain ⟨⟨r, e⟩, ok, run⟩ := run
    have sent : Session.Sends exec locks s.committed (s.Busy i) ⟨.query q next, writes, held⟩
        ⟨next r, fun x => effect exec q (writes x), locks q (writes s.committed) ++ held⟩ :=
      .mk (fun k _ => free k) ok
    have step := Step.sends _ _ running sent
    have alone (k : K) : ¬ Busy ⟨s.committed, Function.update s.sessions i
        (some ⟨next r, fun x => effect exec q (writes x), locks q (writes s.committed) ++ held⟩)⟩ i k := by
      rintro ⟨j, session, hj, hs, hk⟩
      simp only [Function.update_of_ne hj] at hs
      exact free k ⟨j, session, hj, hs, hk⟩
    have left : effect exec q (writes s.committed) = e := by simp only [effect, ok]
    obtain ⟨writes', held', hd, steps⟩ := ih r (Function.update_self ..) alone (left ▸ run)
    refine ⟨writes', held', hd, ?_⟩
    simp only [Function.update_idem] at steps
    exact .head step steps

omit [DecidableEq ι] in
theorem not_busy (idle : ∀ j, j ≠ i → s.sessions j = none) (k : K) :
    ¬ s.Busy i k := by
  rintro ⟨j, session, hj, running, _⟩
  rw [idle j hj] at running
  cases running

/-- A transaction with no other open, from its begin to its commit. -/
theorem transaction_alone (locks : Q → D → List K) (i : ι) {p : Program ε R α} {a : α} {d d' : D} (run : p.run exec d = .ok (a, d')) :
    ∃ s t : Server ι ε R D K α, Step exec locks ⟨d, fun _ => none⟩ i (.begins p) s ∧
      Relation.ReflTransGen (fun s t => s.Step exec locks i .sends t) s t ∧
      t.Step exec locks i (.commits a) ⟨d', fun _ => none⟩ := by
  let begun : Server ι ε R D K α := ⟨d, Function.update (fun _ => none) i (some (.start p))⟩
  have idle (j : ι) (hj : j ≠ i) : begun.sessions j = none := by
    simp only [begun, Function.update_of_ne hj]
  have running : begun.sessions i = some (.start p) := by
    simp only [begun, Function.update_self]
  obtain ⟨writes, held, hd, sends⟩ := runs_alone running (not_busy idle) run
  refine ⟨begun, _, .begins p rfl, sends, ?_⟩
  have ends : Step exec locks
      { begun with sessions := Function.update begun.sessions i (some ⟨.pure a, writes, held⟩) } i (.commits a) _ :=
    .commits a writes held (Function.update_self ..)
  have closed : Function.update (Function.update begun.sessions i (some ⟨.pure a, writes, held⟩)) i none =
      fun _ => none := by
    simp only [begun, Function.update_idem]
    exact Function.update_eq_self i fun _ => none
  rw [show (⟨d', fun _ => none⟩ : Server ι ε R D K α) = ⟨writes begun.committed, _⟩ from
    congrArg₂ Server.mk hd.symm closed.symm]
  exact ends

end Server

end

end GuloGulo.Sql
