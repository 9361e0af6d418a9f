import GuloGulo.Web.SessionSteps
import GuloGulo.Js.Sha256

/-!
# Sessions authenticate while they live

The invariant of a run ties the store to the history of the calls: what is
stored lives, and what lives is stored until the clock has shown its expiry.
-/

namespace GuloGulo.Web.Security
open Js Data
open Eff (wp)

section
variable {m : SessionManager} {env : Ambient} {calls : List Made} {s : SessionState} {x : WebSession}

theorem Inv.stores (inv : Inv m env calls s) :
    ∀ id x, s.sessions.get id = some x → x.sessionId = id ∧ Sound m env x := by
  intro id x found
  obtain ⟨same, _, sound⟩ := inv.stored id x found
  exact ⟨same, sound⟩

theorem run_inv (run : Run m env calls s) : Inv m env calls s := by
  induction run with
  | initial => exact ⟨nofun, nofun⟩
  | call run call inv => exact inv_step inv (perform_moves inv.stores call)

/-- The clock has shown nothing later so far. -/
def SeenBy (env : Ambient) (readings t : Nat) : Prop := ∀ i < readings, ∀ u, env.clock i = .time u → u ≤ t

theorem SeenBy.mono {m n t : Nat} (seen : SeenBy env n t) (h : m ≤ n) : SeenBy env m t :=
  fun i hi => seen i (Nat.lt_of_lt_of_le hi h)

theorem Ambient.Rising.seenBy {env : Ambient} (rising : env.Rising) {n t : Nat} (shown : env.clock n = .time t) :
    SeenBy env n t := fun i hi u shown' => rising i n u t (Nat.le_of_lt hi) shown' shown

/-- What lives and has not expired is stored, and nothing else. -/
theorem stored_iff (inv : Inv m env calls s) {t : Nat} (seen : SeenBy env s.readings t) :
    (s.sessions.get x.sessionId = some x ∧ t < x.expiresAt) ↔ Lives m.cookieName calls x ∧ t < x.expiresAt := by
  constructor
  · rintro ⟨found, inTime⟩
    obtain ⟨_, lives, _⟩ := inv.stored _ x found
    exact ⟨lives, inTime⟩
  · rintro ⟨lives, inTime⟩
    obtain ⟨_, found | expired⟩ := inv.kept x lives
    · exact ⟨found, inTime⟩
    · obtain ⟨i, hi, u, shown, past⟩ := expired
      have := seen i hi u shown
      omega

/-- At a time that a `Date` can hold, a session lasts for `ttlMs`. -/
theorem Inv.inTime_iff (inv : Inv m env calls s) (lives : Lives m.cookieName calls x) {t : Nat} (within : (t : Int) ≤ maxTime) :
    t < x.expiresAt ↔ t < x.createdAt + m.ttlMs := by
  rw [(inv.kept x lives).1.expiresAt]
  exact Number.lt_add_iff (by unfold maxTime at within; omega)

/-- The same circumstances, with a clock that shows one time. -/
def Ambient.showing (env : Ambient) (t : Nat) : Ambient := { env with clock := fun _ => .time t }

variable (m env) in
/-- The session that a header would be answered with at a time. -/
def answerAt (t : Nat) (header : JsString) (s : SessionState) : Option WebSession :=
  match (authenticateCookie m (env.showing t) (.string header) s).1 with
  | .ok found => found
  | .error _ => none

variable {header : JsString}

theorem carries_iff (short : byteLength header ≤ cookieHeaderMaxBytes) {id : JsString} :
    Carries m.cookieName (.string header) id ↔ OnlyCookie m.cookieName header id := by
  constructor
  · rintro ⟨_, ⟨⟩, _, values⟩
    exact values
  · exact fun values => ⟨header, rfl, short, values⟩

/-- A lookup returns a session that is stored under the id and has not expired. -/
theorem lookup_active_iff {s' : SessionState} {sessionId : JsValue} {r : Except Err (Option WebSession)}
    (stores : ∀ id x, s.sessions.get id = some x → x.sessionId = id ∧ Sound m env x)
    (h : Lookup env s sessionId r s') : r = .ok (some x) ↔
      sessionId = .string x.sessionId ∧ s.sessions.get x.sessionId = some x ∧
        ∃ t, env.clock s.readings = .time t ∧ t < x.expiresAt := by
  cases h with
  | missing absent =>
    constructor
    · nofun
    · rintro ⟨named, found, _⟩
      rw [absent _ named (stores _ x found).2.sessionId] at found
      cases found
  | unread y id named valid stored e unread =>
    constructor
    · nofun
    · rintro ⟨_, _, t, shown, _⟩
      exact absurd shown (unread t)
  | past y id named valid stored t shown expired =>
    constructor
    · nofun
    · rintro ⟨named', found, t', shown', inTime⟩
      cases named.symm.trans named'
      cases stored.symm.trans found
      cases shown.symm.trans shown'
      omega
  | active y id named valid stored t shown inTime =>
    obtain ⟨rfl, _⟩ := stores id y stored
    constructor
    · rintro ⟨⟩
      exact ⟨named, stored, t, shown, inTime⟩
    · rintro ⟨named', found, _⟩
      rw [JsValue.string.inj (named.symm.trans named')] at stored
      cases stored.symm.trans found
      rfl

theorem authenticateCookie_iff (inv : Inv m env calls s) (short : byteLength header ≤ cookieHeaderMaxBytes)
    {clock : Nat → ClockReading} :
    (authenticateCookie m { env with clock := clock } (.string header) s).1 = .ok (some x) ↔
      OnlyCookie m.cookieName header x.sessionId ∧ s.sessions.get x.sessionId = some x ∧
        ∃ t, clock s.readings = .time t ∧ t < x.expiresAt := by
  have spec : wp (authenticateCookie m { env with clock := clock } (.string header)) s _ :=
    authenticateCookie_spec (.string header)
  obtain ⟨sessionId, lookup, names⟩ := spec
  rw [← carries_iff short, ← names]
  apply lookup_active_iff (m := m) _ lookup
  intro id x found
  obtain ⟨same, sound⟩ := inv.stores id x found
  exact ⟨same, sound.sessionId, sound.expiresAt, sound.domain⟩

theorem answered_iff (inv : Inv m env calls s) (short : byteLength header ≤ cookieHeaderMaxBytes) {t : Nat} :
    answerAt m env t header s = some x ↔
      OnlyCookie m.cookieName header x.sessionId ∧ s.sessions.get x.sessionId = some x ∧ t < x.expiresAt := by
  have answers : answerAt m env t header s = some x ↔
      (authenticateCookie m (env.showing t) (.string header) s).1 = .ok (some x) := by
    unfold answerAt
    cases (authenticateCookie m (env.showing t) (.string header) s).1 with
    | ok found => exact ⟨congrArg Except.ok, Except.ok.inj⟩
    | error e => simp
  rw [answers, Ambient.showing, authenticateCookie_iff inv short]
  simp

theorem answerAt_iff (inv : Inv m env calls s) (short : byteLength header ≤ cookieHeaderMaxBytes) {t : Nat}
    (seen : SeenBy env s.readings t) : answerAt m env t header s = some x ↔
      OnlyCookie m.cookieName header x.sessionId ∧ Lives m.cookieName calls x ∧ t < x.expiresAt := by
  rw [answered_iff inv short, ← stored_iff inv seen]

variable (m env calls s) in
structure Authenticates : Prop where
  /-- One cookie of the name, with the id of a session that lives. -/
  exactly : ∀ header, byteLength header ≤ cookieHeaderMaxBytes → ∀ x,
    (∀ t, env.clock s.readings = .time t → (t : Int) ≤ maxTime) →
      ((authenticateCookie m env (.string header) s).1 = .ok (some x) ↔
        OnlyCookie m.cookieName header x.sessionId ∧ Lives m.cookieName calls x ∧
          ∃ t, env.clock s.readings = .time t ∧ t < x.createdAt + m.ttlMs)
  /-- A rotation keeps the binding, and the new id authenticates in place of the old one. -/
  rotated : ∀ sessionId overrides y, (rotate m env sessionId overrides s).1 = .ok y →
    ∃ x, sessionId = .string x.sessionId ∧ Lives m.cookieName calls x ∧ y.userId = x.userId ∧ y.context = x.context ∧
      ∀ t header, SeenBy env (rotate m env sessionId overrides s).2.readings t →
        byteLength header ≤ cookieHeaderMaxBytes →
          (OnlyCookie m.cookieName header x.sessionId →
            answerAt m env t header (rotate m env sessionId overrides s).2 = none) ∧
          (OnlyCookie m.cookieName header y.sessionId → (t : Int) ≤ maxTime → t < y.createdAt + m.ttlMs →
            answerAt m env t header (rotate m env sessionId overrides s).2 = some y)
  /-- No session of the user that was issued before is answered with. -/
  invalidated : ∀ input n, (invalidateUserSessions input s).1 = .ok n → ∀ t header,
    byteLength header ≤ cookieHeaderMaxBytes → ∀ x,
      answerAt m env t header (invalidateUserSessions input s).2 = some x →
        ¬ (input.get "tenantId" = .string x.tenantId ∧ input.get "userId" = .string x.userId)
  /-- A call that throws takes no session away. -/
  throws : ∀ call e, (perform m env call s).1 = .error e → ∀ t header,
    SeenBy env (perform m env call s).2.readings t → byteLength header ≤ cookieHeaderMaxBytes →
      answerAt m env t header (perform m env call s).2 = answerAt m env t header s

theorem answering_eq {α : Type} (answer : α → SessionAnswer) (c : Eff Err SessionState α) (s : SessionState) :
    answering answer c s = ((c s).1.map answer, (c s).2) := by
  show Eff.bind c _ s = _
  unfold Eff.bind
  rcases c s with ⟨r, s'⟩
  cases r <;> rfl

/-- What holds of a run after one more call. -/
theorem Run.next (run : Run m env calls s) {call : SessionCall} {r : Except Err SessionAnswer} {s' : SessionState}
    (ended : perform m env call s = (r, s')) : Inv m env (⟨call, r⟩ :: calls) s' := by
  have next := run_inv (.call run call)
  rw [ended] at next
  exact next

theorem rotated_exactly (run : Run m env calls s) {sessionId overrides : JsValue} {y : WebSession}
    (returned : (rotate m env sessionId overrides s).1 = .ok y) :
    ∃ x, sessionId = .string x.sessionId ∧ Lives m.cookieName calls x ∧ y.userId = x.userId ∧ y.context = x.context ∧
      ∀ t header, SeenBy env (rotate m env sessionId overrides s).2.readings t →
        byteLength header ≤ cookieHeaderMaxBytes →
          (OnlyCookie m.cookieName header x.sessionId →
            answerAt m env t header (rotate m env sessionId overrides s).2 = none) ∧
          (OnlyCookie m.cookieName header y.sessionId → (t : Int) ≤ maxTime → t < y.createdAt + m.ttlMs →
            answerAt m env t header (rotate m env sessionId overrides s).2 = some y) := by
  have inv := run_inv run
  obtain ⟨_, _, rotated⟩ := rotate_spec inv.stores sessionId overrides
  obtain ⟨x, rotated⟩ := rotated y returned
  have after : Inv m env (⟨.rotate sessionId overrides, .ok (.issued y)⟩ :: calls)
      (rotate m env sessionId overrides s).2 := by
    apply run.next
    rw [perform, answering_eq, returned]
    rfl
  have different : y.sessionId ≠ x.sessionId := by
    intro same
    have found := rotated.found
    rw [← same, rotated.fresh] at found
    cases found
  refine ⟨x, rotated.named, (inv.stored _ x rotated.found).2.1, rotated.user, rotated.context, ?_⟩
  intro t header seen short
  constructor
  · intro old
    apply Option.eq_none_iff_forall_ne_some.mpr
    intro z answered
    obtain ⟨values, lives, _⟩ := (answerAt_iff after short seen).mp answered
    have named : x.sessionId = z.sessionId :=
      List.singleton_inj.mp ((cookieValues_eq_singleton.mpr old).symm.trans (cookieValues_eq_singleton.mpr values))
    rcases lives with ⟨⟨⟩⟩ | ⟨_, stays⟩
    · exact different named.symm
    · exact stays ⟨rfl, rotated.named.trans (congrArg JsValue.string named)⟩
  · intro new within inTime
    have lives : Lives m.cookieName (⟨.rotate sessionId overrides, .ok (.issued y)⟩ :: calls) y := .inl rfl
    exact (answerAt_iff after short seen).mpr ⟨new, lives, (after.inTime_iff lives within).mpr inTime⟩

theorem invalidated_all (run : Run m env calls s) {input : JsValue} {n : Nat}
    (returned : (invalidateUserSessions input s).1 = .ok n) {t : Nat} {header : JsString}
    (short : byteLength header ≤ cookieHeaderMaxBytes)
    (answered : answerAt m env t header (invalidateUserSessions input s).2 = some x) :
    ¬ (input.get "tenantId" = .string x.tenantId ∧ input.get "userId" = .string x.userId) := by
  have after : Inv m env (⟨.invalidateUserSessions input, .ok (.count n)⟩ :: calls)
      (invalidateUserSessions input s).2 := by
    apply run.next
    rw [perform, answering_eq, returned]
    rfl
  obtain ⟨_, found, _⟩ := (answered_iff after short).mp answered
  obtain ⟨_, issued | ⟨_, stays⟩, _⟩ := after.stored _ x found
  · cases issued
  · exact fun named => stays ⟨rfl, named⟩

theorem throws_nothing (run : Run m env calls s) {call : SessionCall} {e : Err}
    (threw : (perform m env call s).1 = .error e) {t : Nat} {header : JsString}
    (seen : SeenBy env (perform m env call s).2.readings t) (short : byteLength header ≤ cookieHeaderMaxBytes) :
    answerAt m env t header (perform m env call s).2 = answerAt m env t header s := by
  have inv := run_inv run
  have after : Inv m env (⟨call, .error e⟩ :: calls) (perform m env call s).2 := run.next (Prod.ext threw rfl)
  have readings : s.readings ≤ (perform m env call s).2.readings := (perform_moves inv.stores call).readings
  have before : SeenBy env s.readings t := seen.mono readings
  apply Option.ext
  intro x
  rw [answerAt_iff after short seen, answerAt_iff inv short before]
  have same : Lives m.cookieName (⟨call, .error e⟩ :: calls) x ↔ Lives m.cookieName calls x := by
    constructor
    · rintro (issued | ⟨lives, _⟩)
      · cases issued
      · exact lives
    · exact fun lives => .inr ⟨lives, fun ends => Bool.false_ne_true ends.1⟩
  rw [same]

/-- In every run under a clock that does not run backwards, sessions
authenticate exactly while they live, at the times a `Date` can hold. -/
theorem sessions_authenticate (rising : env.Rising) (run : Run m env calls s) : Authenticates m env calls s := by
  have inv := run_inv run
  constructor
  · intro header short x within
    have plain : ({ env with clock := env.clock } : Ambient) = env := rfl
    rw [← plain, authenticateCookie_iff inv short]
    constructor
    · rintro ⟨values, found, t, shown, inTime⟩
      obtain ⟨lives, inTime⟩ := (stored_iff inv (rising.seenBy shown)).mp ⟨found, inTime⟩
      exact ⟨values, lives, t, shown, (inv.inTime_iff lives (within t shown)).mp inTime⟩
    · rintro ⟨values, lives, t, shown, inTime⟩
      have lasts := (inv.inTime_iff lives (within t shown)).mpr inTime
      obtain ⟨found, inTime⟩ := (stored_iff inv (rising.seenBy shown)).mpr ⟨lives, lasts⟩
      exact ⟨values, found, t, shown, inTime⟩
  · exact fun _ _ _ returned => rotated_exactly run returned
  · exact fun _ _ returned _ _ short _ answered => invalidated_all run returned short answered
  · exact fun _ _ threw _ _ seen short => throws_nothing run threw seen short

end

/-- The clock moves on by a second with each reading, and the random source
returns another number each time. -/
def ticking : Ambient where
  host := asciiHost
  clock n := .time (1000 * n)
  random n size := .bytes (List.replicate size (UInt8.ofNat n))
  lowered s _ := asciiLower_lowered s

theorem ticking_rising : ticking.Rising := by
  rintro i j t u le ⟨⟩ ⟨⟩
  exact Nat.mul_le_mul_left 1000 le

def hourly : SessionManager where
  ttlMs := 3600000
  cookieName := js "__Host-gulogulo-session"
  sameSite := .lax
  ttlMs_bounds := by decide
  cookieName_valid := by decide

def after (m : SessionManager) (env : Ambient) (made : List Made × SessionState) (call : SessionCall) :
    List Made × SessionState :=
  (⟨call, (perform m env call made.2).1⟩ :: made.1, (perform m env call made.2).2)

/-- The calls that are made, and the state they leave. -/
def trace (m : SessionManager) (env : Ambient) (calls : List SessionCall) : List Made × SessionState :=
  calls.foldl (after m env) ([], .initial)

theorem run_trace (m : SessionManager) (env : Ambient) (calls : List SessionCall) :
    Run m env (trace m env calls).1 (trace m env calls).2 := by
  have steps (made : List Made × SessionState) (run : Run m env made.1 made.2) :
      Run m env (calls.foldl (after m env) made).1 (calls.foldl (after m env) made).2 := by
    induction calls generalizing made with
    | nil => exact run
    | cons call calls ih => exact ih _ (.call run call)
  exact steps _ .initial

def alice : JsValue :=
  .object [(js "tenantId", .string (js "example")), (js "domain", .string (js "Example.test")),
    (js "userId", .string (js "alice"))]

/-- The id of the bytes that are all `n`. -/
def idOf (n : Nat) : JsString := base64Url (List.replicate 32 (UInt8.ofNat n))

def signedIn : List Made × SessionState :=
  trace hourly ticking [.createSession alice, .createSession alice, .rotate (.string (idOf 0)) .undefined]

/-- The rotated session is answered with under its new id. -/
theorem alice_authenticates : Authenticates hourly ticking signedIn.1 signedIn.2 ∧
    (authenticateCookie hourly ticking (.string (hourly.cookieName ++ js "=" ++ idOf 0)) signedIn.2).1 = .ok none ∧
    ((authenticateCookie hourly ticking (.string (hourly.cookieName ++ js "=" ++ idOf 2)) signedIn.2).1.map
      fun x => x.map WebSession.domain) = .ok (some (js "example.test")) :=
  ⟨sessions_authenticate ticking_rising (run_trace _ _ _), by decide +kernel, by decide +kernel⟩

/-- The clock stands still, so late that a sum with 100 is rounded to it. -/
def late : Ambient := { ticking with clock := fun _ => .time 1152921504606846976 }

/-- Sessions of a tenth of a second. -/
def brief : SessionManager := { hourly with ttlMs := 100, ttlMs_bounds := by decide }

def signedInLate : List Made × SessionState := trace brief late [.createSession alice]

/-- A session lives and has not reached its creation time plus its length, and
its cookie is not answered with it. -/
theorem late_not_authenticated : late.Rising ∧ Run brief late signedInLate.1 signedInLate.2 ∧
    ∃ x header t, Lives brief.cookieName signedInLate.1 x ∧ OnlyCookie brief.cookieName header x.sessionId ∧
      late.clock signedInLate.2.readings = .time t ∧ t < x.createdAt + brief.ttlMs ∧
      (authenticateCookie brief late (.string header) signedInLate.2).1 = .ok none := by
  refine ⟨?_, run_trace _ _ _, ?_⟩
  · rintro i j t u _ ⟨⟩ ⟨⟩
    exact Nat.le_refl _
  · refine ⟨newSession brief (idOf 0) (js "alice") ⟨js "example", js "example.test", js "alice", .user⟩ 1152921504606846976,
      brief.cookieName ++ js "=" ++ idOf 0, 1152921504606846976, .inl ?_, cookieValues_eq_singleton.mp ?_, rfl, ?_, ?_⟩
    all_goals decide +kernel

end GuloGulo.Web.Security
