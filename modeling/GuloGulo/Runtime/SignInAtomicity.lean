import GuloGulo.Runtime.SignInSteps
import GuloGulo.Web.SessionRuns

/-!
# When a sign-in is atomic

A sign-in that does not come to its end answers 401 and keeps what it has
changed: the session of the request is gone, or a session without a password
has been created. The password is limited in characters by the route and in
bytes by the credential store.
-/

namespace GuloGulo.Runtime.Server
open Js Data Web.Security
open Eff (check wp)

section
variable (m : Managers) (env : Ambient) (session : Option WebSession) (cookieHeader : JsValue)
  (login : MfaLoginInput) (loginKey : Option JsString) (recoveryCodes : Option (List JsString)) (s s' : ServerState)

/-- The answer is 200, and its cookie names a session that is stored. Until it
expires, the session is found, the token validates and the password is
returned. -/
structure SignedIn (y : WebSession) (cookie : SetCookie) (token : JsString) (issuedAt : Nat) : Prop where
  response : s'.response = ⟨true, some cookie, [200], 1, sessionDetails y token recoveryCodes⟩
  named : cookie.value = y.sessionId
  stored : s'.sessions.get y.sessionId = some y
  lasts : y.createdAt < y.expiresAt ∧ ∃ i, s.readings ≤ i ∧ env.clock i = .time issuedAt
  found : ∀ t < y.expiresAt,
    (getActiveSession (env.showing t) (.string cookie.value) s'.toSessionState).1 = .ok (some y)
  validates : ∀ t < y.expiresAt, t < issuedAt + m.csrf.tokenTtlMs →
    (validate (env.showing t) y (.string token) true s'.toSecurityState).1 = .ok ()
  password : ∀ t < y.expiresAt,
    (MailCredentials.get (env.showing t) y.sessionId s'.toSecurityState).1 = .ok (some login.password)

/-- The stores are as before, and no session has been created. -/
structure AsBefore : Prop where
  sessions : s'.sessions = s.sessions
  tokens : s'.tokensBySession = s.tokensBySession
  credentials : s'.credentials = s.credentials
  events : s'.events = s.events

/-- The request is answered: with a session, or with an error and nothing else. -/
def Atomic : Prop :=
  (startSession m env session cookieHeader login loginKey recoveryCodes s).1 = .ok () ∧
    ((∃ y cookie token issuedAt, SignedIn m env login recoveryCodes s
        (startSession m env session cookieHeader login loginKey recoveryCodes s).2 y cookie token issuedAt) ∨
      ((∃ status, 400 ≤ status ∧
          (startSession m env session cookieHeader login loginKey recoveryCodes s).2.response.heads = [status]) ∧
        AsBefore s (startSession m env session cookieHeader login loginKey recoveryCodes s).2))

/-- From here on the clock shows times, and the random source returns what it
is asked for, never the id of a stored session. -/
structure Working : Prop where
  clock : ∀ i, s.readings ≤ i → Timed env i
  random : ∀ n, s.draws ≤ n → ∀ size, ∃ bytes, env.random n size = .bytes bytes ∧ bytes.length = size ∧
    (size = sessionIdBytes → s.sessions.get (base64Url bytes) = none)

/-- Sign-in is atomic, and with a working clock and random source an accepted
identity is signed in. -/
def SignsIn : Prop :=
  Atomic m env session cookieHeader login loginKey recoveryCodes s ∧
    (Working env s → (identify env login.identity).isOk →
      ∃ y cookie token issuedAt, SignedIn m env login recoveryCodes s
        (startSession m env session cookieHeader login loginKey recoveryCodes s).2 y cookie token issuedAt)

/-- No session, token or password is stored for the id that the request carries. -/
def Untouched : Prop :=
  ∀ id, carriedId m session cookieHeader = some id →
    s.sessions.get id = none ∧ s.tokensBySession.get id = none ∧ s.credentials.get id = none

/-- Every step finds the clock and the random source working and the password
fits, in bytes and as text; or no session can be created, there is none to be
dropped, and the answer can be dated. -/
def GoesThrough : Prop :=
  (∃ y n, Begins env m.sessions (dropped m session cookieHeader s).toSessionState login.identity y n ∧
      Completes env y (s.readings + 1) n ∧ byteLength login.password ≤ MailCredentials.maxCredentialBytes ∧
      isWellFormed login.password) ∨
    ((∀ y n, ¬ Begins env m.sessions (dropped m session cookieHeader s).toSessionState login.identity y n) ∧
      Untouched m session cookieHeader s ∧ Dated env (nextReading env s.readings login.identity))

end

section
variable {m : Managers} {env : Ambient} {session : Option WebSession} {cookieHeader : JsValue}
  {login : MfaLoginInput} {loginKey : Option JsString} {recoveryCodes : Option (List JsString)}
  {s s₁ s' : ServerState} {y : WebSession} {cookie : SetCookie}

theorem live_showing {t : Nat} (inTime : t < y.expiresAt) (i : Nat) : Live (env.showing t) y i :=
  ⟨t, rfl, inTime⟩

theorem found_showing {t : Nat} {state : SessionState} (stored : state.sessions.get y.sessionId = some y)
    (valid : sessionIdPattern y.sessionId) (inTime : t < y.expiresAt) :
    (getActiveSession (env.showing t) (.string y.sessionId) state).1 = .ok (some y) := by
  have looked : wp (getActiveSession (env.showing t) (.string y.sessionId)) state _ :=
    getActiveSession_exact stored valid
  obtain ⟨_, _, ⟨found, _⟩ | ⟨_, dead⟩⟩ := looked
  · exact found
  · exact absurd (live_showing inTime _) dead

/-- A token of the session's bucket validates until it expires. -/
theorem validates_showing {t : Nat} {state : SecurityState} (stored : state.sessions.get y.sessionId = some y)
    (valid : sessionIdPattern y.sessionId) (inTime : t < y.expiresAt) {token : JsString} (pattern : tokenPattern token)
    {bucket : Bucket} {issuedAt expiresAt : Nat}
    (holds : state.tokensBySession.get y.sessionId = some (OrderedMap.set bucket (base64Url (digestToken env token))
      ⟨digestToken env token, issuedAt, expiresAt⟩)) (fresh : t < expiresAt) :
    (validate (env.showing t) y (.string token) true state).1 = .ok () := by
  show wp (validate (env.showing t) y (.string token) true) state fun r _ => r = .ok ()
  unfold validate
  rw [Eff.wp_bind]
  apply Eff.wp_mono (active_exact stored valid)
  rintro r s₁ (⟨rfl, _, _, rfl⟩ | ⟨_, dead⟩)
  · simp only [pattern, Bool.not_true, throwIf_false, Eff.check_ok_bind, Eff.wp_get_bind, holds]
    apply wp_read_bind
    · exact fun e unread => absurd ⟨t, rfl⟩ unread
    rintro _ ⟨⟩
    rw [Eff.wp_modify_bind]
    have member : (base64Url (digestToken env token), (⟨digestToken env token, issuedAt, expiresAt⟩ : TokenRecord)) ∈
        (removeExpired (OrderedMap.set bucket (base64Url (digestToken env token))
          ⟨digestToken env token, issuedAt, expiresAt⟩) t).rows := by
      apply Table.mem_deleteWhere.mpr
      refine ⟨OrderedMap.mem_rows.mpr ?_, decide_eq_false (Nat.not_le.mpr fresh)⟩
      rw [OrderedMap.get_set, if_pos rfl]
    have unexpired : ∀ row ∈ (removeExpired (OrderedMap.set bucket (base64Url (digestToken env token))
        ⟨digestToken env token, issuedAt, expiresAt⟩) t).rows, ¬ row.2.expiresAt ≤ t :=
      fun row kept => of_decide_eq_false (Table.mem_deleteWhere.mp kept).2
    have sameDigest : digestToken (env.showing t) token = digestToken env token := rfl
    simp only [sameDigest]
    generalize removeExpired (OrderedMap.set bucket (base64Url (digestToken env token))
      ⟨digestToken env token, issuedAt, expiresAt⟩) t = remaining at member unexpired
    cases found : matching remaining (digestToken env token) with
    | none =>
      have empty := List.getLast?_eq_none_iff.mp found
      have kept : (base64Url (digestToken env token), (⟨digestToken env token, issuedAt, expiresAt⟩ : TokenRecord)) ∈
          remaining.rows.filter fun row => row.2.digest == digestToken env token :=
        List.mem_filter.mpr ⟨member, beq_self_eq_true (digestToken env token)⟩
      rw [empty] at kept
      cases kept
    | some row =>
      have kept := (List.mem_filter.mp (List.mem_of_getLast? found)).1
      simp only [unexpired row kept, decide_false, throwIf_false, Eff.check_ok_bind, ↓reduceIte]
      rfl
  · exact absurd ⟨live_showing inTime _, live_showing inTime _⟩ dead

theorem password_showing {t : Nat} {state : SecurityState} (valid : sessionIdPattern y.sessionId)
    (inTime : t < y.expiresAt) {iv : List UInt8} {password : JsString}
    (holds : state.credentials.get y.sessionId =
      some ⟨MailCredentials.sealCredential y.sessionId iv password, y.expiresAt⟩) :
    (MailCredentials.get (env.showing t) y.sessionId state).1 = .ok (some (toWellFormed password)) := by
  show wp (MailCredentials.get (env.showing t) y.sessionId) state fun r _ => r = .ok (some (toWellFormed password))
  unfold MailCredentials.get MailCredentials.assertSessionId
  rw [valid]
  simp only [Bool.not_true, throwIf_false, Eff.check_ok_bind]
  apply wp_read_bind
  · exact fun e unread => absurd ⟨t, rfl⟩ unread
  rintro _ ⟨⟩
  unfold MailCredentials.sweep
  rw [Eff.wp_modify_bind, Eff.wp_get_bind]
  have kept : OrderedMap.get (state.credentials.deleteWhere fun row => decide (row.2.expiresAt ≤ t)) y.sessionId =
      some ⟨MailCredentials.sealCredential y.sessionId iv password, y.expiresAt⟩ := by
    rw [OrderedMap.get_deleteWhere state.credentials fun entry => decide (entry.expiresAt ≤ t), holds,
      Option.filter_some, if_pos]
    simpa using inTime
  simp only [kept, MailCredentials.openCredential, MailCredentials.sealCredential, and_self, ↓reduceIte]
  exact congrArg _ (congrArg _ (utf8Text_utf8 password))

/-- A session that has been equipped is signed in, if its password is text. -/
theorem signedIn_of_equipped {t : SessionState} {n : Nat} (begins : Begins env m.sessions t login.identity y n)
    (value : cookie.value = y.sessionId) (readings : s.readings ≤ s₁.readings)
    (stored : s₁.sessions.get y.sessionId = some y) (equipped : Equipped m env s₁ login recoveryCodes y cookie s')
    (safe : y.expiresAt ≤ maxSafeInteger) (wellFormed : isWellFormed login.password) :
    ∃ token issuedAt, SignedIn m env login recoveryCodes s s' y cookie token issuedAt := by
  obtain ⟨sessions, ⟨issued, bucket, now, pattern, tokens, response⟩, iv, credential⟩ := equipped
  have valid := (drawn_valid begins.drawn).1
  have stored' : s'.sessions.get y.sessionId = some y := by rw [sessions, stored]
  have lasts : y.createdAt < y.expiresAt := by
    have length := m.sessions.ttlMs_bounds
    rw [begins.expires] at safe ⊢
    by_cases small : y.createdAt + 1 < 9007199254740992
    · exact Number.lt_add small length.1
    · have below := (Number.lt_add_iff (a := y.createdAt) (b := m.sessions.ttlMs) (t := maxSafeInteger) (by decide)).mpr
      unfold maxSafeInteger at safe below
      omega
  have kept : toWellFormed login.password = login.password := eq_of_beq wellFormed
  refine ⟨issued.token, issued.issuedAt, response, value, stored', ⟨lasts, s₁.readings + 2, by omega, now⟩, ?_, ?_, ?_⟩
  · intro t inTime
    rw [value]
    exact found_showing stored' valid inTime
  · intro t inTime fresh
    have early : t < 9007199254740992 := Nat.lt_of_lt_of_le inTime (Nat.le_succ_of_le safe)
    exact validates_showing stored' valid inTime pattern tokens ((Number.lt_add_iff early).mpr fresh)
  · intro t inTime
    rw [password_showing valid inTime credential, kept]

/-- The password that is returned is the text that was sealed. -/
theorem wellFormed_of_signedIn {t : SessionState} {n : Nat} (begins : Begins env m.sessions t login.identity y n)
    (value : cookie.value = y.sessionId) (stored : s₁.sessions.get y.sessionId = some y)
    (equipped : Equipped m env s₁ login recoveryCodes y cookie s') {y' : WebSession} {cookie' : SetCookie}
    {token : JsString} {issuedAt : Nat} (signedIn : SignedIn m env login recoveryCodes s s' y' cookie' token issuedAt) :
    isWellFormed login.password := by
  obtain ⟨sessions, ⟨issued, bucket, now, pattern, tokens, response⟩, iv, credential⟩ := equipped
  have valid := (drawn_valid begins.drawn).1
  have sameCookie : cookie' = cookie := by
    have both := signedIn.response.symm.trans response
    simp only [Response.mk.injEq, Option.some.injEq] at both
    exact both.2.1
  have sameId : y'.sessionId = y.sessionId := by rw [← signedIn.named, sameCookie, value]
  have same : y' = y := by
    have found := signedIn.stored
    rw [sameId, sessions, stored] at found
    exact (Option.some.inj found).symm
  subst same
  have returned := signedIn.password y'.createdAt signedIn.lasts.1
  rw [password_showing valid signedIn.lasts.1 credential] at returned
  exact beq_iff_eq.mpr (Option.some.inj (Except.ok.inj returned))

theorem drawn_unique {sessions : OrderedMap JsString WebSession} {attempts n n' n'' : Nat} {id id' : JsString}
    (a : Drawn env sessions attempts n id n') (b : Drawn env sessions attempts n id' n'') : id = id' ∧ n' = n'' := by
  induction a with
  | fresh attempts n bytes drawn size absent =>
    cases b with
    | fresh _ _ bytes' drawn' =>
      cases drawn.symm.trans drawn'
      exact ⟨rfl, rfl⟩
    | taken _ _ _ bytes' _ drawn' _ present =>
      cases drawn.symm.trans drawn'
      exact absurd absent present
  | taken attempts n _ bytes _ drawn _ present _ ih =>
    cases b with
    | fresh _ _ bytes' drawn' _ absent =>
      cases drawn.symm.trans drawn'
      exact absurd absent present
    | taken _ _ _ bytes' _ drawn' _ _ later => exact ih later

theorem begins_unique {t : SessionState} {identity : JsValue} {y y' : WebSession} {n n' : Nat}
    (a : Begins env m.sessions t identity y n) (b : Begins env m.sessions t identity y' n') : y = y' ∧ n = n' := by
  obtain ⟨id, draws⟩ := drawn_unique a.drawn b.drawn
  have identified := a.identified.symm.trans b.identified
  have created := a.created.symm.trans b.created
  cases y
  cases y'
  simp only [Except.ok.injEq, Prod.mk.injEq] at identified
  simp only [ClockReading.time.injEq] at created
  have seen := a.seen
  have seen' := b.seen
  have expires := a.expires
  have expires' := b.expires
  simp_all

/-- Nothing is dropped exactly where nothing is stored. -/
theorem untouched_iff : Untouched m session cookieHeader s ↔
    (dropped m session cookieHeader s).sessions = s.sessions ∧
      (dropped m session cookieHeader s).tokensBySession = s.tokensBySession ∧
        (dropped m session cookieHeader s).credentials = s.credentials := by
  unfold Untouched dropped
  cases carriedId m session cookieHeader with
  | none => simp
  | some id => simp [OrderedMap.delete_eq_self]

/-- The handler runs where the block has stopped. -/
theorem wp_orCatch {body handler : Eff Err ServerState Unit} {Q : Except Err Unit → ServerState → Prop}
    (h : wp body s fun r s' => match r with
      | .ok _ => Q (.ok ()) s'
      | .error _ => wp handler s' Q) : wp (orCatch body handler) s Q := by
  unfold wp at h ⊢
  unfold orCatch
  revert h
  rcases body s with ⟨r, s'⟩
  cases r <;> exact id

variable (env) in
/-- The handler's answer changes no store. -/
structure Refused (s s' : ServerState) (r : Except Err Unit) : Prop where
  dated : r = .ok () ↔ Dated env s.readings
  before : AsBefore s s'
  answered : r = .ok () → s'.response.heads = [401]
  unanswered : r ≠ .ok () → s'.response.heads = []

theorem refuse_exact (details : JsValue) (unanswered : s.response.Unanswered) :
    wp (respond env 401 details) s fun r s' => Refused env s s' r := by
  obtain ⟨completed, heads, _⟩ := unanswered
  apply Eff.wp_mono (respond_exact 401 details)
  rintro r s' (⟨rfl, dated, rfl⟩ | ⟨⟨e, rfl⟩, undated, rfl⟩)
  · simp only [finish, completed, heads, Bool.false_eq_true, ↓reduceIte, List.nil_append]
    exact ⟨iff_of_true rfl dated, ⟨rfl, rfl, rfl, rfl⟩, fun _ => rfl, fun other => absurd rfl other⟩
  · have failed : (Except.error e : Except Err Unit) ≠ .ok () := by simp
    exact ⟨iff_of_false failed undated, ⟨rfl, rfl, rfl, rfl⟩, fun ok => absurd ok failed, fun _ => heads⟩

variable (m env session cookieHeader login recoveryCodes s) in
/-- How `startSession` ends. -/
inductive Outcome : Except Err Unit → ServerState → Prop where
  | complete (y : WebSession) (n : Nat) (cookie : SetCookie) (s₁ s' : ServerState)
      (begins : Begins env m.sessions (dropped m session cookieHeader s).toSessionState login.identity y n)
      (completes : Completes env y (s.readings + 1) n)
      (short : byteLength login.password ≤ MailCredentials.maxCredentialBytes) (value : cookie.value = y.sessionId)
      (readings : s₁.readings = s.readings + 3) (stored : s₁.sessions.get y.sessionId = some y)
      (equipped : Equipped m env s₁ login recoveryCodes y cookie s') : Outcome (.ok ()) s'
  | halfway (y : WebSession) (n : Nat) (r : Except Err Unit) (s₁ s' : ServerState)
      (begins : Begins env m.sessions (dropped m session cookieHeader s).toSessionState login.identity y n)
      (fails : ¬ (Completes env y (s.readings + 1) n ∧
        byteLength login.password ≤ MailCredentials.maxCredentialBytes))
      (events : s₁.events = s.events ++ [.sessionCreated y]) (refused : Refused env s₁ s' r) : Outcome r s'
  | early (r : Except Err Unit) (s₁ s' : ServerState)
      (never : ∀ y n, ¬ Begins env m.sessions (dropped m session cookieHeader s).toSessionState login.identity y n)
      (readings : s₁.readings = nextReading env s.readings login.identity)
      (before : AsBefore (dropped m session cookieHeader s) s₁) (refused : Refused env s₁ s' r) :
      Outcome r s'

theorem startSession_exact (some' : login.password ≠ []) (fresh : s.response = .fresh) :
    wp (startSession m env session cookieHeader login loginKey recoveryCodes) s fun r s' =>
      Outcome m env session cookieHeader login recoveryCodes s r s' := by
  apply wp_orCatch
  apply Eff.wp_mono (signIn_exact some' fresh)
  intro r s₁ ends
  cases ends with
  | complete y n cookie s₀ s₁ begins completes short value readings stored equipped =>
    exact .complete y n cookie s₀ s₁ begins completes short value readings stored equipped
  | halfway y n e s₁ begins fails events unanswered =>
    apply Eff.wp_mono (refuse_exact _ unanswered)
    intro r s' refused
    exact .halfway y n r s₁ s' begins fails events refused
  | early n e never =>
    have unanswered : (dropped m session cookieHeader s).response.Unanswered := by
      show s.response.Unanswered
      simp [fresh, Response.fresh, Response.Unanswered]
    apply Eff.wp_mono (refuse_exact _ _)
    · intro r s' refused
      refine .early r _ s' never ?_ ?_ refused
      · rfl
      · exact ⟨rfl, rfl, rfl, rfl⟩
    · exact unanswered

/-- With a working clock and random source, a session is created for an accepted identity. -/
theorem begins_of_working (working : Working env s) (accepted : (identify env login.identity).isOk) :
    ∃ y n, Begins env m.sessions (dropped m session cookieHeader s).toSessionState login.identity y n := by
  cases identified : identify env login.identity with
  | error e => rw [identified] at accepted; cases accepted
  | ok p =>
    obtain ⟨userId, context⟩ := p
    obtain ⟨now, shown⟩ := working.clock s.readings (Nat.le_refl _)
    obtain ⟨bytes, drawn, size, absent⟩ := working.random s.draws (Nat.le_refl _) sessionIdBytes
    have absent' : (dropped m session cookieHeader s).sessions.get (base64Url bytes) = none := by
      unfold dropped
      cases carriedId m session cookieHeader with
      | none => exact absent rfl
      | some id =>
        show (s.sessions.delete id).get _ = none
        rw [OrderedMap.get_delete, absent rfl, ite_self]
    exact ⟨newSession m.sessions (base64Url bytes) userId context now, s.draws + 1, identified, shown, rfl, rfl,
      .fresh 3 s.draws bytes drawn size absent'⟩

theorem AsBefore.trans {s₀ s₁ s₂ : ServerState} (a : AsBefore s₀ s₁) (b : AsBefore s₁ s₂) : AsBefore s₀ s₂ :=
  ⟨b.sessions.trans a.sessions, b.tokens.trans a.tokens, b.credentials.trans a.credentials, b.events.trans a.events⟩

/-- Dropping the session of the request changes nothing exactly where nothing is stored. -/
theorem asBefore_dropped_iff : AsBefore s (dropped m session cookieHeader s) ↔ Untouched m session cookieHeader s := by
  rw [untouched_iff]
  constructor
  · exact fun before => ⟨before.sessions, before.tokens, before.credentials⟩
  · exact fun ⟨sessions, tokens, credentials⟩ => ⟨sessions, tokens, credentials, rfl⟩

/-- A refusal is not a session. -/
theorem Refused.not_signedIn {r : Except Err Unit} (refused : Refused env s₁ s' r) {token : JsString}
    {issuedAt : Nat} : ¬ SignedIn m env login recoveryCodes s s' y cookie token issuedAt := by
  intro signedIn
  by_cases ok : r = .ok ()
  · have heads := refused.answered ok
    rw [signedIn.response] at heads
    simp at heads
  · have heads := refused.unanswered ok
    rw [signedIn.response] at heads
    cases heads

theorem not_asBefore_of_events {y : WebSession} (events : s₁.events = s.events ++ [.sessionCreated y])
    (later : AsBefore s₁ s') : ¬ AsBefore s s' := by
  intro before
  have same := before.events.symm.trans (later.events.trans events)
  simp at same

/-- Sign-in meets its contract exactly if every step of it goes through, or
there is nothing for it to change and nothing to be lost. -/
theorem signsIn_iff (m : Managers) (env : Ambient) (session : Option WebSession) (cookieHeader : JsValue)
    (login : MfaLoginInput) (loginKey : Option JsString) (recoveryCodes : Option (List JsString)) (s : ServerState)
    (accepted : acceptsPassword login.password) :
    SignsIn m env session cookieHeader login loginKey recoveryCodes { s with response := .fresh } ↔
      GoesThrough m env session cookieHeader login { s with response := .fresh } := by
  generalize start : ({ s with response := .fresh } : ServerState) = s₀
  have fresh : s₀.response = .fresh := by rw [← start]
  have some' : login.password ≠ [] := by
    have bounds := of_decide_eq_true accepted
    rintro empty
    rw [empty] at bounds
    exact absurd bounds.1 (by simp)
  have outcome : Outcome m env session cookieHeader login recoveryCodes s₀
      (startSession m env session cookieHeader login loginKey recoveryCodes s₀).1
      (startSession m env session cookieHeader login loginKey recoveryCodes s₀).2 :=
    startSession_exact some' fresh
  unfold SignsIn Atomic GoesThrough
  generalize (startSession m env session cookieHeader login loginKey recoveryCodes s₀).1 = r at outcome ⊢
  generalize (startSession m env session cookieHeader login loginKey recoveryCodes s₀).2 = s' at outcome ⊢
  cases outcome with
  | complete y n cookie s₁ _ begins completes short value readings stored equipped =>
    constructor
    · rintro ⟨⟨_, ⟨y', cookie', token, issuedAt, signedIn⟩ | ⟨⟨status, high, heads⟩, _⟩⟩, _⟩
      · left
        exact ⟨y, n, begins, completes, short, wellFormed_of_signedIn begins value stored equipped signedIn⟩
      · obtain ⟨_, ⟨issued, _, _, _, _, response⟩, _⟩ := equipped
        rw [response] at heads
        cases heads
        omega
    · intro goes
      have wellFormed : isWellFormed login.password := by
        rcases goes with ⟨_, _, _, _, _, wellFormed⟩ | ⟨never, _⟩
        · exact wellFormed
        · exact absurd begins (never y n)
      have later : s₀.readings ≤ s₁.readings := by omega
      obtain ⟨token, issuedAt, signedIn⟩ := signedIn_of_equipped begins value later stored equipped
        completes.equips.password.2.1 wellFormed
      exact ⟨⟨rfl, .inl ⟨y, cookie, token, issuedAt, signedIn⟩⟩, fun _ _ => ⟨y, cookie, token, issuedAt, signedIn⟩⟩
  | halfway y n _ s₁ _ begins fails events refused =>
    constructor
    · rintro ⟨⟨_, ⟨_, _, _, _, signedIn⟩ | ⟨_, before⟩⟩, _⟩
      · exact absurd signedIn refused.not_signedIn
      · exact absurd before (not_asBefore_of_events events refused.before)
    · rintro (⟨y', n', begins', completes, short, _⟩ | ⟨never, _⟩)
      · obtain ⟨rfl, rfl⟩ := begins_unique begins begins'
        exact absurd ⟨completes, short⟩ fails
      · exact absurd begins (never y n)
  | early _ s₁ _ never readings before refused =>
    rw [← readings, ← refused.dated]
    constructor
    · rintro ⟨⟨answered, ⟨_, _, _, _, signedIn⟩ | ⟨_, before'⟩⟩, _⟩
      · exact absurd signedIn refused.not_signedIn
      · right
        refine ⟨never, asBefore_dropped_iff.mp ?_, answered⟩
        have later := before.trans refused.before
        exact ⟨later.sessions.symm.trans before'.sessions, later.tokens.symm.trans before'.tokens,
          later.credentials.symm.trans before'.credentials, later.events.symm.trans before'.events⟩
    · rintro (⟨y, n, begins, _⟩ | ⟨_, untouched, answered⟩)
      · exact absurd begins (never y n)
      · constructor
        · refine ⟨answered, .inr ⟨⟨401, by omega, ?_⟩, ?_⟩⟩
          · exact refused.answered answered
          · exact (asBefore_dropped_iff.mpr untouched).trans (before.trans refused.before)
        · intro working identified
          obtain ⟨y, n, begins⟩ := begins_of_working working identified
          exact absurd begins (never y n)

end

def vacant : ServerState where
  readings := 0
  draws := 0
  sessions := Table.empty
  tokensBySession := Table.empty
  credentials := Table.empty
  loginFailures := Table.empty
  sessionMailAddress := Table.empty
  imapIdleAvailability := Table.empty
  response := .fresh
  events := []

def managers : Managers where
  sessions := hourly
  csrf :=
    { tokenTtlMs := 600000
      maxOutstandingTokens := 16
      tokenTtlMs_bounds := by decide
      maxOutstandingTokens_bounds := by decide }

def byPassword (password : JsString) : MfaLoginInput :=
  ⟨alice, js "alice@example.test", password, false⟩

/-- The session that alice is signed in with first. -/
def alicesSession : WebSession :=
  newSession hourly (idOf 0) (js "alice") ⟨js "example", js "example.test", js "alice", .user⟩ 0

theorem alice_begins :
    Begins ticking hourly (dropped managers none .undefined vacant).toSessionState alice alicesSession 1 where
  identified := rfl
  created := rfl
  seen := rfl
  expires := rfl
  drawn := .fresh 3 0 (List.replicate 32 0) rfl rfl rfl

theorem alice_live (i : Nat) (early : i < 3600) : Live ticking alicesSession i := by
  refine ⟨1000 * i, rfl, ?_⟩
  show 1000 * i < Number.add 0 3600000
  rw [Number.add_of_lt (by decide)]
  omega

theorem alice_completes : Completes ticking alicesSession 1 1 where
  cookie := ⟨alice_live 1 (by decide), 2000, rfl⟩
  equips :=
    { active := ⟨alice_live 3 (by decide), alice_live 4 (by decide)⟩
      token := ⟨⟨5000, rfl⟩, List.replicate 32 1, rfl, rfl⟩
      password := ⟨alice_live 6 (by decide), by decide, List.replicate 12 2, rfl, rfl⟩
      dated := ⟨nofun, nofun⟩ }

theorem alice_signsIn : SignsIn managers ticking none .undefined (byPassword (js "secret")) none none
    { vacant with response := .fresh } := by
  have accepted : acceptsPassword (byPassword (js "secret")).password := by decide
  apply (signsIn_iff managers ticking none .undefined (byPassword (js "secret")) none none vacant accepted).mpr
  left
  exact ⟨alicesSession, 1, alice_begins, alice_completes, by decide, by decide⟩

def aliceSignedIn : ServerState :=
  (startSession managers ticking none .undefined (byPassword (js "secret")) none none vacant).2

/-- 513 characters in 1026 bytes. -/
def longPassword : JsString := List.replicate 513 233

def alicesCookie : JsValue := .string (hourly.cookieName ++ js "=" ++ idOf 0)

/-- Alice's session is gone, and the new one has no password. -/
theorem longPassword_not_signsIn : acceptsPassword longPassword ∧
    aliceSignedIn.sessions.get (idOf 0) = some alicesSession ∧
    ¬ SignsIn managers ticking (some alicesSession) alicesCookie (byPassword longPassword) none none
      { aliceSignedIn with response := .fresh } := by
  have heads : (startSession managers ticking (some alicesSession) alicesCookie (byPassword longPassword) none none
      { aliceSignedIn with response := .fresh }).2.response.heads = [401] := by decide +kernel
  have gone : (startSession managers ticking (some alicesSession) alicesCookie (byPassword longPassword) none none
      { aliceSignedIn with response := .fresh }).2.sessions.get (idOf 0) = none := by decide +kernel
  have stored : aliceSignedIn.sessions.get (idOf 0) = some alicesSession := by decide
  refine ⟨by decide +kernel, stored, ?_⟩
  rintro ⟨⟨_, ⟨_, _, _, _, signedIn⟩ | ⟨_, before⟩⟩, _⟩
  · rw [signedIn.response] at heads
    cases heads
  · rw [before.sessions] at gone
    exact absurd (stored.symm.trans gone) nofun

end GuloGulo.Runtime.Server
