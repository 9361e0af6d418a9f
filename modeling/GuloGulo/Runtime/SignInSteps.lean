import GuloGulo.Runtime.SignIn
import GuloGulo.Web.TokenSteps

/-!
# How far a sign-in comes

One lemma for each step of `signIn`: when it succeeds, and what it leaves. The
readings of the clock and the draws are told apart by their position.
-/

namespace GuloGulo.Runtime.Server
open Js Data Web.Security
open Eff (check wp)

section
variable (env : Ambient)

/-- The clock shows a time. -/
def Timed (i : Nat) : Prop := ∃ t, env.clock i = .time t

/-- The clock shows a time at which the session has not expired. -/
def Live (y : WebSession) (i : Nat) : Prop := ∃ t, env.clock i = .time t ∧ t < y.expiresAt

/-- The clock shows a date. -/
def Dated (i : Nat) : Prop := env.clock i ≠ .invalid ∧ env.clock i ≠ .threw

/-- The random source returns as many bytes as it is asked for. -/
def Fills (n size : Nat) : Prop := ∃ bytes, env.random n size = .bytes bytes ∧ bytes.length = size

/-- An id that no stored session has is drawn in so many attempts; the next
draw is the last argument. -/
inductive Drawn (sessions : OrderedMap JsString WebSession) : Nat → Nat → JsString → Nat → Prop where
  | fresh (attempts n : Nat) (bytes : List UInt8) (drawn : env.random n sessionIdBytes = .bytes bytes)
      (size : bytes.length = sessionIdBytes) (absent : sessions.get (base64Url bytes) = none) :
      Drawn sessions (attempts + 1) n (base64Url bytes) (n + 1)
  | taken (attempts n n' : Nat) (bytes : List UInt8) (id : JsString)
      (drawn : env.random n sessionIdBytes = .bytes bytes) (size : bytes.length = sessionIdBytes)
      (present : sessions.get (base64Url bytes) ≠ none) (later : Drawn sessions attempts (n + 1) id n') :
      Drawn sessions (attempts + 1) n id n'

/-- A session is created, and so many draws have been made after it. -/
structure Begins (m : SessionManager) (s : SessionState) (identity : JsValue) (y : WebSession) (draws : Nat) :
    Prop where
  identified : identify env identity = .ok (y.userId, y.context)
  created : env.clock s.readings = .time y.createdAt
  seen : y.lastSeenAt = y.createdAt
  expires : y.expiresAt = Number.add y.createdAt m.ttlMs
  drawn : Drawn env s.sessions 4 s.draws y.sessionId draws

/-- The steps after the cookie find the clock and the random source working:
the token is issued, the password sealed and the answer dated. -/
structure Equips (y : WebSession) (readings draws : Nat) : Prop where
  active : Live env y readings ∧ Live env y (readings + 1)
  token : Timed env (readings + 2) ∧ Fills env draws tokenBytes
  password : Live env y (readings + 3) ∧ y.expiresAt ≤ maxSafeInteger ∧
    Fills env (draws + 1) MailCredentials.ivBytes
  dated : Dated env (readings + 4)

/-- And the cookie is written. -/
structure Completes (y : WebSession) (readings draws : Nat) : Prop where
  cookie : Live env y readings ∧ Timed env (readings + 1)
  equips : Equips env y (readings + 2) draws

end

section
variable {m : SessionManager} {env : Ambient} {s : SessionState} {y : WebSession} {α : Type}

theorem wp_draw_bind {size : Nat} {message : String} {f : List UInt8 → Eff Err SessionState α}
    {Q : Except Err α → SessionState → Prop}
    (failed : ∀ e, ¬ Fills env s.draws size → Q (.error e) { s with draws := s.draws + 1 })
    (drawn : ∀ bytes, env.random s.draws size = .bytes bytes → bytes.length = size →
      wp (f bytes) { s with draws := s.draws + 1 } Q) :
    wp (onUses (randomBytes env size message) >>= f) s Q := by
  rw [Eff.wp_bind]
  unfold wp onUses Eff.zoom randomBytes
  cases draw : env.random s.draws size with
  | bytes bytes =>
    by_cases long : bytes.length = size
    · simp only [long, ↓reduceIte]
      exact drawn bytes draw long
    · simp only [long, ↓reduceIte]
      apply failed
      rintro ⟨bytes', drawn', long'⟩
      cases draw.symm.trans drawn'
      exact long long'
  | other =>
    apply failed
    rintro ⟨_, drawn', _⟩
    cases draw.symm.trans drawn'
  | threw =>
    apply failed
    rintro ⟨_, drawn', _⟩
    cases draw.symm.trans drawn'

theorem drawSessionId_exact (attempts : Nat) : wp (drawSessionId env attempts) s fun r s' =>
    (∃ id n, Drawn env s.sessions attempts s.draws id n ∧ r = .ok id ∧ s' = { s with draws := n }) ∨
      ((∃ e, r = .error e) ∧ (∀ id n, ¬ Drawn env s.sessions attempts s.draws id n) ∧
        ∃ n, s' = { s with draws := n }) := by
  induction attempts generalizing s with
  | zero =>
    right
    exact ⟨⟨_, rfl⟩, nofun, s.draws, rfl⟩
  | succ attempts ih =>
    have draws : drawSessionId env (attempts + 1) = onUses (randomBytes env sessionIdBytes
        "randomBytesFn must return 32 bytes") >>= fun bytes => Eff.get >>= fun s =>
          if (s.sessions.get (base64Url bytes)).isNone then return base64Url bytes
          else drawSessionId env attempts := by
      funext s
      rw [drawSessionId, normalizeRandomBytes]
      show Eff.bind (Eff.bind _ _) _ s = Eff.bind _ _ s
      unfold Eff.bind
      rcases onUses (randomBytes env sessionIdBytes "randomBytesFn must return 32 bytes") s with ⟨r, s'⟩
      cases r <;> rfl
    rw [draws]
    apply wp_draw_bind
    · intro e unfilled
      right
      refine ⟨⟨e, rfl⟩, ?_, s.draws + 1, rfl⟩
      rintro id n drawn
      cases drawn with
      | fresh _ _ bytes drawn size => exact unfilled ⟨bytes, drawn, size⟩
      | taken _ _ _ bytes _ drawn size => exact unfilled ⟨bytes, drawn, size⟩
    · intro bytes drawn size
      rw [Eff.wp_get_bind]
      split
      · rename_i absent
        left
        exact ⟨_, _, .fresh attempts s.draws bytes drawn size (Option.isNone_iff_eq_none.mp absent), rfl, rfl⟩
      · rename_i present
        have present : s.sessions.get (base64Url bytes) ≠ none := fun h => present (Option.isNone_iff_eq_none.mpr h)
        apply Eff.wp_mono ih
        rintro r s' (⟨id, n, later, rfl, rfl⟩ | ⟨failed, never, n, rfl⟩)
        · left
          exact ⟨id, n, .taken attempts s.draws n bytes id drawn size present later, rfl, rfl⟩
        · right
          refine ⟨failed, ?_, n, rfl⟩
          rintro id n' drawn'
          cases drawn' with
          | fresh _ _ bytes' drawn' _ absent =>
            cases drawn.symm.trans drawn'
            exact present absent
          | taken _ _ _ bytes' _ drawn' _ _ later => exact never id n' later

theorem drawn_valid {sessions : OrderedMap JsString WebSession} {attempts n n' : Nat} {id : JsString}
    (drawn : Drawn env sessions attempts n id n') : sessionIdPattern id ∧ sessions.get id = none := by
  induction drawn with
  | fresh _ _ bytes _ size absent => exact ⟨sessionIdPattern_base64Url size, absent⟩
  | taken _ _ _ _ _ _ _ _ _ ih => exact ih

/-- The reading that follows on a creation that fails. -/
def nextReading (env : Ambient) (readings : Nat) (identity : JsValue) : Nat :=
  match identify env identity with
  | .ok _ => readings + 1
  | .error _ => readings

theorem createSession_exact (identity : JsValue) : wp (createSession m env identity) s fun r s' =>
    (∃ y n, Begins env m s identity y n ∧ r = .ok y ∧ s' = { s with
      readings := s.readings + 1, draws := n, sessions := s.sessions.set y.sessionId y }) ∨
      ((∃ e, r = .error e) ∧ (∀ y n, ¬ Begins env m s identity y n) ∧
        ∃ n, s' = { s with readings := nextReading env s.readings identity, draws := n }) := by
  unfold createSession
  rw [Eff.wp_lift_bind]
  constructor
  · intro e refused
    right
    refine ⟨⟨e, rfl⟩, ?_, s.draws, ?_⟩
    · intro y n begins
      cases refused.symm.trans begins.identified
    · rw [nextReading, refused]
  rintro ⟨userId, context⟩ identified
  have next : nextReading env s.readings identity = s.readings + 1 := by rw [nextReading, identified]
  rw [next]
  apply wp_clock_bind
  · intro e unread
    right
    refine ⟨⟨e, rfl⟩, ?_, s.draws, rfl⟩
    intro y n begins
    exact unread _ begins.created
  intro now shown
  rw [Eff.wp_bind]
  apply Eff.wp_mono (drawSessionId_exact 4)
  rintro r s' (⟨id, n, drawn, rfl, rfl⟩ | ⟨⟨e, rfl⟩, never, n, rfl⟩)
  · left
    exact ⟨newSession m id userId context now, n, ⟨identified, shown, rfl, rfl, drawn⟩, rfl, rfl⟩
  · right
    refine ⟨⟨e, rfl⟩, ?_, n, rfl⟩
    intro y n' begins
    exact never _ _ begins.drawn

variable (stored : s.sessions.get y.sessionId = some y) (valid : sessionIdPattern y.sessionId)

include stored valid in
/-- Looking up a session that is stored. -/
theorem getActiveSession_exact : wp (getActiveSession env (.string y.sessionId)) s fun r s' =>
    s'.readings = s.readings + 1 ∧ s'.draws = s.draws ∧
      ((r = .ok (some y) ∧ Live env y s.readings ∧ s' = { s with readings := s.readings + 1 }) ∨
        ((∀ x, r ≠ .ok (some x)) ∧ ¬ Live env y s.readings)) := by
  apply Eff.wp_mono (getActiveSession_spec _)
  intro r s' lookup
  cases lookup with
  | missing absent =>
    rw [absent _ rfl valid] at stored
    cases stored
  | unread x id named _ found e unread =>
    refine ⟨rfl, rfl, .inr ⟨fun _ => nofun, ?_⟩⟩
    rintro ⟨t, shown, _⟩
    exact unread t shown
  | past x id named _ found t shown expired =>
    refine ⟨rfl, rfl, .inr ⟨fun _ => nofun, ?_⟩⟩
    rintro ⟨t', shown', inTime⟩
    cases named
    cases stored.symm.trans found
    cases shown.symm.trans shown'
    omega
  | active x id named _ found t shown inTime =>
    cases named
    cases stored.symm.trans found
    exact ⟨rfl, rfl, .inl ⟨rfl, ⟨t, shown, inTime⟩, rfl⟩⟩

include stored valid in
theorem serializeSessionCookie_exact : wp (serializeSessionCookie m env y) s fun r s' =>
    (∃ cookie, r = .ok cookie ∧ cookie.value = y.sessionId ∧ Live env y s.readings ∧ Timed env (s.readings + 1) ∧
        s' = { s with readings := s.readings + 2 }) ∨
      ((∃ e, r = .error e) ∧ ¬ (Live env y s.readings ∧ Timed env (s.readings + 1))) := by
  unfold serializeSessionCookie
  rw [valid]
  simp only [Bool.not_true, throwIf_false, Eff.check_ok_bind]
  rw [Eff.wp_bind]
  apply Eff.wp_mono (getActiveSession_exact stored valid)
  rintro r s' ⟨readings, _, ⟨rfl, live, rfl⟩ | ⟨other, dead⟩⟩
  · simp only [ne_eq, not_true_eq_false, decide_false, throwIf_false, Eff.check_ok_bind]
    apply wp_clock_bind
    · intro e unread
      right
      refine ⟨⟨e, rfl⟩, ?_⟩
      rintro ⟨_, t, shown⟩
      exact unread t shown
    · intro t shown
      left
      exact ⟨_, rfl, rfl, live, ⟨t, shown⟩, rfl⟩
  · cases r with
    | error e => exact .inr ⟨⟨e, rfl⟩, fun works => dead works.1⟩
    | ok found =>
      have different : found ≠ some y := fun same => other y (congrArg Except.ok same)
      simp only [ne_eq, different, not_false_eq_true, decide_true, throwIf_true]
      exact .inr ⟨⟨_, rfl⟩, fun works => dead works.1⟩

end

section
variable {m : SessionManager} {c : CsrfManager} {env : Ambient} {s : SecurityState} {y : WebSession} {α : Type}

/-- A reading of the clock, above the sessions. -/
theorem wp_read_bind {f : Nat → Eff Err SecurityState α} {Q : Except Err α → SecurityState → Prop}
    (failed : ∀ e, ¬ Timed env s.readings → Q (.error e) { s with readings := s.readings + 1 })
    (shown : ∀ t, env.clock s.readings = .time t → wp (f t) { s with readings := s.readings + 1 } Q) :
    wp (onSessions (onUses (readClock env)) >>= f) s Q :=
  wp_time_bind (fun e unread => failed e fun timed => timed.elim unread) shown

theorem wp_fill_bind {size : Nat} {message : String} {f : List UInt8 → Eff Err SecurityState α}
    {Q : Except Err α → SecurityState → Prop}
    (failed : ∀ e, ¬ Fills env s.draws size → Q (.error e) { s with draws := s.draws + 1 })
    (drawn : ∀ bytes, env.random s.draws size = .bytes bytes → bytes.length = size →
      wp (f bytes) { s with draws := s.draws + 1 } Q) :
    wp (onSessions (onUses (randomBytes env size message)) >>= f) s Q := wp_random_bind failed drawn

variable (stored : s.sessions.get y.sessionId = some y) (valid : sessionIdPattern y.sessionId)

include stored valid in
theorem active_exact : wp (active env y) s fun r s' =>
    (r = .ok true ∧ Live env y s.readings ∧ Live env y (s.readings + 1) ∧
        s' = { s with readings := s.readings + 2 }) ∨
      (r ≠ .ok true ∧ ¬ (Live env y s.readings ∧ Live env y (s.readings + 1))) := by
  unfold active
  rw [valid]
  simp only [Bool.not_true, throwIf_false, Eff.check_ok_bind]
  apply wp_read_bind
  · intro e unread
    right
    refine ⟨nofun, ?_⟩
    rintro ⟨⟨t, shown, _⟩, _⟩
    exact unread ⟨t, shown⟩
  · intro t shown
    split
    · rename_i past
      right
      refine ⟨nofun, ?_⟩
      rintro ⟨⟨t', shown', inTime⟩, _⟩
      cases shown.symm.trans shown'
      omega
    · rename_i inTime
      have live : Live env y s.readings := ⟨t, shown, Nat.not_le.mp inTime⟩
      have looked : wp (isSessionActive env y.sessionId) { s with readings := s.readings + 1 } fun r s' =>
          (r = .ok true ∧ Live env y (s.readings + 1) ∧ s' = { s with readings := s.readings + 2 }) ∨
            (r ≠ .ok true ∧ ¬ Live env y (s.readings + 1)) := by
        unfold isSessionActive
        apply Eff.wp_bind_pure
        rw [wp_onSessions]
        have found : ({ s with readings := s.readings + 1 } : SecurityState).toSessionState.sessions.get y.sessionId =
            some y := stored
        apply Eff.wp_mono (getActiveSession_exact found valid)
        rintro r t ⟨_, _, ⟨rfl, live', rfl⟩ | ⟨other, dead⟩⟩
        · exact .inl ⟨rfl, live', rfl⟩
        · refine .inr ⟨?_, dead⟩
          cases r with
          | error e => nofun
          | ok found =>
            cases found with
            | none => nofun
            | some x => exact absurd rfl (other x)
      unfold wp at looked ⊢
      unfold orElse
      revert looked
      rcases isSessionActive env y.sessionId { s with readings := s.readings + 1 } with ⟨r, s'⟩
      rintro (⟨rfl, live', rfl⟩ | ⟨other, dead⟩)
      · exact .inl ⟨rfl, live, live', rfl⟩
      · refine .inr ⟨?_, fun works => dead works.2⟩
        cases r with
        | error e => nofun
        | ok b => exact fun same => other same

variable (c env s) in
/-- What `issue` leaves: the token is the last one of its session's bucket. -/
structure Issued (y : WebSession) (issued : IssuedToken) (s' : SecurityState) : Prop where
  now : env.clock (s.readings + 2) = .time issued.issuedAt
  expires : issued.expiresAt = Number.add issued.issuedAt c.tokenTtlMs
  pattern : tokenPattern issued.token
  left : ∃ bucket : Bucket, s' = { s with
    readings := s.readings + 3, draws := s.draws + 1
    tokensBySession := s.tokensBySession.set y.sessionId
      (OrderedMap.set bucket (base64Url (digestToken env issued.token))
        ⟨digestToken env issued.token, issued.issuedAt, issued.expiresAt⟩) }

include stored valid in
theorem issue_exact : wp (issue c env y) s fun r s' =>
    (∃ issued, r = .ok issued ∧ (Live env y s.readings ∧ Live env y (s.readings + 1)) ∧
        (Timed env (s.readings + 2) ∧ Fills env s.draws tokenBytes) ∧ Issued c env s y issued s') ∨
      ((∃ e, r = .error e) ∧ ¬ ((Live env y s.readings ∧ Live env y (s.readings + 1)) ∧
        Timed env (s.readings + 2) ∧ Fills env s.draws tokenBytes)) := by
  unfold issue
  rw [Eff.wp_bind]
  apply Eff.wp_mono (active_exact stored valid)
  rintro r s₁ (⟨rfl, live, live', rfl⟩ | ⟨inactive, dead⟩)
  · simp only [Bool.not_true, throwIf_false, Eff.check_ok_bind]
    apply wp_read_bind
    · exact fun e unread => .inr ⟨⟨e, rfl⟩, fun works => unread works.2.1⟩
    intro now shown
    apply wp_fill_bind
    · exact fun e unfilled => .inr ⟨⟨e, rfl⟩, fun works => unfilled works.2.2⟩
    intro bytes drawn size
    left
    refine ⟨_, rfl, ⟨live, live'⟩, ⟨⟨now, shown⟩, bytes, drawn, size⟩, shown, rfl, ?_, ?_⟩
    · exact sessionIdPattern_base64Url size
    · exact ⟨_, rfl⟩
  · cases r with
    | error e => exact .inr ⟨⟨e, rfl⟩, fun works => dead works.1⟩
    | ok isActive =>
      cases isActive with
      | true => exact absurd rfl inactive
      | false => exact .inr ⟨⟨_, rfl⟩, fun works => dead works.1⟩

variable (env s) in
/-- What the credential store needs for a password that is not empty. -/
def Seals (y : WebSession) (password : JsString) : Prop :=
  byteLength password ≤ MailCredentials.maxCredentialBytes ∧ Live env y s.readings ∧ y.expiresAt ≤ maxSafeInteger ∧
    Fills env s.draws MailCredentials.ivBytes

variable {password : JsString}

include valid in
theorem set_exact (some' : password ≠ []) :
    wp (MailCredentials.set env y.sessionId password y.expiresAt) s fun r s' =>
      (r = .ok () ∧ Seals env s y password ∧ ∃ iv rest, s' = { s with
        readings := s.readings + 1, draws := s.draws + 1
        credentials := OrderedMap.set rest y.sessionId
          ⟨MailCredentials.sealCredential y.sessionId iv password, y.expiresAt⟩ }) ∨
      ((∃ e, r = .error e) ∧ ¬ Seals env s y password) := by
  have empty : password.isEmpty = false := by simpa using some'
  unfold MailCredentials.set MailCredentials.assertSessionId
  rw [valid, empty]
  simp only [Bool.not_true, throwIf_false, Eff.check_ok_bind, Bool.false_or]
  rw [Eff.wp_check_bind]
  constructor
  · intro e long
    right
    refine ⟨⟨_, rfl⟩, ?_⟩
    rintro ⟨short, _⟩
    rw [decide_eq_false (Nat.not_lt.mpr short)] at long
    cases long
  intro _ short
  have short := of_decide_eq_false (throwIf_eq_ok.mp short)
  apply wp_read_bind
  · intro e unread
    right
    refine ⟨⟨e, rfl⟩, ?_⟩
    rintro ⟨_, ⟨t, shown, _⟩, _⟩
    exact unread ⟨t, shown⟩
  intro now shown
  rw [Eff.wp_check_bind]
  constructor
  · intro e late
    right
    refine ⟨⟨_, rfl⟩, ?_⟩
    rintro ⟨_, ⟨t, shown', inTime⟩, safe, _⟩
    cases shown.symm.trans shown'
    have fine : ¬ (maxSafeInteger < y.expiresAt ∨ y.expiresAt ≤ now) := by omega
    rw [decide_eq_false fine] at late
    cases late
  intro _ fine
  have fine := of_decide_eq_false (throwIf_eq_ok.mp fine)
  unfold MailCredentials.sweep
  rw [Eff.wp_modify_bind]
  apply wp_fill_bind
  · exact fun e unfilled => .inr ⟨⟨e, rfl⟩, fun works => unfilled works.2.2.2⟩
  intro iv drawn size
  left
  refine ⟨rfl, ⟨Nat.not_lt.mp short, ⟨now, shown, by omega⟩, by omega, iv, drawn, size⟩, iv, _, rfl⟩

end

section
variable {m : Managers} {env : Ambient} {s : ServerState} {y : WebSession} {α : Type}

theorem wp_onSecurity {c : Eff Err SecurityState α} {Q : Except Err α → ServerState → Prop} :
    wp (onSecurity c) s Q ↔ wp c s.toSecurityState fun r t => Q r { s with toSecurityState := t } := Iff.rfl

/-- A step that creates no session. -/
def Silent (c : Eff Err ServerState α) : Prop := ∀ s, (c s).2.events = s.events

theorem silent_bind {β : Type} {c : Eff Err ServerState β} {f : β → Eff Err ServerState α} (hc : Silent c)
    (hf : ∀ b, Silent (f b)) : Silent (c >>= f) := by
  intro s
  have first := hc s
  show (Eff.bind c f s).2.events = _
  unfold Eff.bind
  rcases h : c s with ⟨r, s'⟩
  rw [h] at first
  cases r with
  | ok b => exact (hf b s').trans first
  | error e => exact first

theorem Silent.wp {c : Eff Err ServerState α} (silent : Silent c) {Q : Except Err α → ServerState → Prop}
    (h : wp c s Q) : wp c s fun r s' => s'.events = s.events ∧ Q r s' := ⟨silent s, h⟩

theorem silent_onSecurity (c : Eff Err SecurityState α) : Silent (onSecurity c) := fun _ => rfl

theorem silent_modify {f : ServerState → ServerState} (h : ∀ s, (f s).events = s.events) :
    Silent (Eff.modify f) := h

theorem silent_finish (status : Nat) (payload : JsValue) : Silent (finish status payload) := by
  intro s
  unfold finish
  simp only
  split <;> rfl

theorem silent_respond (status : Nat) (details : JsValue) : Silent (respond env status details) :=
  silent_bind (silent_onSecurity _) fun _ => silent_finish status details

theorem silent_equip (login : MfaLoginInput) (loginKey : Option JsString) (recoveryCodes : Option (List JsString))
    (cookie : SetCookie) : Silent (equip m env login loginKey recoveryCodes y cookie) := by
  apply silent_bind (silent_onSecurity _)
  intro issued
  apply silent_bind (silent_onSecurity _)
  intro _
  refine silent_bind (silent_modify fun _ => rfl) fun _ => ?_
  refine silent_bind (silent_modify fun _ => rfl) fun _ => ?_
  exact silent_respond 200 _

/-- The answer is dated by the next reading. -/
theorem respond_exact (status : Nat) (details : JsValue) : wp (respond env status details) s fun r s' =>
    (r = .ok () ∧ Dated env s.readings ∧
        s' = (finish status details { s with readings := s.readings + 1 }).2) ∨
      ((∃ e, r = .error e) ∧ ¬ Dated env s.readings ∧ s' = { s with readings := s.readings + 1 }) := by
  unfold respond
  rw [Eff.wp_bind]
  unfold wp onSecurity onSessions onUses Eff.zoom showClock
  cases reading : env.clock s.readings with
  | time t => exact .inl ⟨rfl, by simp [Dated, reading], rfl⟩
  | early => exact .inl ⟨rfl, by simp [Dated, reading], rfl⟩
  | invalid => exact .inr ⟨⟨_, rfl⟩, by simp [Dated, reading], rfl⟩
  | threw => exact .inr ⟨⟨_, rfl⟩, by simp [Dated, reading], rfl⟩

variable (m env s) in
/-- What a session is equipped with, and what it is answered with. -/
structure Equipped (login : MfaLoginInput) (recoveryCodes : Option (List JsString)) (y : WebSession)
    (cookie : SetCookie) (s' : ServerState) : Prop where
  sessions : s'.sessions = s.sessions
  token : ∃ issued : IssuedToken, ∃ bucket : Bucket,
    env.clock (s.readings + 2) = .time issued.issuedAt ∧ tokenPattern issued.token ∧
      s'.tokensBySession.get y.sessionId = some (OrderedMap.set bucket (base64Url (digestToken env issued.token))
        ⟨digestToken env issued.token, issued.issuedAt, Number.add issued.issuedAt m.csrf.tokenTtlMs⟩) ∧
      s'.response = ⟨true, some cookie, [200], 1, sessionDetails y issued.token recoveryCodes⟩
  credential : ∃ iv, s'.credentials.get y.sessionId =
    some ⟨MailCredentials.sealCredential y.sessionId iv login.password, y.expiresAt⟩

theorem equip_exact (login : MfaLoginInput) (loginKey : Option JsString) (recoveryCodes : Option (List JsString))
    (cookie : SetCookie) (stored : s.sessions.get y.sessionId = some y) (valid : sessionIdPattern y.sessionId)
    (some' : login.password ≠ []) (unanswered : s.response = .fresh) :
    wp (equip m env login loginKey recoveryCodes y cookie) s fun r s' =>
      (r = .ok () ∧ (Equips env y s.readings s.draws ∧
          byteLength login.password ≤ MailCredentials.maxCredentialBytes) ∧
          Equipped m env s login recoveryCodes y cookie s') ∨
        ((∃ e, r = .error e) ∧ ¬ (Equips env y s.readings s.draws ∧
          byteLength login.password ≤ MailCredentials.maxCredentialBytes) ∧ s'.response.Unanswered) := by
  unfold equip
  rw [Eff.wp_bind, wp_onSecurity]
  apply Eff.wp_mono (issue_exact (s := s.toSecurityState) stored valid)
  rintro r s₁ (⟨issued, rfl, active, token, now, expires, pattern, bucket, rfl⟩ | ⟨⟨e, rfl⟩, fails⟩)
  · simp only
    rw [Eff.wp_bind, wp_onSecurity]
    apply Eff.wp_mono (set_exact valid some')
    rintro r s₂ (⟨rfl, ⟨short, late, safe, iv'⟩, iv, rest, rfl⟩ | ⟨⟨e, rfl⟩, fails⟩)
    · simp only [Eff.wp_modify_bind, setHeader]
      apply Eff.wp_mono (respond_exact _ _)
      rintro r s₃ (⟨rfl, dated, rfl⟩ | ⟨⟨e, rfl⟩, undated, rfl⟩)
      · left
        refine ⟨rfl, ⟨⟨active, token, ⟨late, safe, iv'⟩, dated⟩, short⟩, ?_⟩
        simp only [finish, unanswered, Response.fresh, Bool.false_eq_true, ↓reduceIte, List.nil_append]
        refine ⟨rfl, ⟨issued, bucket, now, pattern, ?_, rfl⟩, iv, ?_⟩
        · show OrderedMap.get (OrderedMap.set _ _ _) _ = _
          rw [OrderedMap.get_set, if_pos rfl, expires]
        · show OrderedMap.get (OrderedMap.set _ _ _) _ = _
          rw [OrderedMap.get_set, if_pos rfl]
      · refine .inr ⟨⟨e, rfl⟩, fun works => undated works.1.dated, ?_⟩
        simp [Response.Unanswered, unanswered, Response.fresh]
    · right
      refine ⟨⟨e, rfl⟩, fun works => fails ⟨works.2, works.1.password⟩, ?_⟩
      simp [Response.Unanswered, unanswered, Response.fresh]
  · right
    refine ⟨⟨e, rfl⟩, fun works => fails ⟨works.1.active, works.1.token⟩, ?_⟩
    simp [Response.Unanswered, unanswered, Response.fresh]

variable (m) in
/-- The id that the request's cookie names, when the request has a session. -/
def carriedId (session : Option WebSession) (cookieHeader : JsValue) : Option JsString :=
  match session, parseCookieHeader cookieHeader m.sessions.cookieName with
  | some _, some id => if sessionIdPattern id then some id else none
  | _, _ => none

variable (m) in
/-- The state without the session of the request. -/
def dropped (session : Option WebSession) (cookieHeader : JsValue) (s : ServerState) : ServerState :=
  { s with
    sessions := (carriedId m session cookieHeader).elim s.sessions s.sessions.delete
    tokensBySession := (carriedId m session cookieHeader).elim s.tokensBySession s.tokensBySession.delete
    credentials := (carriedId m session cookieHeader).elim s.credentials s.credentials.delete
    sessionMailAddress := session.elim s.sessionMailAddress fun x => s.sessionMailAddress.delete x.sessionId
    imapIdleAvailability := session.elim s.imapIdleAvailability fun x => s.imapIdleAvailability.delete x.sessionId }

/-- The session, the tokens and the password go together, by the id of the cookie. -/
theorem logoutAll_eq (cookieHeader : JsValue) (t : SecurityState) : ∃ out, logoutAll m.sessions cookieHeader t =
    (.ok out, match (parseCookieHeader cookieHeader m.sessions.cookieName).filter sessionIdPattern with
      | none => t
      | some id => { t with
          sessions := t.sessions.delete id
          tokensBySession := t.tokensBySession.delete id
          credentials := t.credentials.delete id }) := by
  cases parsed : parseCookieHeader cookieHeader m.sessions.cookieName with
  | none =>
    refine ⟨⟨none, false, clearSessionCookie m.sessions⟩, ?_⟩
    show Eff.bind (onSessions (logout m.sessions cookieHeader)) _ t = _
    unfold logout
    rw [parsed]
    rfl
  | some id =>
    cases valid : sessionIdPattern id with
    | true =>
      have out : logout m.sessions cookieHeader t.toSessionState =
          (.ok ⟨some id, (t.sessions.get id).isSome, clearSessionCookie m.sessions⟩,
            { t.toSessionState with sessions := t.sessions.delete id }) := by
        unfold logout
        rw [parsed]
        show Eff.bind (invalidate (.string id)) _ _ = _
        unfold Eff.bind
        rw [invalidate_eq, asSessionId?_eq_some.mpr ⟨rfl, valid⟩]
        rfl
      refine ⟨⟨some id, (t.sessions.get id).isSome, clearSessionCookie m.sessions⟩, ?_⟩
      show Eff.bind (onSessions (logout m.sessions cookieHeader)) _ t = _
      unfold Eff.bind onSessions Eff.zoom
      rw [out, Option.filter_some, valid]
      simp only [revokeSession, MailCredentials.remove, valid, ↓reduceIte]
      rfl
    | false =>
      have out : logout m.sessions cookieHeader t.toSessionState =
          (.ok ⟨some id, false, clearSessionCookie m.sessions⟩, t.toSessionState) := by
        unfold logout
        rw [parsed]
        show Eff.bind (invalidate (.string id)) _ _ = _
        unfold Eff.bind
        have invalid : asSessionId? (.string id) = none := by simp [asSessionId?, valid]
        rw [invalidate_eq, invalid]
        rfl
      refine ⟨⟨some id, false, clearSessionCookie m.sessions⟩, ?_⟩
      show Eff.bind (onSessions (logout m.sessions cookieHeader)) _ t = _
      unfold Eff.bind onSessions Eff.zoom
      rw [out, Option.filter_some, valid]
      simp only [revokeSession, MailCredentials.remove, valid, Bool.false_eq_true, ↓reduceIte]
      rfl

theorem dropSession_eq (session : Option WebSession) (cookieHeader : JsValue) :
    dropSession m session cookieHeader s = (.ok (), dropped m session cookieHeader s) := by
  cases session with
  | none => rfl
  | some x =>
    obtain ⟨out, gone⟩ := logoutAll_eq (m := m) cookieHeader s.toSecurityState
    show Eff.bind (onSecurity (logoutAll m.sessions cookieHeader)) _ s = _
    unfold Eff.bind onSecurity Eff.zoom dropped carriedId
    rw [gone]
    cases parseCookieHeader cookieHeader m.sessions.cookieName with
    | none => rfl
    | some id => cases valid : sessionIdPattern id <;> simp [Option.filter, valid, Eff.modify]

variable (m env s) in
/-- How a sign-in ends from a state: before a session is created, after it, or complete. -/
inductive Ends (login : MfaLoginInput) (recoveryCodes : Option (List JsString)) :
    Except Err Unit → ServerState → Prop where
  | complete (y : WebSession) (n : Nat) (cookie : SetCookie) (s₁ s' : ServerState)
      (begins : Begins env m.sessions s.toSessionState login.identity y n)
      (completes : Completes env y (s.readings + 1) n)
      (short : byteLength login.password ≤ MailCredentials.maxCredentialBytes) (value : cookie.value = y.sessionId)
      (readings : s₁.readings = s.readings + 3) (stored : s₁.sessions.get y.sessionId = some y)
      (equipped : Equipped m env s₁ login recoveryCodes y cookie s') : Ends login recoveryCodes (.ok ()) s'
  | halfway (y : WebSession) (n : Nat) (e : Err) (s' : ServerState)
      (begins : Begins env m.sessions s.toSessionState login.identity y n)
      (fails : ¬ (Completes env y (s.readings + 1) n ∧
        byteLength login.password ≤ MailCredentials.maxCredentialBytes))
      (events : s'.events = s.events ++ [.sessionCreated y]) (unanswered : s'.response.Unanswered) :
      Ends login recoveryCodes (.error e) s'
  | early (n : Nat) (e : Err) (never : ∀ y n, ¬ Begins env m.sessions s.toSessionState login.identity y n) :
      Ends login recoveryCodes (.error e) { s with
        readings := nextReading env s.readings login.identity, draws := n }

theorem enter_exact {login : MfaLoginInput} {loginKey : Option JsString} {recoveryCodes : Option (List JsString)}
    (some' : login.password ≠ []) (unanswered : s.response = .fresh) :
    wp (createAuthenticatedSession m env login.identity >>= fun p =>
        equip m env login loginKey recoveryCodes p.1 p.2) s fun r s' => Ends m env s login recoveryCodes r s' := by
  unfold createAuthenticatedSession
  rw [Eff.wp_bind, Eff.wp_bind, wp_onSecurity, wp_onSessions]
  apply Eff.wp_mono (createSession_exact login.identity)
  rintro r t (⟨y, n, begins, rfl, rfl⟩ | ⟨⟨e, rfl⟩, never, n, rfl⟩)
  · obtain ⟨valid, _⟩ := drawn_valid begins.drawn
    have stored : (s.sessions.set y.sessionId y).get y.sessionId = some y := by
      rw [OrderedMap.get_set, if_pos rfl]
    simp only [record, Eff.wp_modify_bind]
    rw [Eff.wp_bind, wp_onSecurity, wp_onSessions]
    apply Eff.wp_mono (serializeSessionCookie_exact stored valid)
    rintro r t (⟨cookie, rfl, value, live, timed, rfl⟩ | ⟨⟨e, rfl⟩, fails⟩)
    · simp only [Eff.wp_pure]
      have silent : Silent (equip m env login loginKey recoveryCodes y cookie) :=
        silent_equip login loginKey recoveryCodes cookie
      refine Eff.wp_mono (silent.wp (equip_exact login loginKey recoveryCodes cookie ?_ valid some' ?_)) ?_
      · exact stored
      · exact unanswered
      rintro r s' ⟨events, ⟨rfl, ⟨equips, short⟩, equipped⟩ | ⟨⟨e, rfl⟩, fails, unanswered'⟩⟩
      · exact .complete y n cookie _ s' begins ⟨⟨live, timed⟩, equips⟩ short value rfl stored equipped
      · exact .halfway y n e s' begins (fun works => fails ⟨works.1.equips, works.2⟩) events unanswered'
    · apply Ends.halfway y n e _ begins
      · exact fun works => fails works.1.cookie
      · rfl
      · simp [Response.Unanswered, unanswered, Response.fresh]
  · exact .early n e never

theorem signIn_exact {session : Option WebSession} {cookieHeader : JsValue} {login : MfaLoginInput}
    {loginKey : Option JsString} {recoveryCodes : Option (List JsString)} (some' : login.password ≠ [])
    (unanswered : s.response = .fresh) :
    wp (signIn m env session cookieHeader login loginKey recoveryCodes) s fun r s' =>
      Ends m env (dropped m session cookieHeader s) login recoveryCodes r s' := by
  unfold signIn
  rw [Eff.wp_bind_eq (dropSession_eq session cookieHeader)]
  exact enter_exact some' unanswered

end

end GuloGulo.Runtime.Server
