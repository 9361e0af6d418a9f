import GuloGulo.Web.WebSecurity
import GuloGulo.Web.SessionRuns
import GuloGulo.Data.Tokens

/-!
# What the calls of the CSRF manager do to the tokens

Each call by itself: when it succeeds, and what it leaves of each session's
bucket. What `active` does to the sessions does not matter here.
-/

namespace GuloGulo.Web.Security
open Js Data
open Eff (check wp)

section
variable {c : CsrfManager} {env : Ambient} {s s' : SecurityState} {y : WebSession} {α : Type} {now : Nat} {bucket : Bucket}

theorem wp_onSessions {m : Eff Err SessionState α} {Q : Except Err α → SecurityState → Prop} :
    wp (onSessions m) s Q ↔ wp m s.toSessionState fun r t => Q r { s with toSessionState := t } := Iff.rfl

theorem wp_time_bind {f : Nat → Eff Err SecurityState α} {Q : Except Err α → SecurityState → Prop}
    (failed : ∀ e, (∀ t, env.clock s.readings ≠ .time t) → Q (.error e) { s with readings := s.readings + 1 })
    (shown : ∀ t, env.clock s.readings = .time t → wp (f t) { s with readings := s.readings + 1 } Q) :
    wp (onSessions (onUses (readClock env)) >>= f) s Q := by
  rw [Eff.wp_bind]
  unfold wp onSessions onUses Eff.zoom readClock
  cases reading : env.clock s.readings with
  | time t => exact shown t reading
  | early => exact failed _ (by simp [reading])
  | invalid => exact failed _ (by simp [reading])
  | threw => exact failed _ (by simp [reading])

theorem wp_random_bind {size : Nat} {message : String} {f : List UInt8 → Eff Err SecurityState α}
    {Q : Except Err α → SecurityState → Prop}
    (failed : ∀ e, (¬ ∃ bytes, env.random s.draws size = .bytes bytes ∧ bytes.length = size) →
      Q (.error e) { s with draws := s.draws + 1 })
    (drawn : ∀ bytes, env.random s.draws size = .bytes bytes → bytes.length = size →
      wp (f bytes) { s with draws := s.draws + 1 } Q) :
    wp (onSessions (onUses (randomBytes env size message)) >>= f) s Q := by
  rw [Eff.wp_bind]
  unfold wp onSessions onUses Eff.zoom randomBytes
  cases draw : env.random s.draws size with
  | bytes bytes =>
    by_cases long : bytes.length = size
    · simp only [long, ↓reduceIte]
      exact drawn bytes draw long
    · simp only [long, ↓reduceIte]
      apply failed
      rintro ⟨bytes', drawn', long'⟩
      cases draw.symm.trans drawn'
      exact long long'
  | other =>
    apply failed
    rintro ⟨_, drawn', _⟩
    cases draw.symm.trans drawn'
  | threw =>
    apply failed
    rintro ⟨_, drawn', _⟩
    cases draw.symm.trans drawn'

/-- The rows of a bucket that have not expired. -/
def inTime (now : Nat) (rows : List (JsString × TokenRecord)) : List (JsString × TokenRecord) :=
  rows.filter fun row => decide (now < row.2.expiresAt)

theorem removeExpired_rows (bucket : Bucket) (now : Nat) : (removeExpired bucket now).rows = inTime now bucket.rows := by
  apply List.filter_congr
  intro row _
  rw [← decide_not, decide_eq_decide, Nat.not_le]

/-- The tokens that a session holds, expired ones included. -/
def held (tokensBySession : OrderedMap JsString Bucket) (sessionId : JsString) : List (JsString × TokenRecord) :=
  (tokensBySession.get sessionId).elim [] (·.rows)

theorem held_set (tokensBySession : OrderedMap JsString Bucket) (sessionId id : JsString) (bucket : Bucket) :
    held (tokensBySession.set sessionId bucket) id = if sessionId = id then bucket.rows else held tokensBySession id := by
  rw [held, OrderedMap.get_set]
  split
  · rfl
  · rfl

theorem held_delete (tokensBySession : OrderedMap JsString Bucket) (sessionId id : JsString) :
    held (tokensBySession.delete sessionId) id = if id = sessionId then [] else held tokensBySession id := by
  rw [held, OrderedMap.get_delete]
  split
  · rfl
  · rfl

theorem held_purgeBuckets (tokensBySession : OrderedMap JsString Bucket) (now : Nat) (id : JsString) :
    held (purgeBuckets tokensBySession now) id = inTime now (held tokensBySession id) := by
  cases found : tokensBySession.get id with
  | none =>
    have gone : (purgeBuckets tokensBySession now).get id = none := by
      rw [Option.eq_none_iff_forall_ne_some]
      intro bucket present
      obtain ⟨⟨id', old⟩, inside, same⟩ := List.mem_map.mp (OrderedMap.mem_rows.mpr present)
      cases same
      rw [OrderedMap.mem_rows.mp (List.mem_filter.mp inside).1] at found
      cases found
    rw [held, held, gone, found]
    rfl
  | some bucket =>
    by_cases left : (removeExpired bucket now).size = 0
    · have gone : (purgeBuckets tokensBySession now).get id = none := by
        rw [Option.eq_none_iff_forall_ne_some]
        intro bucket' present
        obtain ⟨⟨id', old⟩, inside, same⟩ := List.mem_map.mp (OrderedMap.mem_rows.mpr present)
        obtain ⟨inside, some'⟩ := List.mem_filter.mp inside
        cases same
        cases found.symm.trans (OrderedMap.mem_rows.mp inside)
        exact of_decide_eq_true some' left
      rw [held, held, gone, found]
      exact (removeExpired_rows bucket now ▸ List.length_eq_zero_iff.mp left).symm
    · have stays : (purgeBuckets tokensBySession now).get id = some (removeExpired bucket now) := by
        rw [← OrderedMap.mem_rows]
        exact List.mem_map.mpr ⟨(id, bucket), List.mem_filter.mpr ⟨OrderedMap.mem_rows.mpr found, decide_eq_true left⟩, rfl⟩
      rw [held, held, stays, found]
      exact removeExpired_rows bucket now

/-- Whether a bucket that becomes empty stays makes no difference to what is held. -/
theorem held_consumed (tokensBySession : OrderedMap JsString Bucket) (sessionId id : JsString) (bucket : Bucket) :
    held (if bucket.size = 0 then tokensBySession.delete sessionId else tokensBySession.set sessionId bucket) id =
      if sessionId = id then bucket.rows else held tokensBySession id := by
  split
  · rename_i none
    rw [held_delete, List.length_eq_zero_iff.mp none]
    simp only [eq_comm]
  · exact held_set _ _ _ _

/-- The oldest go, so of the rows read from the end the first stay. -/
theorem evictOldest_rows {max : Nat} (positive : 1 ≤ max) (bucket : Bucket) :
    (evictOldest max bucket).rows.reverse = bucket.rows.reverse.take (max - 1) := by
  have same : bucket.rows.length + 1 - max = bucket.rows.length - (max - 1) := by omega
  rw [List.take_reverse, ← same]
  rfl

theorem active_keeps (env : Ambient) (y : WebSession) (s : SecurityState) : wp (active env y) s fun _ s' =>
    s'.tokensBySession = s.tokensBySession ∧ s.readings ≤ s'.readings := by
  unfold active
  rw [Eff.wp_check_bind]
  constructor
  · exact fun _ _ => ⟨rfl, Nat.le_refl _⟩
  intro _ _
  apply wp_time_bind
  · exact fun _ _ => ⟨rfl, Nat.le_succ _⟩
  intro t _
  split
  · exact ⟨rfl, Nat.le_succ _⟩
  · have looked : wp (isSessionActive env y.sessionId) { s with readings := s.readings + 1 } fun _ s' =>
        s'.tokensBySession = s.tokensBySession ∧ s.readings ≤ s'.readings := by
      unfold isSessionActive
      apply Eff.wp_bind_pure
      rw [wp_onSessions]
      apply Eff.wp_mono (getActiveSession_spec _)
      intro r t lookup
      exact ⟨rfl, Nat.le_trans (Nat.le_succ _) lookup.readings⟩
    unfold wp at looked ⊢
    unfold orElse
    revert looked
    rcases isSessionActive env y.sessionId { s with readings := s.readings + 1 } with ⟨r, s'⟩
    cases r <;> exact id

/-- The row of an entry that is issued. -/
def rowOf (env : Ambient) (x : Tokens.Entry JsString) : JsString × TokenRecord :=
  (base64Url (digestToken env x.token), ⟨digestToken env x.token, x.issuedAt, x.expiresAt⟩)

/-- A session is left with a bucket, and the others with what they hold. -/
def Leaves (s s' : SecurityState) (sessionId : JsString) (bucket : Bucket) : Prop :=
  ∀ id, held s'.tokensBySession id = if sessionId = id then bucket.rows else held s.tokensBySession id

/-- A call that throws before it gets to the tokens. -/
structure Untouched (s s' : SecurityState) : Prop where
  tokens : s'.tokensBySession = s.tokensBySession
  readings : s.readings ≤ s'.readings

variable (c env s y) in
/-- What `issue` ends in: a token after all that are left of the session's, or an error. -/
inductive Issues : Except Err IssuedToken → SecurityState → Prop where
  | failed (e : Err) (s' : SecurityState) (untouched : Untouched s s') : Issues (.error e) s'
  | issued (x : Tokens.Entry JsString) (i : Nat) (s' : SecurityState) (shown : env.clock i = .time x.issuedAt)
      (later : s.readings ≤ i) (readings : i < s'.readings) (expires : x.expiresAt = Number.add x.issuedAt c.tokenTtlMs)
      (pattern : tokenPattern x.token)
      (leaves : Leaves s s' y.sessionId (OrderedMap.set
        (evictOldest c.maxOutstandingTokens
          (removeExpired ((s.tokensBySession.get y.sessionId).getD Table.empty) x.issuedAt))
        (rowOf env x).1 (rowOf env x).2)) :
      Issues (.ok ⟨x.token, x.issuedAt, x.expiresAt⟩) s'

theorem issue_spec : wp (issue c env y) s (Issues c env s y) := by
  unfold issue
  rw [Eff.wp_bind]
  apply Eff.wp_mono (active_keeps env y s)
  rintro r s₁ ⟨tokens, readings⟩
  cases r with
  | error e => exact .failed e s₁ ⟨tokens, readings⟩
  | ok isActive =>
    simp only
    rw [Eff.wp_check_bind]
    constructor
    · exact fun e _ => .failed _ s₁ ⟨tokens, readings⟩
    intro _ _
    apply wp_time_bind
    · exact fun e _ => .failed e _ ⟨tokens, Nat.le_succ_of_le readings⟩
    intro now shown
    apply wp_random_bind
    · exact fun e _ => .failed e _ ⟨tokens, Nat.le_succ_of_le readings⟩
    intro bytes _ size
    rw [Eff.wp_get_bind, Eff.wp_modify_bind]
    apply Issues.issued ⟨base64Url bytes, now, Number.add now c.tokenTtlMs⟩ s₁.readings _ shown readings (Nat.lt_succ_self _) rfl
    · exact sessionIdPattern_base64Url size
    · intro id
      simp only [tokens]
      exact held_set _ _ _ _

variable (env s y) in
/-- A string of the form of a token is checked against the session's bucket at a time. -/
structure Checks (token : JsValue) (text : JsString) (bucket : Bucket) (now : Nat) : Prop where
  active : (active env y s).1 = .ok true
  named : token = .string text
  pattern : tokenPattern text
  stored : s.tokensBySession.get y.sessionId = some bucket
  shown : env.clock (Security.active env y s).2.readings = .time now

variable (env s y) in
/-- What `validate` ends in. -/
inductive Validates (token : JsValue) (consume : Bool) : Except Err Unit → SecurityState → Prop where
  | refused (e : Err) (s' : SecurityState) (unchecked : ∀ text bucket now, ¬ Checks env s y token text bucket now)
      (untouched : Untouched s s') : Validates token consume (.error e) s'
  | unmatched (text : JsString) (bucket : Bucket) (now : Nat) (s' : SecurityState) (e : Err)
      (checks : Checks env s y token text bucket now)
      (none : matching (removeExpired bucket now) (digestToken env text) = none)
      (readings : (Security.active env y s).2.readings < s'.readings)
      (leaves : Leaves s s' y.sessionId (removeExpired bucket now)) :
      Validates token consume (.error e) s'
  | matched (text : JsString) (bucket : Bucket) (now : Nat) (s' : SecurityState) (key : JsString) (record : TokenRecord)
      (checks : Checks env s y token text bucket now)
      (found : matching (removeExpired bucket now) (digestToken env text) = some (key, record))
      (readings : (Security.active env y s).2.readings < s'.readings)
      (leaves : Leaves s s' y.sessionId
        (if consume then OrderedMap.delete (removeExpired bucket now) key else removeExpired bucket now)) :
      Validates token consume (.ok ()) s'

/-- The latest row of a digest. -/
theorem matching_eq (bucket : Bucket) (digest : List UInt8) :
    matching bucket digest = bucket.rows.reverse.find? fun row => row.2.digest == digest := by
  rw [matching, List.getLast?_eq_head?_reverse, ← List.filter_reverse, List.head?_filter]

theorem mem_of_matching {digest : List UInt8} {row : JsString × TokenRecord} (h : matching bucket digest = some row) :
    row ∈ bucket.rows ∧ row.2.digest = digest := by
  obtain ⟨inside, same⟩ := List.mem_filter.mp (List.mem_of_getLast? h)
  exact ⟨inside, beq_iff_eq.mp same⟩

theorem validate_spec (token : JsValue) (consume : Bool) :
    wp (validate env y token consume) s (Validates env s y token consume) := by
  unfold validate
  rw [Eff.wp_bind]
  have keeps : wp (Security.active env y) s fun r s' => (r = (Security.active env y s).1 ∧
      s' = (Security.active env y s).2) ∧ Untouched s s' := ⟨⟨rfl, rfl⟩, (active_keeps env y s).1, (active_keeps env y s).2⟩
  apply Eff.wp_mono keeps
  rintro r s₁ ⟨⟨activity, later⟩, untouched⟩
  have refused (e : Err) (s' : SecurityState) (same : Untouched s₁ s')
      (unchecked : ∀ text bucket now, ¬ Checks env s y token text bucket now) :
      Validates env s y token consume (.error e) s' :=
    .refused e s' unchecked ⟨same.tokens.trans untouched.tokens, Nat.le_trans untouched.readings same.readings⟩
  cases r with
  | error e =>
    apply refused e s₁ ⟨rfl, Nat.le_refl _⟩
    intro text bucket now checks
    cases activity.trans checks.active
  | ok isActive =>
    cases isActive with
    | false =>
      apply refused _ s₁ ⟨rfl, Nat.le_refl _⟩
      intro text bucket now checks
      cases activity.trans checks.active
    | true =>
      cases token with
      | string text =>
        simp only
        rw [Eff.wp_check_bind]
        constructor
        · intro e odd
          apply refused _ s₁ ⟨rfl, Nat.le_refl _⟩
          rintro text' bucket now ⟨_, ⟨⟩, pattern, _, _⟩
          rw [pattern] at odd
          cases odd
        intro _ fits
        have pattern : tokenPattern text = true := by simpa using throwIf_eq_ok.mp fits
        rw [Eff.wp_get_bind]
        cases stored : s₁.tokensBySession.get y.sessionId with
        | none =>
          apply refused _ s₁ ⟨rfl, Nat.le_refl _⟩
          intro text' bucket now checks
          rw [untouched.tokens, checks.stored] at stored
          cases stored
        | some bucket =>
          simp only
          apply wp_time_bind
          · intro e unread
            apply refused e { s₁ with readings := s₁.readings + 1 } ⟨rfl, Nat.le_succ _⟩
            intro text' bucket' now checks
            exact unread now (later ▸ checks.shown)
          intro now shown
          have checks : Checks env s y (.string text) text bucket now :=
            ⟨activity.symm, rfl, pattern, untouched.tokens ▸ stored, later ▸ shown⟩
          rw [Eff.wp_modify_bind]
          cases found : matching (removeExpired bucket now) (digestToken env text) with
          | none =>
            apply Validates.unmatched text bucket now _ _ checks found
            · rw [← later]
              exact Nat.lt_succ_self _
            · intro id
              simp only [untouched.tokens]
              exact held_set _ _ _ _
          | some row =>
            obtain ⟨key, record⟩ := row
            have fresh : decide (record.expiresAt ≤ now) = false := by
              have inside := (mem_of_matching found).1
              rw [removeExpired_rows] at inside
              have soon := of_decide_eq_true (List.mem_filter.mp inside).2
              rw [decide_eq_false_iff_not, Nat.not_le]
              exact soon
            simp only [fresh, throwIf_false, Eff.check_ok_bind]
            have readings : (Security.active env y s).2.readings < s₁.readings + 1 := later ▸ Nat.lt_succ_self _
            cases consume with
            | true =>
              apply Validates.matched text bucket now _ key record checks found readings
              intro id
              simp only [Eff.modify, untouched.tokens, if_true]
              rw [held_consumed, held_set]
              split
              · rfl
              · rfl
            | false =>
              apply Validates.matched text bucket now _ key record checks found readings
              intro id
              simp only [untouched.tokens, Bool.false_eq_true, if_false]
              exact held_set _ _ _ _
      | _ =>
        apply refused _ s₁ ⟨rfl, Nat.le_refl _⟩
        rintro text bucket now ⟨_, ⟨⟩, _, _, _⟩

/-- A request passes with a token that passes, in its header or its body or in both. -/
theorem validateRequest_eq_ok {headerToken bodyToken : Option JsString} {consume : Bool} :
    (validateRequest env y headerToken bodyToken consume s).1 = .ok () ↔
      ∃ text, headerToken.or bodyToken = some text ∧ (∀ t ∈ bodyToken, t = text) ∧
        (validate env y (.string text) consume s).1 = .ok () := by
  cases headerToken with
  | none =>
    cases bodyToken with
    | none =>
      constructor
      · intro accepted
        have spec : Validates env s y .undefined consume _ _ := validate_spec .undefined consume
        rw [show (validate env y .undefined consume s).1 = .ok () from accepted] at spec
        cases spec with
        | matched text bucket now _ key record checks => cases checks.named
      · rintro ⟨_, none, _⟩
        cases none
    | some text =>
      constructor
      · exact fun accepted => ⟨text, rfl, fun t same => (Option.mem_some.mp same).symm, accepted⟩
      · rintro ⟨_, ⟨⟩, _, accepted⟩
        exact accepted
  | some text =>
    cases bodyToken with
    | none =>
      constructor
      · exact fun accepted => ⟨text, rfl, nofun, accepted⟩
      · rintro ⟨_, ⟨⟩, _, accepted⟩
        exact accepted
    | some other =>
      by_cases same : other = text
      · subst same
        have agrees : (validateRequest env y (some other) (some other) consume s).1 =
            (validate env y (.string other) consume s).1 := by
          simp only [validateRequest, Option.any_some, bne_self_eq_false, throwIf_false]
          rfl
        rw [agrees]
        constructor
        · exact fun accepted => ⟨other, rfl, fun t same => (Option.mem_some.mp same).symm, accepted⟩
        · rintro ⟨_, ⟨⟩, _, accepted⟩
          exact accepted
      · constructor
        · intro accepted
          have differ : (text != other) = true := bne_iff_ne.mpr (Ne.symm same)
          simp only [validateRequest, Option.any_some, differ, throwIf_true] at accepted
          cases accepted
        · rintro ⟨_, ⟨⟩, agree, _⟩
          exact absurd (agree other rfl) same

theorem purgeExpired_spec (env : Ambient) (s : SecurityState) : wp (Csrf.purgeExpired env) s fun _ s' => Untouched s s' ∨
    ∃ now, env.clock s.readings = .time now ∧ s'.readings = s.readings + 1 ∧
      ∀ id, held s'.tokensBySession id = inTime now (held s.tokensBySession id) := by
  unfold Csrf.purgeExpired
  apply wp_time_bind
  · exact fun _ _ => .inl ⟨rfl, Nat.le_succ _⟩
  · intro now shown
    right
    exact ⟨now, shown, rfl, held_purgeBuckets _ _⟩

end

end GuloGulo.Web.Security
