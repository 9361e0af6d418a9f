import GuloGulo.Web.SessionManager
import GuloGulo.Js.Lines

/-!
# What a call does to the sessions

A session lives from the call that issues it to the first successful call that
ends it. The manager deletes lazily, so what it stores is less than what lives:
a session may be gone once the clock has shown its expiry. `Moves` says what a
call does to the store, and `perform_moves` proves it of every call.
-/

namespace GuloGulo.Web.Security
open Js Data
open Eff (check wp)
open Integrations.Actor (TenantContext createTenantContext)

/-- A part of a header that is a cookie of the name: the name stands before the
first `=`, and the value behind it. -/
def IsCookie (cookieName part value : JsString) : Prop :=
  ∃ name text, part = name ++ 61 :: text ∧ 61 ∉ name ∧ name ≠ [] ∧ trim name = cookieName ∧ trim text = value

/-- The one cookie of the name in a header. -/
def OnlyCookie (cookieName header value : JsString) : Prop :=
  ∃ before part after, split header 59 = before ++ part :: after ∧ IsCookie cookieName part value ∧
    ∀ other ∈ before ++ after, ∀ v, ¬ IsCookie cookieName other v

theorem cookieOf_eq_some {cookieName part value : JsString} :
    cookieOf cookieName part = some value ↔ IsCookie cookieName part value := by
  unfold cookieOf IsCookie
  constructor
  · intro h
    split at h
    · cases h
    · rename_i name text parts
      by_cases other : (name.isEmpty || trim name != cookieName) = true
      · rw [if_pos other] at h
        cases h
      · rw [if_neg other] at h
        cases h
        rw [Bool.or_eq_true, not_or, List.isEmpty_iff, bne_iff_ne, ne_eq, not_not] at other
        exact ⟨name, text, cut_eq_some parts, not_mem_of_cut parts, other.1, other.2, rfl⟩
  · rintro ⟨name, text, rfl, plain, present, rfl, rfl⟩
    rw [cut_append plain]
    apply if_neg
    rw [Bool.or_eq_true, not_or, List.isEmpty_iff, bne_iff_ne, ne_eq, not_not]
    exact ⟨present, rfl⟩

theorem cookieOf_eq_none {cookieName part : JsString} :
    cookieOf cookieName part = none ↔ ∀ v, ¬ IsCookie cookieName part v := by
  rw [Option.eq_none_iff_forall_ne_some]
  exact forall_congr' fun v => not_congr cookieOf_eq_some

/-- The values a header gives the cookies of a name. -/
def cookieValues (cookieName header : JsString) : List JsString :=
  (split header 59).filterMap (cookieOf cookieName)

theorem cookieValues_eq_singleton {cookieName header value : JsString} :
    cookieValues cookieName header = [value] ↔ OnlyCookie cookieName header value := by
  unfold cookieValues OnlyCookie
  rw [List.filterMap_eq_cons_iff]
  constructor
  · rintro ⟨before, part, after, parts, none, one, rest⟩
    refine ⟨before, part, after, parts, cookieOf_eq_some.mp one, fun other inside => ?_⟩
    rcases List.mem_append.mp inside with inside | inside
    · exact cookieOf_eq_none.mp (none other inside)
    · exact cookieOf_eq_none.mp (List.filterMap_eq_nil_iff.mp rest other inside)
  · rintro ⟨before, part, after, parts, one, none⟩
    refine ⟨before, part, after, parts, ?_, cookieOf_eq_some.mpr one, ?_⟩
    · exact fun other inside => cookieOf_eq_none.mpr (none other (List.mem_append_left _ inside))
    · exact List.filterMap_eq_nil_iff.mpr fun other inside => cookieOf_eq_none.mpr (none other (List.mem_append_right _ inside))

theorem selectCookie_some (cookieName : JsString) (parts : List JsString) (value : JsString) :
    selectCookie cookieName parts (some value) =
      if parts.filterMap (cookieOf cookieName) = [] then some value else none := by
  induction parts with
  | nil => rfl
  | cons part parts ih =>
    rw [selectCookie]
    cases here : cookieOf cookieName part with
    | none => rw [List.filterMap_cons_none here, ← ih]
    | some value' =>
      rw [List.filterMap_cons_some here]
      exact (if_pos Option.isSome_some).trans (if_neg (List.cons_ne_nil _ _)).symm

/-- Exactly one cookie of the name is selected. -/
theorem selectCookie_eq_some {cookieName : JsString} {parts : List JsString} {value : JsString} :
    selectCookie cookieName parts none = some value ↔ parts.filterMap (cookieOf cookieName) = [value] := by
  induction parts with
  | nil => simp [selectCookie]
  | cons part parts ih =>
    rw [selectCookie]
    cases here : cookieOf cookieName part with
    | none => rw [List.filterMap_cons_none here, ← ih]
    | some value' =>
      show selectCookie cookieName parts (some value') = some value ↔ _
      rw [List.filterMap_cons_some here, selectCookie_some]
      by_cases alone : parts.filterMap (cookieOf cookieName) = []
      · rw [if_pos alone, alone, Option.some_inj, List.cons.injEq, and_iff_left rfl]
      · rw [if_neg alone]
        simp [alone]

/-- A header within the limit with one cookie of the name. -/
def Carries (cookieName : JsString) (cookieHeader : JsValue) (value : JsString) : Prop :=
  ∃ header, cookieHeader = .string header ∧ byteLength header ≤ cookieHeaderMaxBytes ∧
    OnlyCookie cookieName header value

theorem parseCookieHeader_eq_some {cookieHeader : JsValue} {cookieName value : JsString} :
    parseCookieHeader cookieHeader cookieName = some value ↔ Carries cookieName cookieHeader value := by
  unfold Carries
  cases cookieHeader with
  | string header =>
    rw [parseCookieHeader]
    by_cases long : cookieHeaderMaxBytes < byteLength header
    · rw [if_pos long]
      simp [Nat.not_le.mpr long]
    · rw [if_neg long, selectCookie_eq_some]
      simp [← cookieValues_eq_singleton, cookieValues, Nat.not_lt.mp long]
  | _ => simp [parseCookieHeader]

structure Made where
  call : SessionCall
  answer : Except Err SessionAnswer

/-- The session a call creates. -/
def Made.issued : Made → Option WebSession
  | ⟨_, .ok (.issued x)⟩ => some x
  | _ => none

/-- A successful call that names a session's id, its cookie, or its user. -/
def SessionCall.Ends (cookieName : JsString) (x : WebSession) : SessionCall → Prop
  | .rotate sessionId _ => sessionId = .string x.sessionId
  | .invalidate sessionId => sessionId = .string x.sessionId
  | .logout cookieHeader => Carries cookieName cookieHeader x.sessionId
  | .invalidateUserSessions input =>
    input.get "tenantId" = .string x.tenantId ∧ input.get "userId" = .string x.userId
  | _ => False

def Made.Ends (cookieName : JsString) (made : Made) (x : WebSession) : Prop :=
  made.answer.isOk ∧ made.call.Ends cookieName x

/-- The calls are listed from the last one back. -/
def Lives (cookieName : JsString) : List Made → WebSession → Prop
  | [], _ => False
  | made :: earlier, x => made.issued = some x ∨ (Lives cookieName earlier x ∧ ¬ made.Ends cookieName x)

inductive Run (m : SessionManager) (env : Ambient) : List Made → SessionState → Prop where
  | initial : Run m env [] .initial
  | call {calls : List Made} {s : SessionState} (run : Run m env calls s) (call : SessionCall) :
      Run m env (⟨call, (perform m env call s).1⟩ :: calls) (perform m env call s).2

def Ambient.Rising (env : Ambient) : Prop :=
  ∀ i j t u, i ≤ j → env.clock i = .time t → env.clock j = .time u → t ≤ u

section
variable (m : SessionManager) (env : Ambient)

/-- One of the first readings of the clock shows that a session has expired. -/
def Expired (readings : Nat) (x : WebSession) : Prop :=
  ∃ i < readings, ∃ t, env.clock i = .time t ∧ x.expiresAt ≤ t

structure Sound (x : WebSession) : Prop where
  sessionId : sessionIdPattern x.sessionId
  expiresAt : x.expiresAt = Number.add x.createdAt m.ttlMs
  domain : env.host.toLowerCase x.domain = x.domain

/-- A call issues at most one session; of the others, those go that it ends or
that have expired. -/
structure Moves (ends : WebSession → Prop) (issued : Option WebSession) (s s' : SessionState) : Prop where
  readings : s.readings ≤ s'.readings
  stored : ∀ id x, s'.sessions.get id = some x →
    (s.sessions.get id = some x ∧ ¬ ends x) ∨ (issued = some x ∧ x.sessionId = id)
  kept : ∀ id x, s.sessions.get id = some x → s'.sessions.get id = some x ∨ ends x ∨ Expired env s'.readings x
  new : ∀ x, issued = some x → s'.sessions.get x.sessionId = some x ∧ Sound m env x

structure Inv (calls : List Made) (s : SessionState) : Prop where
  stored : ∀ id x, s.sessions.get id = some x → x.sessionId = id ∧ Lives m.cookieName calls x ∧ Sound m env x
  kept : ∀ x, Lives m.cookieName calls x →
    Sound m env x ∧ (s.sessions.get x.sessionId = some x ∨ Expired env s.readings x)

end

section
variable {m : SessionManager} {env : Ambient} {s s' : SessionState} {x : WebSession}

theorem Expired.mono {n n' : Nat} (h : Expired env n x) (le : n ≤ n') : Expired env n' x := by
  obtain ⟨i, hi, t, shown, past⟩ := h
  exact ⟨i, Nat.lt_of_lt_of_le hi le, t, shown, past⟩

theorem inv_step {calls : List Made} {made : Made} (inv : Inv m env calls s)
    (moves : Moves m env (made.Ends m.cookieName) made.issued s s') : Inv m env (made :: calls) s' := by
  constructor
  · intro id x found
    rcases moves.stored id x found with ⟨before, stays⟩ | ⟨issued, same⟩
    · obtain ⟨same, lives, sound⟩ := inv.stored id x before
      exact ⟨same, .inr ⟨lives, stays⟩, sound⟩
    · exact ⟨same, .inl issued, (moves.new x issued).2⟩
  · rintro x (issued | ⟨lives, stays⟩)
    · obtain ⟨stored, sound⟩ := moves.new x issued
      exact ⟨sound, .inl stored⟩
    · obtain ⟨sound, before | expired⟩ := inv.kept x lives
      · rcases moves.kept _ x before with after | ends | expired
        · exact ⟨sound, .inl after⟩
        · exact absurd ends stays
        · exact ⟨sound, .inr expired⟩
      · exact ⟨sound, .inr (expired.mono moves.readings)⟩

theorem moves_unused (ends : WebSession → Prop) (none_ends : ∀ id x, s.sessions.get id = some x → ¬ ends x)
    (sessions : s'.sessions = s.sessions) (readings : s.readings ≤ s'.readings) :
    Moves m env ends none s s' where
  readings := readings
  stored id x found := by
    rw [sessions] at found
    exact .inl ⟨found, none_ends id x found⟩
  kept id x found := by
    rw [sessions]
    exact .inl found
  new := nofun

/-- Deleting what a call ends or what the clock has shown to be past. -/
theorem moves_dropped (ends : WebSession → Prop) (p : JsString → WebSession → Bool)
    (get : ∀ id, s'.sessions.get id = (s.sessions.get id).filter fun x => !p id x)
    (readings : s.readings ≤ s'.readings)
    (dropped : ∀ id x, s.sessions.get id = some x → p id x → ends x ∨ Expired env s'.readings x)
    (ended : ∀ id x, s.sessions.get id = some x → ends x → p id x) : Moves m env ends none s s' := by
  constructor
  · exact readings
  · intro id x found
    rw [get, Option.filter_eq_some_iff] at found
    exact .inl ⟨found.1, fun h => by simp [ended id x found.1 h] at found⟩
  · intro id x found
    cases hp : p id x with
    | true => exact .inr (dropped id x found hp)
    | false =>
      left
      rw [get, found, Option.filter_some]
      simp [hp]
  · nofun

theorem get_delete_filter (id : JsString) (id' : JsString) :
    (s.sessions.delete id).get id' = (s.sessions.get id').filter fun _ => !decide (id' = id) := by
  rw [OrderedMap.get_delete]
  by_cases same : id' = id
  · rw [if_pos same]
    cases s.sessions.get id' <;> simp [Option.filter, same]
  · rw [if_neg same]
    cases s.sessions.get id' <;> simp [Option.filter, same]

variable {α β : Type}

theorem wp_clock_bind {f : Nat → Eff Err SessionState α} {Q : Except Err α → SessionState → Prop}
    (failed : ∀ e, (∀ t, env.clock s.readings ≠ .time t) → Q (.error e) { s with readings := s.readings + 1 })
    (shown : ∀ t, env.clock s.readings = .time t → wp (f t) { s with readings := s.readings + 1 } Q) :
    wp (onUses (readClock env) >>= f) s Q := by
  rw [Eff.wp_bind]
  unfold wp onUses Eff.zoom readClock
  cases reading : env.clock s.readings with
  | time t => exact shown t reading
  | early => exact failed _ (by simp [reading])
  | invalid => exact failed _ (by simp [reading])
  | threw => exact failed _ (by simp [reading])

theorem sessionIdPattern_base64Url {bytes : List UInt8} (size : bytes.length = sessionIdBytes) :
    sessionIdPattern (base64Url bytes) := by
  unfold sessionIdPattern
  rw [Bool.and_eq_true]
  constructor
  · rw [decide_eq_true_eq, base64Url_length, size]
    rfl
  · exact List.all_eq_true.mpr (base64Url_units bytes)

/-- An id that is drawn is well formed, and no stored session has it. -/
theorem drawSessionId_spec (attempts : Nat) : wp (drawSessionId env attempts) s fun r s' =>
    s'.sessions = s.sessions ∧ s'.readings = s.readings ∧
      ∀ id, r = .ok id → sessionIdPattern id ∧ s.sessions.get id = none := by
  induction attempts generalizing s with
  | zero => exact ⟨rfl, rfl, nofun⟩
  | succ attempts ih =>
    have draw : wp (normalizeRandomBytes env) s fun r s' => s' = { s with draws := s.draws + 1 } ∧
        ∀ id, r = .ok id → sessionIdPattern id := by
      unfold normalizeRandomBytes
      apply Eff.wp_bind_pure
      unfold wp onUses Eff.zoom randomBytes
      refine ⟨rfl, ?_⟩
      cases env.random s.draws sessionIdBytes with
      | bytes bytes =>
        by_cases size : bytes.length = sessionIdBytes
        · rintro id drawn
          simp only [size, ↓reduceIte, Except.map, Except.ok.injEq] at drawn
          rw [← drawn]
          exact sessionIdPattern_base64Url size
        · simp [size, Except.map]
      | other => nofun
      | threw => nofun
    rw [drawSessionId, Eff.wp_bind]
    apply Eff.wp_mono draw
    rintro r s₁ ⟨rfl, valid⟩
    cases r with
    | error e => exact ⟨rfl, rfl, nofun⟩
    | ok candidate =>
      simp only [Eff.wp_get_bind]
      split
      · rename_i fresh
        refine ⟨rfl, rfl, ?_⟩
        rintro id ⟨⟩
        exact ⟨valid _ rfl, Option.isNone_iff_eq_none.mp fresh⟩
      · exact Eff.wp_mono ih fun r s₂ spec => spec

theorem assertUserId_eq_ok {value : JsValue} {userId : JsString} (h : assertUserId value = .ok userId) :
    value = .string userId := by
  unfold assertUserId at h
  split at h
  · split at h
    · cases h
      rfl
    · cases h
  · cases h

/-- The parts of an identity that is accepted. -/
theorem identify_eq_ok {identity : JsValue} {userId : JsString} {context : TenantContext}
    (h : identify env identity = .ok (userId, context)) :
    identity.get "userId" = .string userId ∧ createTenantContext env.host (contextInput identity) = .ok context := by
  obtain ⟨_, _, h⟩ := bind_eq_ok.mp h
  obtain ⟨_, _, h⟩ := bind_eq_ok.mp h
  obtain ⟨userId', user, h⟩ := bind_eq_ok.mp h
  obtain ⟨context', created, h⟩ := bind_eq_ok.mp h
  cases h
  exact ⟨assertUserId_eq_ok (mapError_eq_ok.mp user), mapError_eq_ok.mp created⟩

/-- The parts of a context that is created. -/
theorem createTenantContext_eq_ok {host : Host} {input : JsValue} {c : TenantContext}
    (h : createTenantContext host input = .ok c) :
    ∃ domain, input.get "domain" = .string domain ∧ Integrations.domainPattern domain ∧
      c.domain = host.toLowerCase domain ∧ input.get "tenantId" = .string c.tenantId ∧
      Integrations.Actor.requiredRole ((input.get "role").orDefault (.string (js "user"))) = .ok c.role ∧
      Integrations.Actor.requiredActor ((input.get "actorId").orDefault .null) = .ok c.actorId := by
  obtain ⟨domain, domainOk, h⟩ := bind_eq_ok.mp h
  obtain ⟨role, roleOk, h⟩ := bind_eq_ok.mp h
  obtain ⟨tenantId, tenantOk, h⟩ := bind_eq_ok.mp h
  obtain ⟨actorId, actorOk, h⟩ := bind_eq_ok.mp h
  cases h
  obtain ⟨domainIs, passes⟩ := Integrations.Actor.requiredString_eq_ok.mp domainOk
  exact ⟨domain, domainIs, passes, rfl, (Integrations.Actor.requiredString_eq_ok.mp tenantOk).1, roleOk, actorOk⟩

variable (m env s s') in
/-- A session is stored under a fresh id. -/
structure Created (identity : JsValue) (x : WebSession) : Prop where
  identified : identify env identity = .ok (x.userId, x.context)
  now : env.clock s.readings = .time x.createdAt
  fresh : s.sessions.get x.sessionId = none
  sessions : s'.sessions = s.sessions.set x.sessionId x
  sound : Sound m env x

theorem createSession_spec (identity : JsValue) : wp (createSession m env identity) s fun r s' =>
    s.readings ≤ s'.readings ∧ (∀ e, r = .error e → s'.sessions = s.sessions) ∧
      ∀ x, r = .ok x → Created m env s s' identity x := by
  unfold createSession
  rw [Eff.wp_lift_bind]
  constructor
  · rintro e _
    exact ⟨Nat.le_refl _, fun _ _ => rfl, nofun⟩
  rintro ⟨userId, context⟩ identified
  apply wp_clock_bind
  · rintro e _
    exact ⟨Nat.le_succ _, fun _ _ => rfl, nofun⟩
  intro now shown
  rw [Eff.wp_bind]
  apply Eff.wp_mono (drawSessionId_spec 4)
  rintro r s₁ ⟨sessions, readings, drawn⟩
  have later : s.readings ≤ s₁.readings := by
    rw [readings]
    exact Nat.le_succ _
  cases r with
  | error e => exact ⟨later, fun _ _ => sessions, nofun⟩
  | ok sessionId =>
    obtain ⟨valid, fresh⟩ := drawn sessionId rfl
    refine ⟨later, nofun, ?_⟩
    rintro x ⟨⟩
    refine ⟨identified, shown, fresh, ?_, valid, rfl, ?_⟩
    · show s₁.sessions.set sessionId _ = s.sessions.set sessionId _
      rw [sessions]
    · obtain ⟨domain, _, passes, lower, _⟩ := createTenantContext_eq_ok (identify_eq_ok identified).2
      show env.host.toLowerCase context.domain = context.domain
      rw [lower]
      exact env.lowered domain passes

theorem asSessionId?_eq_some {value : JsValue} {id : JsString} :
    asSessionId? value = some id ↔ value = .string id ∧ sessionIdPattern id := by
  cases value with
  | string s =>
    rw [asSessionId?]
    constructor
    · intro h
      split at h
      · rename_i valid
        cases h
        exact ⟨rfl, valid⟩
      · cases h
    · rintro ⟨⟨⟩, valid⟩
      exact if_pos valid
  | _ => simp [asSessionId?]

variable (env s) in
/-- How a session is looked up. -/
inductive Lookup (sessionId : JsValue) : Except Err (Option WebSession) → SessionState → Prop where
  | missing (absent : ∀ id, sessionId = .string id → sessionIdPattern id → s.sessions.get id = none) :
      Lookup sessionId (.ok none) s
  | unread (x : WebSession) (id : JsString) (named : sessionId = .string id) (valid : sessionIdPattern id)
      (stored : s.sessions.get id = some x) (e : Err) (unread : ∀ t, env.clock s.readings ≠ .time t) :
      Lookup sessionId (.error e) { s with readings := s.readings + 1 }
  | past (x : WebSession) (id : JsString) (named : sessionId = .string id) (valid : sessionIdPattern id)
      (stored : s.sessions.get id = some x) (t : Nat) (shown : env.clock s.readings = .time t)
      (expired : x.expiresAt ≤ t) :
      Lookup sessionId (.ok none) { s with readings := s.readings + 1, sessions := s.sessions.delete id }
  | active (x : WebSession) (id : JsString) (named : sessionId = .string id) (valid : sessionIdPattern id)
      (stored : s.sessions.get id = some x) (t : Nat) (shown : env.clock s.readings = .time t)
      (inTime : t < x.expiresAt) :
      Lookup sessionId (.ok (some x)) { s with readings := s.readings + 1 }

theorem getActiveSession_spec (sessionId : JsValue) :
    wp (getActiveSession env sessionId) s fun r s' => Lookup env s sessionId r s' := by
  unfold getActiveSession
  cases looked : asSessionId? sessionId with
  | none =>
    apply Lookup.missing
    intro id named valid
    rw [asSessionId?_eq_some.mpr ⟨named, valid⟩] at looked
    cases looked
  | some id =>
    obtain ⟨named, valid⟩ := asSessionId?_eq_some.mp looked
    simp only [Eff.wp_get_bind]
    cases stored : s.sessions.get id with
    | none =>
      apply Lookup.missing
      intro id' named' _
      cases named.symm.trans named'
      exact stored
    | some x =>
      apply wp_clock_bind
      · exact fun e unread => .unread x id named valid stored e unread
      · intro t shown
        split
        · rename_i expired
          exact .past x id named valid stored t shown expired
        · rename_i inTime
          exact .active x id named valid stored t shown (Nat.not_le.mp inTime)

theorem Lookup.readings {sessionId : JsValue} {r : Except Err (Option WebSession)}
    (h : Lookup env s sessionId r s') : s.readings ≤ s'.readings := by
  cases h with
  | missing => exact Nat.le_refl _
  | unread | past | active => exact Nat.le_succ _

/-- A lookup ends nothing: what it deletes has expired. -/
theorem Lookup.moves {sessionId : JsValue} {r : Except Err (Option WebSession)}
    (h : Lookup env s sessionId r s') (ends : WebSession → Prop)
    (none_ends : ∀ id x, s.sessions.get id = some x → ¬ ends x) : Moves m env ends none s s' := by
  cases h with
  | missing => exact moves_unused ends none_ends rfl (Nat.le_refl _)
  | unread | active => exact moves_unused ends none_ends rfl (Nat.le_succ _)
  | past x id named valid stored t shown expired =>
    apply moves_dropped ends (fun id' _ => decide (id' = id)) (get_delete_filter id) (Nat.le_succ _)
    · intro id' x' stored' same
      rw [of_decide_eq_true same, stored] at stored'
      cases stored'
      exact .inr ⟨s.readings, Nat.lt_succ_self _, t, shown, expired⟩
    · exact fun id' x' stored' ended => absurd ended (none_ends id' x' stored')

/-- A call that only looks a session up, or asks for it. -/
theorem moves_lookup {call : SessionCall} {r : Except Err SessionAnswer} {sessionId : JsValue}
    {looked : Except Err (Option WebSession)} (lookup : Lookup env s sessionId looked s')
    (unissued : Made.issued ⟨call, r⟩ = none) (harmless : ∀ x, ¬ call.Ends m.cookieName x) :
    Moves m env (Made.Ends m.cookieName ⟨call, r⟩) (Made.issued ⟨call, r⟩) s s' := by
  rw [unissued]
  exact lookup.moves _ fun _ x _ ends => harmless x ends.2

theorem moves_created {identity : JsValue} (ends : WebSession → Prop)
    (none_ends : ∀ id x, s.sessions.get id = some x → ¬ ends x) (created : Created m env s s' identity x)
    (readings : s.readings ≤ s'.readings) : Moves m env ends (some x) s s' := by
  have get (id : JsString) : s'.sessions.get id = if x.sessionId = id then some x else s.sessions.get id := by
    rw [created.sessions, OrderedMap.get_set]
  constructor
  · exact readings
  · intro id y found
    rw [get] at found
    split at found
    · rename_i same
      cases found
      exact .inr ⟨rfl, same⟩
    · exact .inl ⟨found, none_ends id y found⟩
  · intro id y found
    left
    rw [get, if_neg, found]
    rintro rfl
    rw [created.fresh] at found
    cases found
  · rintro y ⟨⟩
    rw [get, if_pos rfl]
    exact ⟨rfl, created.sound⟩

theorem invalidate_eq (sessionId : JsValue) : invalidate sessionId s =
    match asSessionId? sessionId with
    | none => (.ok false, s)
    | some id => (.ok (s.sessions.get id).isSome, { s with sessions := s.sessions.delete id }) := by
  unfold invalidate
  cases asSessionId? sessionId <;> rfl

variable (stored : ∀ id x, s.sessions.get id = some x → x.sessionId = id ∧ Sound m env x)

include stored in
/-- Deleting a session by its id. -/
theorem moves_invalidated {value : JsValue} (ends : WebSession → Prop)
    (names : ∀ x, ends x ↔ value = .string x.sessionId) : Moves m env ends none s (invalidate value s).2 := by
  rw [invalidate_eq]
  cases looked : asSessionId? value with
  | none =>
    apply moves_unused ends _ rfl (Nat.le_refl _)
    intro id x found ended
    obtain ⟨rfl, sound⟩ := stored id x found
    rw [asSessionId?_eq_some.mpr ⟨(names x).mp ended, sound.sessionId⟩] at looked
    cases looked
  | some id =>
    obtain ⟨named, _⟩ := asSessionId?_eq_some.mp looked
    show Moves m env ends none s { s with sessions := s.sessions.delete id }
    refine moves_dropped ends (fun id' _ => decide (id' = id)) ?_ ?_ ?_ ?_
    · exact get_delete_filter id
    · exact Nat.le_refl _
    · intro id' x found same
      left
      rw [names, named, ← of_decide_eq_true same, (stored id' x found).1]
    · intro id' x found ended
      obtain ⟨rfl, _⟩ := stored id' x found
      have same := named.symm.trans ((names x).mp ended)
      exact decide_eq_true (JsValue.string.inj same).symm

/-- Deleting the sessions of a user, or the expired ones. -/
theorem moves_deleted (ends : WebSession → Prop) (p : WebSession → Bool)
    (dropped : ∀ x, p x → ends x ∨ Expired env s.readings x) (ended : ∀ x, ends x → p x) :
    Moves m env ends none s (deleteSessions p s).2 :=
  moves_dropped ends (fun _ x => p x) (OrderedMap.get_deleteWhere s.sessions p) (Nat.le_refl _) (fun _ x _ => dropped x)
    (fun _ x _ => ended x)

variable (m env s s') in
/-- The new session takes the place of the old one. -/
structure Rotated (sessionId : JsValue) (x y : WebSession) : Prop where
  named : sessionId = .string x.sessionId
  found : s.sessions.get x.sessionId = some x
  fresh : s.sessions.get y.sessionId = none
  sessions : s'.sessions = (s.sessions.set y.sessionId y).delete x.sessionId
  user : y.userId = x.userId
  context : y.context = x.context
  sound : Sound m env y

theorem isString_iff {value : JsValue} {s : JsString} : value.isString s ↔ value = .string s := by
  constructor
  · exact Integrations.Actor.isString_eq
  · rintro rfl
    exact beq_self_eq_true s

/-- The next identity is normalised to the binding it names. -/
theorem identify_next {overrides : JsValue} {userId : JsString} {context : TenantContext} (sound : Sound m env x)
    (same : sameBinding (nextIdentity overrides x) x)
    (identified : identify env (nextIdentity overrides x) = .ok (userId, context)) :
    userId = x.userId ∧ context = x.context := by
  obtain ⟨user, created⟩ := identify_eq_ok identified
  obtain ⟨domain, domainIs, _, lower, tenant, role, actor⟩ := createTenantContext_eq_ok created
  generalize nextIdentity overrides x = next at same user created domainIs tenant role actor
  simp only [sameBinding, Bool.and_eq_true, isString_iff, Option.any_eq_true] at same
  obtain ⟨⟨⟨⟨tenantSame, domainSame⟩, userSame⟩, roleSame⟩, a, actorIs, actorSame⟩ := same
  have tenant' : next.get "tenantId" = .string context.tenantId := tenant
  have domain' : next.get "domain" = .string domain := domainIs
  have role' : (contextInput next).get "role" = .string x.role.text := by
    show (next.get "role").orElse (.string (js "user")) = _
    rw [roleSame]
    rfl
  have actor' : (contextInput next).get "actorId" = .string a := by
    show (next.get "actorId").orElse (next.get "userId") = _
    rw [actorSame]
    rfl
  rw [role'] at role
  rw [actor'] at actor
  have roleEq : context.role = x.role := (Except.ok.inj ((Integrations.Actor.requiredRole_text x.role).symm.trans role)).symm
  have actorEq : context.actorId = x.actorId := by
    obtain ⟨a', required, same⟩ := map_eq_ok.mp actor
    obtain ⟨is, _⟩ := Integrations.Actor.requiredString_eq_ok.mp required
    cases is
    exact same.symm.trans actorIs.symm
  have domainEq : context.domain = x.domain := by
    rw [lower, JsValue.string.inj (domain'.symm.trans domainSame)]
    exact sound.domain
  refine ⟨JsValue.string.inj (user.symm.trans userSame), ?_⟩
  cases context with
  | mk tenantId domain actorId role =>
    have tenantEq := JsValue.string.inj (tenant'.symm.trans tenantSame)
    cases hx : x.context
    simp_all [WebSession.tenantId, WebSession.domain, WebSession.actorId, WebSession.role]

include stored in
theorem rotate_spec (sessionId overrides : JsValue) : wp (rotate m env sessionId overrides) s fun r s' =>
    s.readings ≤ s'.readings ∧
      (∀ e, r = .error e → ∀ ends, (∀ id x, s.sessions.get id = some x → ¬ ends x) → Moves m env ends none s s') ∧
      ∀ y, r = .ok y → ∃ x, Rotated m env s s' sessionId x y := by
  unfold rotate
  rw [Eff.wp_bind]
  apply Eff.wp_mono (getActiveSession_spec sessionId)
  intro looked s₁ lookup
  have readings := lookup.readings
  cases lookup with
  | unread _ _ _ _ _ e unread =>
    exact ⟨readings, fun _ _ ends none_ends => moves_unused ends none_ends rfl readings, nofun⟩
  | missing absent =>
    exact ⟨readings, fun _ _ ends none_ends => moves_unused ends none_ends rfl readings, nofun⟩
  | past x id named valid found t shown expired =>
    refine ⟨readings, fun _ _ ends none_ends => ?_, nofun⟩
    exact (Lookup.past x id named valid found t shown expired).moves ends none_ends
  | active x id named valid found t shown inTime =>
    have unchanged (ends : WebSession → Prop) (none_ends : ∀ id x, s.sessions.get id = some x → ¬ ends x) :
        Moves m env ends none s { s with readings := s.readings + 1 } :=
      moves_unused ends none_ends rfl readings
    obtain ⟨rfl, sound⟩ := stored id x found
    simp only
    rw [Eff.wp_lift_bind]
    refine ⟨fun _ _ => ⟨readings, fun _ _ => unchanged, nofun⟩, ?_⟩
    rintro _ _
    rw [Eff.wp_check_bind]
    refine ⟨fun _ _ => ⟨readings, fun _ _ => unchanged, nofun⟩, ?_⟩
    intro _ same
    have same := throwIf_eq_ok.mp same
    rw [Bool.not_eq_false'] at same
    rw [Eff.wp_bind]
    apply Eff.wp_mono (createSession_spec _)
    rintro r s₂ ⟨later, failed, made⟩
    have later : s.readings ≤ s₂.readings := Nat.le_of_succ_le later
    cases r with
    | error e =>
      refine ⟨later, fun _ _ ends none_ends => ?_, nofun⟩
      exact moves_unused ends none_ends (failed e rfl) later
    | ok y =>
      have created := made y rfl
      obtain ⟨user, context⟩ := identify_next sound same created.identified
      have deleted : invalidate (.string x.sessionId) s₂ =
          (.ok (s₂.sessions.get x.sessionId).isSome, { s₂ with sessions := s₂.sessions.delete x.sessionId }) := by
        rw [invalidate_eq, asSessionId?_eq_some.mpr ⟨rfl, sound.sessionId⟩]
      simp only
      rw [Eff.wp_bind_eq deleted]
      refine ⟨later, nofun, ?_⟩
      rintro _ ⟨⟩
      refine ⟨x, named, found, created.fresh, ?_, user, context, created.sound⟩
      show s₂.sessions.delete x.sessionId = _
      rw [created.sessions]

include stored in
/-- The old session goes, and the new one comes. -/
theorem Rotated.moves {sessionId overrides : JsValue} {y : WebSession} (rotated : Rotated m env s s' sessionId x y)
    (readings : s.readings ≤ s'.readings) :
    Moves m env (Made.Ends m.cookieName ⟨.rotate sessionId overrides, .ok (.issued y)⟩) (some y) s s' := by
  have different : y.sessionId ≠ x.sessionId := by
    intro same
    have found := rotated.found
    rw [← same, rotated.fresh] at found
    cases found
  have get (id : JsString) : s'.sessions.get id =
      if id = x.sessionId then none else if y.sessionId = id then some y else s.sessions.get id := by
    rw [rotated.sessions, OrderedMap.get_delete, OrderedMap.get_set]
  constructor
  · exact readings
  · intro id z found
    rw [get] at found
    split at found
    · cases found
    · split at found
      · rename_i same
        exact .inr ⟨found, same ▸ congrArg WebSession.sessionId (Option.some.inj found).symm⟩
      · rename_i other _
        refine .inl ⟨found, ?_⟩
        rintro ⟨_, named⟩
        have named' := JsValue.string.inj (rotated.named.symm.trans named)
        exact other ((stored id z found).1.symm.trans named'.symm)
  · intro id z found
    by_cases old : id = x.sessionId
    · right
      left
      refine ⟨rfl, rotated.named.trans ?_⟩
      rw [← old, (stored id z found).1]
    · left
      rw [get, if_neg old, if_neg, found]
      rintro rfl
      rw [rotated.fresh] at found
      cases found
  · rintro _ ⟨⟩
    rw [get, if_neg different, if_pos rfl]
    exact ⟨rfl, rotated.sound⟩

omit stored in
theorem wp_answering {answer : α → SessionAnswer} {c : Eff Err SessionState α}
    {Q : Except Err SessionAnswer → SessionState → Prop} (h : wp c s fun r s' => Q (r.map answer) s') :
    wp (answering answer c) s Q := Eff.wp_bind_pure h

theorem authenticateCookie_spec (cookieHeader : JsValue) :
    wp (authenticateCookie m env cookieHeader) s fun r s' => ∃ sessionId, Lookup env s sessionId r s' ∧
      ∀ id, sessionId = .string id ↔ Carries m.cookieName cookieHeader id := by
  unfold authenticateCookie
  cases parsed : parseCookieHeader cookieHeader m.cookieName with
  | none =>
    refine ⟨.undefined, .missing nofun, ?_⟩
    intro id
    rw [← parseCookieHeader_eq_some, parsed]
    simp
  | some sessionId =>
    apply Eff.wp_mono (getActiveSession_spec _)
    intro r s' lookup
    refine ⟨_, lookup, ?_⟩
    intro id
    rw [← parseCookieHeader_eq_some, parsed, Option.some_inj, JsValue.string.injEq]

omit stored in
/-- A missing argument has no properties. -/
theorem get_orDefault (input : JsValue) (key : String) :
    (input.orDefault (.object [])).get key = input.get key := by
  cases input <;> rfl

variable (m env s) in
/-- What a call issues and ends, and what is stored after it. -/
abbrev Performs (call : SessionCall) : Prop :=
  wp (perform m env call) s fun r s' => Moves m env (Made.Ends m.cookieName ⟨call, r⟩) (Made.issued ⟨call, r⟩) s s'

theorem createSession_moves (identity : JsValue) : Performs m env s (.createSession identity) := by
  apply wp_answering
  apply Eff.wp_mono (createSession_spec identity)
  rintro r s' ⟨readings, failed, made⟩
  cases r with
  | error e => exact moves_unused _ (fun _ _ _ ends => ends.2) (failed e rfl) readings
  | ok x => exact moves_created _ (fun _ _ _ ends => ends.2) (made x rfl) readings

theorem getActiveSession_moves (sessionId : JsValue) : Performs m env s (.getActiveSession sessionId) := by
  apply wp_answering
  apply Eff.wp_mono (getActiveSession_spec sessionId)
  intro r s' lookup
  apply moves_lookup lookup
  · cases r <;> rfl
  · exact fun _ ends => ends

theorem authenticateCookie_moves (header : JsValue) : Performs m env s (.authenticateCookie header) := by
  apply wp_answering
  apply Eff.wp_mono (authenticateCookie_spec header)
  rintro r s' ⟨_, lookup, _⟩
  apply moves_lookup lookup
  · cases r <;> rfl
  · exact fun _ ends => ends

theorem requireSession_moves (header : JsValue) : Performs m env s (.requireSession header) := by
  apply wp_answering
  unfold requireSession
  rw [Eff.wp_bind]
  apply Eff.wp_mono (authenticateCookie_spec header)
  rintro r s' ⟨_, lookup, _⟩
  cases r with
  | error e => exact moves_lookup lookup rfl fun _ ends => ends
  | ok found =>
    cases found with
    | none => exact moves_lookup lookup rfl fun _ ends => ends
    | some x => exact moves_lookup lookup rfl fun _ ends => ends

include stored in
theorem invalidate_moves (sessionId : JsValue) : Performs m env s (.invalidate sessionId) := by
  apply wp_answering
  have ok : ∃ b, (invalidate sessionId s).1 = .ok b := by
    rw [invalidate_eq]
    cases asSessionId? sessionId <;> exact ⟨_, rfl⟩
  obtain ⟨b, ok⟩ := ok
  unfold wp
  rw [ok]
  apply moves_invalidated stored
  exact fun x => and_iff_right rfl

include stored in
theorem logout_moves (header : JsValue) : Performs m env s (.logout header) := by
  apply wp_answering
  unfold logout
  cases parsed : parseCookieHeader header m.cookieName with
  | none =>
    apply moves_unused _ _ rfl (Nat.le_refl _)
    rintro id x _ ⟨_, carries⟩
    rw [parseCookieHeader_eq_some.mpr carries] at parsed
    cases parsed
  | some id =>
    have ok : ∃ b, (invalidate (.string id) s).1 = .ok b := by
      rw [invalidate_eq]
      cases asSessionId? (.string id) <;> exact ⟨_, rfl⟩
    obtain ⟨b, ok⟩ := ok
    apply Eff.wp_bind_pure
    unfold wp
    rw [ok]
    apply moves_invalidated stored
    intro x
    rw [JsValue.string.injEq, ← Option.some_inj, ← parsed, parseCookieHeader_eq_some]
    exact and_iff_right rfl

include stored in
theorem rotate_moves (sessionId overrides : JsValue) : Performs m env s (.rotate sessionId overrides) := by
  apply wp_answering
  apply Eff.wp_mono (rotate_spec stored sessionId overrides)
  rintro r s' ⟨readings, failed, made⟩
  cases r with
  | error e => exact failed e rfl _ fun _ _ _ ends => Bool.false_ne_true ends.1
  | ok y =>
    obtain ⟨x, rotated⟩ := made y rfl
    exact rotated.moves stored readings

theorem invalidateUserSessions_moves (input : JsValue) : Performs m env s (.invalidateUserSessions input) := by
  apply wp_answering
  unfold invalidateUserSessions
  simp only
  rw [Eff.wp_lift_bind]
  refine ⟨fun _ _ => moves_unused _ (fun _ _ _ ends => Bool.false_ne_true ends.1) rfl (Nat.le_refl _), ?_⟩
  intro _ readable
  rw [Eff.wp_check_bind]
  refine ⟨fun _ _ => moves_unused _ (fun _ _ _ ends => Bool.false_ne_true ends.1) rfl (Nat.le_refl _), ?_⟩
  intro userId user
  rw [get_orDefault] at user
  have named := assertUserId_eq_ok user
  have selects (x : WebSession) : ofUser ((input.orDefault (.object [])).get "tenantId") userId x ↔
      input.get "tenantId" = .string x.tenantId ∧ input.get "userId" = .string x.userId := by
    rw [get_orDefault, ofUser, Bool.and_eq_true, isString_iff, beq_iff_eq, named, JsValue.string.injEq]
    exact and_congr_right fun _ => eq_comm
  apply moves_deleted
  · exact fun x selected => .inl ⟨rfl, (selects x).mp selected⟩
  · exact fun x ends => (selects x).mpr ends.2

theorem purgeExpired_moves : Performs m env s .purgeExpired := by
  apply wp_answering
  apply wp_clock_bind
  · exact fun e _ => moves_unused _ (fun _ _ _ ends => ends.2) rfl (Nat.le_succ _)
  · intro t shown
    refine moves_dropped _ (fun _ x => decide (x.expiresAt ≤ t)) ?_ (Nat.le_succ _) ?_ ?_
    · exact OrderedMap.get_deleteWhere s.sessions fun x => decide (x.expiresAt ≤ t)
    · exact fun _ x _ past => .inr ⟨s.readings, Nat.lt_succ_self _, t, shown, of_decide_eq_true past⟩
    · exact fun _ _ _ ends => absurd ends.2 id

include stored in
theorem perform_moves (call : SessionCall) : Performs m env s call := by
  cases call with
  | createSession identity => exact createSession_moves identity
  | getActiveSession sessionId => exact getActiveSession_moves sessionId
  | authenticateCookie header => exact authenticateCookie_moves header
  | requireSession header => exact requireSession_moves header
  | invalidate sessionId => exact invalidate_moves stored sessionId
  | logout header => exact logout_moves stored header
  | rotate sessionId overrides => exact rotate_moves stored sessionId overrides
  | invalidateUserSessions input => exact invalidateUserSessions_moves input
  | purgeExpired => exact purgeExpired_moves

end

end GuloGulo.Web.Security
