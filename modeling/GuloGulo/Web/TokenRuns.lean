import GuloGulo.Web.TokenSteps

/-!
# CSRF tokens in runs

In every run the buckets follow the history of the calls: of the tokens that a
session has been issued, those in time are held that it has not used up or lost.
-/

namespace GuloGulo.Web.Security
open Js Data
open Tokens (Entry Event Orderly Outstanding entries tokens issuedTo kept unexpired)
open Eff (wp)

namespace Csrf

/-! ## Runs -/

/-- A call of the manager, or whatever else is done: it leaves the tokens alone,
and the clock is not read less often. -/
inductive Call where
  | issue (session : WebSession)
  | validate (session : WebSession) (token : JsValue) (consume : Bool)
  | revokeSession (sessionId : JsString)
  | purgeExpired
  | elsewhere (rest : SecurityState)

/-- A state, and the history of the tokens up to it, the latest event first. -/
structure World where
  state : SecurityState
  past : List (Event JsString JsString)

/-- What a call of `issue` adds to the history. -/
def issuing (sessionId : JsString) : Except Err IssuedToken → List (Event JsString JsString)
  | .ok x => [.issued sessionId ⟨x.token, x.issuedAt, x.expiresAt⟩]
  | .error _ => []

/-- What a call of `validate` adds to the history. -/
def consuming (sessionId : JsString) (token : JsValue) (consume : Bool) : Except Err Unit → List (Event JsString JsString)
  | .ok _ => if consume then token.asString?.toList.map (.consumed sessionId) else []
  | .error _ => []

/-- An id of another form revokes nothing. -/
def revoking (sessionId : JsString) : List (Event JsString JsString) :=
  if sessionIdPattern sessionId then [.revoked sessionId] else []

def perform (c : CsrfManager) (env : Ambient) (w : World) : Call → World
  | .issue session =>
    let r := issue c env session w.state
    ⟨r.2, issuing session.sessionId r.1 ++ w.past⟩
  | .validate session token consume =>
    let r := validate env session token consume w.state
    ⟨r.2, consuming session.sessionId token consume r.1 ++ w.past⟩
  | .revokeSession sessionId =>
    ⟨(revokeSession sessionId w.state).2, revoking sessionId ++ w.past⟩
  | .purgeExpired => ⟨(purgeExpired env w.state).2, w.past⟩
  | .elsewhere rest =>
    ⟨{ rest with tokensBySession := w.state.tokensBySession, readings := max w.state.readings rest.readings }, w.past⟩

/-- The run of some calls, the latest first. -/
def run (c : CsrfManager) (env : Ambient) (start : SecurityState) : List Call → World
  | [] => ⟨start, []⟩
  | call :: earlier => perform c env (run c env start earlier) call

/-- The strings that are presented as tokens. -/
def presented : List Call → List JsString
  | [] => []
  | .validate _ (.string text) _ :: earlier => text :: presented earlier
  | _ :: earlier => presented earlier

def ascii (text : JsString) : List UInt8 := text.map fun u => UInt8.ofNat u.toNat

/-- SHA-256 has no collision among these strings. -/
def CollisionFree (host : Host) (texts : List JsString) : Prop :=
  ∀ a ∈ texts, ∀ b ∈ texts, host.sha256 (ascii a) = host.sha256 (ascii b) → ascii a = ascii b

section
variable {c : CsrfManager} {env : Ambient} {s s' : SecurityState} {past : List (Event JsString JsString)}

theorem ascii_units {text : JsString} (pattern : tokenPattern text) :
    (ascii text).map (fun b => UInt16.ofNat b.toNat) = text := by
  rw [tokenPattern, sessionIdPattern, Bool.and_eq_true, List.all_eq_true] at pattern
  rw [ascii, List.map_map]
  apply (List.map_congr_left _).trans (List.map_id text)
  intro u h
  have unit := pattern.2 u h
  simp only [isBase64Url, isAlnum, isAlpha, isUpper, isLower, isDigit, Bool.or_eq_true, Bool.and_eq_true, decide_eq_true_eq,
    beq_iff_eq, UInt16.le_iff_toNat_le, ← UInt16.toNat_inj, UInt16.reduceToNat] at unit
  have small : u.toNat < 256 := by omega
  rw [Function.comp_apply, UInt8.toNat_ofNat_of_lt' small, UInt16.ofNat_toNat, id]

theorem ascii_injective {a b : JsString} (ha : tokenPattern a) (hb : tokenPattern b) (h : ascii a = ascii b) : a = b := by
  rw [← ascii_units ha, h, ascii_units hb]

theorem digest_injective {texts : List JsString} (free : CollisionFree env.host texts) {a b : JsString} (ha : a ∈ texts)
    (hb : b ∈ texts) (pa : tokenPattern a) (pb : tokenPattern b) (h : digestToken env a = digestToken env b) : a = b :=
  ascii_injective pa pb (free a ha b hb h)

theorem inTime_reverse (t : Nat) (rows : List (JsString × TokenRecord)) :
    inTime t rows.reverse = (inTime t rows).reverse := List.filter_reverse

theorem inTime_inTime {now t : Nat} (h : now ≤ t) (rows : List (JsString × TokenRecord)) :
    inTime t (inTime now rows) = inTime t rows := by
  rw [inTime, inTime, List.filter_filter, inTime]
  apply List.filter_congr
  intro row _
  rw [← Bool.decide_and, decide_eq_decide]
  omega

theorem inTime_rowOf (t : Nat) (xs : List (Entry JsString)) :
    inTime t (xs.map (rowOf env)) = (unexpired t xs).map (rowOf env) := by
  rw [inTime, List.filter_map]
  rfl

variable (c env) in
/-- How the buckets follow the history, as far as the clock has come. -/
structure Tracks (past : List (Event JsString JsString)) (s : SecurityState) : Prop where
  orderly : Orderly past
  seen : ∀ x ∈ entries past, ∃ i < s.readings, env.clock i = .time x.issuedAt
  patterns : ∀ text ∈ tokens past, tokenPattern text
  holds : ∀ t, SeenBy env s.readings t → ∀ id, inTime t (held s.tokensBySession id).reverse =
    (unexpired t (kept c.maxOutstandingTokens id past)).map (rowOf env)
  bounded : ∀ id, (held s.tokensBySession id).length ≤ c.maxOutstandingTokens

/-- Expired tokens may go at any time. -/
theorem Tracks.expire (tracks : Tracks c env past s) (readings : s.readings ≤ s'.readings)
    (left : ∀ id, held s'.tokensBySession id = held s.tokensBySession id ∨ ∃ now, (∃ i < s'.readings, env.clock i = .time now) ∧
      held s'.tokensBySession id = inTime now (held s.tokensBySession id)) : Tracks c env past s' := by
  constructor
  · exact tracks.orderly
  · intro x h
    obtain ⟨i, hi, shown⟩ := tracks.seen x h
    exact ⟨i, Nat.lt_of_lt_of_le hi readings, shown⟩
  · exact tracks.patterns
  · intro t seen id
    rw [← tracks.holds t (seen.mono readings) id]
    rcases left id with same | ⟨now, ⟨i, hi, shown⟩, same⟩
    · rw [same]
    · rw [same, inTime_reverse, inTime_inTime (seen i hi now shown), inTime_reverse]
  · intro id
    rcases left id with same | ⟨now, _, same⟩
    · rw [same]
      exact tracks.bounded id
    · rw [same]
      exact Nat.le_trans (List.length_filter_le _ _) (tracks.bounded id)

theorem Tracks.untouched (tracks : Tracks c env past s) (h : Untouched s s') : Tracks c env past s' :=
  tracks.expire h.readings fun id => .inl (by rw [h.tokens])

/-! ## Steps -/

variable {x : Entry JsString} {y : WebSession} {texts : List JsString}

theorem kept_tokens {max : Nat} {id : JsString} (h : x ∈ kept max id past) : x.token ∈ tokens past :=
  List.mem_map_of_mem (((Tokens.kept_sublist max id past).trans (Tokens.issuedTo_sublist id past)).subset h)

theorem Tracks.issued (rising : env.Rising) (tracks : Tracks c env past s) {i : Nat} (shown : env.clock i = .time x.issuedAt)
    (later : s.readings ≤ i) (readings : i < s'.readings) (pattern : tokenPattern x.token)
    (leaves : Leaves s s' y.sessionId (OrderedMap.set
      (evictOldest c.maxOutstandingTokens (removeExpired ((s.tokensBySession.get y.sessionId).getD Table.empty) x.issuedAt))
      (rowOf env x).1 (rowOf env x).2))
    (free : CollisionFree env.host texts) (known : ∀ text ∈ tokens (.issued y.sessionId x :: past), text ∈ texts)
    (fresh : x.token ∉ tokens past) : Tracks c env (.issued y.sessionId x :: past) s' := by
  have positive := c.maxOutstandingTokens_bounds.1
  have now := rising.seenBy shown
  have patterns : ∀ text ∈ tokens (.issued y.sessionId x :: past), tokenPattern text := by
    intro text h
    rcases List.mem_cons.mp h with rfl | h
    · exact pattern
    · exact tracks.patterns text h
  have rows : ((s.tokensBySession.get y.sessionId).getD Table.empty).rows = held s.tokensBySession y.sessionId := by
    rw [held]
    cases s.tokensBySession.get y.sessionId <;> rfl
  let evicted := evictOldest c.maxOutstandingTokens
    (removeExpired ((s.tokensBySession.get y.sessionId).getD Table.empty) x.issuedAt)
  have evictedRows : evicted.rows.reverse =
      ((unexpired x.issuedAt (kept c.maxOutstandingTokens y.sessionId past)).take (c.maxOutstandingTokens - 1)).map
        (rowOf env) := by
    rw [evictOldest_rows positive, removeExpired_rows, rows, ← inTime_reverse, tracks.holds _ (now.mono later), List.map_take]
  have absent : evicted.get (rowOf env x).1 = none := by
    rw [Option.eq_none_iff_forall_ne_some]
    intro record present
    have inside := List.mem_reverse.mpr (OrderedMap.mem_rows.mpr present)
    rw [evictedRows] at inside
    obtain ⟨z, hz, same⟩ := List.mem_map.mp inside
    have old := kept_tokens (Tokens.mem_unexpired.mp (List.mem_of_mem_take hz)).1
    have digests := base64Url_injective (congrArg Prod.fst same)
    have again : z.token = x.token := digest_injective free (known _ (List.mem_cons_of_mem _ old))
      (known _ List.mem_cons_self) (tracks.patterns _ old) pattern digests
    exact fresh (again ▸ old)
  have own : (OrderedMap.set evicted (rowOf env x).1 (rowOf env x).2).rows.reverse =
      (kept c.maxOutstandingTokens y.sessionId (.issued y.sessionId x :: past)).map (rowOf env) := by
    rw [OrderedMap.rows_set_fresh absent, List.reverse_append, evictedRows, kept, if_pos rfl]
    rfl
  constructor
  · refine ⟨fresh, ?_, tracks.orderly⟩
    intro z h
    obtain ⟨j, hj, shown'⟩ := tracks.seen z h
    exact now j (Nat.lt_of_lt_of_le hj later) _ shown'
  · intro z h
    rcases List.mem_cons.mp h with rfl | h
    · exact ⟨i, readings, shown⟩
    · obtain ⟨j, hj, shown'⟩ := tracks.seen z h
      exact ⟨j, by omega, shown'⟩
  · exact patterns
  · intro t seen id
    rw [leaves]
    split
    · rename_i same
      rw [← same, own, inTime_rowOf]
    · rename_i other
      rw [kept, if_neg other]
      exact tracks.holds t (seen.mono (by omega)) id
  · intro id
    rw [leaves]
    split
    · rw [← List.length_reverse, own, List.length_map]
      exact Tokens.kept_length positive _ _
    · exact tracks.bounded id

/-- What is checked against: the tokens that are kept and in time. -/
theorem Tracks.checked (tracks : Tracks c env past s) {bucket : Bucket} {now : Nat}
    (stored : s.tokensBySession.get y.sessionId = some bucket) (seen : SeenBy env s.readings now) :
    (removeExpired bucket now).rows.reverse =
      (unexpired now (kept c.maxOutstandingTokens y.sessionId past)).map (rowOf env) := by
  rw [removeExpired_rows, ← inTime_reverse, ← tracks.holds now seen, held, stored]
  rfl

theorem Tracks.consumed (tracks : Tracks c env past s) {text : JsString} {bucket : Bucket} {now i : Nat}
    (stored : s.tokensBySession.get y.sessionId = some bucket) (seen : SeenBy env s.readings now)
    (shown : env.clock i = .time now) (readings : s.readings ≤ i) (later : i < s'.readings) (pattern : tokenPattern text)
    {key : JsString} {record : TokenRecord}
    (found : matching (removeExpired bucket now) (digestToken env text) = some (key, record))
    (leaves : Leaves s s' y.sessionId (OrderedMap.delete (removeExpired bucket now) key))
    (free : CollisionFree env.host texts) (known : ∀ t ∈ text :: tokens past, t ∈ texts) :
    Tracks c env (.consumed y.sessionId text :: past) s' := by
  have checked := tracks.checked stored seen
  have same (z : Entry JsString) (h : z ∈ kept c.maxOutstandingTokens y.sessionId past)
      (digests : digestToken env z.token = digestToken env text) : z.token = text :=
    digest_injective free (known _ (List.mem_cons_of_mem _ (kept_tokens h))) (known _ List.mem_cons_self)
      (tracks.patterns _ (kept_tokens h)) pattern digests
  obtain ⟨inside, digests⟩ := mem_of_matching found
  rw [← List.mem_reverse, checked] at inside
  obtain ⟨z, hz, row⟩ := List.mem_map.mp inside
  have zKept := (Tokens.mem_unexpired.mp hz).1
  obtain ⟨rfl, rfl⟩ := Prod.mk.inj row
  have zText := same z zKept digests
  have only : ∀ z' ∈ kept c.maxOutstandingTokens y.sessionId past,
      (!decide ((rowOf env z').1 = base64Url (digestToken env z.token))) = decide (z'.token ≠ text) := by
    intro z' h
    rw [← decide_not, decide_eq_decide]
    apply not_congr
    constructor
    · intro keys
      exact same z' h ((base64Url_injective keys).trans digests)
    · rintro rfl
      rw [zText]
      rfl
  constructor
  · refine ⟨?_, tracks.orderly⟩
    rw [← zText]
    exact kept_tokens zKept
  · intro w h
    obtain ⟨j, hj, shown'⟩ := tracks.seen w h
    exact ⟨j, by omega, shown'⟩
  · exact tracks.patterns
  · intro t seen' id
    rw [leaves]
    split
    · rename_i own
      subst own
      show inTime t ((removeExpired bucket now).rows.filter fun r => !decide (r.1 = _)).reverse = _
      rw [← List.filter_reverse, checked, List.filter_map, inTime_rowOf, kept, if_pos rfl]
      congr 1
      rw [Tokens.unexpired_filter, Tokens.unexpired_filter, Tokens.unexpired_unexpired (seen' i later now shown)]
      apply List.filter_congr
      intro w h
      exact only w (Tokens.mem_unexpired.mp h).1
    · rename_i other
      rw [kept, if_neg other]
      exact tracks.holds t (seen'.mono (by omega)) id
  · intro id
    rw [leaves]
    split
    · have held : held s.tokensBySession y.sessionId = bucket.rows := by rw [held, stored]; rfl
      have bound := tracks.bounded y.sessionId
      have fewer := List.length_filter_le (fun row : JsString × TokenRecord => decide (now < row.2.expiresAt)) bucket.rows
      rw [← inTime, ← removeExpired_rows] at fewer
      rw [held] at bound
      exact Nat.le_trans (List.length_filter_le _ _) (Nat.le_trans fewer bound)
    · exact tracks.bounded id

theorem Tracks.revoked (tracks : Tracks c env past s) (sessionId : JsString) :
    Tracks c env (.revoked sessionId :: past) { s with tokensBySession := s.tokensBySession.delete sessionId } := by
  constructor
  · exact tracks.orderly
  · exact tracks.seen
  · exact tracks.patterns
  · intro t seen id
    rw [held_delete, kept]
    by_cases same : id = sessionId
    · rw [if_pos same, if_pos same.symm]
      rfl
    · rw [if_neg same, if_neg (Ne.symm same)]
      exact tracks.holds t seen id
  · intro id
    rw [held_delete]
    split
    · exact Nat.zero_le _
    · exact tracks.bounded id

theorem perform_past (c : CsrfManager) (env : Ambient) (w : World) (call : Call) :
    ∃ later, (perform c env w call).past = later ++ w.past := by
  cases call with
  | issue session => exact ⟨_, rfl⟩
  | validate session token consume => exact ⟨_, rfl⟩
  | revokeSession sessionId => exact ⟨_, rfl⟩
  | purgeExpired => exact ⟨[], rfl⟩
  | elsewhere rest => exact ⟨[], rfl⟩

theorem tokens_append (later past : List (Event JsString JsString)) : tokens (later ++ past) = tokens later ++ tokens past := by
  rw [tokens, Tokens.entries_append, List.map_append]
  rfl

/-- Each call keeps the buckets with the history. -/
theorem Tracks.perform (rising : env.Rising) {w : World} (tracks : Tracks c env w.past w.state) (call : Call)
    (free : CollisionFree env.host texts) (distinct : (tokens (perform c env w call).past).Nodup)
    (known : ∀ t ∈ tokens (perform c env w call).past, t ∈ texts) (shows : ∀ t ∈ presented [call], t ∈ texts) :
    Tracks c env (Csrf.perform c env w call).past (Csrf.perform c env w call).state := by
  cases call with
  | issue session =>
    have spec : Issues c env w.state session (issue c env session w.state).1 (issue c env session w.state).2 := issue_spec
    simp only [Csrf.perform] at distinct known ⊢
    revert distinct known spec
    rcases issue c env session w.state with ⟨r, s'⟩
    intro distinct known spec
    cases spec with
    | failed e _ untouched => exact tracks.untouched untouched
    | issued x i _ shown later readings expires pattern leaves =>
      exact tracks.issued rising shown later readings pattern leaves free known (List.nodup_cons.mp distinct).1
  | validate session token consume =>
    have spec : Validates env w.state session token consume (validate env session token consume w.state).1
      (validate env session token consume w.state).2 := validate_spec token consume
    simp only [Csrf.perform] at distinct known ⊢
    revert distinct known spec
    rcases validate env session token consume w.state with ⟨r, s'⟩
    intro distinct known spec
    have later : w.state.readings ≤ (active env session w.state).2.readings := (active_keeps env _ _).2
    cases spec with
    | refused e _ unchecked untouched => exact tracks.untouched untouched
    | unmatched text bucket now _ e checks none readings leaves =>
      apply tracks.expire (by omega)
      intro id
      rw [leaves]
      split
      · rename_i same
        right
        refine ⟨now, ⟨_, readings, checks.shown⟩, ?_⟩
        rw [removeExpired_rows, held, ← same, checks.stored]
        rfl
      · exact .inl rfl
    | matched text bucket now _ key record checks found readings leaves =>
      have seen := (rising.seenBy checks.shown).mono later
      cases consume with
      | true =>
        obtain ⟨_, rfl, pattern, stored, shown⟩ := checks
        apply tracks.consumed stored seen shown later readings pattern found leaves free
        intro t h
        rcases List.mem_cons.mp h with rfl | h
        · exact shows t List.mem_cons_self
        · exact known t h
      | false =>
        apply tracks.expire (by omega)
        intro id
        rw [leaves]
        split
        · rename_i same
          right
          refine ⟨now, ⟨_, readings, checks.shown⟩, ?_⟩
          rw [← same, held, checks.stored]
          exact removeExpired_rows bucket now
        · exact .inl rfl
  | revokeSession sessionId =>
    simp only [Csrf.perform]
    unfold revokeSession revoking
    cases sessionIdPattern sessionId with
    | true => exact tracks.revoked sessionId
    | false => exact tracks
  | purgeExpired =>
    simp only [Csrf.perform]
    have spec := purgeExpired_spec env w.state
    rcases spec with untouched | ⟨now, shown, readings, left⟩
    · exact tracks.untouched untouched
    · apply tracks.expire
      · rw [readings]
        exact Nat.le_succ _
      · intro id
        right
        exact ⟨now, ⟨_, by rw [readings]; exact Nat.lt_succ_self _, shown⟩, left id⟩
  | elsewhere rest => exact tracks.expire (Nat.le_max_left _ _) fun id => .inl rfl

theorem presented_cons (call : Call) (calls : List Call) : presented (call :: calls) = presented [call] ++ presented calls := by
  cases call with
  | validate session token consume => cases token <;> rfl
  | _ => rfl

theorem run_tracks (rising : env.Rising) {start : SecurityState} (empty : start.tokensBySession = Table.empty)
    (calls : List Call) (free : CollisionFree env.host texts) (distinct : (tokens (run c env start calls).past).Nodup)
    (known : ∀ t ∈ tokens (run c env start calls).past, t ∈ texts) (shows : ∀ t ∈ presented calls, t ∈ texts) :
    Tracks c env (run c env start calls).past (run c env start calls).state := by
  induction calls with
  | nil =>
    have none (id : JsString) : held (run c env start []).state.tokensBySession id = [] := by
      show held start.tokensBySession id = []
      rw [empty]
      rfl
    constructor
    · exact trivial
    · exact fun _ h => absurd h List.not_mem_nil
    · exact fun _ h => absurd h List.not_mem_nil
    · intro t _ id
      rw [none]
      rfl
    · intro id
      rw [none]
      exact Nat.zero_le _
  | cons call earlier ih =>
    obtain ⟨later, grown⟩ := perform_past c env (run c env start earlier) call
    have split : tokens (run c env start (call :: earlier)).past =
        tokens later ++ tokens (run c env start earlier).past := by
      rw [run, grown, tokens_append]
    rw [presented_cons] at shows
    have before := ih (List.nodup_append.mp (split ▸ distinct)).2.1
      (fun t h => known t (split ▸ List.mem_append_right _ h)) fun t h => shows t (List.mem_append_right _ h)
    exact before.perform rising call free distinct known fun t h => shows t (List.mem_append_left _ h)

/-- A token validates just where it is kept and in time. -/
theorem Tracks.validates_iff (rising : env.Rising) (tracks : Tracks c env past s) (token : JsValue) (consume : Bool)
    (free : CollisionFree env.host texts) (known : ∀ t ∈ tokens past, t ∈ texts)
    (shows : ∀ text, token = .string text → text ∈ texts) :
    (validate env y token consume s).1 = .ok () ↔ ∃ text now, token = .string text ∧ (active env y s).1 = .ok true ∧
      env.clock (active env y s).2.readings = .time now ∧ Outstanding c.maxOutstandingTokens past y.sessionId text now := by
  have later : s.readings ≤ (active env y s).2.readings := (active_keeps env _ _).2
  have outstanding {now : Nat} {text : JsString} (shown : env.clock (active env y s).2.readings = .time now) :
      Outstanding c.maxOutstandingTokens past y.sessionId text now ↔
        ∃ x ∈ unexpired now (kept c.maxOutstandingTokens y.sessionId past), x.token = text := by
    apply Tokens.outstanding_iff tracks.orderly
    intro x h
    obtain ⟨i, hi, shown'⟩ := tracks.seen x ((Tokens.issuedTo_sublist _ _).subset h)
    exact (rising.seenBy shown).mono later i hi _ shown'
  constructor
  · intro valid
    have spec : Validates env s y token consume _ _ := validate_spec token consume
    rw [valid] at spec
    cases spec with
    | matched text bucket now _ key record checks found readings leaves =>
      refine ⟨text, now, checks.named, checks.active, checks.shown, (outstanding checks.shown).mpr ?_⟩
      obtain ⟨inside, digests⟩ := mem_of_matching found
      rw [← List.mem_reverse, tracks.checked checks.stored ((rising.seenBy checks.shown).mono later)] at inside
      obtain ⟨z, hz, row⟩ := List.mem_map.mp inside
      obtain ⟨rfl, rfl⟩ := Prod.mk.inj row
      have old := kept_tokens (Tokens.mem_unexpired.mp hz).1
      exact ⟨z, hz, digest_injective free (known _ old) (shows _ checks.named) (tracks.patterns _ old) checks.pattern digests⟩
  · rintro ⟨text, now, named, activity, shown, out⟩
    obtain ⟨x, hx, rfl⟩ := (outstanding shown).mp out
    have seen := (rising.seenBy shown).mono later
    have inside : rowOf env x ∈ inTime now (held s.tokensBySession y.sessionId).reverse := by
      rw [tracks.holds now seen]
      exact List.mem_map_of_mem hx
    cases stored : s.tokensBySession.get y.sessionId with
    | none =>
      rw [held, stored] at inside
      cases inside
    | some bucket =>
      have pattern := tracks.patterns _ (kept_tokens (Tokens.mem_unexpired.mp hx).1)
      have checks : Checks env s y token x.token bucket now := ⟨activity, named, pattern, stored, shown⟩
      have spec : Validates env s y token consume _ _ := validate_spec token consume
      revert spec
      rcases validate env y token consume s with ⟨r, s'⟩
      intro spec
      cases spec with
      | refused e _ unchecked untouched => exact absurd checks (unchecked _ _ _)
      | unmatched text bucket' now' _ e checks' none readings leaves =>
        cases checks.named.symm.trans checks'.named
        cases checks.stored.symm.trans checks'.stored
        cases checks.shown.symm.trans checks'.shown
        rw [matching_eq, tracks.checked stored seen, List.find?_eq_none] at none
        exact absurd (beq_self_eq_true _) (none _ (List.mem_map_of_mem hx))
      | matched => rfl

end

/-- In every run under a clock that does not run backwards, with tokens that are
drawn apart and no collision of SHA-256: a token validates exactly for an active
session to which it is outstanding; a session's latest `maxOutstandingTokens`
tokens are displaced by none; and no session holds more of them. -/
theorem tokens_validate (c : CsrfManager) (env : Ambient) (rising : env.Rising) (start : SecurityState)
    (empty : start.tokensBySession = Table.empty) (calls : List Call) (y : WebSession) (token : JsValue) (consume : Bool)
    (distinct : (tokens (run c env start calls).past).Nodup)
    (free : CollisionFree env.host
      (tokens (run c env start calls).past ++ presented (.validate y token consume :: calls))) :
    let w := run c env start calls
    ((validate env y token consume w.state).1 = .ok () ↔
      ∃ text now, token = .string text ∧ (active env y w.state).1 = .ok true ∧
        env.clock (active env y w.state).2.readings = .time now ∧
        Outstanding c.maxOutstandingTokens w.past y.sessionId text now) ∧
    (∀ later x earlier now, w.past = later ++ .issued y.sessionId x :: earlier → token = .string x.token →
      (issuedTo y.sessionId later).length < c.maxOutstandingTokens → .consumed y.sessionId x.token ∉ later →
      .revoked y.sessionId ∉ later → (active env y w.state).1 = .ok true →
      env.clock (active env y w.state).2.readings = .time now → now < x.expiresAt →
        (validate env y token consume w.state).1 = .ok ()) ∧
    ∀ id bucket, w.state.tokensBySession.get id = some bucket → bucket.size ≤ c.maxOutstandingTokens := by
  intro w
  have known : ∀ t ∈ tokens w.past, t ∈ tokens w.past ++ presented (.validate y token consume :: calls) :=
    fun t h => List.mem_append_left _ h
  have shows : ∀ t ∈ presented (.validate y token consume :: calls),
      t ∈ tokens w.past ++ presented (.validate y token consume :: calls) := fun t h => List.mem_append_right _ h
  have tracks : Tracks c env w.past w.state := by
    apply run_tracks rising empty calls free distinct known
    intro t h
    apply shows
    rw [presented_cons]
    exact List.mem_append_right _ h
  have validates := tracks.validates_iff (y := y) rising token consume free known (by
    rintro text rfl
    exact shows _ List.mem_cons_self)
  refine ⟨validates, ?_, ?_⟩
  · intro later x earlier now past named few unconsumed unrevoked activity shown soon
    apply validates.mpr
    exact ⟨x.token, now, named, activity, shown, later, x, earlier, past, rfl, soon, unconsumed, unrevoked,
      Tokens.not_displaced few⟩
  · intro id bucket stored
    have bound := tracks.bounded id
    rw [held, stored] at bound
    exact bound

def twoTokens : CsrfManager := ⟨900000, 2, by decide, by decide⟩

/-- The session that is created with the first draw. -/
def firstSession : WebSession :=
  ⟨idOf 0, js "alice", ⟨js "example", js "example.test", some (js "alice"), .user⟩, 0, 0, 3600000⟩

def firstSignedIn : SecurityState :=
  ⟨(trace hourly ticking [.createSession alice]).2, Table.empty, Table.empty⟩

/-- Four tokens where two are kept; the third is used up before the fourth is issued. -/
def issuedAndUsed : List Call :=
  [.issue firstSession, .validate firstSession (.string (idOf 3)) true, .issue firstSession, .issue firstSession,
    .issue firstSession]

/-- The second token is outstanding, the first displaced and the third used up. -/
theorem tokens_validate_issued :
    let w := run twoTokens ticking firstSignedIn issuedAndUsed
    ((validate ticking firstSession (.string (idOf 2)) true w.state).1 = .ok () ↔
      ∃ text now, JsValue.string (idOf 2) = .string text ∧ (active ticking firstSession w.state).1 = .ok true ∧
        ticking.clock (active ticking firstSession w.state).2.readings = .time now ∧
        Outstanding 2 w.past (idOf 0) text now) ∧
    (validate ticking firstSession (.string (idOf 2)) true w.state).1 = .ok () ∧
    (validate ticking firstSession (.string (idOf 1)) true w.state).1 ≠ .ok () ∧
    (validate ticking firstSession (.string (idOf 3)) true w.state).1 ≠ .ok () := by
  have distinct : (tokens (run twoTokens ticking firstSignedIn issuedAndUsed).past).Nodup := by decide +kernel
  have free : CollisionFree ticking.host (tokens (run twoTokens ticking firstSignedIn issuedAndUsed).past ++
      presented (.validate firstSession (.string (idOf 2)) true :: issuedAndUsed)) := by
    unfold CollisionFree
    decide +kernel
  refine ⟨(tokens_validate twoTokens ticking ticking_rising firstSignedIn rfl issuedAndUsed firstSession
    (.string (idOf 2)) true distinct free).1, ?_, ?_, ?_⟩
  · decide +kernel
  · decide +kernel
  · decide +kernel

/-- Tokens that have been used up displace none: the first outlives three later ones where two are kept. -/
theorem token_outlives_later :
    let w := run twoTokens ticking firstSignedIn [.issue firstSession, .validate firstSession (.string (idOf 3)) true,
      .issue firstSession, .validate firstSession (.string (idOf 2)) true, .issue firstSession, .issue firstSession]
    (issuedTo (idOf 0) w.past).map (·.token) = [idOf 4, idOf 3, idOf 2, idOf 1] ∧
      (validate ticking firstSession (.string (idOf 1)) true w.state).1 = .ok () := by
  constructor
  · decide +kernel
  · decide +kernel

end Csrf

end GuloGulo.Web.Security
