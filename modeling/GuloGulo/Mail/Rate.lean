import GuloGulo.Mail.Policy

/-!
# The submission rate

Windows of a minute per user, over whole runs of the methods that read the
clock. A run records its admissions: which user's submission was authorised,
in which window and when.
-/

namespace GuloGulo.Mail
open Js Data Integrations

variable (host : Host) (policy : MailPolicy) (clock : Nat → Reading)

/-- Every call gives a date, or throws, and the dates do not go back. -/
structure NonDecreasing (clock : Nat → Reading) : Prop where
  valid : ∀ i, clock i ≠ .invalid
  mono : ∀ i j s t, i ≤ j → clock i = .time s → clock j = .time t → s ≤ t

/-! ## One consumption -/

/-- What a granted consumption does: it opens a window, or counts in the
current one. -/
inductive Granted (key : JsString) (s : PolicyState) : PolicyState → Prop where
  | opened (now : Option Int)
      (read : (clock s.readings = .invalid ∧ now = none) ∨ ∃ t, clock s.readings = .time t ∧ now = some t)
      (expired : ∀ current, s.windows.get key = some current → windowOver now current.startedAt = true) :
      Granted key s ⟨s.windows.set key ⟨now, 1⟩, s.readings + 1⟩
  | counted (now : Option Int) (current : SubmissionWindow)
      (read : (clock s.readings = .invalid ∧ now = none) ∨ ∃ t, clock s.readings = .time t ∧ now = some t)
      (found : s.windows.get key = some current)
      (within : windowOver now current.startedAt = false)
      (free : current.count < policy.maxMessagesPerUserPerMinute) :
      Granted key s ⟨s.windows.set key ⟨current.startedAt, current.count + 1⟩, s.readings + 1⟩

/-- A call that does not grant leaves the windows alone. -/
structure Refused (s s' : PolicyState) : Prop where
  windows : s'.windows = s.windows
  readings : s.readings ≤ s'.readings

variable {host policy clock} {s s' : PolicyState}

variable (clock) in
theorem now_cases (s : PolicyState) :
    (now clock s = (.error .foreign, { s with readings := s.readings + 1 })) ∨
      ∃ read, now clock s = (.ok read, { s with readings := s.readings + 1 }) ∧
        ((clock s.readings = .invalid ∧ read = none) ∨
          ∃ t, clock s.readings = .time t ∧ read = some t) := by
  have unfolded : now clock s = ((clock s.readings).date, { s with readings := s.readings + 1 }) := rfl
  rw [unfolded]
  cases clock s.readings with
  | throws => exact .inl rfl
  | invalid => exact .inr ⟨none, rfl, .inl ⟨rfl, rfl⟩⟩
  | time t => exact .inr ⟨some t, rfl, .inr ⟨t, rfl, rfl⟩⟩

variable (policy clock) in
theorem consumeSubmissionRate_spec (userId : JsValue) (s : PolicyState) :
    Eff.wp (consumeSubmissionRate policy clock userId) s fun r s' =>
      (∃ key decision, r = .ok decision ∧ userId = .string key ∧ decision.allowed = true ∧
        Granted policy clock key s s') ∨
      (Refused s s' ∧ ∀ decision, r = .ok decision → decision.allowed = false) := by
  unfold consumeSubmissionRate
  refine Eff.wp_lift_bind.mpr ⟨?_, ?_⟩
  · rintro e he
    exact .inr ⟨⟨rfl, Nat.le_refl _⟩, nofun⟩
  · intro key hkey
    obtain ⟨rfl, _⟩ := requiredString_eq_ok.mp hkey
    rcases now_cases clock s with throws | ⟨read, hread, value⟩
    · rw [Eff.wp_bind_eq throws]
      exact .inr ⟨⟨rfl, Nat.le_succ _⟩, nofun⟩
    · rw [Eff.wp_bind_eq hread]
      dsimp only
      rw [Eff.wp_get_bind]
      cases found : s.windows.get key with
      | none =>
        refine .inl ⟨key, _, rfl, rfl, rfl, ?_⟩
        exact .opened read value fun current hc => by rw [found] at hc; cases hc
      | some current =>
        dsimp only
        split
        · rename_i expired
          refine .inl ⟨key, _, rfl, rfl, rfl, ?_⟩
          exact .opened read value fun own hc => by rw [found] at hc; cases hc; exact expired
        · rename_i within
          split
          · refine .inr ⟨⟨rfl, Nat.le_succ _⟩, fun decision h => ?_⟩
            cases h
            rfl
          · rename_i free
            refine .inl ⟨key, _, rfl, rfl, rfl, ?_⟩
            exact .counted read current value found (by simpa using within) (by omega)

variable (host policy clock) in
theorem authorizeSubmission_spec (context : JsValue) (options : MailEnvelopeOptions) (s : PolicyState) :
    Eff.wp (authorizeSubmission host policy clock context options) s fun r s' =>
      (∃ a, r = .ok a ∧ checkSubmission host policy context options = .ok a ∧
        Granted policy clock a.authenticatedUserId s s') ∨
      (Refused s s' ∧ ∃ e, r = .error e) := by
  refine Eff.wp_lift_bind.mpr ⟨?_, ?_⟩
  · intro e _
    exact .inr ⟨⟨rfl, Nat.le_refl _⟩, e, rfl⟩
  · intro a checked
    rw [Eff.wp_bind]
    apply Eff.wp_mono (consumeSubmissionRate_spec policy clock _ s)
    rintro r s' (⟨key, decision, rfl, same, allowed, granted⟩ | ⟨refused, notAllowed⟩)
    · cases same
      refine Eff.wp_lift_bind.mpr ⟨?_, ?_⟩
      · intro e he
        rw [allowed] at he
        cases he
      · intro _ _
        exact .inl ⟨a, rfl, checked, granted⟩
    · cases r with
      | error e => exact .inr ⟨refused, e, rfl⟩
      | ok decision =>
        refine Eff.wp_lift_bind.mpr ⟨?_, ?_⟩
        · intro e _
          exact .inr ⟨refused, e, rfl⟩
        · intro _ ok
          rw [notAllowed decision rfl] at ok
          cases ok

theorem audit_spec (eventType context result reason details : JsValue) (s : PolicyState) :
    Eff.wp (audit host clock eventType context result reason details) s fun _ s' => Refused s s' := by
  have same : Refused s s := ⟨rfl, Nat.le_refl _⟩
  have read : Refused s { s with readings := s.readings + 1 } := ⟨rfl, Nat.le_succ _⟩
  refine Eff.wp_lift_bind.mpr ⟨fun _ _ => same, fun canonical _ => ?_⟩
  refine Eff.wp_lift_bind.mpr ⟨fun _ _ => same, fun eventType _ => ?_⟩
  refine Eff.wp_lift_bind.mpr ⟨fun _ _ => same, fun result _ => ?_⟩
  rcases now_cases clock s with throws | ⟨value, hread, _⟩
  · rw [Eff.wp_bind_eq throws]
    exact read
  · rw [Eff.wp_bind_eq hread]
    refine Eff.wp_lift_bind.mpr ⟨fun _ _ => read, fun text _ => read⟩

/-! ## Runs -/

/-- The methods of the policy that change its state. -/
inductive PolicyCall where
  | submission (context : JsValue) (options : MailEnvelopeOptions)
  | consume (userId : JsValue)
  | audit (eventType context result reason details : JsValue)

/-- A submission that was authorised: whose it was, in which window it counts
and when the clock was read for it. -/
structure Admission where
  userId : JsString
  window : Option Int
  time : Option Int

section
variable (host policy clock)

def PolicyCall.step (s : PolicyState) : PolicyCall → Option Admission × PolicyState
  | .submission context options =>
    match authorizeSubmission host policy clock context options s with
    | (.ok a, s') =>
      (some ⟨a.authenticatedUserId, (s'.windows.get a.authenticatedUserId).bind (·.startedAt),
        (clock s.readings).value?⟩, s')
    | (.error _, s') => (none, s')
  | .consume userId => (none, (consumeSubmissionRate policy clock userId s).2)
  | .audit eventType context result reason details =>
    (none, (Mail.audit host clock eventType context result reason details s).2)

def runPolicy : List PolicyCall → PolicyState → List Admission × PolicyState
  | [], s => ([], s)
  | call :: calls, s =>
    let (admitted, s') := call.step host policy clock s
    let (later, s'') := runPolicy calls s'
    (admitted.toList ++ later, s'')

end

/-- The admissions of a user in one window. -/
def tally (past : List Admission) (userId : JsString) (w : Int) : Nat :=
  past.countP fun a => a.userId = userId ∧ a.window = some w

theorem tally_append (past : List Admission) (a : Admission) (userId : JsString) (w : Int) :
    tally (past ++ [a]) userId w =
      tally past userId w + if a.userId = userId ∧ a.window = some w then 1 else 0 := by
  simp [tally, List.countP_append, List.countP_singleton]

variable (policy clock) in
structure RateInvariant (past : List Admission) (s : PolicyState) : Prop where
  bounded : ∀ userId w, tally past userId w ≤ policy.maxMessagesPerUserPerMinute
  current : ∀ userId window, s.windows.get userId = some window → ∃ w,
    window.startedAt = some w ∧ tally past userId w ≤ window.count ∧ ∃ i < s.readings, clock i = .time w
  admitted : ∀ a ∈ past, ∃ w t, a.window = some w ∧ a.time = some t ∧ w ≤ t ∧ t < w + 60000
  latest : ∀ a ∈ past, ∃ w v count, a.window = some w ∧
    s.windows.get a.userId = some ⟨some v, count⟩ ∧ (w = v ∨ w + 60000 ≤ v)
  apart : ∀ a ∈ past, ∀ b ∈ past, a.userId = b.userId → ∀ v w, a.window = some v →
    b.window = some w → v < w → v + 60000 ≤ w

variable (policy clock) in
theorem rateInvariant_initial : RateInvariant policy clock [] .initial where
  bounded _ _ := Nat.zero_le _
  current _ _ h := nomatch h
  admitted := by simp
  latest := by simp
  apart := by simp

theorem rateInvariant_refused {past : List Admission} (inv : RateInvariant policy clock past s)
    (h : Refused s s') : RateInvariant policy clock past s' where
  bounded := inv.bounded
  current userId window found := by
    rw [h.windows] at found
    obtain ⟨w, start, count, i, before, value⟩ := inv.current userId window found
    exact ⟨w, start, count, i, Nat.lt_of_lt_of_le before h.readings, value⟩
  admitted := inv.admitted
  latest := by rw [h.windows]; exact inv.latest
  apart := inv.apart

variable (policy clock) in
/-- A granted consumption at `t` counts in the window `w`, as its `count`th. -/
structure Counts (past : List Admission) (s : PolicyState) (key : JsString) (t w : Int) (count : Nat) :
    Prop where
  read : clock s.readings = .time t
  tally : tally past key w + 1 ≤ count
  bound : count ≤ policy.maxMessagesPerUserPerMinute
  after : w ≤ t
  within : t < w + 60000
  earlier : ∀ a ∈ past, a.userId = key → ∃ v, a.window = some v ∧ (v = w ∨ v + 60000 ≤ w)
  start : ∃ i ≤ s.readings, clock i = .time w

theorem granted_counts {past : List Admission} (order : NonDecreasing clock)
    (inv : RateInvariant policy clock past s) {key : JsString} (h : Granted policy clock key s s') :
    ∃ t w count, Counts policy clock past s key t w count ∧
      s' = ⟨s.windows.set key ⟨some w, count⟩, s.readings + 1⟩ := by
  cases h with
  | opened now read expired =>
    rcases read with ⟨invalid, _⟩ | ⟨t, read, rfl⟩
    · exact absurd invalid (order.valid _)
    have earlier : ∀ a ∈ past, a.userId = key → ∃ v, a.window = some v ∧ v + 60000 ≤ t := by
      rintro a mem rfl
      obtain ⟨w, v, count, window, found, order⟩ := inv.latest a mem
      have done := expired _ found
      simp only [windowOver, decide_eq_true_eq] at done
      exact ⟨w, window, by omega⟩
    have none : tally past key t = 0 := by
      rw [tally, List.countP_eq_zero]
      intro a mem
      simp only [decide_eq_true_eq, not_and]
      intro user window
      obtain ⟨v, own, before⟩ := earlier a mem user
      rw [window] at own
      cases own
      omega
    refine ⟨t, t, 1, ⟨read, by omega, policy.ratePositive, by omega, by omega, ?_, ?_⟩, rfl⟩
    · intro a mem user
      obtain ⟨v, own, before⟩ := earlier a mem user
      exact ⟨v, own, .inr before⟩
    · exact ⟨s.readings, Nat.le_refl _, read⟩
  | counted now current read found within free =>
    rcases read with ⟨invalid, _⟩ | ⟨t, read, rfl⟩
    · exact absurd invalid (order.valid _)
    obtain ⟨w, start, count, i, before, value⟩ := inv.current key current found
    rw [start] at within ⊢
    simp only [windowOver, decide_eq_false_iff_not] at within
    have after : w ≤ t := order.mono i _ w t (Nat.le_of_lt before) value read
    refine ⟨t, w, current.count + 1, ⟨read, by omega, free, after, by omega, ?_, ?_⟩, rfl⟩
    · rintro a mem rfl
      obtain ⟨u, v, c, window, latest, order⟩ := inv.latest a mem
      rw [found] at latest
      cases latest
      cases start
      exact ⟨u, window, order⟩
    · exact ⟨i, Nat.le_of_lt before, value⟩

/-- The invariant survives a grant, recorded as an admission or not. -/
theorem rateInvariant_counts {past : List Admission} (inv : RateInvariant policy clock past s)
    {key : JsString} {t w : Int} {count : Nat} (h : Counts policy clock past s key t w count) :
    RateInvariant policy clock past ⟨s.windows.set key ⟨some w, count⟩, s.readings + 1⟩ where
  bounded := inv.bounded
  current userId window found := by
    rw [OrderedMap.get_set] at found
    split at found
    · rename_i same
      subst same
      cases found
      obtain ⟨i, before, value⟩ := h.start
      have room := h.tally
      exact ⟨w, rfl, Nat.le_of_succ_le room, i, Nat.lt_succ_of_le before, value⟩
    · obtain ⟨v, start, room, i, before, value⟩ := inv.current userId window found
      exact ⟨v, start, room, i, Nat.lt_succ_of_lt before, value⟩
  admitted := inv.admitted
  latest a mem := by
    obtain ⟨v, latest, c, window, found, order⟩ := inv.latest a mem
    by_cases same : key = a.userId
    · obtain ⟨u, own, order⟩ := h.earlier a mem same.symm
      exact ⟨u, w, count, own, by rw [OrderedMap.get_set, if_pos same], order⟩
    · exact ⟨v, latest, c, window, by rw [OrderedMap.get_set, if_neg same]; exact found, order⟩
  apart := inv.apart

theorem rateInvariant_admission {past : List Admission} (inv : RateInvariant policy clock past s)
    {key : JsString} {t w : Int} {count : Nat} (h : Counts policy clock past s key t w count) :
    RateInvariant policy clock (past ++ [⟨key, some w, some t⟩])
      ⟨s.windows.set key ⟨some w, count⟩, s.readings + 1⟩ := by
  have kept := rateInvariant_counts inv h
  have room := h.tally
  have bound := h.bound
  constructor
  · intro userId v
    rw [tally_append]
    split
    · rename_i own
      obtain ⟨rfl, rfl⟩ : key = userId ∧ w = v := by simpa using own
      omega
    · exact inv.bounded userId v
  · intro userId window found
    obtain ⟨v, start, old, i, before, value⟩ := kept.current userId window found
    refine ⟨v, start, ?_, i, before, value⟩
    rw [tally_append]
    split
    · rename_i own
      obtain ⟨rfl, rfl⟩ : key = userId ∧ w = v := by simpa using own
      rw [OrderedMap.get_set, if_pos rfl] at found
      cases found
      exact room
    · exact old
  · intro a mem
    rcases List.mem_append.mp mem with mem | mem
    · exact inv.admitted a mem
    · rw [List.mem_singleton.mp mem]
      exact ⟨w, t, rfl, rfl, h.after, h.within⟩
  · intro a mem
    rcases List.mem_append.mp mem with mem | mem
    · exact kept.latest a mem
    · rw [List.mem_singleton.mp mem]
      exact ⟨w, w, count, rfl, by rw [OrderedMap.get_set, if_pos rfl], .inl rfl⟩
  · -- The new admission stands in the window it counts in, and the others of the user before it.
    have newest {a : Admission} (mem : a ∈ past) (user : a.userId = key) {v : Int}
        (window : a.window = some v) : v = w ∨ v + 60000 ≤ w := by
      obtain ⟨u, own, order⟩ := h.earlier a mem user
      rw [own] at window
      cases window
      exact order
    intro a memA b memB user v u windowA windowB less
    rcases List.mem_append.mp memA with memA | memA <;> rcases List.mem_append.mp memB with memB | memB
    · exact inv.apart a memA b memB user v u windowA windowB less
    · rw [List.mem_singleton.mp memB] at user windowB
      cases windowB
      have := newest memA user windowA
      omega
    · rw [List.mem_singleton.mp memA] at user windowA
      cases windowA
      have := newest memB user.symm windowB
      omega
    · rw [List.mem_singleton.mp memA] at windowA
      rw [List.mem_singleton.mp memB] at windowB
      cases windowA
      cases windowB
      omega

variable (host) in
theorem rateInvariant_step {past : List Admission} (order : NonDecreasing clock)
    (inv : RateInvariant policy clock past s) (call : PolicyCall) :
    RateInvariant policy clock (past ++ (call.step host policy clock s).1.toList)
      (call.step host policy clock s).2 := by
  cases call with
  | submission context options =>
    have spec := authorizeSubmission_spec host policy clock context options s
    unfold Eff.wp at spec
    rcases outcome : authorizeSubmission host policy clock context options s with ⟨r, s'⟩
    rw [outcome] at spec
    simp only [PolicyCall.step, outcome]
    rcases spec with ⟨a, rfl, _, granted⟩ | ⟨refused, e, rfl⟩
    · obtain ⟨t, w, count, counts, rfl⟩ := granted_counts order inv granted
      dsimp only
      rw [OrderedMap.get_set, if_pos rfl, counts.read]
      exact rateInvariant_admission inv counts
    · rw [Option.toList_none, List.append_nil]
      exact rateInvariant_refused inv refused
  | consume userId =>
    have spec := consumeSubmissionRate_spec policy clock userId s
    unfold Eff.wp at spec
    rw [PolicyCall.step, Option.toList_none, List.append_nil]
    rcases spec with ⟨key, decision, _, _, _, granted⟩ | ⟨refused, _⟩
    · obtain ⟨t, w, count, counts, after⟩ := granted_counts order inv granted
      dsimp only
      rw [after]
      exact rateInvariant_counts inv counts
    · exact rateInvariant_refused inv refused
  | audit eventType context result reason details =>
    rw [PolicyCall.step, Option.toList_none, List.append_nil]
    exact rateInvariant_refused inv (audit_spec eventType context result reason details s)

variable (host) in
theorem rateInvariant_run {past : List Admission} (order : NonDecreasing clock) (calls : List PolicyCall)
    (inv : RateInvariant policy clock past s) :
    RateInvariant policy clock (past ++ (runPolicy host policy clock calls s).1)
      (runPolicy host policy clock calls s).2 := by
  induction calls generalizing past s with
  | nil => rw [runPolicy, List.append_nil]; exact inv
  | cons call calls ih =>
    have next := ih (rateInvariant_step host order inv call)
    rw [List.append_assoc] at next
    exact next

end GuloGulo.Mail
