import GuloGulo.Abuse.Limiter
import GuloGulo.Data.Window
import GuloGulo.Js.Sha256
import Mathlib.Data.List.Nodup

/-!
# Runs of the rate limiter

What one call of `consume` does to the buckets, and from it what the allowed
requests of one subject add up to in a window. The bucket of a subject is its
window as long as the capacity limit leaves it.
-/

namespace GuloGulo.Abuse
open Js Data

/-! ## Keys -/

theorem channelName_plain (c : AbuseChannel) : 58 ∉ js c.name := by cases c <;> decide

theorem dimensionName_plain (d : Dimension) : 58 ∉ js d.name := by cases d <;> decide

theorem channelName_injective {c c' : AbuseChannel} (h : js c.name = js c'.name) : c = c' := by
  cases c <;> cases c' <;> first | rfl | exact absurd h (by decide)

theorem dimensionName_injective {d d' : Dimension} (h : js d.name = js d'.name) : d = d' := by
  cases d <;> cases d' <;> first | rfl | exact absurd h (by decide)

theorem bucketKey_injective {c c' : AbuseChannel} {d d' : Dimension} {x x' : JsString}
    (h : bucketKey c d x = bucketKey c' d' x') : c = c' ∧ d = d' ∧ x = x' := by
  obtain ⟨hc, h⟩ := append_separator_injective (channelName_plain c) (channelName_plain c') h
  obtain ⟨hd, hx⟩ := append_separator_injective (dimensionName_plain d) (dimensionName_plain d') h
  exact ⟨channelName_injective hc, dimensionName_injective hd, hx⟩

/-! ## One call -/

/-- The digest of a subject that passes the check. -/
def subjectDigest (host : Host) (dimension : Dimension) (subject : JsString) : JsString :=
  hex (host.sha256 (utf8 (js dimension.name ++ [0] ++ subject)))

theorem assertString_eq {name : String} {pattern : JsString → Bool} {maximum : Nat} {text s : JsString}
    (h : assertString (.string text) name pattern maximum = .ok s) : s = text := by
  simp only [assertString] at h
  split at h
  · cases h
  · cases h
    rfl

theorem digestSubject_eq_ok {host : Host} {dimension : Dimension} {subject digest : JsString}
    (h : digestSubject host dimension.name (.string subject) = .ok digest) :
    digest = subjectDigest host dimension subject := by
  obtain ⟨value, checked, h⟩ := bind_eq_ok.mp h
  cases h
  rw [assertString_eq checked]
  rfl

theorem subjectDigests_spec {host : Host} {identity : RateIdentity} {digests : List (Dimension × JsString)}
    (h : subjectDigests host identity = .ok digests) :
    (digests.map Prod.fst).Nodup ∧ ∀ d x, (d, x) ∈ digests ↔
      ∃ subject, identityForDimension identity d = some subject ∧ x = subjectDigest host d subject := by
  obtain ⟨firsts, images⟩ := mapM_pairs h
  have named (d : Dimension) (x : JsString) (hx : (d, x) ∈ digests) :
      ∃ subject, identityForDimension identity d = some subject ∧ x = subjectDigest host d subject := by
    have inside : d ∈ digests.map Prod.fst := List.mem_map.mpr ⟨_, hx, rfl⟩
    rw [firsts, List.mem_filter] at inside
    obtain ⟨subject, present⟩ := Option.isSome_iff_exists.mp inside.2
    have image := images _ hx
    simp only [present, Option.map_some, Option.getD_some] at image
    exact ⟨subject, present, digestSubject_eq_ok image⟩
  refine ⟨?_, fun d x => ⟨named d x, ?_⟩⟩
  · rw [firsts]
    exact List.Nodup.sublist List.filter_sublist (by decide)
  · rintro ⟨subject, present, rfl⟩
    have inside : d ∈ digests.map Prod.fst := by
      rw [firsts, List.mem_filter, present]
      exact ⟨by cases d <;> decide, rfl⟩
    obtain ⟨⟨d', x⟩, hx, rfl⟩ := List.mem_map.mp inside
    obtain ⟨subject', present', rfl⟩ := named _ _ hx
    cases present.symm.trans present'
    exact hx

/-! ## Charging -/

theorem get_charge_other {cost : Nat} {observations : List Observation} {key : JsString}
    (h : ∀ o ∈ observations, o.key ≠ key) (buckets : Buckets) :
    (charge cost buckets observations).get key = buckets.get key := by
  induction observations generalizing buckets with
  | nil => rfl
  | cons o rest ih =>
    rw [List.forall_mem_cons] at h
    show (charge cost (buckets.set o.key (o.charged cost)) rest).get key = _
    rw [ih h.2, OrderedMap.get_set, if_neg h.1]

theorem get_charge {cost : Nat} {observations : List Observation} (distinct : (observations.map fun o => o.key).Nodup)
    {o : Observation} (h : o ∈ observations) (buckets : Buckets) :
    (charge cost buckets observations).get o.key = some (o.charged cost) := by
  induction observations generalizing buckets with
  | nil => cases h
  | cons first rest ih =>
    rw [List.map_cons, List.nodup_cons] at distinct
    show (charge cost (buckets.set first.key (first.charged cost)) rest).get o.key = _
    rcases List.mem_cons.mp h with rfl | h
    · have others : ∀ p ∈ rest, p.key ≠ o.key := fun p hp same => distinct.1 (List.mem_map.mpr ⟨p, hp, same⟩)
      rw [get_charge_other others, OrderedMap.get_set, if_pos rfl]
    · exact ih distinct.2 h _

/-- What a call observes. -/
def observations (limiter : RateLimiter) (request : RateRequest) (buckets : Buckets)
    (digests : List (Dimension × JsString)) : List Observation :=
  digests.map fun p => observe limiter request buckets p.1 p.2

variable {host : Host} {limiter : RateLimiter} {request : RateRequest} {buckets : Buckets}
  {digests : List (Dimension × JsString)}

theorem observations_distinct (h : (digests.map Prod.fst).Nodup) :
    ((observations limiter request buckets digests).map fun o => o.key).Nodup := by
  rw [observations, List.map_map]
  rw [List.nodup_iff_pairwise_ne, List.pairwise_map] at h ⊢
  exact h.imp fun different same => different (bucketKey_injective same).2.1

/-- The buckets after a request has been counted, before the oldest go. -/
def counted (request : RateRequest) (observations : List Observation) (buckets : Buckets) : Buckets :=
  if (limitedBy observations).isEmpty then charge request.cost buckets observations else buckets

theorem settle_eq (os : List Observation) :
    settle limiter request os buckets = prune limiter (counted request os buckets) := rfl

theorem size_settle (os : List Observation) : (settle limiter request os buckets).size ≤ limiter.maxBuckets := by
  rw [settle_eq, prune, OrderedMap.size_dropOldest]
  omega

theorem settle_refused {os : List Observation} (refused : (limitedBy os).isEmpty = false)
    (small : buckets.size ≤ limiter.maxBuckets) : settle limiter request os buckets = buckets := by
  rw [settle_eq, counted, refused, if_neg Bool.false_ne_true, prune, Nat.sub_eq_zero_of_le small,
    OrderedMap.dropOldest_zero]

theorem limitedBy_isEmpty {os : List Observation} : (limitedBy os).isEmpty ↔ ∀ o ∈ os, o.limited = false := by
  rw [List.isEmpty_iff, limitedBy, List.map_eq_nil_iff, List.filter_eq_nil_iff]
  simp

/-- How a call ends: it has done nothing, or it has settled what it observed. -/
def Settled (host : Host) (limiter : RateLimiter) (input : RateInput) (clock : Answer) (buckets : Buckets)
    (outcome : Except (Thrown AbuseError) RateDecision) (after : Buckets) : Prop :=
  ∃ request digests, readRequest host input clock = .ok request ∧ subjectDigests host request.identity = .ok digests ∧
    after = settle limiter request (observations limiter request buckets digests) buckets ∧
    match timeText (resetTime request.timestamp (observations limiter request buckets digests)) with
    | .ok _ => ∃ d, outcome = .ok d ∧ d.allowed = (limitedBy (observations limiter request buckets digests)).isEmpty
    | .error e => outcome = .error e

theorem consume_settled {input : RateInput} {clock : Answer} (read : readRequest host input clock = .ok request)
    (hdigests : subjectDigests host request.identity = .ok digests) (buckets : Buckets) :
    Eff.wp (consume host limiter input clock) buckets (Settled host limiter input clock buckets) := by
  rw [consume, read, Eff.lift_ok_bind, consumeRequest, hdigests, Eff.check_ok_bind, Eff.wp_get_bind, Eff.wp_modify_bind]
  apply Eff.wp_lift_bind.mpr
  constructor
  · intro e he
    refine ⟨request, digests, read, hdigests, rfl, ?_⟩
    rw [observations, he]
  · intro text htext
    rw [Eff.wp_get_bind, Eff.wp_pure]
    refine ⟨request, digests, read, hdigests, rfl, ?_⟩
    rw [observations, htext]
    exact ⟨_, rfl, rfl⟩

theorem consume_cases (host : Host) (limiter : RateLimiter) (input : RateInput) (clock : Answer) (buckets : Buckets) :
    Eff.wp (consume host limiter input clock) buckets fun outcome after =>
      ((∃ e, outcome = .error e) ∧ after = buckets) ∨ Settled host limiter input clock buckets outcome after := by
  cases read : readRequest host input clock with
  | error e =>
    rw [consume, read]
    exact .inl ⟨⟨e, rfl⟩, rfl⟩
  | ok request =>
    cases hdigests : subjectDigests host request.identity with
    | error e =>
      rw [consume, read, Eff.lift_ok_bind, consumeRequest, hdigests]
      exact .inl ⟨⟨_, rfl⟩, rfl⟩
    | ok digests => exact .inr (consume_settled read hdigests buckets)

/-! ## Runs -/

/-- A call of `consume` and how it ended. -/
structure RateEvent where
  input : RateInput
  clock : Answer
  outcome : Except (Thrown AbuseError) RateDecision

structure RateState where
  buckets : Buckets
  /-- The last time that was read. -/
  now : Int

/-- Calls one after another, each at a time that is not before the last. -/
def rateMachine (host : Host) (limiter : RateLimiter) : Machine RateState RateEvent where
  Start s := s.buckets = Table.empty
  Step s e s' :=
    consume host limiter e.input e.clock s.buckets = (e.outcome, s'.buckets) ∧
      match readRequest host e.input e.clock with
      | .ok request => s.now ≤ request.timestamp ∧ s'.now = request.timestamp
      | .error _ => s'.now = s.now

theorem step_cases {s s' : RateState} {e : RateEvent} (step : (rateMachine host limiter).Step s e s') :
    ((∃ error, e.outcome = .error error) ∧ s'.buckets = s.buckets) ∨
      Settled host limiter e.input e.clock s.buckets e.outcome s'.buckets := by
  have cases := consume_cases host limiter e.input e.clock s.buckets
  rw [Eff.wp, step.1] at cases
  exact cases

def RateEvent.Refused (e : RateEvent) : Prop := ∃ d, e.outcome = .ok d ∧ d.allowed = false

/-- A channel, a dimension and a subject of that dimension. -/
structure RateSubject where
  channel : AbuseChannel
  dimension : Dimension
  subject : JsString

namespace RateSubject

def rule (x : RateSubject) (limiter : RateLimiter) : RateRule := (limiter.limits x.channel).rule x.dimension

def key (x : RateSubject) (host : Host) : JsString :=
  bucketKey x.channel x.dimension (subjectDigest host x.dimension x.subject)

def Named (x : RateSubject) (request : RateRequest) : Prop :=
  request.channel = x.channel ∧ identityForDimension request.identity x.dimension = some x.subject

instance (x : RateSubject) (request : RateRequest) : Decidable (x.Named request) :=
  inferInstanceAs (Decidable (_ ∧ _))

/-- When a call was allowed the subject what. -/
def allowedCost (x : RateSubject) (host : Host) (e : RateEvent) : Option (Int × Nat) :=
  match readRequest host e.input e.clock, e.outcome with
  | .ok request, .ok decision =>
    if decision.allowed ∧ x.Named request then some (request.timestamp, request.cost) else none
  | _, _ => none

/-- The last window of the subject, and what has been allowed in it. -/
def window (x : RateSubject) (host : Host) (limiter : RateLimiter) (past : List RateEvent) : Option Window :=
  Window.last (x.rule limiter).windowMs (past.filterMap (x.allowedCost host))

/-- A call leaves the subject its bucket. -/
structure Retained (x : RateSubject) (host : Host) (limiter : RateLimiter) (s : RateState) (request : RateRequest)
    (digests : List (Dimension × JsString)) : Prop where
  /-- A day before the last time that a date holds. -/
  early : request.timestamp + msPerDay ≤ maxTime
  /-- No other subject has its digest. -/
  distinct : ∀ other, identityForDimension request.identity x.dimension = some other →
    subjectDigest host x.dimension other = subjectDigest host x.dimension x.subject → other = x.subject
  /-- The capacity limit does not take it while its window is running. -/
  kept : ∀ b, (counted request (observations limiter request s.buckets digests) s.buckets).get (x.key host) = some b →
    request.timestamp - b.startedAt < (x.rule limiter).windowMs →
    (settle limiter request (observations limiter request s.buckets digests) s.buckets).get (x.key host) = some b

def Keeps (x : RateSubject) (host : Host) (limiter : RateLimiter) (s : RateState) (e : RateEvent) : Prop :=
  ∀ request digests, readRequest host e.input e.clock = .ok request →
    subjectDigests host request.identity = .ok digests → x.Retained host limiter s request digests

/-- The bucket of the subject is its window. -/
structure Bounded (x : RateSubject) (host : Host) (limiter : RateLimiter) (past : List RateEvent) (s : RateState) :
    Prop where
  started : ∀ key b, s.buckets.get key = some b → b.startedAt ≤ s.now
  bucket : ∀ b, s.buckets.get (x.key host) = some b → x.window host limiter past = some ⟨b.startedAt, b.count⟩
  gone : ∀ w, x.window host limiter past = some w → s.buckets.get (x.key host) = none →
    ¬ w.Running (x.rule limiter).windowMs s.now
  bound : ∀ w, x.window host limiter past = some w → w.total ≤ (x.rule limiter).max

end RateSubject

theorem assertDate_eq_ok {value : JsValue} {name : String} {t : Int} (h : assertDate host value name = .ok t) :
    newDate host value = some t := by
  cases value with
  | date | string | number | nonFinite =>
    unfold assertDate at h
    dsimp only at h
    split at h
    · rename_i date
      cases h
      exact date
    · cases h
  | undefined | null | bool | array | object | other => cases h

theorem timestamp_range {input : RateInput} {clock : Answer} (h : readRequest host input clock = .ok request) :
    -maxTime ≤ request.timestamp := by
  obtain ⟨_, _, h⟩ := bind_eq_ok.mp h
  obtain ⟨_, _, h⟩ := bind_eq_ok.mp h
  obtain ⟨_, _, h⟩ := bind_eq_ok.mp h
  obtain ⟨t, ht, h⟩ := bind_eq_ok.mp h
  cases h
  unfold nowMilliseconds at ht
  split at ht
  · split at ht
    · cases ht
    · exact (newDate_range (assertDate_eq_ok (mapError_eq_ok.mp ht))).1
  · exact (newDate_range (assertDate_eq_ok (mapError_eq_ok.mp ht))).1

theorem currentBucket_started {key : JsString} {windowMs : Nat} {t : Int}
    (h : ∀ b, buckets.get key = some b → b.startedAt ≤ t) : (currentBucket buckets key windowMs t).startedAt ≤ t := by
  unfold currentBucket
  split
  · rename_i b hb
    split
    · exact h b hb
    · exact Int.le_refl t
  · exact Int.le_refl t

theorem le_foldl_max {xs : List Int} {t : Int} : t ≤ xs.foldl max t := by
  induction xs generalizing t with
  | nil => exact Int.le_refl t
  | cons x xs ih => exact Int.le_trans (Int.le_max_left t x) ih

theorem foldl_max_le {xs : List Int} {t u : Int} (ht : t ≤ u) (h : ∀ x ∈ xs, x ≤ u) : xs.foldl max t ≤ u := by
  induction xs generalizing t with
  | nil => exact ht
  | cons x xs ih =>
    rw [List.forall_mem_cons] at h
    exact ih (Int.max_le.mpr ⟨ht, h.1⟩) h.2

/-- A day before the end of time, the end of every window has a text. -/
theorem timeText_resetTime {t : Int} {os : List Observation} (low : -maxTime ≤ t) (early : t + msPerDay ≤ maxTime)
    (h : ∀ o ∈ os, o.bucket.startedAt ≤ t) : ∃ text, timeText (resetTime t os) = .ok text := by
  have after : t ≤ resetTime t os := le_foldl_max
  have before : resetTime t os ≤ t + msPerDay := by
    apply foldl_max_le
    · unfold msPerDay
      omega
    · intro x hx
      obtain ⟨o, ho, rfl⟩ := List.mem_map.mp hx
      have started := h o ho
      have short := o.rule.window_bounds.2
      unfold msPerDay
      omega
  rw [timeText, timeClip, if_pos ⟨by omega, by omega⟩]
  exact ⟨_, rfl⟩

theorem observations_started {now : Int} (h : ∀ key b, buckets.get key = some b → b.startedAt ≤ now)
    (later : now ≤ request.timestamp) : ∀ o ∈ observations limiter request buckets digests,
      o.bucket.startedAt ≤ request.timestamp := by
  intro o ho
  obtain ⟨p, _, rfl⟩ := List.mem_map.mp ho
  exact currentBucket_started fun b hb => Int.le_trans (h _ b hb) later

/-- Every bucket was there or is one that was observed. -/
theorem get_counted {os : List Observation} (distinct : (os.map fun o => o.key).Nodup) {key : JsString} {b : Bucket}
    (h : (counted request os buckets).get key = some b) :
    buckets.get key = some b ∨ ∃ o ∈ os, o.key = key ∧ b = o.charged request.cost := by
  unfold counted at h
  split at h
  · by_cases found : ∃ o ∈ os, o.key = key
    · obtain ⟨o, ho, rfl⟩ := found
      rw [get_charge distinct ho, Option.some.injEq] at h
      exact .inr ⟨o, ho, rfl, h.symm⟩
    · rw [get_charge_other fun o ho same => found ⟨o, ho, same⟩] at h
      exact .inl h
  · exact .inl h

namespace RateSubject

variable {x : RateSubject}

/-- The observation of a subject that a request names. -/
theorem observed (buckets : Buckets) (named : x.Named request) (h : subjectDigests host request.identity = .ok digests) :
    ∃ o ∈ observations limiter request buckets digests, o.key = x.key host ∧ o.rule = x.rule limiter ∧
      o.bucket = currentBucket buckets (x.key host) (x.rule limiter).windowMs request.timestamp ∧
      o.limited = decide ((x.rule limiter).max < o.bucket.count + request.cost) := by
  obtain ⟨channel, subject⟩ := named
  have inside : (x.dimension, subjectDigest host x.dimension x.subject) ∈ digests :=
    ((subjectDigests_spec h).2 _ _).mpr ⟨_, subject, rfl⟩
  refine ⟨_, List.mem_map.mpr ⟨_, inside, rfl⟩, ?_⟩
  simp only [observe, key, rule, channel, and_self]

/-- Only a request that names the subject observes its bucket. -/
theorem named_of_observed (h : subjectDigests host request.identity = .ok digests)
    (distinct : ∀ other, identityForDimension request.identity x.dimension = some other →
      subjectDigest host x.dimension other = subjectDigest host x.dimension x.subject → other = x.subject)
    {o : Observation} (ho : o ∈ observations limiter request buckets digests) (same : o.key = x.key host) :
    x.Named request := by
  obtain ⟨⟨d, digest⟩, inside, rfl⟩ := List.mem_map.mp ho
  obtain ⟨channel, rfl, digests⟩ := bucketKey_injective same
  obtain ⟨other, present, rfl⟩ := ((subjectDigests_spec h).2 _ _).mp inside
  exact ⟨channel, by rw [present, distinct other present digests]⟩

/-- The bucket that a request finds is the window that is running then. -/
theorem currentBucket_eq {past : List RateEvent} {s : RateState} (h : x.Bounded host limiter past s) {t : Int}
    (later : s.now ≤ t) :
    Window.current (x.rule limiter).windowMs (x.window host limiter past) t =
      ⟨(currentBucket s.buckets (x.key host) (x.rule limiter).windowMs t).startedAt,
        (currentBucket s.buckets (x.key host) (x.rule limiter).windowMs t).count⟩ := by
  unfold currentBucket
  cases found : s.buckets.get (x.key host) with
  | some b =>
    rw [h.bucket b found]
    by_cases running : t - b.startedAt < (x.rule limiter).windowMs
    · rw [Window.current_of_running (show Window.Running _ ⟨b.startedAt, b.count⟩ t from running)]
      simp only [if_pos running]
    · rw [Window.current_of_elapsed (show ¬ Window.Running _ ⟨b.startedAt, b.count⟩ t from running)]
      simp only [if_neg running]
  | none =>
    cases counted : x.window host limiter past with
    | none => rfl
    | some w => exact Window.current_of_elapsed (Window.not_running_mono (h.gone w counted found) later)

theorem window_same {e : RateEvent} {past : List RateEvent} (h : x.allowedCost host e = none) :
    x.window host limiter (e :: past) = x.window host limiter past := by
  rw [window, List.filterMap_cons, h, window]

theorem window_allowed {e : RateEvent} {past : List RateEvent} {t : Int} {n : Nat}
    (h : x.allowedCost host e = some (t, n)) : x.window host limiter (e :: past) =
      some ((Window.current (x.rule limiter).windowMs (x.window host limiter past) t).add n) := by
  rw [window, List.filterMap_cons, h, Window.last, window]

attribute [local simp] allowedCost in
theorem allowedCost_of_not_named {e : RateEvent} (read : readRequest host e.input e.clock = .ok request)
    (h : ¬ x.Named request) : x.allowedCost host e = none := by
  unfold allowedCost
  rw [read]
  split
  · rename_i same _
    cases same
    exact if_neg fun both => h both.2
  · rfl

/-- A call that has not been allowed and changes no counter. -/
theorem Bounded.unchanged {past : List RateEvent} {s s' : RateState} {e : RateEvent} (h : x.Bounded host limiter past s)
    (same : s'.buckets = s.buckets) (later : s.now ≤ s'.now) (none : x.allowedCost host e = none) :
    x.Bounded host limiter (e :: past) s' where
  started key b hb := Int.le_trans (h.started key b (same ▸ hb)) later
  bucket b hb := by
    rw [window_same none]
    exact h.bucket b (same ▸ hb)
  gone w hw absent := Window.not_running_mono (h.gone w (window_same none ▸ hw) (same ▸ absent)) later
  bound w hw := h.bound w (window_same none ▸ hw)

/-- A call that has settled: what is so before the oldest buckets go stays so. -/
theorem bounded_settled {past : List RateEvent} {s s' : RateState}
    (retained : x.Retained host limiter s request digests)
    (after : s'.buckets = settle limiter request (observations limiter request s.buckets digests) s.buckets)
    (now : s'.now = request.timestamp)
    (h : x.Bounded host limiter past
      ⟨counted request (observations limiter request s.buckets digests) s.buckets, request.timestamp⟩) :
    x.Bounded host limiter past s' where
  started key b hb := by
    rw [after, settle_eq] at hb
    rw [now]
    exact h.started key b (OrderedMap.get_dropOldest_some hb)
  bucket b hb := by
    rw [after, settle_eq] at hb
    exact h.bucket b (OrderedMap.get_dropOldest_some hb)
  gone w hw absent := by
    rw [now]
    cases found : (counted request (observations limiter request s.buckets digests) s.buckets).get (x.key host) with
    | none => exact h.gone w hw found
    | some b =>
      intro running
      rw [h.bucket b found, Option.some.injEq] at hw
      subst hw
      rw [after, retained.kept b found running] at absent
      cases absent
  bound w hw := h.bound w hw

/-- A call that counts nothing for the subject. -/
theorem Bounded.others {past : List RateEvent} {s : RateState} {e : RateEvent} (h : x.Bounded host limiter past s)
    (hdigests : subjectDigests host request.identity = .ok digests) (later : s.now ≤ request.timestamp)
    (none : x.allowedCost host e = none)
    (same : (counted request (observations limiter request s.buckets digests) s.buckets).get (x.key host) =
      s.buckets.get (x.key host)) :
    x.Bounded host limiter (e :: past)
      ⟨counted request (observations limiter request s.buckets digests) s.buckets, request.timestamp⟩ where
  started key b hb := by
    rcases get_counted (observations_distinct (subjectDigests_spec hdigests).1) hb with hb | ⟨o, ho, _, rfl⟩
    · exact Int.le_trans (h.started key b hb) later
    · exact observations_started h.started later o ho
  bucket b hb := by
    rw [window_same none]
    exact h.bucket b (same ▸ hb)
  gone w hw absent :=
    Window.not_running_mono (h.gone w (window_same none ▸ hw) (same ▸ absent)) later
  bound w hw := h.bound w (window_same none ▸ hw)

/-- A call that is allowed the subject its cost. -/
theorem Bounded.allowed {past : List RateEvent} {s : RateState} {e : RateEvent} (h : x.Bounded host limiter past s)
    (hdigests : subjectDigests host request.identity = .ok digests) (later : s.now ≤ request.timestamp)
    (named : x.Named request) (some : x.allowedCost host e = some (request.timestamp, request.cost))
    (free : (limitedBy (observations limiter request s.buckets digests)).isEmpty) :
    x.Bounded host limiter (e :: past)
      ⟨counted request (observations limiter request s.buckets digests) s.buckets, request.timestamp⟩ := by
  obtain ⟨o, ho, key, rule, bucket, limited⟩ := observed s.buckets named hdigests
  have distinct : ((observations limiter request s.buckets digests).map fun o => o.key).Nodup :=
    observations_distinct (subjectDigests_spec hdigests).1
  have charged : (counted request (observations limiter request s.buckets digests) s.buckets).get (x.key host) =
      Option.some (o.charged request.cost) := by
    rw [counted, if_pos free, ← key]
    exact get_charge distinct ho s.buckets
  have window : x.window host limiter (e :: past) =
      Option.some ⟨(o.charged request.cost).startedAt, (o.charged request.cost).count⟩ := by
    rw [window_allowed some, currentBucket_eq h later, ← bucket]
    rfl
  have fits : (o.charged request.cost).count ≤ (x.rule limiter).max := by
    rw [limitedBy_isEmpty.mp free o ho] at limited
    exact Nat.le_of_not_lt (of_decide_eq_false limited.symm)
  exact {
    started := fun key b hb => by
      rcases get_counted distinct hb with hb | ⟨o, ho, _, rfl⟩
      · exact Int.le_trans (h.started key b hb) later
      · exact observations_started h.started later o ho
    bucket := fun b hb => by
      rw [charged, Option.some.injEq] at hb
      rw [window, hb]
    gone := fun w _ absent => by
      rw [charged] at absent
      cases absent
    bound := fun w hw => by
      rw [window, Option.some.injEq] at hw
      rw [← hw]
      exact fits }

theorem allowedCost_of_error {e : RateEvent} (h : ∃ error, e.outcome = .error error) :
    x.allowedCost host e = none := by
  obtain ⟨error, h⟩ := h
  unfold allowedCost
  rw [h]
  split
  · rename_i same
    cases same
  · rfl

theorem allowedCost_of_ok {e : RateEvent} {d : RateDecision} (read : readRequest host e.input e.clock = .ok request)
    (ok : e.outcome = .ok d) :
    x.allowedCost host e = if d.allowed ∧ x.Named request then some (request.timestamp, request.cost) else none := by
  unfold allowedCost
  rw [read, ok]

/-- The three ways a call can settle for the subject. -/
theorem step_bounded {past : List RateEvent} {s s' : RateState} {e : RateEvent} (h : x.Bounded host limiter past s)
    (step : (rateMachine host limiter).Step s e s') (keeps : x.Keeps host limiter s e) :
    x.Bounded host limiter (e :: past) s' := by
  have clock := step.2
  rcases step_cases step with ⟨failed, same⟩ | ⟨request, digests, read, hdigests, after, decided⟩
  · have later : s.now ≤ s'.now := by
      split at clock
      · exact clock.2 ▸ clock.1
      · exact Int.le_of_eq clock.symm
    exact h.unchanged same later (allowedCost_of_error failed)
  · rw [read] at clock
    obtain ⟨later, now⟩ := clock
    have retained := keeps request digests read hdigests
    have started : ∀ o ∈ observations limiter request s.buckets digests, o.bucket.startedAt ≤ request.timestamp :=
      observations_started h.started later
    obtain ⟨text, htext⟩ := timeText_resetTime (timestamp_range read) retained.early started
    rw [htext] at decided
    obtain ⟨d, outcome, allowed⟩ := decided
    have cost := allowedCost_of_ok (x := x) read outcome
    apply bounded_settled retained after now
    by_cases free : (limitedBy (observations limiter request s.buckets digests)).isEmpty
    · by_cases named : x.Named request
      · rw [if_pos ⟨allowed.trans free, named⟩] at cost
        exact h.allowed hdigests later named cost free
      · rw [if_neg fun both => named both.2] at cost
        apply h.others hdigests later cost
        rw [counted, if_pos free]
        apply get_charge_other
        exact fun o ho same => named (named_of_observed hdigests retained.distinct ho same)
    · rw [if_neg fun both => free (allowed ▸ both.1)] at cost
      apply h.others hdigests later cost
      rw [counted, if_neg free]

theorem run_bounded {past : List RateEvent} {s : RateState}
    (run : ((rateMachine host limiter).restrict (x.Keeps host limiter)).Run past s) : x.Bounded host limiter past s := by
  induction run with
  | start empty =>
    have none (key : JsString) (b : Bucket) : ¬ OrderedMap.get (Table.empty : Buckets) key = some b := nofun
    exact {
      started := fun key b hb => absurd (empty ▸ hb) (none key b)
      bucket := fun b hb => absurd (empty ▸ hb) (none _ b)
      gone := nofun
      bound := nofun }
  | next _ step ih => exact step_bounded ih step.1 step.2

end RateSubject

theorem run_small {past : List RateEvent} {s : RateState} (run : (rateMachine host limiter).Run past s) :
    s.buckets.size ≤ limiter.maxBuckets := by
  induction run with
  | start empty =>
    rw [show _ = _ from empty]
    exact Nat.zero_le _
  | @next _ s s' e _ step ih =>
    rcases step_cases step with ⟨_, same⟩ | ⟨request, digests, _, _, after, _⟩
    · exact same ▸ ih
    · exact after ▸ size_settle _

theorem refused_unchanged {past : List RateEvent} {s s' : RateState} {e : RateEvent}
    (run : (rateMachine host limiter).Run past s) (step : (rateMachine host limiter).Step s e s') (refused : e.Refused) :
    s'.buckets = s.buckets := by
  obtain ⟨d, outcome, denied⟩ := refused
  rcases step_cases step with ⟨⟨error, failed⟩, _⟩ | ⟨request, digests, _, _, after, decided⟩
  · cases outcome.symm.trans failed
  · split at decided
    · obtain ⟨d', outcome', allowed⟩ := decided
      cases outcome.symm.trans outcome'
      rw [after]
      exact settle_refused (allowed.symm.trans denied) (run_small run)
    · cases outcome.symm.trans decided

/-- What is allowed a subject in a window stays within the rule, and a refused
request changes no counter. -/
theorem consume_bounded (host : Host) (limiter : RateLimiter) :
    (∀ (x : RateSubject) (past : List RateEvent) (s : RateState),
      ((rateMachine host limiter).restrict (x.Keeps host limiter)).Run past s →
        ∀ w, x.window host limiter past = some w → w.total ≤ (x.rule limiter).max) ∧
    ∀ (past : List RateEvent) (s : RateState) (e : RateEvent) (s' : RateState), (rateMachine host limiter).Run past s →
      (rateMachine host limiter).Step s e s' → e.Refused → s'.buckets = s.buckets :=
  ⟨fun _ _ _ run => (RateSubject.run_bounded run).bound, fun _ _ _ _ => refused_unchanged⟩

/-! ## More subjects than buckets -/

theorem subjectDigests_all {name : JsString} (h : ¬ (name.isEmpty ∨ 512 < name.length)) :
    subjectDigests host ⟨name, some name, some name⟩ =
      .ok (ABUSE_DIMENSIONS.map fun d => (d, subjectDigest host d name)) := by
  have digest (d : Dimension) : digestSubject host d.name (.string name) = .ok (subjectDigest host d name) := by
    simp only [digestSubject, assertString, anyText, Bool.not_true, Bool.false_eq_true, or_false, if_neg h]
    rfl
  simp only [subjectDigests, ABUSE_DIMENSIONS, List.filter, identityForDimension, Option.isSome_some, List.mapM_cons,
    List.mapM_nil, Option.map_some, Option.getD_some, digest]
  rfl

theorem keys_charge {cost : Nat} {os : List Observation} (distinct : (os.map fun o => o.key).Nodup)
    (fresh : ∀ o ∈ os, o.key ∉ buckets.keys) :
    (charge cost buckets os).keys = buckets.keys ++ os.map fun o => o.key := by
  induction os generalizing buckets with
  | nil => exact (List.append_nil _).symm
  | cons o rest ih =>
    rw [List.map_cons, List.nodup_cons] at distinct
    rw [List.forall_mem_cons] at fresh
    have set := OrderedMap.keys_set_fresh fresh.1 (o.charged cost)
    have later : ∀ p ∈ rest, p.key ∉ (buckets.set o.key (o.charged cost)).keys := by
      intro p hp
      rw [set, List.mem_append, List.mem_singleton, not_or]
      exact ⟨fresh.2 p hp, fun same => distinct.1 (List.mem_map.mpr ⟨p, hp, same⟩)⟩
    show (charge cost (buckets.set o.key (o.charged cost)) rest).keys = _
    rw [ih distinct.2 later, set, List.append_assoc, List.map_cons, List.singleton_append]

/-- The keys of a request for one name in all its dimensions. -/
def nameKeys (host : Host) (channel : AbuseChannel) (name : JsString) : List JsString :=
  ABUSE_DIMENSIONS.map fun d => bucketKey channel d (subjectDigest host d name)

/-- A request of subjects that have no buckets is allowed; theirs become the
last. -/
theorem fresh_allowed {input : RateInput} {clock : Answer} {channel : AbuseChannel} {name : JsString} {cost : Nat} {t : Int}
    (text : ¬ (name.isEmpty ∨ 512 < name.length))
    (read : readRequest host input clock = .ok ⟨channel, ⟨name, some name, some name⟩, cost, t⟩)
    (early : t + msPerDay ≤ maxTime) (fits : ∀ d, cost ≤ ((limiter.limits channel).rule d).max)
    (fresh : ∀ k ∈ nameKeys host channel name, k ∉ buckets.keys) :
    Eff.wp (consume host limiter input clock) buckets fun outcome after => (∃ d, outcome = .ok d ∧ d.allowed = true) ∧
      after.keys = (buckets.keys ++ nameKeys host channel name).drop
        ((buckets.keys ++ nameKeys host channel name).length - limiter.maxBuckets) := by
  have hdigests : subjectDigests host ⟨name, some name, some name⟩ = _ := subjectDigests_all text
  apply Eff.wp_mono (consume_settled read hdigests buckets)
  rintro outcome after ⟨request, digests, read', hdigests', rfl, decided⟩
  cases read.symm.trans read'
  cases hdigests.symm.trans hdigests'
  generalize hos : observations limiter _ buckets (ABUSE_DIMENSIONS.map fun d => (d, subjectDigest host d name)) = os
    at decided ⊢
  have keys : os.map (fun o => o.key) = nameKeys host channel name := by
    rw [← hos]
    rfl
  have distinct : (os.map fun o => o.key).Nodup := by
    rw [← hos]
    exact observations_distinct (subjectDigests_spec hdigests).1
  have starts : ∀ o ∈ os, o.bucket = ⟨t, 0⟩ ∧ o.limited = false := by
    rw [← hos]
    intro o ho
    obtain ⟨p, hp, rfl⟩ := List.mem_map.mp ho
    obtain ⟨d, hd, rfl⟩ := List.mem_map.mp hp
    have none := OrderedMap.get_eq_none_of_keys (fresh _ (List.mem_map.mpr ⟨d, hd, rfl⟩))
    have bucket : currentBucket buckets (bucketKey channel d (subjectDigest host d name))
        ((limiter.limits channel).rule d).windowMs t = ⟨t, 0⟩ := by
      rw [currentBucket, none]
    simp only [observe, bucket, Nat.zero_add, decide_eq_false_iff_not, Nat.not_lt, true_and]
    exact fits d
  have free := limitedBy_isEmpty.mpr fun o ho => (starts o ho).2
  have started : ∀ o ∈ os, o.bucket.startedAt ≤ t := fun o ho => Int.le_of_eq (congrArg Bucket.startedAt (starts o ho).1)
  obtain ⟨end', hend⟩ := timeText_resetTime (timestamp_range read) early started
  rw [hend] at decided
  obtain ⟨d, ok, allowed⟩ := decided
  refine ⟨⟨d, ok, allowed.trans free⟩, ?_⟩
  have charged : (charge cost buckets os).keys = buckets.keys ++ nameKeys host channel name := by
    rw [keys_charge distinct fun o ho => fresh _ (keys ▸ List.mem_map.mpr ⟨o, ho, rfl⟩), keys]
  rw [settle, if_pos free, prune, OrderedMap.dropOldest, OrderedMap.keys, List.map_drop, ← charged, OrderedMap.keys,
    List.length_map]
  rfl

/-- Items over a limit can go at once or bit by bit. -/
theorem drop_overflow {α : Type} (xs ys : List α) (n : Nat) :
    (xs.drop (xs.length - n) ++ ys).drop ((xs.drop (xs.length - n) ++ ys).length - n) =
      (xs ++ ys).drop ((xs ++ ys).length - n) := by
  have within : xs.length - n ≤ xs.length := Nat.sub_le _ _
  rw [← List.drop_append_of_le_length within, List.drop_drop, List.length_drop]
  congr 1
  simp only [List.length_append]
  omega

def sampleLimiter : RateLimiter := ⟨DEFAULT_RATE_LIMITS, 100, by decide⟩

/-- A request at time 0, of one name in all dimensions. -/
structure SampleCall where
  channel : AbuseChannel
  name : String
  cost : Nat

namespace SampleCall

def input (c : SampleCall) : RateInput :=
  ⟨.string (js c.channel.name), .string (js c.name), .string (js c.name), .string (js c.name), .number c.cost, .number 0⟩

def rateRequest (c : SampleCall) : RateRequest :=
  ⟨c.channel, ⟨js c.name, some (js c.name), some (js c.name)⟩, c.cost, 0⟩

/-- It is read as it stands, and fits into a new bucket. -/
structure Fine (c : SampleCall) : Prop where
  read : readRequest asciiHost c.input .threw = .ok c.rateRequest
  text : ¬ ((js c.name).isEmpty ∨ 512 < (js c.name).length)
  fits : ∀ d, c.cost ≤ ((DEFAULT_RATE_LIMITS c.channel).rule d).max

def keys (c : SampleCall) : List JsString := nameKeys asciiHost c.channel (js c.name)

/-- How the call ends. -/
def event (c : SampleCall) (buckets : Buckets) : RateEvent :=
  ⟨c.input, .threw, (consume asciiHost sampleLimiter c.input .threw buckets).1⟩

def after (c : SampleCall) (buckets : Buckets) : RateState :=
  ⟨(consume asciiHost sampleLimiter c.input .threw buckets).2, 0⟩

theorem made {c : SampleCall} (fine : c.Fine) {s : RateState} (now : s.now = 0) :
    (rateMachine asciiHost sampleLimiter).Step s (c.event s.buckets) (c.after s.buckets) := by
  refine ⟨(Prod.eta _).symm, ?_⟩
  rw [event, fine.read]
  exact ⟨Int.le_of_eq now, rfl⟩

theorem step {c : SampleCall} (fine : c.Fine) {s : RateState} (now : s.now = 0)
    (fresh : ∀ k ∈ c.keys, k ∉ s.buckets.keys) :
    ∃ e s', (rateMachine asciiHost sampleLimiter).Step s e s' ∧ s'.now = 0 ∧
      readRequest asciiHost e.input e.clock = .ok c.rateRequest ∧
      (∃ d, e.outcome = .ok d ∧ d.allowed = true) ∧
      s'.buckets.keys = (s.buckets.keys ++ c.keys).drop ((s.buckets.keys ++ c.keys).length - 100) := by
  have fits : ∀ d, c.cost ≤ ((sampleLimiter.limits c.channel).rule d).max := fine.fits
  obtain ⟨allowed, keys⟩ := fresh_allowed fine.text fine.read (by decide) fits fresh
  exact ⟨_, _, made fine now, rfl, fine.read, allowed, keys⟩

/-- Requests of other subjects, all of them new. -/
theorem flood {calls : List SampleCall} (fine : ∀ c ∈ calls, c.Fine) {x : RateSubject}
    (others : ∀ c ∈ calls, js c.name ≠ x.subject) {past : List RateEvent} {s : RateState}
    (run : (rateMachine asciiHost sampleLimiter).Run past s) (now : s.now = 0)
    (fresh : (s.buckets.keys ++ calls.flatMap keys).Nodup) :
    ∃ past' s', (rateMachine asciiHost sampleLimiter).Run past' s' ∧ s'.now = 0 ∧
      x.window asciiHost sampleLimiter past' = x.window asciiHost sampleLimiter past ∧
      (calls = [] ∧ s'.buckets.keys = s.buckets.keys ∨ s'.buckets.keys = (s.buckets.keys ++ calls.flatMap keys).drop
        ((s.buckets.keys ++ calls.flatMap keys).length - 100)) := by
  induction calls generalizing past s with
  | nil => exact ⟨past, s, run, now, rfl, .inl ⟨rfl, rfl⟩⟩
  | cons c rest ih =>
    rw [List.forall_mem_cons] at fine others
    rw [List.flatMap_cons, ← List.append_assoc] at fresh
    have mine := (List.nodup_append.mp (List.nodup_append.mp fresh).1).2.2
    obtain ⟨e, s₁, step, now₁, read, _, keys₁⟩ := c.step fine.1 now
      fun k hk inside => mine k inside k hk rfl
    have unnamed : ¬ x.Named c.rateRequest := by
      rintro ⟨_, same⟩
      cases hd : x.dimension <;> rw [hd] at same <;> exact others.1 (Option.some.inj same)
    have left : (s₁.buckets.keys ++ rest.flatMap keys).Sublist (s.buckets.keys ++ c.keys ++ rest.flatMap keys) := by
      rw [keys₁]
      exact (List.drop_sublist _ _).append_right _
    obtain ⟨past', s', run', now', window, after⟩ := ih fine.2 others.2 (run.next step) now₁ (fresh.sublist left)
    refine ⟨past', s', run', now', window.trans (RateSubject.window_same ?_), .inr ?_⟩
    · exact RateSubject.allowedCost_of_not_named read unnamed
    · rw [List.flatMap_cons, ← List.append_assoc]
      rcases after with ⟨rfl, same⟩ | after
      · rw [same, keys₁, List.flatMap_nil, List.append_nil]
      · rw [after, keys₁, drop_overflow]

end SampleCall

/-- A name that is used up, and four that come after it on every channel. -/
def ownCall : SampleCall := ⟨.login, "e", 10⟩

def otherCalls : List SampleCall :=
  ABUSE_CHANNELS.flatMap fun channel => ["a", "b", "c", "d"].map fun name => ⟨channel, name, 1⟩

def ownSession : RateSubject := ⟨.login, .session, js "e"⟩

/-- What the keys are made of. -/
def sampleTriples : List (AbuseChannel × Dimension × String) :=
  (ownCall :: otherCalls).flatMap fun c => ABUSE_DIMENSIONS.map fun d => (c.channel, d, c.name)

/-- The requests are read as they stand, the names have different digests in
every dimension, and the second call of the first kind is refused. -/
theorem sampleValues :
    (readRequest asciiHost ownCall.input .threw = .ok ownCall.rateRequest ∧
      ∀ name ∈ ["a", "b", "c", "d"], ∀ channel ∈ ABUSE_CHANNELS, readRequest asciiHost
        (SampleCall.input ⟨channel, name, 1⟩) .threw = .ok (SampleCall.rateRequest ⟨channel, name, 1⟩)) ∧
    (∀ d ∈ ABUSE_DIMENSIONS, (["a", "b", "c", "d", "e"].map fun name =>
      (subjectDigest asciiHost d (js name)).take 4).Nodup) ∧
    (sampleTriples.Nodup ∧ ∀ t ∈ sampleTriples, t.2.2 ∈ ["a", "b", "c", "d", "e"]) ∧
    (OrderedMap.size (counted ownCall.rateRequest (observations sampleLimiter ownCall.rateRequest Table.empty
      (ABUSE_DIMENSIONS.map fun d => (d, subjectDigest asciiHost d (js ownCall.name)))) Table.empty) ≤
        sampleLimiter.maxBuckets ∧
      (ownCall.event (ownCall.after Table.empty).buckets).outcome.toOption.map RateDecision.allowed = some false) ∧
    ((∀ c ∈ otherCalls, js c.name ≠ ownSession.subject) ∧
      ownCall.keys.length ≤ (ownCall.keys ++ otherCalls.flatMap SampleCall.keys).length - 100) := by
  refine ⟨⟨?_, ?_⟩, ?_, ⟨?_, ?_⟩, ⟨?_, ?_⟩, ?_, ?_⟩
  all_goals decide +kernel

theorem ownCall_fine : ownCall.Fine where
  read := sampleValues.1.1
  text := by decide
  fits d := by cases d <;> decide

theorem otherCalls_fine : ∀ c ∈ otherCalls, c.Fine := by
  intro c hc
  obtain ⟨channel, _, hc⟩ := List.mem_flatMap.mp hc
  obtain ⟨name, hname, rfl⟩ := List.mem_map.mp hc
  have text : ∀ name ∈ ["a", "b", "c", "d"], ¬ ((js name).isEmpty ∨ 512 < (js name).length) := by decide
  exact {
    read := sampleValues.1.2 name hname channel (by cases channel <;> decide)
    text := text name hname
    fits := fun d => ((DEFAULT_RATE_LIMITS channel).rule d).max_bounds.1 }

theorem sampleKeys_eq : (ownCall :: otherCalls).flatMap SampleCall.keys = sampleTriples.map fun t =>
    bucketKey t.1 t.2.1 (subjectDigest asciiHost t.2.1 (js t.2.2)) := by
  rw [sampleTriples, List.map_flatMap]
  simp only [List.map_map]
  rfl

theorem sampleKeys_nodup : ((ownCall :: otherCalls).flatMap SampleCall.keys).Nodup := by
  obtain ⟨_, names, ⟨triples, named⟩, _⟩ := sampleValues
  rw [sampleKeys_eq]
  apply triples.map_on
  rintro ⟨channel, d, name⟩ h ⟨channel', d', name'⟩ h' same
  obtain ⟨rfl, rfl, digests⟩ := bucketKey_injective same
  have distinct := List.inj_on_of_nodup_map (names d (by cases d <;> decide))
  exact congrArg (fun n => (channel, d, n)) (distinct (named _ h) (named _ h') (congrArg (List.take 4) digests))

theorem ownCall_allowed {e : RateEvent} (read : readRequest asciiHost e.input e.clock = .ok ownCall.rateRequest)
    (allowed : ∃ d, e.outcome = .ok d ∧ d.allowed = true) : ownSession.allowedCost asciiHost e = some (0, 10) := by
  obtain ⟨d, ok, allowed⟩ := allowed
  rw [RateSubject.allowedCost_of_ok read ok]
  exact if_pos ⟨allowed, rfl, rfl⟩

theorem ownCall_kept : ownSession.Keeps asciiHost sampleLimiter ⟨Table.empty, 0⟩ (ownCall.event Table.empty) := by
  intro request digests read hdigests
  cases ownCall_fine.read.symm.trans read
  cases (subjectDigests_all ownCall_fine.text).symm.trans hdigests
  obtain ⟨_, _, _, ⟨small, _⟩, _⟩ := sampleValues
  exact {
    early := by decide
    distinct := fun other same _ => (Option.some.inj same).symm
    kept := fun b hb _ => by
      rw [settle_eq, prune, Nat.sub_eq_zero_of_le small, OrderedMap.dropOldest_zero]
      exact hb }

theorem ownCall_refused : (ownCall.event (ownCall.after Table.empty).buckets).Refused := by
  obtain ⟨_, _, _, ⟨_, refused⟩, _⟩ := sampleValues
  obtain ⟨d, ended, denied⟩ := Option.map_eq_some_iff.mp refused
  cases ok : (ownCall.event (ownCall.after Table.empty).buckets).outcome with
  | ok d' =>
    rw [ok] at ended
    cases ended
    exact ⟨d, ok, denied⟩
  | error e =>
    rw [ok] at ended
    cases ended

/-- A session that uses its window up, and is refused after that. -/
theorem consume_bounded_session : ∃ past s e s',
    ((rateMachine asciiHost sampleLimiter).restrict (ownSession.Keeps asciiHost sampleLimiter)).Run past s ∧
      (∀ w, ownSession.window asciiHost sampleLimiter past = some w → w.total ≤ (ownSession.rule sampleLimiter).max) ∧
      (rateMachine asciiHost sampleLimiter).Step s e s' ∧ e.Refused ∧ s'.buckets = s.buckets := by
  obtain ⟨bound, unchanged⟩ := consume_bounded asciiHost sampleLimiter
  have start : ((rateMachine asciiHost sampleLimiter).restrict (ownSession.Keeps asciiHost sampleLimiter)).Run []
      ⟨Table.empty, 0⟩ := .start rfl
  have first : ((rateMachine asciiHost sampleLimiter).restrict (ownSession.Keeps asciiHost sampleLimiter)).Step
      ⟨Table.empty, 0⟩ (ownCall.event Table.empty) (ownCall.after Table.empty) :=
    ⟨SampleCall.made ownCall_fine rfl, ownCall_kept⟩
  have run := start.next first
  have second := SampleCall.made ownCall_fine (s := ownCall.after Table.empty) rfl
  have same := unchanged _ _ _ _ run.unrestricted second ownCall_refused
  exact ⟨_, _, _, _, run, bound ownSession _ _ run, second, ownCall_refused, same⟩

/-- With a hundred buckets, the requests of others let a session have twice
what its rule allows. -/
theorem consume_evicted : ∃ (limiter : RateLimiter) (x : RateSubject) (past : List RateEvent) (s : RateState) (w : Window),
    (rateMachine asciiHost limiter).Run past s ∧ x.window asciiHost limiter past = some w ∧
      (x.rule limiter).max < w.total := by
  obtain ⟨_, _, _, _, others, many⟩ := sampleValues
  have fresh : ∀ k ∈ ownCall.keys, k ∉ OrderedMap.keys (Table.empty : Buckets) := fun _ _ => List.not_mem_nil
  obtain ⟨e₁, s₁, step₁, now₁, read₁, allowed₁, keys₁⟩ :=
    SampleCall.step (s := ⟨Table.empty, 0⟩) ownCall_fine rfl fresh
  have run₁ := (Machine.Run.start (show (rateMachine asciiHost sampleLimiter).Start ⟨Table.empty, 0⟩ from rfl)).next step₁
  have own : s₁.buckets.keys = ownCall.keys := keys₁
  have nodup := sampleKeys_nodup
  rw [List.flatMap_cons, ← own] at nodup
  obtain ⟨past₂, s₂, run₂, now₂, window₂, ⟨none, _⟩ | keys₂⟩ := SampleCall.flood otherCalls_fine (x := ownSession)
    others run₁ now₁ nodup
  · cases none
  have gone : ∀ k ∈ ownCall.keys, k ∉ s₂.buckets.keys := by
    intro k hk inside
    rw [keys₂, own, List.drop_append, List.drop_eq_nil_of_le many, List.nil_append] at inside
    exact (List.nodup_append.mp (own ▸ nodup)).2.2 k hk k (List.mem_of_mem_drop inside) rfl
  obtain ⟨e₃, s₃, step₃, now₃, read₃, allowed₃, _⟩ := SampleCall.step ownCall_fine now₂ gone
  refine ⟨sampleLimiter, ownSession, _, s₃, ⟨0, 20⟩, run₂.next step₃, ?_, by decide⟩
  rw [RateSubject.window_allowed (ownCall_allowed read₃ allowed₃), window₂,
    RateSubject.window_allowed (ownCall_allowed read₁ allowed₁)]
  rfl

end GuloGulo.Abuse
