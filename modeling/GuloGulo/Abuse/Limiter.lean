import GuloGulo.Data.Machine
import GuloGulo.Data.Table
import GuloGulo.Js.Date
import GuloGulo.Js.Effect

/-!
# The rate limiter

`createRateLimiter` of `core/ops/abuse/index.ts`. A request is counted in one
bucket for its tenant, one for its address and one for its session; the buckets
stand in the order they were first made in, and the oldest go when there are
too many.
-/

namespace GuloGulo.Abuse
open Js Data

structure AbuseError where
  message : String
  code : String
  deriving DecidableEq, Repr

def abuseError (message : String) (code : String := "ABUSE_CONTRACT_ERROR") : AbuseError :=
  ⟨s!"Abuse contract error: {message}", code⟩

inductive AbuseChannel where
  | http | api | mcp | login | recovery | backup | websocket | dav | smtp | imap
  deriving DecidableEq, Repr

namespace AbuseChannel

def name : AbuseChannel → String
  | http => "http"
  | api => "api"
  | mcp => "mcp"
  | login => "login"
  | recovery => "recovery"
  | backup => "backup"
  | websocket => "websocket"
  | dav => "dav"
  | smtp => "smtp"
  | imap => "imap"

end AbuseChannel

def ABUSE_CHANNELS : List AbuseChannel :=
  [.http, .api, .mcp, .login, .recovery, .backup, .websocket, .dav, .smtp, .imap]

inductive Dimension where
  | tenant | ip | session
  deriving DecidableEq, Repr

def Dimension.name : Dimension → String
  | tenant => "tenant"
  | ip => "ip"
  | session => "session"

def ABUSE_DIMENSIONS : List Dimension := [.tenant, .ip, .session]

def DEFAULT_MAX_BUCKETS : Nat := 20000

/-- `ID_PATTERN`. -/
def idPattern : JsString → Bool :=
  isName isAlnum (fun u => isAlnum u || u == 46 || u == 95 || u == 58 || u == 64 || u == 47 || u == 45) 127

def isPlainObject : JsValue → Bool
  | .object _ => true
  | _ => false

def assertPlainObject (value : JsValue) (name : String) : Except AbuseError Unit :=
  throwIf (!isPlainObject value) (abuseError s!"{name} must be an object" "INVALID_INPUT")

def assertString (value : JsValue) (name : String) (pattern : JsString → Bool) (maximum : Nat) :
    Except AbuseError JsString :=
  match value with
  | .string s =>
    if s.isEmpty ∨ maximum < s.length ∨ !pattern s then .error (abuseError s!"{name} is invalid" "INVALID_INPUT")
    else .ok s
  | _ => .error (abuseError s!"{name} is invalid" "INVALID_INPUT")

def anyText : JsString → Bool := fun _ => true

def assertId (value : JsValue) (name : String) : Except AbuseError JsString := assertString value name idPattern 128

def invalidTimestamp (name : String) : AbuseError := abuseError s!"{name} is invalid" "INVALID_TIMESTAMP"

/-- The time value of the date. -/
def assertDate (host : Host) (value : JsValue) (name : String) : Except AbuseError Int :=
  match value with
  | .date _ | .string _ | .number _ | .nonFinite =>
    match newDate host value with
    | some t => .ok t
    | none => .error (invalidTimestamp name)
  | _ => .error (invalidTimestamp name)

/-- An integer within bounds, which are safe integers. -/
def assertInteger (value : JsValue) (name : String) (minimum maximum : Nat) :
    Except AbuseError { n : Nat // minimum ≤ n ∧ n ≤ maximum } :=
  match value.asInteger? with
  | some n =>
    if h : (minimum : Int) ≤ n ∧ n ≤ maximum then .ok ⟨n.toNat, by omega, by omega⟩
    else .error (abuseError s!"{name} must be an integer between {minimum} and {maximum}" "INVALID_NUMBER")
  | none => .error (abuseError s!"{name} must be an integer between {minimum} and {maximum}" "INVALID_NUMBER")

/-- What the clock shows, unless the call says what time it is. -/
def nowMilliseconds (host : Host) (clock : Answer) (now : JsValue) : Except (Thrown AbuseError) Int :=
  if now.isUndefined then
    match clock with
    | .threw => .error .foreign
    | .returned value => (assertDate host value "clock").mapError .contract
  else (assertDate host now "now").mapError .contract

def digestSubject (host : Host) (subjectType : String) (value : JsValue) : Except AbuseError JsString := do
  let canonicalValue ← assertString value "subject" anyText 512
  return hex (host.sha256 (utf8 (js subjectType ++ [0] ++ canonicalValue)))

def assertChannel (channel : JsValue) : Except AbuseError AbuseChannel :=
  match ABUSE_CHANNELS.find? fun c => channel.isString (js c.name) with
  | some c => .ok c
  | none => .error (abuseError "channel is unsupported" "INVALID_CHANNEL")

structure RateRule where
  max : Nat
  windowMs : Nat
  max_bounds : 1 ≤ max ∧ max ≤ 1000000
  window_bounds : 1000 ≤ windowMs ∧ windowMs ≤ 86400000

structure ChannelLimits where
  tenant : RateRule
  ip : RateRule
  session : RateRule

def ChannelLimits.rule (limits : ChannelLimits) : Dimension → RateRule
  | .tenant => limits.tenant
  | .ip => limits.ip
  | .session => limits.session

abbrev RateLimits := AbuseChannel → ChannelLimits

def normalizeRateRule (rule : JsValue) (name : String) : Except AbuseError RateRule := do
  assertPlainObject rule name
  let max ← assertInteger (rule.get "max") s!"{name}.max" 1 1000000
  let windowMs ← assertInteger (rule.get "windowMs") s!"{name}.windowMs" 1000 86400000
  return ⟨max.1, windowMs.1, max.2, windowMs.2⟩

/-- A rule for a minute. -/
def minuteRule (max : Nat) (h : 1 ≤ max ∧ max ≤ 1000000) : RateRule := ⟨max, 60000, h, by decide⟩

def DEFAULT_RATE_LIMITS : RateLimits
  | .http => ⟨minuteRule 600 (by decide), minuteRule 120 (by decide), minuteRule 120 (by decide)⟩
  | .api => ⟨minuteRule 300 (by decide), minuteRule 120 (by decide), minuteRule 120 (by decide)⟩
  | .mcp => ⟨minuteRule 120 (by decide), minuteRule 30 (by decide), minuteRule 60 (by decide)⟩
  | .login => ⟨minuteRule 60 (by decide), minuteRule 10 (by decide), minuteRule 10 (by decide)⟩
  | .recovery => ⟨minuteRule 30 (by decide), minuteRule 5 (by decide), minuteRule 5 (by decide)⟩
  | .backup => ⟨minuteRule 30 (by decide), minuteRule 10 (by decide), minuteRule 10 (by decide)⟩
  | .websocket => ⟨minuteRule 120 (by decide), minuteRule 60 (by decide), minuteRule 60 (by decide)⟩
  | .dav => ⟨minuteRule 300 (by decide), minuteRule 60 (by decide), minuteRule 120 (by decide)⟩
  | .smtp => ⟨minuteRule 600 (by decide), minuteRule 60 (by decide), minuteRule 120 (by decide)⟩
  | .imap => ⟨minuteRule 600 (by decide), minuteRule 60 (by decide), minuteRule 120 (by decide)⟩

/-- One turn of the loop over the channels. -/
def normalizeChannel (limits : JsValue) (channel : AbuseChannel) : Except AbuseError ChannelLimits := do
  let configured := limits.get channel.name
  if configured.isNullish then return DEFAULT_RATE_LIMITS channel
  let name := s!"limits.{channel.name}"
  assertPlainObject configured name
  let tenant ← normalizeRateRule (configured.get "tenant") s!"{name}.tenant"
  let ip ← normalizeRateRule (configured.get "ip") s!"{name}.ip"
  let session ← normalizeRateRule (configured.get "session") s!"{name}.session"
  return { tenant, ip, session }

def normalizeLimits (limits : JsValue) : Except AbuseError RateLimits := do
  if limits.isUndefined then return DEFAULT_RATE_LIMITS
  assertPlainObject limits "limits"
  let rows ← ABUSE_CHANNELS.mapM fun channel => do
    let normalized ← normalizeChannel limits channel
    return (channel, normalized)
  return fun channel => ((rows.find? fun row => row.1 = channel).map Prod.snd).getD (DEFAULT_RATE_LIMITS channel)

/-- What `createRateLimiter` closes over and does not change. -/
structure RateLimiter where
  limits : RateLimits
  maxBuckets : Nat
  bounds : 100 ≤ maxBuckets ∧ maxBuckets ≤ 1000000

def createRateLimiter (limits maxBuckets : JsValue) : Except AbuseError RateLimiter := do
  let normalized ← normalizeLimits limits
  let max ← assertInteger (maxBuckets.orDefault (.number DEFAULT_MAX_BUCKETS)) "maxBuckets" 100 1000000
  return ⟨normalized, max.1, max.2⟩

structure Bucket where
  startedAt : Int
  count : Nat

abbrev Buckets := OrderedMap JsString Bucket

structure RateInput where
  channel : JsValue
  tenantId : JsValue
  ipAddress : JsValue
  sessionId : JsValue
  cost : JsValue
  now : JsValue

structure RateIdentity where
  tenantId : JsString
  ipAddress : Option JsString
  sessionId : Option JsString
  deriving DecidableEq

/-- A text, or `null`, which `undefined` is by default. -/
def optionalString (value : JsValue) (name : String) (maximum : Nat) : Except AbuseError (Option JsString) :=
  if value.isNullish then .ok none else (assertString value name anyText maximum).map some

def normalizeRateIdentity (tenantId ipAddress sessionId : JsValue) : Except AbuseError RateIdentity := do
  let tenantId ← assertId tenantId "tenantId"
  let ipAddress ← optionalString ipAddress "ipAddress" 256
  let sessionId ← optionalString sessionId "sessionId" 512
  return { tenantId, ipAddress, sessionId }

def identityForDimension (identity : RateIdentity) : Dimension → Option JsString
  | .tenant => some identity.tenantId
  | .ip => identity.ipAddress
  | .session => identity.sessionId

/-- What a call asks for, once it has been read. -/
structure RateRequest where
  channel : AbuseChannel
  identity : RateIdentity
  cost : Nat
  timestamp : Int
  deriving DecidableEq

def readRequest (host : Host) (input : RateInput) (clock : Answer) : Except (Thrown AbuseError) RateRequest := do
  let channel ← (assertChannel input.channel).mapError .contract
  let identity ← (normalizeRateIdentity input.tenantId input.ipAddress input.sessionId).mapError .contract
  let cost ← (assertInteger (input.cost.orDefault (.number 1)) "cost" 1 1000000).mapError .contract
  let timestamp ← nowMilliseconds host clock input.now
  return { channel, identity, cost := cost.1, timestamp }

def bucketKey (channel : AbuseChannel) (dimension : Dimension) (digest : JsString) : JsString :=
  js channel.name ++ 58 :: (js dimension.name ++ 58 :: digest)

structure Observation where
  dimension : Dimension
  rule : RateRule
  key : JsString
  bucket : Bucket
  limited : Bool

/-- The bucket of the window that is running, or one for a window that starts. -/
def currentBucket (buckets : Buckets) (key : JsString) (windowMs : Nat) (timestamp : Int) : Bucket :=
  match buckets.get key with
  | some current => if timestamp - current.startedAt < windowMs then current else ⟨timestamp, 0⟩
  | none => ⟨timestamp, 0⟩

/-- One turn of the loop over the dimensions that have a subject. -/
def observe (limiter : RateLimiter) (request : RateRequest) (buckets : Buckets) (dimension : Dimension)
    (digest : JsString) : Observation :=
  let rule := (limiter.limits request.channel).rule dimension
  let key := bucketKey request.channel dimension digest
  let bucket := currentBucket buckets key rule.windowMs request.timestamp
  { dimension, rule, key, bucket, limited := decide (rule.max < bucket.count + request.cost) }

def subjectDigests (host : Host) (identity : RateIdentity) : Except AbuseError (List (Dimension × JsString)) :=
  (ABUSE_DIMENSIONS.filter fun d => (identityForDimension identity d).isSome).mapM fun d => do
    let digest ← digestSubject host d.name (((identityForDimension identity d).map JsValue.string).getD .null)
    return (d, digest)

/-- The bucket with the cost of the request. -/
def Observation.charged (o : Observation) (cost : Nat) : Bucket := { o.bucket with count := o.bucket.count + cost }

def charge (cost : Nat) (buckets : Buckets) (observations : List Observation) : Buckets :=
  observations.foldl (fun m o => m.set o.key (o.charged cost)) buckets

def prune (limiter : RateLimiter) (buckets : Buckets) : Buckets :=
  buckets.dropOldest (buckets.size - limiter.maxBuckets)

structure RateDecision where
  allowed : Bool
  channel : AbuseChannel
  limitedBy : List Dimension
  retryAfterMs : Int
  remaining : Int
  resetAt : JsString
  activeBuckets : Nat

def limitedBy (observations : List Observation) : List Dimension :=
  (observations.filter fun o => o.limited).map fun o => o.dimension

def retryAfterMs (timestamp : Int) (observations : List Observation) : Int :=
  ((observations.filter fun o => o.limited).map fun o => max 1 (o.rule.windowMs - (timestamp - o.bucket.startedAt))).foldl max 0

/-- `counted` is the cost that has been added to the buckets. -/
def remaining (counted : Nat) : List Observation → Int
  | [] => 0
  | o :: rest =>
    rest.foldl (fun least o => min least (max 0 (o.rule.max - (o.charged counted).count)))
      (max 0 (o.rule.max - (o.charged counted).count))

def resetTime (timestamp : Int) (observations : List Observation) : Int :=
  (observations.map fun o => o.bucket.startedAt + (o.rule.windowMs : Int)).foldl max timestamp

/-- The text of a time, which a time out of range does not have. -/
def timeText (t : Int) : Except (Thrown AbuseError) JsString :=
  match timeClip t with
  | some t => .ok (isoString t)
  | none => .error .foreign

/-- What a request leaves behind. -/
def settle (limiter : RateLimiter) (request : RateRequest) (observations : List Observation) (buckets : Buckets) :
    Buckets :=
  prune limiter (if (limitedBy observations).isEmpty then charge request.cost buckets observations else buckets)

def consumeRequest (host : Host) (limiter : RateLimiter) (request : RateRequest) :
    Eff (Thrown AbuseError) Buckets RateDecision := do
  let digests ← Eff.check (subjectDigests host request.identity)
  let buckets ← Eff.get
  let observations := digests.map fun p => observe limiter request buckets p.1 p.2
  let allowed := (limitedBy observations).isEmpty
  Eff.modify (settle limiter request observations)
  let resetAt ← Eff.lift (timeText (resetTime request.timestamp observations))
  let after ← Eff.get
  return {
    allowed
    channel := request.channel
    limitedBy := limitedBy observations
    retryAfterMs := retryAfterMs request.timestamp observations
    remaining := remaining (if allowed then request.cost else 0) observations
    resetAt
    activeBuckets := after.size }

def consume (host : Host) (limiter : RateLimiter) (input : RateInput) (clock : Answer) :
    Eff (Thrown AbuseError) Buckets RateDecision := do
  let request ← Eff.lift (readRequest host input clock)
  consumeRequest host limiter request

end GuloGulo.Abuse
