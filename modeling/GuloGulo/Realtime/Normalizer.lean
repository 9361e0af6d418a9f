import GuloGulo.Js.Date
import GuloGulo.Js.Effect

/-!
# Normalised realtime events

`normalizeRealtimeEvent` of `web/realtime/event-normalizer.ts` and the three
functions that read a frame for it. `parseJson` is `JSON.parse`, `clock` the
time value of the date that the clock shows.
-/

namespace GuloGulo.Realtime
open Js

structure RealtimeEventError where
  message : String
  code : String
  deriving DecidableEq, Repr

def realtimeError (message code : String) : RealtimeEventError := ⟨s!"Realtime event error: {message}", code⟩

inductive RealtimeSource where
  | sse
  | websocket
  | imapIdle
  deriving DecidableEq

def RealtimeSource.text : RealtimeSource → JsString
  | sse => js "sse"
  | websocket => js "websocket"
  | imapIdle => js "imap-idle"

inductive RealtimeEventType where
  | mailChanged
  | calendarChanged
  | contactsChanged
  | systemChanged
  deriving DecidableEq

def RealtimeEventType.text : RealtimeEventType → JsString
  | mailChanged => js "mail.changed"
  | calendarChanged => js "calendar.changed"
  | contactsChanged => js "contacts.changed"
  | systemChanged => js "system.changed"

/-- `EVENT_TYPES`. -/
def eventTypes : List RealtimeEventType := [.mailChanged, .calendarChanged, .contactsChanged, .systemChanged]

inductive SafeMetadata where
  | null
  | bool (b : Bool)
  | number (q : Rat)
  | string (s : JsString)
  | array (items : List SafeMetadata)
  | object (fields : List (JsString × SafeMetadata))

structure NormalizedRealtimeEvent where
  eventId : JsString
  source : RealtimeSource
  type : RealtimeEventType
  tenantId : JsString
  userId : Option JsString
  resource : Option JsString
  sequence : Option Nat
  occurredAt : JsString
  data : List (JsString × SafeMetadata)
  coalescedCount : Option Nat
  firstEventId : Option JsString

/-- `TOKEN_PATTERN`. -/
def tokenPattern : JsString → Bool :=
  isName isAlnum (fun u => isAlnum u || u == 46 || u == 95 || u == 58 || u == 64 || u == 47 || u == 45) 127

def token (value : JsValue) (field : String) (required : Bool) : Except RealtimeEventError (Option JsString) :=
  if value.isNullish || value.isString [] then
    if required then .error (realtimeError s!"{field} is required" "INVALID_EVENT") else .ok none
  else match value with
    | .string s =>
      if tokenPattern s && decide (s.length ≤ 128) then .ok (some s)
      else .error (realtimeError s!"{field} is invalid" "INVALID_EVENT")
    | _ => .error (realtimeError s!"{field} is invalid" "INVALID_EVENT")

def parseObject (parseJson : JsString → Option JsValue) (value : JsValue) : Except RealtimeEventError JsValue := do
  let parsed ← match value with
    | .string s =>
      match parseJson s with
      | some parsed => Except.ok parsed
      | none => .error (realtimeError "event payload is not valid JSON" "INVALID_EVENT_PAYLOAD")
    | _ => .ok value
  throwIf (!parsed.isRecord) (realtimeError "event payload must be an object" "INVALID_EVENT_PAYLOAD")
  return parsed

/-- `SAFE_DATA_KEYS`. -/
def safeDataKeys : List JsString :=
  ["mailbox", "uidNext", "messageId", "folder", "count", "operation", "resourceId", "resourceType", "calendarId",
    "contactId", "changedAt", "lastModified", "state", "status", "reason", "sequence"].map js

/-- `SENSITIVE_KEY`, for the keys that are asked about: they are ASCII. -/
def sensitiveKey (key : JsString) : Bool :=
  decide (key.map asciiLower ∈ ["body", "html", "text", "content", "raw", "payload", "source", "attachment", "header",
    "headers"].map js)

/-- The number is how many levels are still looked at. -/
def safeMetadata : Nat → JsValue → SafeMetadata
  | 0, _ => .null
  | n + 1, value =>
    match value with
    | .string s => .string (s.take 512)
    | .number q => .number q
    | .bool b => .bool b
    | .array items => .array ((items.take 32).map (safeMetadata n))
    | .object fields =>
      .object ((fields.filter fun f => decide (f.1 ∈ safeDataKeys) && !sensitiveKey f.1).map
        fun f => (f.1, safeMetadata n f.2))
    | .date _ => .object []
    | .undefined | .null | .nonFinite | .other => .null

def safeEventData (value : JsValue) : List (JsString × SafeMetadata) :=
  if value.isRecord then
    match safeMetadata 3 value with
    | .object fields => fields
    | _ => []
  else []

structure RealtimeContext where
  source : Option RealtimeSource
  tenantId : JsValue
  userId : JsValue
  clock : Option Int

def validDate (host : Host) (value : JsValue) (clock : Option Int) : Except RealtimeEventError JsString :=
  match if value.isNullish then clock else newDate host value with
  | some time => .ok (isoString time)
  | none => .error (realtimeError "event timestamp is invalid" "INVALID_EVENT")

def readSequence (value : JsValue) : Except RealtimeEventError (Option Nat) :=
  if value.isUndefined then .ok none
  else match value.asInteger? with
    | some n =>
      if 1 ≤ n ∧ n ≤ maxSafeInteger then .ok (some n.toNat)
      else .error (realtimeError "event sequence is invalid" "INVALID_EVENT")
    | none => .error (realtimeError "event sequence is invalid" "INVALID_EVENT")

def readType (source : RealtimeSource) (payload : JsValue) : Except RealtimeEventError RealtimeEventType :=
  let value := (payload.get "type").orElse
    (if source = .imapIdle then .string (js "mail.changed") else payload.get "event")
  match eventTypes.find? fun t => value.isString t.text with
  | some type => .ok type
  | none => .error (realtimeError "event type is unsupported" "INVALID_EVENT")

/-- The id of an event whose frame has none. -/
def defaultEventId (source : RealtimeSource) (tenantId : JsString) (userId : Option JsString) (sequence : Option Nat)
    (occurredAt : JsString) : JsString :=
  source.text ++ js ":" ++ tenantId ++ js ":" ++ userId.getD (js "tenant") ++ js ":" ++
    sequence.elim occurredAt decimal

def isUser (value : JsValue) (userId : Option JsString) : Bool :=
  match userId with
  | some userId => value.isString userId
  | none => value.isNullish

def normalizeRealtimeEvent (parseJson : JsString → Option JsValue) (host : Host) (input : JsValue)
    (context : RealtimeContext) : Except RealtimeEventError NormalizedRealtimeEvent :=
  match context.source with
  | none => .error (realtimeError "event source is unsupported" "INVALID_EVENT")
  | some source => do
    let tenantId ← token context.tenantId "tenantId" true
    let tenantId := tenantId.getD []
    let userId ← token context.userId "userId" false
    let payload ← parseObject parseJson input
    throwIf (!((payload.get "tenantId").orElse (.string tenantId)).isString tenantId)
      (realtimeError "event tenant does not match the subscription" "TENANT_MISMATCH")
    throwIf (!isUser ((payload.get "userId").orElse (userId.elim .null .string)) userId)
      (realtimeError "event user does not match the subscription" "USER_MISMATCH")
    let type ← readType source payload
    let sequence ← readSequence (payload.get "sequence")
    let occurredAt ← validDate host (payload.get "occurredAt") context.clock
    let eventId ← token ((payload.get "eventId").orElse (payload.get "id")) "eventId" false
    let resource ← token
      (((payload.get "resource").orElse (payload.get "mailbox")).orElse (payload.get "resourceId")) "resource" false
    return {
      eventId := eventId.getD (defaultEventId source tenantId userId sequence occurredAt)
      source, type, tenantId, userId, resource, sequence, occurredAt
      data := safeEventData (((payload.get "data").orElse (payload.get "details")).orElse payload)
      coalescedCount := none
      firstEventId := none }

def fieldsOf : JsValue → List (JsString × JsValue)
  | .object fields => fields
  | _ => []

/-- A spread object with one property more. -/
def withField (value : JsValue) (key : String) (field : JsValue) : JsValue :=
  .object ((fieldsOf value).filter (fun f => f.1 != js key) ++ [(js key, field)])

def fillField (payload : JsValue) (key : String) (field : JsValue) : JsValue :=
  if !field.isUndefined && (payload.get key).isUndefined then withField payload key field else payload

section
variable (parseJson : JsString → Option JsValue) (host : Host)

def normalizeSseEvent (frame : JsValue) (context : RealtimeContext) :
    Except RealtimeEventError NormalizedRealtimeEvent := do
  let parsed ← parseObject parseJson ((frame.get "data").orElse frame)
  let payload := fillField (.object (fieldsOf parsed)) "id" (frame.get "id")
  let payload := fillField payload "type" (frame.get "event")
  normalizeRealtimeEvent parseJson host payload { context with source := some .sse }

def normalizeWebSocketEvent (frame : JsValue) (context : RealtimeContext) :
    Except RealtimeEventError NormalizedRealtimeEvent := do
  let payload ← parseObject parseJson frame
  normalizeRealtimeEvent parseJson host payload { context with source := some .websocket }

def normalizeImapIdleEvent (frame : JsValue) (context : RealtimeContext) :
    Except RealtimeEventError NormalizedRealtimeEvent := do
  let record ← parseObject parseJson frame
  let mailbox := (record.get "mailbox").orElse (.string (js "INBOX"))
  let data := .object [(js "mailbox", mailbox), (js "uidNext", (record.get "uidNext").orElse .null),
    (js "sequence", (record.get "sequence").orElse .null),
    (js "operation", (record.get "kind").orElse (.string (js "exists")))]
  let payload := withField record "type" (.string (js "mail.changed"))
  let payload := withField payload "resource" mailbox
  normalizeRealtimeEvent parseJson host (withField payload "data" data) { context with source := some .imapIdle }

/-- The event of a frame, as the adapter of a source reads it. -/
def normalizeFrame : RealtimeSource → JsValue → RealtimeContext → Except RealtimeEventError NormalizedRealtimeEvent
  | .sse => normalizeSseEvent parseJson host
  | .websocket => normalizeWebSocketEvent parseJson host
  | .imapIdle => normalizeImapIdleEvent parseJson host

end

/-- An event of a source, for the tenant and the user that were subscribed to. -/
structure Scoped (tenantId userId : JsValue) (source : RealtimeSource) (ev : NormalizedRealtimeEvent) : Prop where
  source : ev.source = source
  tenant : tenantId = .string ev.tenantId
  user : ∀ u, ev.userId = some u → userId = .string u
  shared : ev.userId = none → userId.isNullish = true ∨ userId.isString [] = true

section
variable {parseJson : JsString → Option JsValue} {host : Host} {context : RealtimeContext} {source : RealtimeSource}
  {ev : NormalizedRealtimeEvent}

theorem token_eq_some {value : JsValue} {field : String} {required : Bool} {s : JsString}
    (h : token value field required = .ok (some s)) : value = .string s := by
  unfold token at h
  split at h
  · split at h <;> cases h
  · split at h
    · split at h
      · cases h
        rfl
      · cases h
    · cases h

theorem token_eq_none {value : JsValue} {field : String} {required : Bool} (h : token value field required = .ok none) :
    required = false ∧ (value.isNullish = true ∨ value.isString [] = true) := by
  unfold token at h
  split at h
  · rename_i absent
    split at h
    · cases h
    · rename_i optional
      exact ⟨Bool.eq_false_iff.mpr optional, Bool.or_eq_true_iff.mp absent⟩
  · split at h
    · split at h <;> cases h
    · cases h

theorem normalize_scoped {input tenantId userId : JsValue} {clock : Option Int}
    (h : normalizeRealtimeEvent parseJson host input ⟨some source, tenantId, userId, clock⟩ = .ok ev) :
    Scoped tenantId userId source ev := by
  rw [normalizeRealtimeEvent] at h
  obtain ⟨tenantId, tenant, h⟩ := bind_eq_ok.mp h
  obtain ⟨userId, user, h⟩ := bind_eq_ok.mp h
  obtain ⟨payload, _, h⟩ := bind_eq_ok.mp h
  obtain ⟨_, _, h⟩ := bind_eq_ok.mp h
  obtain ⟨_, _, h⟩ := bind_eq_ok.mp h
  obtain ⟨type, _, h⟩ := bind_eq_ok.mp h
  obtain ⟨sequence, _, h⟩ := bind_eq_ok.mp h
  obtain ⟨occurredAt, _, h⟩ := bind_eq_ok.mp h
  obtain ⟨eventId, _, h⟩ := bind_eq_ok.mp h
  obtain ⟨resource, _, h⟩ := bind_eq_ok.mp h
  cases h
  constructor
  · rfl
  · cases tenantId with
    | none => exact absurd (token_eq_none tenant).1 (by decide)
    | some tenantId => exact token_eq_some tenant
  · rintro u rfl
    exact token_eq_some user
  · rintro rfl
    exact (token_eq_none user).2

/-- No frame makes an event of another source, tenant or user. -/
theorem frame_scoped {frame : JsValue} (h : normalizeFrame parseJson host source frame context = .ok ev) :
    Scoped context.tenantId context.userId source ev := by
  cases source with
  | sse =>
    obtain ⟨parsed, _, h⟩ := bind_eq_ok.mp h
    exact normalize_scoped h
  | websocket =>
    obtain ⟨payload, _, h⟩ := bind_eq_ok.mp h
    exact normalize_scoped h
  | imapIdle =>
    obtain ⟨record, _, h⟩ := bind_eq_ok.mp h
    exact normalize_scoped h

end

end GuloGulo.Realtime
