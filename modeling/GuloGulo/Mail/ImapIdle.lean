import GuloGulo.Data.LiveMap
import GuloGulo.Mail.Runtime

/-!
# The IDLE broker

`createImapIdleBroker` of `core/mail/imap-idle.ts`. A handler is known by a
number; what it does when it is called, by itself and to the broker, is
whatever `Handlers` says of it and of what was delivered before.
-/

namespace GuloGulo.Mail
open Js Data Integrations

structure ImapIdleEvent where
  eventId : JsString
  sequence : Nat
  tenantId : JsString
  userId : JsString
  mailbox : JsString
  kind : JsString
  uidNext : Option Int
  occurredAt : JsString
  deriving DecidableEq

structure ImapIdleSubscribeOptions where
  userId : JsValue
  mailbox : JsValue
  /-- `none` is not a function. -/
  onEvent : Option Nat

structure ImapIdleNotifyOptions where
  userId : JsValue
  mailbox : JsValue
  kind : JsValue
  uidNext : JsValue

structure Subscription where
  tenantId : JsString
  userId : JsString
  mailbox : JsString
  onEvent : Nat
  deriving DecidableEq

structure ImapIdleNotification where
  event : ImapIdleEvent
  delivered : Nat
  deriving DecidableEq

namespace Idle

/-- What a handler can do to the broker. -/
inductive Step where
  | subscribe (context : JsValue) (options : ImapIdleSubscribeOptions)
  | close (id : JsString)

structure Reaction where
  steps : List Step
  throws : Bool

/-- One call of a handler. -/
structure Delivery where
  id : JsString
  subscription : Subscription
  event : ImapIdleEvent
  reaction : Reaction

abbrev Handlers := List Delivery → Subscription → ImapIdleEvent → Reaction

structure BrokerState where
  subscriptions : LiveMap JsString Subscription
  subscriptionSequence : Nat
  eventSequence : Nat
  readings : Nat
  deliveries : List Delivery

def created : BrokerState := ⟨LiveMap.empty, 0, 0, 0, []⟩

abbrev BrokerM := Eff (Thrown CodedError) BrokerState

def idleError (message code : String) : Thrown CodedError := .contract ⟨s!"IMAP IDLE error: {message}", code⟩

/-- An alphanumeric, then at most 127 of alphanumerics, `.`, `_`, the slash and `-`. -/
def mailboxPattern : JsString → Bool :=
  isName isAlnum (fun u => isAlnum u || u == 46 || u == 95 || u == 47 || u == 45) 127

/-- A letter, then at most 31 of alphanumerics, `_`, `.`, `:` and `-`. -/
def kindPattern : JsString → Bool :=
  isName isAlpha (fun u => isAlnum u || u == 95 || u == 46 || u == 58 || u == 45) 31

def safeMailbox (value : JsValue) : Except (Thrown CodedError) JsString :=
  match value with
  | .string s => if mailboxPattern s then .ok s else .error (idleError "mailbox is invalid" "INVALID_INPUT")
  | _ => .error (idleError "mailbox is invalid" "INVALID_INPUT")

def safeUserId (value : JsValue) : Except (Thrown CodedError) JsString :=
  match value with
  | .string s =>
    if s.length = 0 ∨ 128 < s.length then .error (idleError "userId is required" "INVALID_INPUT") else .ok s
  | _ => .error (idleError "userId is required" "INVALID_INPUT")

def safeKind (value : JsValue) : JsString :=
  match value with
  | .string s => if kindPattern s then s else js "exists"
  | _ => js "exists"

/-- A positive safe integer. -/
def safeUidNext (value : JsValue) : Option Int :=
  value.asInteger?.filter fun n => decide (1 ≤ n ∧ n ≤ maxSafeInteger)

def subscriptionId (sequence : Nat) : JsString := js "idle-" ++ pad 8 sequence

def eventId (sequence : Nat) : JsString := js "idle-event-" ++ pad 8 sequence

variable (host : Host) (clock : Nat → Reading) (handlers : Handlers)

/-- The id is taken before the mailbox is checked. -/
def subscribe (context : JsValue) (options : ImapIdleSubscribeOptions) : BrokerM JsString := do
  let canonical ← Eff.lift (assertContext host context)
  let userId ← Eff.lift (safeUserId options.userId)
  match options.onEvent with
  | none => Eff.lift (.error (idleError "userId and onEvent are required" "INVALID_INPUT"))
  | some onEvent => do
    Eff.lift (throwIf (canonical.role = .user && canonical.actorId != some userId)
      (idleError "a user may subscribe only to its own mailbox" "FORBIDDEN"))
    Eff.modify fun s => { s with subscriptionSequence := s.subscriptionSequence + 1 }
    let s ← Eff.get
    let mailbox ← Eff.lift (safeMailbox (options.mailbox.orElse (.string (js "INBOX"))))
    Eff.modify fun s => { s with
      subscriptions := s.subscriptions.set (subscriptionId s.subscriptionSequence)
        ⟨canonical.tenantId, userId, mailbox, onEvent⟩ }
    return subscriptionId s.subscriptionSequence

def close (id : JsString) (s : BrokerState) : BrokerState := { s with subscriptions := s.subscriptions.delete id }

def count (s : BrokerState) : Nat := s.subscriptions.size

/-- The event of a call of `notify`. -/
def makeEvent (context : JsValue) (options : ImapIdleNotifyOptions) : BrokerM ImapIdleEvent := do
  let canonical ← Eff.lift (assertContext host context)
  let userId ← Eff.lift (safeUserId options.userId)
  let mailbox ← Eff.lift (safeMailbox (options.mailbox.orElse (.string (js "INBOX"))))
  Eff.modify fun s => { s with eventSequence := s.eventSequence + 1 }
  let s ← Eff.get
  Eff.modify fun s => { s with readings := s.readings + 1 }
  let time ← Eff.lift (clock s.readings).date
  let occurredAt ← Eff.lift (isoText time)
  return ⟨eventId s.eventSequence, s.eventSequence, canonical.tenantId, userId, mailbox, safeKind options.kind,
    safeUidNext (options.uidNext.orElse .null), occurredAt⟩

/-- The event is for the tenant, the user and the mailbox of the subscription. -/
def concerns (event : ImapIdleEvent) (subscription : Subscription) : Bool :=
  subscription.tenantId == event.tenantId && subscription.userId == event.userId &&
    subscription.mailbox == event.mailbox

def applyStep : BrokerState → Step → BrokerState
  | s, .subscribe context options => (subscribe host context options s).2
  | s, .close id => close id s

def onEvent (id : JsString) (subscription : Subscription) (event : ImapIdleEvent) : BrokerM Unit := do
  let s ← Eff.get
  let reaction := handlers s.deliveries subscription event
  Eff.modify fun s => { s with deliveries := s.deliveries ++ [⟨id, subscription, event, reaction⟩] }
  Eff.modify fun s => reaction.steps.foldl (applyStep host) s
  Eff.lift (throwIf reaction.throws .foreign)

/-- The loop over the subscriptions, from a slot on. Handlers can keep it going,
so it runs on fuel. -/
def deliverFrom (event : ImapIdleEvent) : Nat → Nat → Nat → BrokerState →
    Option (Except (Thrown CodedError) ImapIdleNotification × BrokerState)
  | 0, _, _, _ => none
  | fuel + 1, slot, delivered, s =>
    match s.subscriptions.slots[slot]? with
    | none => some (.ok ⟨event, delivered⟩, s)
    | some none => deliverFrom event fuel (slot + 1) delivered s
    | some (some (id, subscription)) =>
      if concerns event subscription then
        match onEvent host handlers id subscription event s with
        | (.error e, s') => some (.error e, s')
        | (.ok (), s') => deliverFrom event fuel (slot + 1) (delivered + 1) s'
      else deliverFrom event fuel (slot + 1) delivered s

def notify (fuel : Nat) (context : JsValue) (options : ImapIdleNotifyOptions) (s : BrokerState) :
    Option (Except (Thrown CodedError) ImapIdleNotification × BrokerState) :=
  match makeEvent host clock context options s with
  | (.error e, s') => some (.error e, s')
  | (.ok event, s') => deliverFrom host handlers event fuel 0 0 s'

end Idle

end GuloGulo.Mail
