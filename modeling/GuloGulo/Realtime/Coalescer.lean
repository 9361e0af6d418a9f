import GuloGulo.Data.Table
import GuloGulo.Realtime.Normalizer

/-!
# Coalescing realtime events

`createEventCoalescer` of `web/realtime/event-normalizer.ts`. A timer is only
known to be set or not; what a timer does when it fires is to flush. The time
of the first pending event is left out, as nothing reads it.
-/

namespace GuloGulo.Realtime
open Js Data

structure Coalescer where
  pending : OrderedMap JsString NormalizedRealtimeEvent
  /-- The latest event ids, the oldest first. -/
  seen : List JsString
  windowTimer : Bool
  maxTimer : Bool

def Coalescer.new : Coalescer := ⟨Table.empty, [], false, false⟩

inductive PushResult where
  | duplicate (pending : Nat)
  | accepted (coalesced : Bool) (pending : Nat)
  deriving DecidableEq

def coalescingKey (event : NormalizedRealtimeEvent) : JsString :=
  event.tenantId ++ js "/" ++ event.userId.getD (js "-") ++ js "/" ++ event.type.text ++ js "/" ++
    event.resource.getD (js "-")

/-- What is kept of an event and the one that is pending under its key. -/
def coalesce (previous : Option NormalizedRealtimeEvent) (event : NormalizedRealtimeEvent) : NormalizedRealtimeEvent :=
  match previous with
  | some previous =>
    { event with
      coalescedCount := some (previous.coalescedCount.getD 1 + 1)
      firstEventId := some (previous.firstEventId.getD previous.eventId)
      sequence := event.sequence <|> previous.sequence }
  | none => { event with coalescedCount := some 1, firstEventId := some event.eventId }

/-- `seen.add`, and the oldest id goes when there are more than 2048. -/
def remember (seen : List JsString) (eventId : JsString) : List JsString :=
  let seen := seen ++ [eventId]
  if seen.length > 2048 then seen.drop 1 else seen

def push (s : Coalescer) (event : NormalizedRealtimeEvent) : Except RealtimeEventError PushResult × Coalescer :=
  if event.eventId.isEmpty then (.error (realtimeError "normalized event is required" "INVALID_EVENT"), s)
  else if event.eventId ∈ s.seen then (.ok (.duplicate s.pending.size), s)
  else
    let key := coalescingKey event
    let previous := s.pending.get key
    let pending := s.pending.set key (coalesce previous event)
    (.ok (.accepted previous.isSome pending.size), ⟨pending, remember s.seen event.eventId, true, true⟩)

/-- The pending events by the time they occurred at. -/
def flush (host : Host) (s : Coalescer) : List NormalizedRealtimeEvent × Coalescer :=
  (s.pending.values.mergeSort fun left right => host.localeLe left.occurredAt right.occurredAt,
    ⟨Table.empty, s.seen, false, false⟩)

end GuloGulo.Realtime
