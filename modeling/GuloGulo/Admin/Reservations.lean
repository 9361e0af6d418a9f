import GuloGulo.Admin.LedgerRuns

/-!
# Releasing what was reserved

A reservation is named by a counter of at least eight digits, and released by
the name if it has just eight. Reservations stay in their map, which holds no
more of them than eight digits count.
-/

namespace GuloGulo.Admin
open Js Data Integrations

namespace Quota

/-- A call where maps hold `capacity` entries. An allocation is set before
anything else is, a reservation when its usage is counted and its number taken. -/
def Call.runWithin (capacity : Nat) (host : Host) (ledger : QuotaLedger) (call : Call) : LedgerM Answer := fun s =>
  let (answer, s') := call.run host ledger s
  if capacity < s'.allocations.rows.length then (.error .foreign, s)
  else if capacity < s'.reservations.rows.length then (.error .foreign, { s' with reservations := s.reservations })
  else (answer, s')

/-- The numbers of the reservations are those up to the capacity: once the map is
full, numbers are taken and not given. -/
structure Numbered (capacity : Nat) (ledger : QuotaLedger) (made : List Made) (s : LedgerState) : Prop extends
    Recorded ledger made s where
  balanced : Balanced ledger s
  room : s.reservations.rows.length ≤ capacity
  counter : s.reservationSequence = s.reservations.rows.length ∨ s.reservations.rows.length = capacity
  numbered : ∀ r ∈ granted made, ∃ n ≤ capacity, r.reservationId = reservationId n

section
variable {capacity : Nat} {host : Host} {ledger : QuotaLedger} {created s : LedgerState} {made : List Made}

end

/-- The calls of a run, one after the other. -/
def runCalls (capacity : Nat) (host : Host) (ledger : QuotaLedger) : List Call → List Made × LedgerState →
    List Made × LedgerState
  | [], past => past
  | call :: calls, (made, s) => runCalls capacity host ledger calls
      (made ++ [⟨call, (call.runWithin capacity host ledger s).1.toOption⟩], (call.runWithin capacity host ledger s).2)

end Quota

end GuloGulo.Admin
