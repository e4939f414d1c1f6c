import Dibs.Models.Reservation

/-!
# The adapter contract

The errors and answers of a reservation adapter, from `backend/integrations/base.py`. A
`ReconciliationResult` carries a confirmation exactly when it is `CONFIRMED`.
-/

namespace Dibs

/-- `AdapterError` and its two subclasses for an expected slot race, with their messages. -/
inductive AdapterError
  | slotNotFound (message : String)
  | slotUnavailable (message : String)
  | other (message : String)
deriving DecidableEq

/-- `str(exc)`. -/
def AdapterError.message : AdapterError → String
  | .slotNotFound message | .slotUnavailable message | .other message => message

/-- The errors of an expected slot race, which `_book` catches to try the next slot. -/
def AdapterError.isSlotRace : AdapterError → Bool
  | .slotNotFound _ | .slotUnavailable _ => true
  | .other _ => false

/-- `ReconciliationResult`: how authoritative an answer about one booking key is. -/
inductive Reconciliation
  | confirmed (confirmation : BookingConfirmation)
  | definitivelyAbsent
  | unknown
deriving DecidableEq

end Dibs
