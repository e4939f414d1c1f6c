import Mathlib.Data.Int.Notation
import Mathlib.Data.Nat.Notation

/-!
# Reservation queries, slots and confirmations

The records of `backend/models/reservation.py` that a watch and a provider exchange. Dates and clock
times keep their wire form (`IsoDate`, `HourMinute`), which is what every comparison and key in the
source works on. Instants are whole microseconds since the epoch, the resolution of `datetime`, and
durations whole microseconds, that of `timedelta`.

`AvailabilitySlot.available` is left out: it is `Literal[True]`.
-/

namespace Dibs

/-- An instant, in microseconds since the epoch. -/
abbrev Time := ℤ

/-- A `timedelta`, in microseconds. -/
abbrev Duration := ℤ

/-- `VenueType` of `backend/orchestrator/schemas.py`. -/
inductive VenueType
  | restaurant
  | recreation
  | unknown
deriving DecidableEq

/-- `TimeWindow`: an inclusive local-time window. -/
structure TimeWindow where
  /-- Earliest acceptable local time. -/
  start : String
  /-- Latest acceptable local time. -/
  «end» : String
deriving DecidableEq

/-- `AvailabilityQuery`: the validated parameters passed to a reservation adapter. -/
structure AvailabilityQuery where
  venueName : String
  venueType : VenueType
  market : String
  partySize : ℕ
  date : String
  preferredTime : Option String
  timeWindow : Option TimeWindow
  durationMinutes : Option ℕ
  specialRequests : List String
deriving DecidableEq

/-- `AvailabilitySlot`: a provider-neutral available reservation slot. -/
structure AvailabilitySlot where
  slotId : String
  provider : String
  venueName : String
  venueType : VenueType
  date : String
  startTime : String
  endTime : Option String
  partySize : ℕ
  maxPartySize : ℕ
deriving DecidableEq

/-- `BookingStatus`: how real a booking is. -/
inductive BookingStatus
  | mockConfirmed
  | confirmed
deriving DecidableEq

/-- `BookingConfirmation`: a provider-neutral booking confirmation. -/
structure BookingConfirmation where
  bookingId : String
  provider : String
  status : BookingStatus
  slot : AvailabilitySlot
  createdAt : Time
deriving DecidableEq

/-- A slot for two, for concrete runs. -/
def AvailabilitySlot.sample (slotId : String) : AvailabilitySlot :=
  ⟨slotId, "mock", "Trattoria", .restaurant, "2030-01-01", "19:00", none, 2, 4⟩

end Dibs
