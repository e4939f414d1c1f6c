import Dibs.Mock.Scripts
import Dibs.Redis.Repository

/-!
# The mock provider's repository on Redis

The methods of `RedisMockBookingStateRepository` in `backend/db/repositories/mock_booking.py`: what each
computes from its arguments, and what it makes of its script's answer. A method that raises anything but
the adapter's own errors, because its script fails or a text does not decode, answers `none`.

`book_slot` and `get_booking` read before they decide. Their parts are functions of their own, for the
methods as single calls and for their steps between other clients' steps.
-/

namespace Dibs

/-- The limits of the repository, in milliseconds. -/
structure MockLimits where
  capacity : ℕ
  idleTtlMs : ℤ
  retentionMs : ℤ
  pinMs : ℤ
deriving DecidableEq

/-- What `book_slot` makes of its script's answer. -/
def bookAnswer (slotId : String) : Option BookReply → Option (Except AdapterError BookingConfirmation)
  | some (.booked text) | some (.existing text) => text.map .ok
  | some .unavailable => some (.error (.slotUnavailable ("Mock slot is already booked: " ++ slotId)))
  | some .notFound => some (.error (.slotNotFound ("Unknown mock slot: " ++ slotId)))
  | none => none

/-- What `get_booking` makes of the text under its key and of the score in `bookexp`. -/
def getAnswer (now : Time) (raw : Option (Option BookingConfirmation)) (score : Option ℤ) :
    Option (Option BookingConfirmation) :=
  match raw, score with
  | some text, some score => if score ≤ toMs now then some none else text.map some
  | _, _ => some none

namespace MockDb

/-- `publish_and_filter`. -/
def publishAndFilter (db : MockDb) (limits : MockLimits) (candidates : List AvailabilitySlot)
    (operationId : String) (now : Time) : Option (List AvailabilitySlot) × MockDb :=
  db.publishScript operationId (toMs now) limits.pinMs limits.capacity candidates

/-- `get_booking`, run without another client's step in between. -/
def getBooking (db : MockDb) (key : String) (now : Time) : Option (Option BookingConfirmation) :=
  getAnswer now (db.bookings.get? key) (db.bookExp.get? key)

/-- `reconcile_booking`, run without another client's step in between. -/
def reconcileBooking (db : MockDb) (key : String) (now : Time) : Option Reconciliation :=
  (db.getBooking key now).map fun booking => booking.elim .definitivelyAbsent .confirmed

/-- What `book_slot` hands to its script after reading the slot: the confirmation of the document that it
read, or the empty text. -/
def sendBooking (db : MockDb) (limits : MockLimits) (slotId key : String) (factory : ConfirmationFactory)
    (now : Time) (raw : Option AvailabilitySlot) : Option BookReply × MockDb :=
  db.bookScript slotId key (raw.map factory.build) (toMs now + limits.retentionMs) (toMs now)

/-- `book_slot`, run without another client's step in between. -/
def bookSlot (db : MockDb) (limits : MockLimits) (slotId key : String) (factory : ConfirmationFactory)
    (now : Time) : Option (Except AdapterError BookingConfirmation) × MockDb :=
  let out := db.sendBooking limits slotId key factory now (db.slots.get? slotId)
  (bookAnswer slotId out.1, out.2)

/-- `cleanup`. -/
def cleanup (db : MockDb) (limits : MockLimits) (now : Time) (batchSize : ℕ) : CleanupCounts × MockDb :=
  db.cleanupScript (toMs now) (toMs now - limits.idleTtlMs) batchSize

end MockDb

end Dibs
