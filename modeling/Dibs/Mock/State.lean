import Dibs.Integrations.Base
import Dibs.Lib.Dict

/-!
# The mock booking provider

`InMemoryMockBookingStateRepository` of `backend/db/repositories/mock_booking.py`: the state that
every mock adapter of a process shares. Each method is one critical section under the lock and takes
the instant as an argument, so it is a function of the state, the instant and its arguments.
-/

namespace Dibs

/-- `_SlotEntry`: a published slot and when it was last asked for. -/
structure SlotEntry where
  slot : AvailabilitySlot
  lastTouch : Time
deriving DecidableEq

/-- `_Booking`: the confirmation a key holds, and until when it is protected. -/
structure Booking where
  confirmation : BookingConfirmation
  protectedUntil : Time
deriving DecidableEq

/-- `_Tombstone`: the key that booked a slot, and until when the slot is protected. -/
structure Tombstone where
  key : String
  protectedUntil : Time
deriving DecidableEq

/-- `_Pin`: the search operation that last returned a slot. -/
structure Pin where
  operationId : String
  expiresAt : Time
deriving DecidableEq

/-- `ConfirmationFactory`: what turns the booked slot into its confirmation. -/
structure ConfirmationFactory where
  build : AvailabilitySlot → BookingConfirmation
  /-- The confirmation is about the slot. -/
  slot_eq : ∀ slot, (build slot).slot = slot

/-- `MockBookingAdapter._confirmation_factory`, with the booking id it derives from the key. -/
def ConfirmationFactory.mock (bookingId : String) (now : Time) : ConfirmationFactory :=
  ⟨fun slot => ⟨bookingId, "mock", .mockConfirmed, slot, now⟩, fun _ => rfl⟩

/-- The tables of an `InMemoryMockBookingStateRepository`, and its limits. -/
structure MockState where
  capacity : ℕ
  idleTtl : Duration
  retention : Duration
  pin : Duration
  slots : Dict String SlotEntry
  tombstones : Dict String Tombstone
  bookings : Dict String Booking
  pins : Dict String Pin
deriving DecidableEq

/-- `CleanupCounts`: what one bounded cleanup removed. -/
structure CleanupCounts where
  idleSlots : ℕ
  expiredRecords : ℕ
deriving DecidableEq

namespace MockState

/-- `InMemoryMockBookingStateRepository.__init__`: nothing is published. -/
def empty (capacity : ℕ) (idleTtl retention pin : Duration) : MockState :=
  ⟨capacity, idleTtl, retention, pin, .empty, .empty, .empty, .empty⟩

/-- `_expire_pins`. -/
def expirePins (m : MockState) (now : Time) : MockState :=
  { m with pins := m.pins.filter fun _ pin => decide (now < pin.expiresAt) }

/-- `_pinned_ids`. -/
def pinnedIds (m : MockState) (now : Time) : List String :=
  (m.pins.filter fun _ pin => decide (now < pin.expiresAt)).entries.map Prod.fst

/-- One step of the search of `_evict_one` for the slot that was untouched longest. -/
def olderOf (exempt : List String) (oldest : Option (String × Time)) (e : String × SlotEntry) :
    Option (String × Time) :=
  if e.1 ∈ exempt then oldest
  else match oldest with
    | none => some (e.1, e.2.lastTouch)
    | some (_, touch) => if e.2.lastTouch < touch then some (e.1, e.2.lastTouch) else oldest

/-- `_evict_one`: without the oldest unbooked slot that is not exempt, or nothing when there is
none. -/
def evictOne (m : MockState) (exempt : List String) : Option MockState :=
  (m.slots.entries.foldl (olderOf exempt) none).map fun oldest =>
    { m with slots := m.slots.erase oldest.1 }

/-- What the loop of `publish_and_filter` has so far: the state, the admitted ids and the result. -/
structure Published where
  state : MockState
  admitted : List String
  result : List AvailabilitySlot

/-- One candidate of `publish_and_filter`. -/
def publishOne (now : Time) (acc : Published) (slot : AvailabilitySlot) : Published :=
  let m := acc.state
  if (m.tombstones.get? slot.slotId).any fun tomb => decide (now < tomb.protectedUntil) then acc
  else match m.slots.get? slot.slotId with
    | some entry =>
      ⟨{ m with slots := m.slots.insert slot.slotId { entry with lastTouch := now } },
        acc.admitted.insert slot.slotId, acc.result ++ [entry.slot]⟩
    | none =>
      let room := if m.capacity ≤ m.slots.size then m.evictOne (m.pinnedIds now ++ acc.admitted)
        else some m
      match room with
      | none => acc
      | some m =>
        ⟨{ m with slots := m.slots.insert slot.slotId ⟨slot, now⟩ },
          acc.admitted.insert slot.slotId, acc.result ++ [slot]⟩

/-- `publish_and_filter`: admit candidates under the capacity and return those that are available. -/
def publishAndFilter (m : MockState) (candidates : List AvailabilitySlot) (operationId : String)
    (now : Time) : List AvailabilitySlot × MockState :=
  let acc := candidates.foldl (publishOne now) ⟨m.expirePins now, [], []⟩
  (acc.result, { acc.state with
    pins := acc.admitted.foldl (fun pins slotId => pins.insert slotId ⟨operationId, now + m.pin⟩)
      acc.state.pins })

/-- `get_booking`: the still protected booking of a key. -/
def getBooking (m : MockState) (key : String) (now : Time) : Option BookingConfirmation :=
  match m.bookings.get? key with
  | none => none
  | some booking => if booking.protectedUntil ≤ now then none else some booking.confirmation

/-- `reconcile_booking`: the mock is the system of record, so absence is authoritative. -/
def reconcileBooking (m : MockState) (key : String) (now : Time) : Reconciliation :=
  match m.bookings.get? key with
  | some booking =>
    if now < booking.protectedUntil then .confirmed booking.confirmation else .definitivelyAbsent
  | none => .definitivelyAbsent

/-- `book_slot`: book one admitted slot idempotently and protect the record. -/
def bookSlot (m : MockState) (slotId key : String) (factory : ConfirmationFactory) (now : Time) :
    Except AdapterError BookingConfirmation × MockState :=
  match (m.bookings.get? key).filter fun existing => decide (now < existing.protectedUntil) with
  | some existing => (.ok existing.confirmation, m)
  | none =>
    if (m.tombstones.get? slotId).any fun tomb =>
        decide (now < tomb.protectedUntil) && !decide (tomb.key = key) then
      (.error (.slotUnavailable ("Mock slot is already booked: " ++ slotId)), m)
    else match m.slots.get? slotId with
      | none => (.error (.slotNotFound ("Unknown mock slot: " ++ slotId)), m)
      | some entry =>
        let protectedUntil := now + m.retention
        let confirmation := factory.build entry.slot
        (.ok confirmation, { m with
          bookings := m.bookings.insert key ⟨confirmation, protectedUntil⟩
          tombstones := m.tombstones.insert slotId ⟨key, protectedUntil⟩
          slots := m.slots.erase slotId
          pins := m.pins.erase slotId })

/-- `release_operation`: release a search operation's pins early. -/
def releaseOperation (m : MockState) (operationId : String) : MockState :=
  { m with pins := m.pins.filter fun _ pin => !decide (pin.operationId = operationId) }

/-- The first `batchSize` keys of a table whose entries are due, in the table's order. -/
def dueKeys {α : Type} (d : Dict String α) (due : String → α → Bool) (batchSize : ℕ) : List String :=
  ((d.filter due).entries.map Prod.fst).take batchSize

/-- The deletion of a batch of keys. -/
def eraseAll {α : Type} (d : Dict String α) (keys : List String) : Dict String α :=
  keys.foldl Dict.erase d

/-- Reading any key after a batch of keys is deleted. -/
theorem get?_eraseAll {α : Type} (d : Dict String α) (keys : List String) (k : String) :
    (eraseAll d keys).get? k = if k ∈ keys then none else d.get? k := by
  induction keys generalizing d with
  | nil => simp [eraseAll]
  | cons k₀ keys ih =>
    change (eraseAll (d.erase k₀) keys).get? k = _
    rw [ih, Dict.get?_erase]
    by_cases hk : k₀ = k
    · simp [hk]
    · simp [hk, Ne.symm hk]

/-- `cleanup`: remove idle unbooked slots and expired records, each table in a bounded batch. -/
def cleanup (m : MockState) (now : Time) (batchSize : ℕ) : CleanupCounts × MockState :=
  let m := m.expirePins now
  let pinned := m.pinnedIds now
  let idle := dueKeys m.slots
    (fun slotId entry => !decide (slotId ∈ pinned) && decide (entry.lastTouch + m.idleTtl ≤ now))
    batchSize
  let expiredKeys := dueKeys m.bookings (fun _ b => decide (b.protectedUntil ≤ now)) batchSize
  let expiredTombs := dueKeys m.tombstones (fun _ t => decide (t.protectedUntil ≤ now)) batchSize
  (⟨idle.length, expiredKeys.length⟩, { m with
    slots := eraseAll m.slots idle
    bookings := eraseAll m.bookings expiredKeys
    tombstones := eraseAll m.tombstones expiredTombs })

end MockState

end Dibs
