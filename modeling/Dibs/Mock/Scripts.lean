import Dibs.Lib.SortedSet
import Dibs.Mock.State
import Dibs.Redis.Lua

/-!
# The mock provider's state on Redis

The keys of `RedisMockBookingStateRepository` under its prefix, one table for each family of keys, and
the Lua scripts of `backend/db/repositories/mock_booking_scripts.py` over them. A script runs as one
atomic step, so it is a function of the database and its `ARGV`; a script that fails answers `none`, and
what it wrote before stays.

JSON texts are the documents they encode. Sets are lists without repetition. The texts under
`booked:{slot}` are kept as they are, because the scripts cut them apart. Times to live only ever remove
a key: `expire` is such a removal, at any moment.
-/

namespace Dibs

/-- The keys of the mock provider's state. -/
structure MockDb where
  /-- `slot:{id}`. -/
  slots : Dict String AvailabilitySlot
  /-- `booking:{key}`; the empty text is no document. -/
  bookings : Dict String (Option BookingConfirmation)
  /-- `booked:{id}`. -/
  booked : Dict String String
  /-- Every unbooked slot, by when it was last asked for. -/
  all : Dict String ℤ
  /-- The slots that may be evicted, with the same scores. -/
  lru : Dict String ℤ
  /-- The pinned slots, by when their pins lapse. -/
  pin : Dict String ℤ
  /-- `pinowner`: the operation that pins a slot. -/
  pinOwner : Dict String String
  /-- `pinop:{operation}`: the slots that an operation has pinned. -/
  pinOps : Dict String (List String)
  /-- Until when the bookings are protected. -/
  bookExp : Dict String ℤ
  /-- Until when the booked slots are protected. -/
  tombExp : Dict String ℤ
deriving DecidableEq

/-- The keys with a time to live. -/
inductive MockKey
  | booking (key : String)
  | booked (slotId : String)
  | pinOp (operation : String)
deriving DecidableEq

/-- What `BOOK_SLOT` answers. -/
inductive BookReply
  | existing (booking : Option BookingConfirmation)
  | unavailable
  | notFound
  | booked (confirmation : Option BookingConfirmation)
deriving DecidableEq

/-- `key .. '|' .. pms`: the text of a tombstone. -/
def tombstoneText (key : String) (protectedMs : ℤ) : String := key ++ "|" ++ luaToString protectedMs

/-- The key and the deadline of a tombstone, cut at the first bar. No number in place of the deadline
makes the comparison that follows fail. -/
def parseTombstone (tomb : String) : Option (String × ℤ) := do
  let (key, deadline) ← splitOnce '|' tomb.toList
  return (String.ofList key, ← luaToNumber deadline)

namespace MockDb

/-- The database before any operation. -/
def empty : MockDb := ⟨.empty, .empty, .empty, .empty, .empty, .empty, .empty, .empty, .empty, .empty⟩

/-- The removal of a key whose time to live has run out. -/
def expire (db : MockDb) : MockKey → MockDb
  | .booking key => { db with bookings := db.bookings.erase key }
  | .booked slotId => { db with booked := db.booked.erase slotId }
  | .pinOp operation => { db with pinOps := db.pinOps.erase operation }

/-- `SREM` from the slots of an operation. A set without members is no key. -/
def unlist (db : MockDb) (operation sid : String) : MockDb :=
  match db.pinOps.get? operation with
  | none => db
  | some members =>
    let members := members.erase sid
    { db with pinOps := if members = [] then db.pinOps.erase operation
        else db.pinOps.insert operation members }

/-- Return a slot that is still there to the eviction index. -/
def returnToLru (db : MockDb) (sid : String) : MockDb :=
  if db.slots.contains sid then
    match db.all.get? sid with
    | some score => { db with lru := db.lru.insert sid score }
    | none => db
  else db

/-- Drop the owner of a slot's pin. -/
def disown (db : MockDb) (sid : String) : MockDb :=
  match db.pinOwner.get? sid with
  | some owner => { db.unlist owner sid with pinOwner := db.pinOwner.erase sid }
  | none => db

/-- One iteration of `reconcile_pins`. -/
def reconcileOne (db : MockDb) (sid : String) : MockDb :=
  ({ db with pin := db.pin.erase sid }.disown sid).returnToLru sid

/-- `reconcile_pins`. -/
def reconcilePins (db : MockDb) (now : ℤ) : MockDb := (db.pin.rangeByScore now).foldl reconcileOne db

/-- Take a slot off the set of another operation that pins it. -/
def takeOver (db : MockDb) (operation sid : String) : MockDb :=
  match db.pinOwner.get? sid with
  | some owner => if owner ≠ operation then db.unlist owner sid else db
  | none => db

/-- The local function `pin` of `PUBLISH_AND_FILTER`. A time to live that is not positive deletes the
key. -/
def pinSlot (operation : String) (now pinTtl : ℤ) (db : MockDb) (sid : String) : MockDb :=
  let db := { db with lru := db.lru.erase sid }.takeOver operation sid
  { db with
    pinOwner := db.pinOwner.insert sid operation
    pin := db.pin.insert sid (now + pinTtl)
    pinOps := if pinTtl ≤ 0 then db.pinOps.erase operation
      else db.pinOps.insert operation (((db.pinOps.get? operation).getD []).insert sid) }

/-- The removal of an unpinned slot. -/
def dropSlot (db : MockDb) (sid : String) : MockDb :=
  { db with lru := db.lru.erase sid, all := db.all.erase sid, slots := db.slots.erase sid }

/-- Remove the slot that was untouched longest, if there is one to evict. -/
def evictOldest (db : MockDb) : Option MockDb := db.lru.first.map db.dropSlot

/-- What the loop of `PUBLISH_AND_FILTER` has so far. -/
structure Publication where
  db : MockDb
  result : List AvailabilitySlot

/-- Whether the tombstone of a slot keeps it from every search; none when its text has no deadline, and
the script fails. -/
def buried (db : MockDb) (sid : String) (now : ℤ) : Option Bool :=
  (db.booked.get? sid).elim (some false) fun tomb =>
    (parseTombstone tomb).map fun held => decide (now < held.2)

/-- One candidate of `PUBLISH_AND_FILTER`; none when the script fails at its tombstone. -/
def publishOne (operation : String) (now pinTtl : ℤ) (capacity : ℕ) (acc : Publication)
    (slot : AvailabilitySlot) : Option Publication :=
  let db := acc.db
  let sid := slot.slotId
  match db.buried sid now with
  | none => none
  | some true => some acc
  | some false =>
    match db.slots.get? sid with
    | some sjson =>
      let db := { db with all := db.all.insert sid now }
      some ⟨pinSlot operation now pinTtl db sid, acc.result ++ [sjson]⟩
    | none =>
      match if capacity ≤ db.all.size then db.evictOldest else some db with
      | none => some acc
      | some db =>
        let db := { db with slots := db.slots.insert sid slot, all := db.all.insert sid now }
        some ⟨pinSlot operation now pinTtl db sid, acc.result ++ [slot]⟩

/-- The loop of `PUBLISH_AND_FILTER`. -/
def publishLoop (operation : String) (now pinTtl : ℤ) (capacity : ℕ) :
    List AvailabilitySlot → Publication → Option (List AvailabilitySlot) × MockDb
  | [], acc => (some acc.result, acc.db)
  | slot :: rest, acc =>
    match publishOne operation now pinTtl capacity acc slot with
    | none => (none, acc.db)
    | some acc => publishLoop operation now pinTtl capacity rest acc

/-- `PUBLISH_AND_FILTER`. -/
def publishScript (db : MockDb) (operation : String) (now pinTtl : ℤ) (capacity : ℕ)
    (candidates : List AvailabilitySlot) : Option (List AvailabilitySlot) × MockDb :=
  publishLoop operation now pinTtl capacity candidates ⟨db.reconcilePins now, []⟩

/-- The writes of `BOOK_SLOT`. -/
def book (db : MockDb) (sid key : String) (conf : Option BookingConfirmation) (protectedMs : ℤ) :
    MockDb :=
  { db with
    bookings := db.bookings.insert key conf
    bookExp := db.bookExp.insert key protectedMs
    booked := db.booked.insert sid (tombstoneText key protectedMs)
    tombExp := db.tombExp.insert sid protectedMs
    slots := db.slots.erase sid
    all := db.all.erase sid
    lru := db.lru.erase sid
    pin := db.pin.erase sid }.disown sid

/-- The booking of a key, if `bookexp` says that it is protected still. -/
def protectedBooking (db : MockDb) (key : String) (now : ℤ) : Option (Option BookingConfirmation) :=
  (db.bookings.get? key).filter fun _ => (db.bookExp.get? key).any fun pexp => decide (now < pexp)

/-- Whether the tombstone of a slot keeps it from a key; none when its text has no deadline, and the
script fails. -/
def takenByOther (db : MockDb) (sid key : String) (now : ℤ) : Option Bool :=
  (db.booked.get? sid).elim (some false) fun tomb =>
    (parseTombstone tomb).map fun held => decide (now < held.2) && !decide (held.1 = key)

/-- `BOOK_SLOT`. Its last argument only sets times to live. -/
def bookScript (db : MockDb) (sid key : String) (conf : Option BookingConfirmation)
    (protectedMs now : ℤ) : Option BookReply × MockDb :=
  match db.protectedBooking key now with
  | some booking => (some (.existing booking), db)
  | none =>
    match db.takenByOther sid key now with
    | none => (none, db)
    | some true => (some .unavailable, db)
    | some false =>
      if !db.slots.contains sid then (some .notFound, db)
      else (some (.booked conf), db.book sid key conf protectedMs)

/-- One iteration of `RELEASE_OPERATION`. -/
def releaseOne (operation : String) (db : MockDb) (sid : String) : MockDb :=
  if db.pinOwner.get? sid = some operation then
    { db with pin := db.pin.erase sid, pinOwner := db.pinOwner.erase sid }.returnToLru sid
  else db

/-- `RELEASE_OPERATION`. -/
def releaseScript (db : MockDb) (operation : String) : MockDb :=
  let db := ((db.pinOps.get? operation).getD []).foldl (releaseOne operation) db
  { db with pinOps := db.pinOps.erase operation }

/-- The removal of an expired booking. -/
def dropBooking (db : MockDb) (key : String) : MockDb :=
  { db with bookings := db.bookings.erase key, bookExp := db.bookExp.erase key }

/-- The removal of an expired tombstone. -/
def dropTombstone (db : MockDb) (sid : String) : MockDb :=
  { db with booked := db.booked.erase sid, tombExp := db.tombExp.erase sid }

/-- `CLEANUP`. -/
def cleanupScript (db : MockDb) (now idleCutoff : ℤ) (batch : ℕ) : CleanupCounts × MockDb :=
  let db := db.reconcilePins now
  let idle := (db.lru.rangeByScore idleCutoff).take batch
  let db := idle.foldl dropSlot db
  let ekeys := (db.bookExp.rangeByScore now).take batch
  let db := ekeys.foldl dropBooking db
  let etombs := (db.tombExp.rangeByScore now).take batch
  (⟨idle.length, ekeys.length⟩, etombs.foldl dropTombstone db)

end MockDb

end Dibs
