import Dibs.Data.Venues
import Dibs.Lib.Sha256
import Dibs.Mock.State

/-!
# The mock adapter

`backend/integrations/mock_booking.py`: the slots that a query can be offered, generated from the profile of
its venue, and the search that publishes them in the shared store. A function that raises answers `none`.
-/

namespace Dibs

/-- `SLOT_CAPACITIES`: the table sizes that the slots of a venue cycle through. -/
def slotCapacities : List ℕ := [2, 4, 6, 8, 10]

/-- `_MINUTES_PER_DAY`. -/
def minutesPerDay : ℕ := 24 * 60

/-- `str.casefold`. -/
def UnicodeData.casefoldText (data : UnicodeData) (text : String) : String :=
  String.ofList (data.casefold text.toList)

/-- The bytes of `NAMESPACE_URL`. -/
def namespaceUrl : List UInt8 :=
  [0x6b, 0xa7, 0xb8, 0x11, 0x9d, 0xad, 0x11, 0xd1, 0x80, 0xb4, 0x00, 0xc0, 0x4f, 0xd4, 0x30, 0xc8]

/-- `uuid5(NAMESPACE_URL, name).hex`: the first half of a SHA-1 digest, with its version and its variant. -/
def uuid5Hex (name : String) : String :=
  let ws := Sha1.words (Sha1.pad (namespaceUrl ++ name.toUTF8.toList))
  let h := Sha1.blocks ws.length ws Sha1.Digest.start
  String.ofList ([h.a, (h.b &&& 0xffff0fff) ||| 0x5000, (h.c &&& 0x3fffffff) ||| 0x80000000, h.d].flatMap
    Sha1.hexWord)

/-! ## Candidate times -/

/-- `_snap_to_grid`: the nearest slot boundary, preferring the earlier. -/
def snapToGrid (minutes : ℕ) : ℕ :=
  let offset := minutes % slotIntervalMinutes
  if offset = 0 then minutes
  else if offset * 2 ≤ slotIntervalMinutes then minutes - offset
  else minutes - offset + slotIntervalMinutes

/-- `range(first, last + 1, SLOT_INTERVAL_MINUTES)`. -/
def gridRange (first last : ℕ) : List ℕ :=
  List.range' first ((last + slotIntervalMinutes - first) / slotIntervalMinutes) slotIntervalMinutes

/-- The minutes of opening and of closing. A venue that does not close after it opens closes the next day. -/
def OpeningHours.span (hours : OpeningHours) : Option (ℕ × ℕ) := do
  let opens ← toMinutes hours.openTime
  let closes ← toMinutes hours.closeTime
  return (opens, if closes ≤ opens then closes + minutesPerDay else closes)

/-- `query.duration_minutes or …`: a duration that is given and not 0. -/
def AvailabilityQuery.duration (query : AvailabilityQuery) : Option ℕ :=
  query.durationMinutes.filter (· ≠ 0)

/-- The minutes that a reservation takes. -/
def AvailabilityQuery.stay (query : AvailabilityQuery) (profile : VenueProfile) : ℕ :=
  query.duration.getD profile.minimumStayMinutes

/-- A preferred time that is a candidate moves to the front. -/
def preferredFirst (preferred : Option String) (candidates : List String) : List String :=
  match preferred with
  | none => candidates
  | some time => if time ∈ candidates then time :: candidates.erase time else candidates

/-- The part of `_candidate_times` after the first and the last possible start are known. -/
def startTimes (query : AvailabilityQuery) (opens latestStart : ℕ) : Option (List String) :=
  match query.timeWindow with
  | none =>
    match query.preferredTime with
    | none => some []
    | some preferred => do
      let exactly := snapToGrid (← toMinutes preferred)
      if opens ≤ exactly ∧ exactly ≤ latestStart then some [fromMinutes exactly] else some []
  | some window => do
    let first := max opens (snapToGrid (← toMinutes window.start))
    let last := min latestStart (← toMinutes window.end)
    let candidates := (gridRange first last).map fromMinutes
    some ((preferredFirst query.preferredTime candidates).take maxGeneratedSlots)

/-- `_candidate_times`: bookable start times inside the venue's hours. -/
def candidateTimes (query : AvailabilityQuery) (profile : VenueProfile) (hours : OpeningHours) :
    Option (List String) := do
  let (opens, closes) ← hours.span
  -- `latest_start < opens`
  if closes < opens + query.stay profile then some []
  else startTimes query opens (closes - query.stay profile)

/-- `_end_time`. -/
def endTime (startTime : String) : Option ℕ → Option (Option String)
  | none => some none
  | some durationMinutes => (toMinutes startTime).map fun start =>
    some (fromMinutes ((start + durationMinutes) % minutesPerDay))

/-! ## Slots -/

/-- A `MockBookingAdapter`, as far as it generates slots. -/
structure MockBookingAdapter where
  data : UnicodeData
  /-- `_unavailable_venues`, stripped and casefolded. -/
  unavailableVenues : List String

/-- The constructor of an `AvailabilitySlot`. -/
def AvailabilitySlot.build (slot : AvailabilitySlot) : Option AvailabilitySlot :=
  if slot.Valid then some slot else none

namespace MockBookingAdapter

variable (adapter : MockBookingAdapter)

/-- `_slot_capacity`: a table size that depends on the venue, the date and the start. -/
def slotCapacity (query : AvailabilityQuery) (startTime : String) (profile : VenueProfile) : ℕ :=
  let identity := adapter.data.casefoldText query.venueName ++ "|" ++ query.date ++ "|" ++ startTime
  let firstByte := (sha256Words identity).getD 0 0 / 2^24
  min (slotCapacities.getD (firstByte % slotCapacities.length) 0) profile.maxPartySize

/-- The text that identifies a slot. -/
def identity (query : AvailabilityQuery) (startTime : String) : String :=
  query.market ++ "|" ++ adapter.data.casefoldText query.venueName ++ "|" ++ query.date ++ "|" ++ startTime ++
    ("|" ++ toString query.partySize ++ "|" ++ query.duration.elim "none" toString)

/-- The id of the slot at a start. -/
def slotId (query : AvailabilityQuery) (startTime : String) : String :=
  "mock_" ++ uuid5Hex (adapter.identity query startTime)

/-- The slot at a start, with the end of its stay. -/
def slotOf (profile : VenueProfile) (query : AvailabilityQuery) (startTime : String)
    (endTime : Option String) : AvailabilitySlot where
  slotId := adapter.slotId query startTime
  provider := "mock"
  venueName := query.venueName
  venueType := query.venueType
  date := query.date
  startTime := startTime
  endTime := endTime
  partySize := query.partySize
  maxPartySize := adapter.slotCapacity query startTime profile

/-- The part of `_generate` that builds one slot. -/
def slotAt (profile : VenueProfile) (query : AvailabilityQuery) (startTime : String) :
    Option AvailabilitySlot :=
  (endTime startTime query.durationMinutes).bind fun finish =>
    (adapter.slotOf profile query startTime finish).build

/-- Whether the table at a start is large enough. -/
def seats (profile : VenueProfile) (query : AvailabilityQuery) (startTime : String) : Bool :=
  decide (query.partySize ≤ adapter.slotCapacity query startTime profile)

/-- `_generate`, for a venue with the profile: every candidate slot for one query. -/
def generateFor (profile : VenueProfile) (query : AvailabilityQuery) : Option (List AvailabilitySlot) :=
  if adapter.data.casefoldText query.venueName ∈ adapter.unavailableVenues then some []
  else (dateOrdinal query.date).bind fun day =>
    if profile.isSoldOut day = true ∨ profile.maxPartySize < query.partySize then some []
    else match profile.hoursFor day with
      | none => some []
      | some hours => (candidateTimes query profile hours).bind fun times =>
        (times.filter (adapter.seats profile query)).mapM (adapter.slotAt profile query)

/-- `_generate`. -/
def generate (query : AvailabilityQuery) : Option (List AvailabilitySlot) :=
  adapter.generateFor (profileFor adapter.data query.venueName) query

/-- `search_availability`: publish what is generated and return what is available of it. The pins of the
search are released again. -/
def searchAvailability (query : AvailabilityQuery) (operationId : String) (now : Time) (m : MockState) :
    Option (List AvailabilitySlot) × MockState :=
  match adapter.generate query with
  | none => (none, m)
  | some [] => (some [], m)
  | some candidates =>
    let (available, m) := m.publishAndFilter candidates operationId now
    (some available, m.releaseOperation operationId)

end MockBookingAdapter

end Dibs
