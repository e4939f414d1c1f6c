import Mathlib.Data.String.Basic
import Dibs.Models.Watch

/-!
# What the models accept

The field bounds and validators of `backend/models/reservation.py`, `backend/models/watch.py` and
`backend/models/watch_runtime.py`. `model_copy` skips them, and `model_validate_json` checks them
again on every document that is read back.

Lengths count code points. `\d` in a pattern stands for any decimal digit of Unicode, and
`str_strip_whitespace` leaves a string alone exactly when no white space stands at its ends.
-/

namespace Dibs

/-- The decimal digits that stand for zero, each the first of ten. -/
def zeroDigits : List ℕ :=
  [0x30, 0x660, 0x6f0, 0x7c0, 0x966, 0x9e6, 0xa66, 0xae6, 0xb66, 0xbe6, 0xc66, 0xce6, 0xd66, 0xde6,
    0xe50, 0xed0, 0xf20, 0x1040, 0x1090, 0x17e0, 0x1810, 0x1946, 0x19d0, 0x1a80, 0x1a90, 0x1b50,
    0x1bb0, 0x1c40, 0x1c50, 0xa620, 0xa8d0, 0xa900, 0xa9d0, 0xa9f0, 0xaa50, 0xabf0, 0xff10, 0x104a0,
    0x10d30, 0x10d40, 0x11066, 0x110f0, 0x11136, 0x111d0, 0x112f0, 0x11450, 0x114d0, 0x11650, 0x116c0,
    0x116d0, 0x116da, 0x11730, 0x118e0, 0x11950, 0x11bf0, 0x11c50, 0x11d50, 0x11da0, 0x11f50, 0x16130,
    0x16a60, 0x16ac0, 0x16b50, 0x16d70, 0x1ccf0, 0x1d7ce, 0x1d7d8, 0x1d7e2, 0x1d7ec, 0x1d7f6, 0x1e140,
    0x1e2f0, 0x1e4f0, 0x1e5f1, 0x1e950, 0x1fbf0]

/-- `\d`. -/
def isDecimalDigit (c : Char) : Bool :=
  zeroDigits.any fun first => decide (first ≤ c.toNat) && decide (c.toNat < first + 10)

/-- The white space that `str_strip_whitespace` removes. -/
def isWhiteSpace (c : Char) : Bool :=
  (decide (9 ≤ c.toNat) && decide (c.toNat ≤ 13)) ||
    (decide (0x2000 ≤ c.toNat) && decide (c.toNat ≤ 0x200a)) ||
    [0x20, 0x85, 0xa0, 0x1680, 0x2028, 0x2029, 0x202f, 0x205f, 0x3000].contains c.toNat

/-- A string that `str_strip_whitespace` leaves alone. -/
def stripped (s : String) : Bool :=
  s.toList.head?.all (!isWhiteSpace ·) && s.toList.getLast?.all (!isWhiteSpace ·)

/-- A string of a number of characters between two bounds: `min_length` and `max_length`. -/
def SizedWithin (low high : ℕ) (s : String) : Prop := low ≤ s.toList.length ∧ s.toList.length ≤ high

instance (low high : ℕ) (s : String) : Decidable (SizedWithin low high s) :=
  inferInstanceAs (Decidable (_ ∧ _))

/-- A number between two bounds: `ge` and `le`. -/
def NumberWithin (low high n : ℕ) : Prop := low ≤ n ∧ n ≤ high

instance (low high n : ℕ) : Decidable (NumberWithin low high n) :=
  inferInstanceAs (Decidable (_ ∧ _))

/-- Whether the characters of a string pass their tests one by one: a pattern without repetition. -/
def matchesTests (tests : List (Char → Bool)) (s : String) : Bool :=
  s.toList.length = tests.length && (List.zipWith (fun test c => test c) tests s.toList).all id

/-- `IsoDate`: `^\d{4}-\d{2}-\d{2}$`. -/
def isIsoDate : String → Bool :=
  let d := isDecimalDigit
  matchesTests [d, d, d, d, (· == '-'), d, d, (· == '-'), d, d]

/-- `HourMinute`: `^(?:[01]\d|2[0-3]):[0-5]\d$`. -/
def isHourMinute (s : String) : Bool :=
  let d := isDecimalDigit
  matchesTests [fun c => c == '0' || c == '1', d, (· == ':'), fun c => '0' ≤ c && c ≤ '5', d] s ||
    matchesTests [(· == '2'), fun c => '0' ≤ c && c ≤ '3', (· == ':'), fun c => '0' ≤ c && c ≤ '5', d] s

/-- `ProviderName`: `^[a-z0-9][a-z0-9_-]*$`, at most 40 characters. -/
def isProviderName (s : String) : Bool :=
  let letter := fun c : Char => c.isLower || c.isDigit
  decide (SizedWithin 1 40 s) && s.toList.head?.all letter &&
    s.toList.all fun c => letter c || c == '_' || c == '-'

/-- The days of the months of a year. -/
def daysInMonth (year month : ℕ) : ℕ :=
  let leap := year % 4 = 0 ∧ (year % 100 ≠ 0 ∨ year % 400 = 0)
  [31, if leap then 29 else 28, 31, 30, 31, 30, 31, 31, 30, 31, 30, 31].getD (month - 1) 0

/-- The days before a year, `_days_before_year`. -/
def daysBeforeYear (year : ℕ) : ℕ :=
  (year - 1) * 365 + (year - 1) / 4 - (year - 1) / 100 + (year - 1) / 400

/-- The days of a year before a month, `_days_before_month`. -/
def daysBeforeMonth (year month : ℕ) : ℕ :=
  (List.range' 1 (month - 1)).foldl (fun days m => days + daysInMonth year m) 0

/-- The number that some decimal digits of ASCII write. -/
def asciiNumber (digits : List Char) : Option ℕ :=
  if digits.all Char.isDigit then
    some (digits.foldl (fun n c => 10 * n + (c.toNat - 0x30)) 0)
  else none

/-- `date.fromisoformat`, for a text in the form of an `IsoDate`, and then `toordinal`. -/
def dateOrdinal (iso : String) : Option ℕ := do
  let cs := iso.toList
  let year ← asciiNumber (cs.take 4)
  let month ← asciiNumber ((cs.drop 5).take 2)
  let day ← asciiNumber ((cs.drop 8).take 2)
  if 1 ≤ year ∧ NumberWithin 1 12 month ∧ NumberWithin 1 (daysInMonth year month) day then
    some (daysBeforeYear year + daysBeforeMonth year month + day)
  else none

/-- `TimeWindow` accepts a window. -/
structure TimeWindow.Valid (t : TimeWindow) : Prop where
  start : isHourMinute t.start = true
  «end» : isHourMinute t.end = true

instance (t : TimeWindow) : Decidable t.Valid :=
  decidable_of_iff (isHourMinute t.start = true ∧ isHourMinute t.end = true)
    ⟨fun h => ⟨h.1, h.2⟩, fun h => ⟨h.start, h.end⟩⟩

/-- The one market that queries name. -/
def kwcMarket : String := "Kitchener-Waterloo-Cambridge, ON"

/-- `validate_time_preference`: a time, or a window, and a time inside its window. -/
def AvailabilityQuery.TimePreference (q : AvailabilityQuery) : Prop :=
  (q.preferredTime ≠ none ∨ q.timeWindow ≠ none) ∧
    ∀ time ∈ q.preferredTime, ∀ window ∈ q.timeWindow,
      window.start.toList ≤ time.toList ∧ time.toList ≤ window.end.toList

instance (q : AvailabilityQuery) : Decidable q.TimePreference := inferInstanceAs (Decidable (_ ∧ _))

/-- `AvailabilityQuery` accepts a query, and has stripped its texts. -/
structure AvailabilityQuery.Valid (q : AvailabilityQuery) : Prop where
  venueName : SizedWithin 1 200 q.venueName ∧ stripped q.venueName = true
  market : q.market = kwcMarket
  partySize : NumberWithin 1 100 q.partySize
  date : isIsoDate q.date = true ∧ (dateOrdinal q.date).isSome = true
  preferredTime : ∀ time ∈ q.preferredTime, isHourMinute time = true
  timeWindow : ∀ window ∈ q.timeWindow, window.Valid
  durationMinutes : ∀ minutes ∈ q.durationMinutes, NumberWithin 15 720 minutes
  specialRequests : q.specialRequests.length ≤ 10 ∧
    ∀ request ∈ q.specialRequests, SizedWithin 1 200 request ∧ stripped request = true
  timePreference : q.TimePreference

instance (q : AvailabilityQuery) : Decidable q.Valid :=
  decidable_of_iff
    ((SizedWithin 1 200 q.venueName ∧ stripped q.venueName = true) ∧ q.market = kwcMarket ∧
      NumberWithin 1 100 q.partySize ∧ (isIsoDate q.date = true ∧ (dateOrdinal q.date).isSome = true) ∧
      (∀ time ∈ q.preferredTime, isHourMinute time = true) ∧
      (∀ window ∈ q.timeWindow, window.Valid) ∧
      (∀ minutes ∈ q.durationMinutes, NumberWithin 15 720 minutes) ∧
      (q.specialRequests.length ≤ 10 ∧
        ∀ request ∈ q.specialRequests, SizedWithin 1 200 request ∧ stripped request = true) ∧
      q.TimePreference)
    ⟨fun ⟨a, b, c, d, e, f, g, h, i⟩ => ⟨a, b, c, d, e, f, g, h, i⟩,
      fun ⟨a, b, c, d, e, f, g, h, i⟩ => ⟨a, b, c, d, e, f, g, h, i⟩⟩

/-- `AvailabilitySlot` accepts a slot. -/
structure AvailabilitySlot.Valid (s : AvailabilitySlot) : Prop where
  slotId : SizedWithin 1 200 s.slotId
  provider : isProviderName s.provider = true
  venueName : SizedWithin 1 200 s.venueName
  date : isIsoDate s.date = true
  startTime : isHourMinute s.startTime = true
  endTime : ∀ time ∈ s.endTime, isHourMinute time = true
  partySize : NumberWithin 1 100 s.partySize
  maxPartySize : NumberWithin 1 100 s.maxPartySize
  capacity : s.partySize ≤ s.maxPartySize

instance (s : AvailabilitySlot) : Decidable s.Valid :=
  decidable_of_iff
    (SizedWithin 1 200 s.slotId ∧ isProviderName s.provider = true ∧ SizedWithin 1 200 s.venueName ∧
      isIsoDate s.date = true ∧ isHourMinute s.startTime = true ∧
      (∀ time ∈ s.endTime, isHourMinute time = true) ∧ NumberWithin 1 100 s.partySize ∧
      NumberWithin 1 100 s.maxPartySize ∧ s.partySize ≤ s.maxPartySize)
    ⟨fun ⟨a, b, c, d, e, f, g, h, i⟩ => ⟨a, b, c, d, e, f, g, h, i⟩,
      fun ⟨a, b, c, d, e, f, g, h, i⟩ => ⟨a, b, c, d, e, f, g, h, i⟩⟩

/-- `BookingConfirmation` accepts a confirmation. -/
structure BookingConfirmation.Valid (b : BookingConfirmation) : Prop where
  bookingId : SizedWithin 1 200 b.bookingId
  provider : isProviderName b.provider = true
  slot : b.slot.Valid

instance (b : BookingConfirmation) : Decidable b.Valid :=
  decidable_of_iff (SizedWithin 1 200 b.bookingId ∧ isProviderName b.provider = true ∧ b.slot.Valid)
    ⟨fun ⟨a, b, c⟩ => ⟨a, b, c⟩, fun ⟨a, b, c⟩ => ⟨a, b, c⟩⟩

/-- `validate_state`: the relations between the fields of a watch. -/
structure Watch.Consistent (w : Watch) : Prop where
  /-- `BOOKED watch requires a confirmation`. -/
  booked : w.status = .booked → w.booking ≠ none
  /-- `FOUND watch requires at least one slot`. -/
  found : w.status = .found → w.foundSlots ≠ []
  /-- `a finished watch cannot have a next check scheduled`. -/
  finished : w.status.isTerminal = true → w.nextCheckAt = none
  /-- `attempts cannot exceed max_attempts`. -/
  attempts : w.attempts ≤ w.maxAttempts

instance (w : Watch) : Decidable w.Consistent :=
  decidable_of_iff
    ((w.status = .booked → w.booking ≠ none) ∧ (w.status = .found → w.foundSlots ≠ []) ∧
      (w.status.isTerminal = true → w.nextCheckAt = none) ∧ w.attempts ≤ w.maxAttempts)
    ⟨fun ⟨a, b, c, d⟩ => ⟨a, b, c, d⟩, fun ⟨a, b, c, d⟩ => ⟨a, b, c, d⟩⟩

/-- `Watch` accepts a document. -/
structure Watch.Valid (w : Watch) : Prop where
  watchId : SizedWithin 1 200 w.watchId
  query : w.query.Valid
  maxAttempts : 1 ≤ w.maxAttempts
  foundSlots : w.foundSlots.length ≤ 32 ∧ ∀ slot ∈ w.foundSlots, slot.Valid
  booking : ∀ confirmation ∈ w.booking, confirmation.Valid
  lastError : ∀ error ∈ w.lastError, SizedWithin 1 500 error
  consistent : w.Consistent

instance (w : Watch) : Decidable w.Valid :=
  decidable_of_iff
    (SizedWithin 1 200 w.watchId ∧ w.query.Valid ∧ 1 ≤ w.maxAttempts ∧
      (w.foundSlots.length ≤ 32 ∧ ∀ slot ∈ w.foundSlots, slot.Valid) ∧
      (∀ confirmation ∈ w.booking, confirmation.Valid) ∧
      (∀ error ∈ w.lastError, SizedWithin 1 500 error) ∧ w.Consistent)
    ⟨fun ⟨a, b, c, d, e, f, g⟩ => ⟨a, b, c, d, e, f, g⟩,
      fun ⟨a, b, c, d, e, f, g⟩ => ⟨a, b, c, d, e, f, g⟩⟩

/-- `_MAX_COUNT`. -/
def maxCount : ℕ := 1000000000

/-- `_MAX_REQUIRED_ATTEMPTS`. -/
def maxRequiredAttempts : ℕ := 10000000000

/-- `WatchRuntime` accepts a sidecar. Its instants are timezone-aware here. -/
structure WatchRuntime.Valid (r : WatchRuntime) : Prop where
  revision : r.revision ≤ maxCount
  requiredAttempts : NumberWithin 1 maxRequiredAttempts r.requiredAttempts
  consecutiveOutages : r.consecutiveOutages ≤ maxCount
  cadenceSequence : r.cadenceSequence ≤ maxCount
  windowId : ∀ windowId ∈ r.windowId, SizedWithin 0 256 windowId

instance (r : WatchRuntime) : Decidable r.Valid :=
  decidable_of_iff
    (r.revision ≤ maxCount ∧ NumberWithin 1 maxRequiredAttempts r.requiredAttempts ∧
      r.consecutiveOutages ≤ maxCount ∧ r.cadenceSequence ≤ maxCount ∧
      ∀ windowId ∈ r.windowId, SizedWithin 0 256 windowId)
    ⟨fun ⟨a, b, c, d, e⟩ => ⟨a, b, c, d, e⟩, fun ⟨a, b, c, d, e⟩ => ⟨a, b, c, d, e⟩⟩

end Dibs
