import Dibs.Models.Calendar

/-!
# Extractions and intents

The contracts of `backend/orchestrator/schemas.py`: what the language model extracts from a prompt, and the
intent that the orchestrator routes. An extraction is untrusted but well formed; the constructor of an intent
checks its fields again, and that its status, its route and its question belong together.
-/

namespace Dibs

/-- `IntentAction`. -/
inductive IntentAction
  | bookReservation
  | searchAvailability
  | createWatch
deriving DecidableEq

/-- `IntentAction.value`. -/
def IntentAction.value : IntentAction → String
  | .bookReservation => "BOOK_RESERVATION"
  | .searchAvailability => "SEARCH_AVAILABILITY"
  | .createWatch => "CREATE_WATCH"

/-- `IntentStatus`. -/
inductive IntentStatus
  | ready
  | needsClarification
deriving DecidableEq

/-- `OrchestratorRoute`. -/
inductive OrchestratorRoute
  | bookingService
  | watchService
  | clarification
deriving DecidableEq

/-- `MissingField`. -/
inductive MissingField
  | action
  | venueName
  | partySize
  | date
  | time
deriving DecidableEq

/-- `ReservationExtraction`: what the provider extracted, before any business validation. -/
structure ReservationExtraction where
  action : Option IntentAction
  venueName : Option String
  venueType : VenueType
  partySize : Option ℕ
  date : Option String
  preferredTime : Option String
  timeWindow : Option TimeWindow
  durationMinutes : Option ℕ
  specialRequests : List String
deriving DecidableEq

/-- `ReservationExtraction` accepts an extraction, and has stripped its texts. -/
structure ReservationExtraction.Valid (e : ReservationExtraction) : Prop where
  venueName : ∀ name ∈ e.venueName, SizedWithin 1 200 name ∧ stripped name = true
  partySize : ∀ size ∈ e.partySize, NumberWithin 1 100 size
  date : ∀ date ∈ e.date, isIsoDate date = true
  preferredTime : ∀ time ∈ e.preferredTime, isHourMinute time = true
  timeWindow : ∀ window ∈ e.timeWindow, window.Valid
  durationMinutes : ∀ minutes ∈ e.durationMinutes, NumberWithin 15 720 minutes
  specialRequests : e.specialRequests.length ≤ 10 ∧
    ∀ request ∈ e.specialRequests, SizedWithin 1 200 request ∧ stripped request = true

/-- `has_valid_date`: whether the extracted date is a day of the calendar. -/
def ReservationExtraction.hasValidDate (e : ReservationExtraction) : Bool :=
  e.date.any fun date => (dateOrdinal date).isSome

/-- `ReservationIntent`: the validated result that is routed. -/
structure ReservationIntent where
  status : IntentStatus
  route : OrchestratorRoute
  action : Option IntentAction
  venueName : Option String
  venueType : VenueType
  market : String
  partySize : Option ℕ
  date : Option String
  preferredTime : Option String
  timeWindow : Option TimeWindow
  durationMinutes : Option ℕ
  specialRequests : List String
  missingFields : List MissingField
  clarificationQuestion : Option String
deriving DecidableEq

namespace ReservationIntent

/-- What the fields of an intent are checked for, `validate_calendar_date` included. Texts with white space at
their ends would be stripped; the orchestrator passes none. -/
structure FieldsValid (i : ReservationIntent) : Prop where
  venueName : ∀ name ∈ i.venueName, SizedWithin 1 200 name ∧ stripped name = true
  market : i.market = kwcMarket
  partySize : ∀ size ∈ i.partySize, NumberWithin 1 100 size
  date : ∀ date ∈ i.date, isIsoDate date = true ∧ (dateOrdinal date).isSome = true
  preferredTime : ∀ time ∈ i.preferredTime, isHourMinute time = true
  timeWindow : ∀ window ∈ i.timeWindow, window.Valid
  durationMinutes : ∀ minutes ∈ i.durationMinutes, NumberWithin 15 720 minutes
  specialRequests : i.specialRequests.length ≤ 10 ∧
    ∀ request ∈ i.specialRequests, SizedWithin 1 200 request ∧ stripped request = true
  clarificationQuestion : ∀ question ∈ i.clarificationQuestion,
    SizedWithin 1 400 question ∧ stripped question = true

instance (i : ReservationIntent) : Decidable i.FieldsValid :=
  decidable_of_iff
    ((∀ name ∈ i.venueName, SizedWithin 1 200 name ∧ stripped name = true) ∧ i.market = kwcMarket ∧
      (∀ size ∈ i.partySize, NumberWithin 1 100 size) ∧
      (∀ date ∈ i.date, isIsoDate date = true ∧ (dateOrdinal date).isSome = true) ∧
      (∀ time ∈ i.preferredTime, isHourMinute time = true) ∧ (∀ window ∈ i.timeWindow, window.Valid) ∧
      (∀ minutes ∈ i.durationMinutes, NumberWithin 15 720 minutes) ∧
      (i.specialRequests.length ≤ 10 ∧
        ∀ request ∈ i.specialRequests, SizedWithin 1 200 request ∧ stripped request = true) ∧
      ∀ question ∈ i.clarificationQuestion, SizedWithin 1 400 question ∧ stripped question = true)
    ⟨fun ⟨a, b, c, d, e, f, g, h, j⟩ => ⟨a, b, c, d, e, f, g, h, j⟩,
      fun ⟨a, b, c, d, e, f, g, h, j⟩ => ⟨a, b, c, d, e, f, g, h, j⟩⟩

/-- `required_values_present` of `validate_state`. -/
def requiredValuesPresent (i : ReservationIntent) : Bool :=
  i.action.isSome && i.venueName.isSome && i.partySize.isSome && i.date.isSome &&
    (i.preferredTime.isSome || i.timeWindow.isSome)

/-- `validate_state`. -/
def validateState (i : ReservationIntent) : Except String ReservationIntent :=
  match i.status with
  | .ready =>
    if ¬ i.requiredValuesPresent then .error "READY intent is missing required reservation data"
    else if i.route = .clarification then .error "READY intent cannot route to clarification"
    else if i.missingFields ≠ [] ∨ i.clarificationQuestion ≠ none then
      .error "READY intent cannot contain clarification data"
    else .ok i
  | .needsClarification =>
    if i.route ≠ .clarification then .error "incomplete intent must route to clarification"
    else if i.missingFields = [] ∨ i.clarificationQuestion = none then
      .error "incomplete intent requires missing fields and a question"
    else .ok i

/-- The constructor of an intent: the fields first, then the state. -/
def build (i : ReservationIntent) : Except String ReservationIntent :=
  if i.FieldsValid then i.validateState else .error "validation error"

/-- The constructor changes nothing. -/
theorem build_ok {i j : ReservationIntent} (h : i.build = .ok j) : j = i := by
  unfold build at h
  split_ifs at h
  unfold validateState at h
  split at h
  · split_ifs at h
    exact (Except.ok.inj h).symm
  · split_ifs at h
    exact (Except.ok.inj h).symm

end ReservationIntent

end Dibs
