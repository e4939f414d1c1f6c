import Dibs.Data.Venues
import Dibs.Orchestrator.Schemas

/-!
# The intent validator

`IntentValidator` of `backend/orchestrator/validator.py`: it turns an untrusted extraction into an intent that
is ready to execute, or into one that asks for what is missing. Dates are judged by the calendar and the
reference date, and the time preference by the clock and against itself.
-/

namespace Dibs

/-- A reference time: an instant in a zone, with its local clock time in minutes. The seconds are cut off, as
`strftime("%H:%M")` cuts them: what the validator reads of the clock is this minute. -/
structure ReferenceTime where
  instant : Time
  zone : Zone
  minute : ℕ
  /-- `reference_time.date()` is a date. -/
  date_bounds : NumberWithin 1 maxOrdinal (zone.localDate instant)
  minute_lt : minute < 24 * 60

/-- `reference_time.date()`. -/
def ReferenceTime.today (reference : ReferenceTime) : ℕ := reference.zone.localDate reference.instant

/-- `reference_time.strftime("%H:%M")`. -/
def ReferenceTime.now (reference : ReferenceTime) : String := fromMinutes reference.minute

/-- `MAX_DAYS_AHEAD`. -/
def maxDaysAhead : ℕ := 365

/-- What `_resolve_date` reports about a date that it does not accept. -/
inductive DateProblem
  | impossible
  | past
  | tooFar
deriving DecidableEq

/-- What `_resolve_time` reports about a time preference. -/
inductive TimeProblem
  | invalidWindow
  | conflicting
  | pastTime
deriving DecidableEq

/-- The result of `_resolve_time`. -/
structure ResolvedTime where
  preferredTime : Option String
  timeWindow : Option TimeWindow
  problem : Option TimeProblem
deriving DecidableEq

/-- `_next_slot_boundary`: a clock time rounded up to the next quarter hour, `23:59` when that is midnight. -/
def nextSlotBoundary (now : String) : Option String :=
  (toMinutes now).map fun (total : ℕ) =>
    let rounded := (-(-(total : ℤ) / slotIntervalMinutes) * slotIntervalMinutes).toNat
    if 24 * 60 ≤ rounded then "23:59" else fromMinutes rounded

/-- The constructor of a `TimeWindow`. -/
def TimeWindow.build (window : TimeWindow) : Except String TimeWindow :=
  if window.Valid then .ok window else .error "validation error"

/-- `_route_for`. -/
def routeFor : Option IntentAction → OrchestratorRoute
  | some .createWatch => .watchService
  | _ => .bookingService

/-! ## The clarification question -/

/-- The question of `_build_question` about one missing field. -/
def MissingField.question : MissingField → String
  | .action => "Would you like me to check availability, book it, or create a watch?"
  | .venueName => "Which restaurant or recreational venue would you like?"
  | .partySize => "How many guests or participants are there?"
  | .date => "What date would you like?"
  | .time => "What time or time range works for you?"

/-- The label of a missing field in a question about several. -/
def MissingField.label : MissingField → String
  | .action => "request type"
  | .venueName => "venue"
  | .partySize => "party size"
  | .date => "date"
  | .time => "time or time range"

/-- The question about a date that was not accepted. -/
def DateProblem.question : DateProblem → String
  | .past => "That date has already passed. What future date would you like?"
  | .impossible => "That date does not exist on the calendar. What date would you like?"
  | .tooFar => "I can only book up to a year ahead. What date within the next year would you like?"

/-- The question about a time preference that was not accepted. -/
def TimeProblem.question : TimeProblem → String
  | .invalidWindow => "The time window is invalid. What time or valid time range works for you?"
  | .conflicting =>
    "The preferred time falls outside the requested time window. Which time constraint should I use?"
  | .pastTime => "That time has already passed today. What later time works, or should I look at another day?"

/-- The list of the first three candidates in a question. -/
def choicesOf : List String → String
  | [] => ""
  | [one] => one
  | [one, two] => one ++ " or " ++ two
  | one :: two :: three :: _ => one ++ ", " ++ two ++ ", or " ++ three

/-- `_specific_question`: a targeted question when exactly one thing went wrong. -/
def specificQuestion (missingFields : List MissingField) (dateProblem : Option DateProblem)
    (timeProblem : Option TimeProblem) (venueCandidates : List String) : Option String :=
  if missingFields = [.venueName] ∧ venueCandidates ≠ [] then
    some ("Did you mean " ++ choicesOf venueCandidates ++ "?")
  else if missingFields = [.date] then dateProblem.map DateProblem.question
  else if missingFields = [.time] then timeProblem.map TimeProblem.question
  else none

/-- `", ".join`. -/
def commaJoin : List String → String
  | [] => ""
  | [one] => one
  | one :: rest => one ++ (", " ++ commaJoin rest)

/-- The labels joined in a question: with `and` between two, and with commas between more. -/
def joinedLabels : List String → String
  | [] => ""
  | [one] => one
  | [one, two] => one ++ " and " ++ two
  | details => commaJoin details.dropLast ++ (", and " ++ details.getLastD "")

/-- `_build_question`. -/
def buildQuestion (missingFields : List MissingField) (dateProblem : Option DateProblem)
    (timeProblem : Option TimeProblem) (venueCandidates : List String) : String :=
  match specificQuestion missingFields dateProblem timeProblem venueCandidates with
  | some question => question
  | none =>
    match missingFields with
    | [field] => field.question
    | fields => "Could you provide the " ++ joinedLabels (fields.map MissingField.label) ++ "?"

/-! ## Validation -/

section Validation

variable (data : UnicodeData)

namespace ReservationExtraction

/-- `_resolve_venue`: the name and type of a known venue, or the candidates of an ambiguous name. -/
def resolvedVenue (e : ReservationExtraction) : Option String × VenueType × List String :=
  match e.venueName with
  | none => (none, e.venueType, [])
  | some name =>
    match resolveVenue data name with
    | .resolved venue => (some venue.name, venue.venueType, [])
    | .ambiguous candidates => (some name, e.venueType, candidates.map Venue.name)
    | .unknown => (some name, e.venueType, [])

/-- `_resolve_date`. -/
def resolveDate (e : ReservationExtraction) (today : ℕ) :
    Except String (Option String × Option DateProblem) :=
  match e.date with
  | none => .ok (none, none)
  | some date =>
    if e.hasValidDate = false then .ok (none, some .impossible)
    else match dateOrdinal date with
    | none => .error "Invalid isoformat string"
    | some target =>
      if target < today then .ok (none, some .past)
      else if maxOrdinal < today + maxDaysAhead then .error "date value out of range"
      else if today + maxDaysAhead < target then .ok (none, some .tooFar)
      else .ok (some date, none)

/-- `_resolve_time`. -/
def resolveTime (e : ReservationExtraction) (reference : ReferenceTime) (targetDate : Option String) :
    Except String ResolvedTime :=
  let preferred := e.preferredTime
  let window := e.timeWindow
  if window.any fun w => decide (w.end.toList < w.start.toList) then
    .ok ⟨preferred, none, some .invalidWindow⟩
  else if window.any fun w => preferred.any fun t =>
      !(decide (w.start.toList ≤ t.toList) && decide (t.toList ≤ w.end.toList)) then
    .ok ⟨preferred, window, some .conflicting⟩
  else if targetDate = some (isoDate reference.today) then
    match nextSlotBoundary reference.now with
    | none => .error "invalid literal for int()"
    | some earliest =>
      if preferred.any fun t => decide (t.toList < earliest.toList) then .ok ⟨none, none, some .pastTime⟩
      else
        match window with
        | none => .ok ⟨preferred, none, none⟩
        | some w =>
          if w.end.toList < earliest.toList then .ok ⟨none, none, some .pastTime⟩
          else if w.start.toList < earliest.toList then do
            let clamped ← TimeWindow.build { w with start := earliest }
            return ⟨preferred, some clamped, none⟩
          else .ok ⟨preferred, some w, none⟩
  else .ok ⟨preferred, window, none⟩

end ReservationExtraction

/-- The fields of `missing_fields`, in the order in which `validate` checks them. -/
def missingFieldsOf (e : ReservationExtraction) (venueName : Option String) (venueCandidates : List String)
    (targetDate : Option String) (time : ResolvedTime) : List MissingField :=
  -- A conflicting pair is not a usable preference.
  let hasTime := (time.preferredTime.isSome || time.timeWindow.isSome) && time.problem != some .conflicting
  (if e.action = none then [.action] else []) ++
    (if venueName = none ∨ venueCandidates ≠ [] then [.venueName] else []) ++
    (if e.partySize = none then [.partySize] else []) ++
    (if targetDate = none then [.date] else []) ++
    (if hasTime then [] else [.time])

/-- The intent that `validate` builds from what it resolved. -/
def intentOf (e : ReservationExtraction) (venue : Option String × VenueType × List String)
    (date : Option String × Option DateProblem) (time : ResolvedTime) : ReservationIntent :=
  let missingFields := missingFieldsOf e venue.1 venue.2.2 date.1 time
  { status := if missingFields = [] then .ready else .needsClarification
    route := if missingFields = [] then routeFor e.action else .clarification
    action := e.action
    venueName := venue.1
    venueType := venue.2.1
    market := kwcMarket
    partySize := e.partySize
    date := date.1
    preferredTime := time.preferredTime
    timeWindow := time.timeWindow
    durationMinutes := e.durationMinutes
    specialRequests := e.specialRequests
    missingFields := missingFields
    clarificationQuestion :=
      if missingFields = [] then none
      else some (buildQuestion missingFields date.2 time.problem venue.2.2) }

/-- `IntentValidator.validate`. -/
def validate (e : ReservationExtraction) (reference : ReferenceTime) : Except String ReservationIntent := do
  let date ← e.resolveDate reference.today
  let time ← e.resolveTime reference date.1
  (intentOf e (e.resolvedVenue data) date time).build

end Validation

/-! ## What the stages resolve -/

/-- The current local time rounded up to the next quarter hour, `23:59` when that is midnight. -/
def ReferenceTime.boundary (reference : ReferenceTime) : ℕ :=
  if 24 * 60 ≤ (reference.minute + 14) / 15 * 15 then 24 * 60 - 1 else (reference.minute + 14) / 15 * 15

theorem ReferenceTime.boundary_lt (reference : ReferenceTime) : reference.boundary < 24 * 60 := by
  unfold boundary
  split_ifs <;> omega

/-- The boundary that the validator compares with. -/
theorem nextSlotBoundary_now (reference : ReferenceTime) :
    nextSlotBoundary reference.now = some (fromMinutes reference.boundary) := by
  have hlt := reference.minute_lt
  have hrounded : (-(-(reference.minute : ℤ) / slotIntervalMinutes) * slotIntervalMinutes).toNat =
      (reference.minute + 14) / 15 * 15 := by
    unfold slotIntervalMinutes
    omega
  unfold nextSlotBoundary ReferenceTime.now
  rw [toMinutes_fromMinutes (by omega), Option.map_some]
  dsimp only
  rw [hrounded]
  unfold ReferenceTime.boundary
  split_ifs
  · rfl
  · rfl

/-- A window whose start is moved to a clock time of the day is accepted. -/
theorem TimeWindow.build_clamped {window : TimeWindow} (h : window.Valid) {minute : ℕ} (hm : minute < 24 * 60) :
    TimeWindow.build { window with start := fromMinutes minute } =
      .ok { window with start := fromMinutes minute } :=
  if_pos ⟨isHourMinute_fromMinutes hm, h.end⟩

namespace ReservationExtraction

/-- `_resolve_date` of a date. -/
theorem resolveDate_of_date {e : ReservationExtraction} {date : String} (h : e.date = some date) (today : ℕ) :
    e.resolveDate today = match dateOrdinal date with
      | none => .ok (none, some .impossible)
      | some target =>
        if target < today then .ok (none, some .past)
        else if maxOrdinal < today + maxDaysAhead then .error "date value out of range"
        else if today + maxDaysAhead < target then .ok (none, some .tooFar)
        else .ok (some date, none) := by
  unfold resolveDate hasValidDate
  rw [h]
  dsimp only
  cases hdate : dateOrdinal date with
  | none =>
    rw [Option.any_some, hdate]
    exact if_pos rfl
  | some target =>
    rw [Option.any_some, hdate]
    exact if_neg (by simp)

/-- `_resolve_date` accepts exactly the days of the calendar from today on, up to a year ahead. -/
theorem resolveDate_spec (e : ReservationExtraction) {today : ℕ} (hyear : today + maxDaysAhead ≤ maxOrdinal) :
    ∃ date, e.resolveDate today = .ok date ∧ ∀ text, date.1 = some text ↔
      e.date = some text ∧ ∃ target, dateOrdinal text = some target ∧ today ≤ target ∧
        target ≤ today + maxDaysAhead := by
  cases hdate : e.date with
  | none =>
    refine ⟨(none, none), ?_, by simp⟩
    unfold resolveDate
    rw [hdate]
  | some text =>
    rw [resolveDate_of_date hdate]
    cases htarget : dateOrdinal text with
    | none =>
      refine ⟨(none, some .impossible), rfl, fun text' => ⟨by simp, ?_⟩⟩
      rintro ⟨heq, target, hread, -⟩
      obtain rfl := Option.some.inj heq
      exact absurd (htarget.symm.trans hread) (by simp)
    | some target =>
      have hread : ∀ text', (some text = some text' ∧ ∃ target', dateOrdinal text' = some target' ∧
          today ≤ target' ∧ target' ≤ today + maxDaysAhead) ↔
          text = text' ∧ today ≤ target ∧ target ≤ today + maxDaysAhead := by
        intro text'
        rw [Option.some_inj]
        refine and_congr_right fun heq => ?_
        subst heq
        simp [htarget]
      dsimp only
      by_cases hpast : target < today
      · refine ⟨(none, some .past), if_pos hpast, fun text' => ?_⟩
        rw [hread]
        exact ⟨by simp, fun h => absurd h.2.1 (Nat.not_le.mpr hpast)⟩
      rw [if_neg hpast, if_neg (Nat.not_lt.mpr hyear)]
      by_cases hfar : today + maxDaysAhead < target
      · refine ⟨(none, some .tooFar), if_pos hfar, fun text' => ?_⟩
        rw [hread]
        exact ⟨by simp, fun h => absurd h.2.2 (Nat.not_le.mpr hfar)⟩
      · refine ⟨(some text, none), if_neg hfar, fun text' => ?_⟩
        rw [hread, Option.some_inj]
        exact ⟨fun heq => ⟨heq, Nat.not_lt.mp hpast, Nat.not_lt.mp hfar⟩, And.left⟩

/-- The time preference was resolved without a conflict: it is well formed, the time is in the window, and on
the day itself neither is past. -/
structure Settled (e : ReservationExtraction) (reference : ReferenceTime) (targetDate : Option String)
    (time : ResolvedTime) : Prop where
  /-- The window is in order. -/
  ordered : ∀ w ∈ time.timeWindow, w.start.toList ≤ w.end.toList
  /-- The time is in the window. -/
  inside : ∀ t ∈ time.preferredTime, ∀ w ∈ time.timeWindow, w.start.toList ≤ t.toList ∧ t.toList ≤ w.end.toList
  /-- On the day itself the window is not past. -/
  windowAhead : targetDate = some (isoDate reference.today) → ∀ w ∈ time.timeWindow,
    (fromMinutes reference.boundary).toList ≤ w.start.toList
  /-- On the day itself the time is not past, unless the window was malformed. -/
  timeAhead : targetDate = some (isoDate reference.today) →
    (∀ w ∈ e.timeWindow, w.start.toList ≤ w.end.toList) → ∀ t ∈ time.preferredTime,
      (fromMinutes reference.boundary).toList ≤ t.toList

/-- What is left of a time preference comes from the extraction; only the start of a window may move to the
boundary. -/
structure LeftOf (e : ReservationExtraction) (reference : ReferenceTime) (time : ResolvedTime) : Prop where
  preferredTime : ∀ t ∈ time.preferredTime, t ∈ e.preferredTime
  timeWindow : ∀ w ∈ time.timeWindow, ∃ w' ∈ e.timeWindow, w.end = w'.end ∧
    (w.start = w'.start ∨ w.start = fromMinutes reference.boundary)

/-- What is left of a well formed preference is well formed. -/
theorem LeftOf.valid {e : ReservationExtraction} (he : e.Valid) {reference : ReferenceTime}
    {time : ResolvedTime} (h : e.LeftOf reference time) :
    (∀ t ∈ time.preferredTime, isHourMinute t = true) ∧ ∀ w ∈ time.timeWindow, w.Valid := by
  refine ⟨fun t ht => he.preferredTime t (h.preferredTime t ht), fun w hw => ?_⟩
  obtain ⟨w', hw', hend, hstart⟩ := h.timeWindow w hw
  have hvalid := he.timeWindow w' hw'
  refine ⟨?_, hend ▸ hvalid.end⟩
  rcases hstart with hstart | hstart
  · exact hstart ▸ hvalid.start
  · exact hstart ▸ isHourMinute_fromMinutes reference.boundary_lt

/-- A time preference that is left as it is. -/
theorem LeftOf.same (e : ReservationExtraction) (reference : ReferenceTime) (problem : Option TimeProblem) :
    e.LeftOf reference ⟨e.preferredTime, e.timeWindow, problem⟩ :=
  ⟨fun _ h => h, fun w hw => ⟨w, hw, rfl, .inl rfl⟩⟩

/-- `_resolve_time` never raises. What it leaves comes from the extraction, and is settled when it reports no
conflict. -/
theorem resolveTime_spec {e : ReservationExtraction} (he : e.Valid) (reference : ReferenceTime)
    (targetDate : Option String) :
    ∃ time, e.resolveTime reference targetDate = .ok time ∧ e.LeftOf reference time ∧
      (time.problem ≠ some .conflicting → e.Settled reference targetDate time) ∧
      ((∃ w ∈ e.timeWindow, w.end.toList < w.start.toList) →
        time = ⟨e.preferredTime, none, some .invalidWindow⟩) := by
  unfold resolveTime
  dsimp only
  by_cases hinverted : (e.timeWindow.any fun w => decide (w.end.toList < w.start.toList)) = true
  · -- The malformed window is dropped, and nothing else is looked at.
    rw [if_pos hinverted]
    obtain ⟨w, hw, hlt⟩ := (Option.any_eq_true ..).mp hinverted
    refine ⟨_, rfl, ⟨fun _ h => h, by simp⟩, fun _ => ⟨by simp, by simp, by simp, fun _ hordered => ?_⟩,
      fun _ => rfl⟩
    exact absurd (hordered w hw) (not_le.mpr (of_decide_eq_true hlt))
  have hordered : ∀ w ∈ e.timeWindow, w.start.toList ≤ w.end.toList := by
    intro w hw
    by_contra hlt
    exact hinverted ((Option.any_eq_true ..).mpr ⟨w, hw, decide_eq_true (not_le.mp hlt)⟩)
  have hnot : ¬ ∃ w ∈ e.timeWindow, w.end.toList < w.start.toList := by
    rintro ⟨w, hw, hlt⟩
    exact absurd (hordered w hw) (not_le.mpr hlt)
  rw [if_neg hinverted]
  by_cases hconflict : (e.timeWindow.any fun w => e.preferredTime.any fun t =>
      !(decide (w.start.toList ≤ t.toList) && decide (t.toList ≤ w.end.toList))) = true
  · rw [if_pos hconflict]
    exact ⟨_, rfl, .same .., fun h => absurd rfl h, fun h => absurd h hnot⟩
  have hinside : ∀ t ∈ e.preferredTime, ∀ w ∈ e.timeWindow,
      w.start.toList ≤ t.toList ∧ t.toList ≤ w.end.toList := by
    intro t ht w hw
    by_contra hout
    refine hconflict ((Option.any_eq_true ..).mpr ⟨w, hw, (Option.any_eq_true ..).mpr ⟨t, ht, ?_⟩⟩)
    rcases not_and_or.mp hout with h | h <;> simp [h]
  rw [if_neg hconflict]
  by_cases htoday : targetDate = some (isoDate reference.today)
  swap
  · rw [if_neg htoday]
    exact ⟨_, rfl, .same .., fun _ => ⟨hordered, hinside, fun h => absurd h htoday, fun h => absurd h htoday⟩,
      fun h => absurd h hnot⟩
  rw [if_pos htoday, nextSlotBoundary_now]
  have hboundary := reference.boundary_lt
  dsimp only
  -- What is past is dropped, and a window that has begun starts at the boundary.
  have hnone : e.Settled reference targetDate ⟨none, none, some .pastTime⟩ :=
    ⟨by simp, by simp, by simp, by simp⟩
  by_cases hpast : (e.preferredTime.any fun t =>
      decide (t.toList < (fromMinutes reference.boundary).toList)) = true
  · rw [if_pos hpast]
    exact ⟨_, rfl, ⟨by simp, by simp⟩, fun _ => hnone, fun h => absurd h hnot⟩
  have hahead : ∀ t ∈ e.preferredTime, (fromMinutes reference.boundary).toList ≤ t.toList := by
    intro t ht
    by_contra hlt
    exact hpast ((Option.any_eq_true ..).mpr ⟨t, ht, decide_eq_true (not_le.mp hlt)⟩)
  rw [if_neg hpast]
  cases hwindow : e.timeWindow with
  | none =>
    refine ⟨_, rfl, ⟨fun _ h => h, by simp⟩, fun _ => ⟨by simp, by simp, by simp, fun _ _ => hahead⟩, ?_⟩
    simp
  | some w =>
    have hw := he.timeWindow w hwindow
    have hwordered := hordered w hwindow
    rw [hwindow] at hnot
    dsimp only
    by_cases hended : w.end.toList < (fromMinutes reference.boundary).toList
    · rw [if_pos hended]
      exact ⟨_, rfl, ⟨by simp, by simp⟩, fun _ => hnone, fun h => absurd h hnot⟩
    rw [if_neg hended]
    by_cases hbegun : w.start.toList < (fromMinutes reference.boundary).toList
    · rw [if_pos hbegun, TimeWindow.build_clamped hw hboundary]
      refine ⟨_, rfl, ⟨fun _ h => h, ?_⟩, fun _ => ⟨?_, ?_, ?_, fun _ _ => hahead⟩, fun h => absurd h hnot⟩
      · rintro _ ⟨⟩
        exact ⟨w, hwindow, rfl, .inr rfl⟩
      · rintro _ ⟨⟩
        exact not_lt.mp hended
      · rintro t ht _ ⟨⟩
        exact ⟨hahead t ht, (hinside t ht w hwindow).2⟩
      · rintro - _ ⟨⟩
        exact le_rfl
    · rw [if_neg hbegun]
      refine ⟨_, rfl, ⟨fun _ h => h, ?_⟩, fun _ => ⟨?_, ?_, ?_, fun _ _ => hahead⟩, fun h => absurd h hnot⟩
      · rintro _ ⟨⟩
        exact ⟨w, hwindow, rfl, .inl rfl⟩
      · rintro _ ⟨⟩
        exact hwordered
      · rintro t ht _ ⟨⟩
        exact hinside t ht w hwindow
      · rintro - _ ⟨⟩
        exact not_lt.mp hbegun

end ReservationExtraction

end Dibs
