import Dibs.Orchestrator.Readiness
import Dibs.Service.Creation

/-!
# Executing a ready intent

Both services turn a ready intent into the query that they pass on, `BookingService._query_from` and
`WatchService._query_from`, and the query model checks it once more. What the validator calls ready passes
(`ready_executable`), and a watch for it is not refused as past.
-/

namespace Dibs

/-- The constructor of an `AvailabilityQuery`. -/
def AvailabilityQuery.build (query : AvailabilityQuery) : Except String AvailabilityQuery :=
  if query.Valid then .ok query else .error "validation error"

/-- The query of an intent, or the error of the service that asks for it. -/
def queryFrom (missing : String) (intent : ReservationIntent) : Except String AvailabilityQuery :=
  match intent.venueName, intent.partySize, intent.date with
  | some venueName, some partySize, some date =>
    AvailabilityQuery.build {
      venueName := venueName
      venueType := intent.venueType
      market := intent.market
      partySize := partySize
      date := date
      preferredTime := intent.preferredTime
      timeWindow := intent.timeWindow
      durationMinutes := intent.durationMinutes
      specialRequests := intent.specialRequests }
  | _, _, _ => .error missing

/-- `BookingService._query_from`. -/
def BookingService.queryFrom : ReservationIntent → Except String AvailabilityQuery :=
  Dibs.queryFrom "ready intent is missing required booking parameters"

/-- `WatchService._query_from`. -/
def WatchService.queryFrom : ReservationIntent → Except String AvailabilityQuery :=
  Dibs.queryFrom "ready intent is missing required watch parameters"

/-- Whether a creation was refused for a date in the past. -/
def refusedAsPast {α : Type} : Except CreateError α → Bool
  | .error (.pastReservationDate _) => true
  | _ => false

namespace WatchService

/-- The part of `create` that awaits refuses no date. -/
theorem storeOpened_not_past (endings : CreateEndings) (watch : Watch) (runtime : WatchRuntime) (now : Time)
    (ownerClientId userId : Option String) (s : Stores) :
    refusedAsPast (storeOpened endings watch runtime now ownerClientId userId s).1 = false := by
  obtain ⟨live, history, published⟩ := s
  obtain ⟨recording, storing, publishing⟩ := endings
  cases userId with
  | none =>
    cases storing with
    | raised stored | cancelled stored => rfl
    | returned =>
      cases history with
      | none => rcases publishing with _ | ⟨_ | _⟩ | ⟨_ | _⟩ <;> rfl
      | some t =>
        rcases recording with _ | ⟨_ | _⟩ | ⟨_ | _⟩ <;> rcases publishing with _ | ⟨_ | _⟩ | ⟨_ | _⟩ <;> rfl
  | some user =>
    cases history with
    | none => rfl
    | some t =>
      cases recording with
      | raised applied | cancelled applied => rfl
      | returned =>
        cases storing with
        | raised stored | cancelled stored => rfl
        | returned => rcases publishing with _ | ⟨_ | _⟩ | ⟨_ | _⟩ <;> rfl

/-- A watch for a date that is not past is not refused as past. -/
theorem create_not_past (svc : WatchService) (maxAttempts : ℕ) {zone : Zone} {now : Time}
    {query : AvailabilityQuery} {target : ℕ} (htarget : dateOrdinal query.date = some target)
    (hahead : zone.localDate now ≤ target) (endings : CreateEndings) (watchId : String) (autoBook : Bool)
    (ownerClientId userId : Option String) (s : Stores) :
    refusedAsPast (svc.create maxAttempts zone endings now watchId query autoBook ownerClientId userId s).1 =
      false := by
  have hopen : refusedAsPast (svc.openWatch maxAttempts zone now watchId query autoBook) = false := by
    unfold openWatch
    simp only [htarget, if_neg (Nat.not_lt.mpr hahead), bind, Except.bind, pure, Except.pure]
    unfold defaultExpiry
    split_ifs
    · rfl
    · dsimp only
      split
      · rfl
      · split_ifs <;> rfl
  unfold create
  cases hopened : svc.openWatch maxAttempts zone now watchId query autoBook with
  | error e =>
    rw [hopened] at hopen
    cases e with
    | pastReservationDate message => contradiction
    | value | ownershipUnavailable | failed | cancelled => rfl
  | ok opened => exact storeOpened_not_past endings _ _ _ _ _ s

end WatchService

section Validation

variable (data : UnicodeData)

/-- A ready intent that the validator assembled makes a valid query for a day from today on. -/
theorem queryFrom_ready {e : ReservationExtraction} (he : e.Valid) {reference : ReferenceTime}
    {intent : ReservationIntent} (hvalidate : validate data e reference = .ok intent)
    (hready : intent.status = .ready) (hyear : reference.today + maxDaysAhead ≤ maxOrdinal) :
    ∃ query target, (∀ missing, queryFrom missing intent = .ok query) ∧ query.Valid ∧
      dateOrdinal query.date = some target ∧ reference.today ≤ target := by
  obtain ⟨date, time, hdate, htime, hvalidate', hmissing⟩ := validate_spec data he hyear
  obtain rfl := Except.ok.inj (hvalidate.symm.trans hvalidate')
  obtain ⟨date', hdate', hdates⟩ := e.resolveDate_spec hyear
  obtain rfl := Except.ok.inj (hdate.symm.trans hdate')
  obtain ⟨time', htime', hleft, hsettles, -⟩ := ReservationExtraction.resolveTime_spec he reference date.1
  obtain rfl := Except.ok.inj (htime.symm.trans htime')
  obtain ⟨htimes, hwindows⟩ := hleft.valid he
  obtain ⟨-, hnames, -, -⟩ := e.resolvedVenue_spec data he
  -- Nothing is missing.
  have hpresent : ∀ field, field ∉ missingFieldsOf e (e.resolvedVenue data).1 (e.resolvedVenue data).2.2 date.1
      time := by
    intro field hf
    rw [intentOf_ready, intentOf_missingFields] at hready
    rw [hready] at hf
    exact absurd hf List.not_mem_nil
  have hname := (not_or.mp ((mem_missingFieldsOf .venueName).not.mp (hpresent _))).1
  have hsize := (mem_missingFieldsOf .partySize).not.mp (hpresent _)
  have hday := (mem_missingFieldsOf .date).not.mp (hpresent _)
  obtain ⟨htimed, hclear⟩ := not_not.mp ((mem_missingFieldsOf .time).not.mp (hpresent _))
  obtain ⟨name, hname⟩ := Option.ne_none_iff_exists'.mp hname
  obtain ⟨size, hsize⟩ := Option.ne_none_iff_exists'.mp hsize
  obtain ⟨text, hday⟩ := Option.ne_none_iff_exists'.mp hday
  obtain ⟨htext, target, htarget, hahead, -⟩ := (hdates text).mp hday
  have hvalid : AvailabilityQuery.Valid ⟨name, (e.resolvedVenue data).2.1, kwcMarket, size, text,
      time.preferredTime, time.timeWindow, e.durationMinutes, e.specialRequests⟩ :=
    ⟨hnames name hname, rfl, he.partySize size hsize, ⟨he.date text htext, by rw [htarget]; rfl⟩, htimes, hwindows,
      he.durationMinutes, he.specialRequests, htimed, (hsettles hclear).inside⟩
  refine ⟨_, target, fun missing => ?_, hvalid, htarget, hahead⟩
  unfold queryFrom
  simp only [intentOf, hname, hsize, hday]
  exact if_pos hvalid

/-- Validation is total, and what it calls ready can be executed. For every well formed extraction and every
reference time before the year 9999 an intent is returned; it is ready exactly when nothing is missing, and the
missing fields are listed in order; the queries that both services make of a ready intent are one valid query,
and a watch that is created for it at the reference time, in the zone of the reference time, is not refused as
past. -/
theorem ready_executable {e : ReservationExtraction} (he : e.Valid) {reference : ReferenceTime}
    (hyear : reference.today < ymdOrdinal 9999 1 1) :
    ∃ intent, validate data e reference = .ok intent ∧
      (intent.status = .ready ↔ ∀ field, e.Has data reference field) ∧
      intent.missingFields.Sublist MissingField.all ∧
      (∀ field, field ∈ intent.missingFields ↔ ¬ e.Has data reference field) ∧
      (intent.status = .ready → ∃ query, BookingService.queryFrom intent = .ok query ∧
        WatchService.queryFrom intent = .ok query ∧ query.Valid ∧
        ∀ (svc : WatchService) (maxAttempts : ℕ) (endings : CreateEndings) (watchId : String) (autoBook : Bool)
          (ownerClientId userId : Option String) (s : Stores) (message : String),
          (svc.create maxAttempts reference.zone endings reference.instant watchId query autoBook ownerClientId
            userId s).1 ≠ .error (.pastReservationDate message)) := by
  have hstart : ymdOrdinal 9999 1 1 = 3651695 := by decide
  have hrange : reference.today + maxDaysAhead ≤ maxOrdinal := by
    rw [hstart] at hyear
    unfold maxDaysAhead maxOrdinal
    omega
  obtain ⟨intent, hvalidate, hready, hsublist, hmissing⟩ := validate_total data he hrange
  refine ⟨intent, hvalidate, hready, hsublist, hmissing, fun hr => ?_⟩
  obtain ⟨query, target, hquery, hvalid, htarget, hahead⟩ := queryFrom_ready data he hvalidate hr hrange
  refine ⟨query, hquery _, hquery _, hvalid,
    fun svc maxAttempts endings watchId autoBook owner user s message h => ?_⟩
  have hpast := WatchService.create_not_past svc maxAttempts htarget hahead endings watchId autoBook owner user s
  rw [h] at hpast
  contradiction

end Validation

/-- The request for seven in the evening can be executed at noon. -/
theorem ready_executable_evening : ∃ intent query, validate .ascii eveningRequest noon = .ok intent ∧
    WatchService.queryFrom intent = .ok query ∧ query.Valid := by
  obtain ⟨intent, hvalidate, hready, -, -, hexecute⟩ :=
    ready_executable .ascii eveningRequest_valid (show noon.today < ymdOrdinal 9999 1 1 by decide)
  obtain ⟨query, -, hwatch, hvalid, -⟩ := hexecute (hready.mpr eveningRequest_has)
  exact ⟨intent, query, hvalidate, hwatch, hvalid⟩

end Dibs
