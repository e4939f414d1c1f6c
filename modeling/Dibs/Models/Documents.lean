import Dibs.Lib.Json
import Dibs.Models.Instants

/-!
# Stored documents

What `model_dump_json` writes for a watch and for its sidecar, and what `model_validate_json` makes of
such a text: the fields of `backend/models/watch.py`, `backend/models/watch_runtime.py` and
`backend/models/reservation.py` in their order, with their defaults, and the checks of
`Dibs.Models.Validation` on what was read. An object with a member that is no field is refused, and the
texts of a query are stripped.

A document that passes the checks and whose instants a `datetime` can hold is read back as it was
(`Watch.modelValidateJson_modelDumpJson`, `WatchRuntime.modelValidateJson_modelDumpJson`); one that does
not pass them is refused.
-/

namespace Dibs

open Json (required defaulting nullable orNull array asNat asBool asString required_cons_self
  required_cons_ne defaulting_cons_self defaulting_cons_ne)

/-! ## Single values -/

/-- `VenueType` by value. -/
def VenueType.value : VenueType → String
  | .restaurant => "RESTAURANT"
  | .recreation => "RECREATION"
  | .unknown => "UNKNOWN"

/-- `BookingStatus` by value. -/
def BookingStatus.value : BookingStatus → String
  | .mockConfirmed => "MOCK_CONFIRMED"
  | .confirmed => "CONFIRMED"

/-- `RuntimePhase` by value. -/
def RuntimePhase.value : RuntimePhase → String
  | .polling => "POLLING"
  | .booking => "BOOKING"

/-- A member of an enumeration by its value. -/
def asEnum {α : Type} (all : List α) (value : α → String) (j : Json) : Option α :=
  (asString j).bind fun s => all.find? fun x => decide (value x = s)

/-- `VenueType`. -/
def asVenueType : Json → Option VenueType := asEnum [.restaurant, .recreation, .unknown] VenueType.value

/-- `BookingStatus`. -/
def asBookingStatus : Json → Option BookingStatus := asEnum [.mockConfirmed, .confirmed] BookingStatus.value

/-- `WatchStatus`. -/
def asWatchStatus : Json → Option WatchStatus :=
  asEnum [.active, .found, .booked, .expired, .cancelled] WatchStatus.value

/-- `RuntimePhase`. -/
def asRuntimePhase : Json → Option RuntimePhase := asEnum [.polling, .booking] RuntimePhase.value

/-- A `datetime`. -/
def asInstant (j : Json) : Option Time := (asString j).bind parseInstant

/-- What is written for a `datetime`. -/
def ofInstant (t : Time) : Json := .str (isoformat t)

/-- The text without the white space at its ends: `str_strip_whitespace`. -/
def strip (s : String) : String :=
  String.ofList ((s.toList.dropWhile isWhiteSpace).reverse.dropWhile isWhiteSpace).reverse

/-- A text of a query. -/
def asStripped (j : Json) : Option String := (asString j).map strip

theorem asVenueType_value (t : VenueType) : asVenueType (.str t.value) = some t := by
  cases t <;> decide

theorem asBookingStatus_value (status : BookingStatus) :
    asBookingStatus (.str status.value) = some status := by
  cases status <;> decide

theorem asWatchStatus_value (status : WatchStatus) : asWatchStatus (.str status.value) = some status := by
  cases status <;> decide

theorem asRuntimePhase_value (phase : RuntimePhase) : asRuntimePhase (.str phase.value) = some phase := by
  cases phase <;> decide

theorem asInstant_ofInstant {t : Time} (h : IsDatetime t) : asInstant (ofInstant t) = some t := by
  simp only [asInstant, ofInstant, asString, Option.bind_some]
  exact parseInstant_isoformat h

/-- A list that does not begin with white space loses none. -/
theorem dropWhile_head {l : List Char} (h : l.head?.all (!isWhiteSpace ·) = true) :
    l.dropWhile isWhiteSpace = l := by
  cases l with
  | nil => rfl
  | cons c l => exact List.dropWhile_cons_of_neg (by simpa using h)

/-- A stripped text stays. -/
theorem strip_of_stripped {s : String} (h : stripped s = true) : strip s = s := by
  obtain ⟨hhead, hlast⟩ := Bool.and_eq_true_iff.mp h
  unfold strip
  rw [dropWhile_head hhead, dropWhile_head (by rwa [List.head?_reverse]), List.reverse_reverse,
    String.ofList_toList]

/-- No decimal digit is white space. -/
theorem not_whiteSpace_of_digit {c : Char} (h : isDecimalDigit c = true) : isWhiteSpace c = false := by
  have hall : ∀ first ∈ zeroDigits, ∀ k < 10, ¬ (9 ≤ first + k ∧ first + k ≤ 13) ∧
      ¬ (0x2000 ≤ first + k ∧ first + k ≤ 0x200a) ∧
      first + k ∉ [0x20, 0x85, 0xa0, 0x1680, 0x2028, 0x2029, 0x202f, 0x205f, 0x3000] := by decide
  obtain ⟨first, hfirst, hc⟩ := List.any_eq_true.mp h
  obtain ⟨hlow, hhigh⟩ := Bool.and_eq_true_iff.mp hc
  have hlow := of_decide_eq_true hlow
  have hhigh := of_decide_eq_true hhigh
  obtain ⟨k, hk⟩ := Nat.exists_eq_add_of_le hlow
  have hplain := hall first hfirst k (by omega)
  rw [← hk] at hplain
  simpa [isWhiteSpace, and_assoc] using hplain

/-- A text of characters that are not white space is stripped. -/
theorem stripped_of_forall {s : String} (h : ∀ c ∈ s.toList, isWhiteSpace c = false) :
    stripped s = true := by
  refine Bool.and_eq_true_iff.mpr ⟨?_, ?_⟩
  · cases hc : s.toList.head? with
    | none => rfl
    | some c => simpa using h c (List.mem_of_head? hc)
  · cases hc : s.toList.getLast? with
    | none => rfl
    | some c => simpa using h c (List.mem_of_getLast? hc)

/-- Tests that white space does not pass. -/
theorem not_whiteSpace_of_tests {tests : List (Char → Bool)} {s : String} (h : matchesTests tests s = true)
    (htests : ∀ test ∈ tests, ∀ c, test c = true → isWhiteSpace c = false) :
    ∀ c ∈ s.toList, isWhiteSpace c = false := by
  obtain ⟨hlength, hall⟩ := Bool.and_eq_true_iff.mp h
  have hlength : s.toList.length = tests.length := of_decide_eq_true hlength
  intro c hc
  obtain ⟨i, hi, rfl⟩ := List.mem_iff_getElem.mp hc
  have hi' : i < tests.length := hlength ▸ hi
  have htest := List.all_eq_true.mp hall (tests[i] s.toList[i])
    (List.mem_iff_getElem.mpr ⟨i, by simp [hi', hi], by simp⟩)
  exact htests _ (List.getElem_mem _) _ htest

/-! ## Slots, confirmations and queries -/

/-- `AvailabilitySlot.model_dump`. -/
def AvailabilitySlot.toJson (s : AvailabilitySlot) : Json := .obj [
  ("slot_id", .str s.slotId),
  ("provider", .str s.provider),
  ("venue_name", .str s.venueName),
  ("venue_type", .str s.venueType.value),
  ("date", .str s.date),
  ("start_time", .str s.startTime),
  ("end_time", orNull .str s.endTime),
  ("party_size", .int s.partySize),
  ("max_party_size", .int s.maxPartySize),
  ("available", .bool true)]

/-- `AvailabilitySlot.model_validate`. -/
def AvailabilitySlot.ofJson (j : Json) : Option AvailabilitySlot := do
  let ms ← j.members ["slot_id", "provider", "venue_name", "venue_type", "date", "start_time",
    "end_time", "party_size", "max_party_size", "available"]
  let s : AvailabilitySlot := {
    slotId := ← required ms "slot_id" asString
    provider := ← required ms "provider" asString
    venueName := ← required ms "venue_name" asString
    venueType := ← required ms "venue_type" asVenueType
    date := ← required ms "date" asString
    startTime := ← required ms "start_time" asString
    endTime := ← required ms "end_time" (nullable asString)
    partySize := ← required ms "party_size" asNat
    maxPartySize := ← required ms "max_party_size" asNat }
  let available ← defaulting ms "available" true asBool
  if s.Valid ∧ available = true then some s else none

/-- A valid slot is read back. -/
theorem AvailabilitySlot.ofJson_toJson {s : AvailabilitySlot} (h : s.Valid) : ofJson s.toJson = some s := by
  have hend : nullable asString (orNull Json.str s.endTime) = some s.endTime :=
    Json.nullable_orNull (fun _ _ => rfl) (by simp)
  rw [ofJson, toJson, Json.members_obj (by rfl)]
  simp only [Option.bind_eq_bind, Option.bind_some, ne_eq, String.reduceEq, not_false_eq_true,
    required_cons_self, required_cons_ne, defaulting_cons_self, defaulting_cons_ne, asString, asNat,
    asBool, asVenueType_value, hend]
  exact if_pos ⟨h, trivial⟩

/-- `BookingConfirmation.model_dump`. -/
def BookingConfirmation.toJson (b : BookingConfirmation) : Json := .obj [
  ("booking_id", .str b.bookingId),
  ("provider", .str b.provider),
  ("status", .str b.status.value),
  ("slot", b.slot.toJson),
  ("created_at", ofInstant b.createdAt)]

/-- `BookingConfirmation.model_validate`. -/
def BookingConfirmation.ofJson (j : Json) : Option BookingConfirmation := do
  let ms ← j.members ["booking_id", "provider", "status", "slot", "created_at"]
  let b : BookingConfirmation := {
    bookingId := ← required ms "booking_id" asString
    provider := ← required ms "provider" asString
    status := ← required ms "status" asBookingStatus
    slot := ← required ms "slot" AvailabilitySlot.ofJson
    createdAt := ← required ms "created_at" asInstant }
  if b.Valid then some b else none

/-- A valid confirmation is read back. -/
theorem BookingConfirmation.ofJson_toJson {b : BookingConfirmation} (h : b.Valid)
    (hcreated : IsDatetime b.createdAt) : ofJson b.toJson = some b := by
  rw [ofJson, toJson, Json.members_obj (by rfl)]
  simp only [Option.bind_eq_bind, Option.bind_some, ne_eq, String.reduceEq, not_false_eq_true,
    required_cons_self, required_cons_ne, asString, asBookingStatus_value,
    AvailabilitySlot.ofJson_toJson h.slot, asInstant_ofInstant hcreated]
  exact if_pos h

/-- `TimeWindow.model_dump`. -/
def TimeWindow.toJson (t : TimeWindow) : Json := .obj [("start", .str t.start), ("end", .str t.end)]

/-- `TimeWindow.model_validate`. -/
def TimeWindow.ofJson (j : Json) : Option TimeWindow := do
  let ms ← j.members ["start", "end"]
  let t : TimeWindow := ⟨← required ms "start" asString, ← required ms "end" asString⟩
  if t.Valid then some t else none

/-- A valid window is read back. -/
theorem TimeWindow.ofJson_toJson {t : TimeWindow} (h : t.Valid) : ofJson t.toJson = some t := by
  rw [ofJson, toJson, Json.members_obj (by rfl)]
  simp only [Option.bind_eq_bind, Option.bind_some, ne_eq, String.reduceEq, not_false_eq_true,
    required_cons_self, required_cons_ne, asString]
  exact if_pos h

/-- `AvailabilityQuery.model_dump`. -/
def AvailabilityQuery.toJson (q : AvailabilityQuery) : Json := .obj [
  ("venue_name", .str q.venueName),
  ("venue_type", .str q.venueType.value),
  ("market", .str q.market),
  ("party_size", .int q.partySize),
  ("date", .str q.date),
  ("preferred_time", orNull .str q.preferredTime),
  ("time_window", orNull TimeWindow.toJson q.timeWindow),
  ("duration_minutes", orNull (fun (n : ℕ) => .int n) q.durationMinutes),
  ("special_requests", .arr (q.specialRequests.map .str))]

/-- `AvailabilityQuery.model_validate`. -/
def AvailabilityQuery.ofJson (j : Json) : Option AvailabilityQuery := do
  let ms ← j.members ["venue_name", "venue_type", "market", "party_size", "date", "preferred_time",
    "time_window", "duration_minutes", "special_requests"]
  let q : AvailabilityQuery := {
    venueName := ← required ms "venue_name" asStripped
    venueType := ← required ms "venue_type" asVenueType
    market := ← required ms "market" asString
    partySize := ← required ms "party_size" asNat
    date := ← required ms "date" asStripped
    preferredTime := ← required ms "preferred_time" (nullable asStripped)
    timeWindow := ← required ms "time_window" (nullable TimeWindow.ofJson)
    durationMinutes := ← required ms "duration_minutes" (nullable asNat)
    specialRequests := ← required ms "special_requests" (array asStripped) }
  if q.Valid then some q else none

theorem asStripped_str {s : String} (h : stripped s = true) : asStripped (.str s) = some s := by
  simp only [asStripped, asString, Option.map_some, strip_of_stripped h]

/-- No visible character of ASCII is white space. -/
theorem not_whiteSpace_of_visible {c : Char} (hlow : 33 ≤ c.toNat) (hhigh : c.toNat ≤ 126) :
    isWhiteSpace c = false := by
  simp [isWhiteSpace]
  omega

/-- A test for some visible characters of ASCII. -/
theorem not_whiteSpace_of_range {low high c : Char} (hlow : 33 ≤ low.toNat) (hhigh : high.toNat ≤ 126)
    (h : (decide (low ≤ c) && decide (c ≤ high)) = true) : isWhiteSpace c = false := by
  obtain ⟨h₁, h₂⟩ := Bool.and_eq_true_iff.mp h
  have h₁ : low.toNat ≤ c.toNat := of_decide_eq_true h₁
  have h₂ : c.toNat ≤ high.toNat := of_decide_eq_true h₂
  exact not_whiteSpace_of_visible (le_trans hlow h₁) (le_trans h₂ hhigh)

theorem not_whiteSpace_of_eq {c d : Char} (hd : isWhiteSpace d = false) (h : (c == d) = true) :
    isWhiteSpace c = false := beq_iff_eq.mp h ▸ hd

/-- A date has no white space at its ends. -/
theorem stripped_of_isIsoDate {s : String} (h : isIsoDate s = true) : stripped s = true := by
  refine stripped_of_forall (not_whiteSpace_of_tests h fun test htest c hc => ?_)
  simp only [List.mem_cons, List.not_mem_nil, or_false] at htest
  rcases htest with rfl | rfl | rfl | rfl | rfl | rfl | rfl | rfl | rfl | rfl
  all_goals first
    | exact not_whiteSpace_of_digit hc
    | exact not_whiteSpace_of_eq (by decide) hc

/-- A clock time has no white space at its ends. -/
theorem stripped_of_isHourMinute {s : String} (h : isHourMinute s = true) : stripped s = true := by
  rcases Bool.or_eq_true_iff.mp h with h | h
  all_goals
    refine stripped_of_forall (not_whiteSpace_of_tests h fun test htest c hc => ?_)
    simp only [List.mem_cons, List.not_mem_nil, or_false] at htest
    rcases htest with rfl | rfl | rfl | rfl | rfl
  all_goals first
    | exact not_whiteSpace_of_digit hc
    | exact not_whiteSpace_of_range (by decide) (by decide) hc
    | exact not_whiteSpace_of_eq (by decide) hc
    | exact (Bool.or_eq_true_iff.mp hc).elim (not_whiteSpace_of_eq (by decide))
        (not_whiteSpace_of_eq (by decide))

/-- A valid query is read back. -/
theorem AvailabilityQuery.ofJson_toJson {q : AvailabilityQuery} (h : q.Valid) :
    ofJson q.toJson = some q := by
  have htime : nullable asStripped (orNull Json.str q.preferredTime) = some q.preferredTime :=
    Json.nullable_orNull
      (fun time htime => asStripped_str (stripped_of_isHourMinute (h.preferredTime time htime))) (by simp)
  have hwindow : nullable TimeWindow.ofJson (orNull TimeWindow.toJson q.timeWindow) = some q.timeWindow :=
    Json.nullable_orNull (fun window hwindow => TimeWindow.ofJson_toJson (h.timeWindow window hwindow))
      (by simp [TimeWindow.toJson])
  have hminutes : nullable asNat (orNull (fun (n : ℕ) => Json.int n) q.durationMinutes) =
      some q.durationMinutes :=
    Json.nullable_orNull (fun _ _ => rfl) (by simp)
  have hrequests : array asStripped (.arr (q.specialRequests.map .str)) = some q.specialRequests :=
    Json.array_map fun request hrequest => asStripped_str (h.specialRequests.2 request hrequest).2
  have hname := asStripped_str h.venueName.2
  have hdate := asStripped_str (stripped_of_isIsoDate h.date.1)
  rw [ofJson, toJson, Json.members_obj (by rfl)]
  simp only [Option.bind_eq_bind, Option.bind_some, ne_eq, String.reduceEq, not_false_eq_true,
    required_cons_self, required_cons_ne, asString, asNat, asVenueType_value, htime, hwindow, hminutes,
    hrequests, hname, hdate]
  exact if_pos h

/-! ## Watches and sidecars -/

/-- `Watch.model_dump`. -/
def Watch.toJson (w : Watch) : Json := .obj [
  ("watch_id", .str w.watchId),
  ("status", .str w.status.value),
  ("query", w.query.toJson),
  ("auto_book", .bool w.autoBook),
  ("created_at", ofInstant w.createdAt),
  ("updated_at", ofInstant w.updatedAt),
  ("expires_at", ofInstant w.expiresAt),
  ("attempts", .int w.attempts),
  ("max_attempts", .int w.maxAttempts),
  ("last_checked_at", orNull ofInstant w.lastCheckedAt),
  ("next_check_at", orNull ofInstant w.nextCheckAt),
  ("found_slots", .arr (w.foundSlots.map AvailabilitySlot.toJson)),
  ("booking", orNull BookingConfirmation.toJson w.booking),
  ("last_error", orNull .str w.lastError)]

/-- `Watch.model_validate`. -/
def Watch.ofJson (j : Json) : Option Watch := do
  let ms ← j.members ["watch_id", "status", "query", "auto_book", "created_at", "updated_at",
    "expires_at", "attempts", "max_attempts", "last_checked_at", "next_check_at", "found_slots",
    "booking", "last_error"]
  let w : Watch := {
    watchId := ← required ms "watch_id" asString
    status := ← required ms "status" asWatchStatus
    query := ← required ms "query" AvailabilityQuery.ofJson
    autoBook := ← defaulting ms "auto_book" false asBool
    createdAt := ← required ms "created_at" asInstant
    updatedAt := ← required ms "updated_at" asInstant
    expiresAt := ← required ms "expires_at" asInstant
    attempts := ← required ms "attempts" asNat
    maxAttempts := ← required ms "max_attempts" asNat
    lastCheckedAt := ← defaulting ms "last_checked_at" none (nullable asInstant)
    nextCheckAt := ← defaulting ms "next_check_at" none (nullable asInstant)
    foundSlots := ← defaulting ms "found_slots" [] (array AvailabilitySlot.ofJson)
    booking := ← defaulting ms "booking" none (nullable BookingConfirmation.ofJson)
    lastError := ← defaulting ms "last_error" none (nullable asString) }
  if w.Valid then some w else none

/-- `WatchRuntime.model_dump`. -/
def WatchRuntime.toJson (r : WatchRuntime) : Json := .obj [
  ("schema_version", .int 2),
  ("revision", .int r.revision),
  ("required_attempts", .int r.requiredAttempts),
  ("supports_deadline", .bool r.supportsDeadline),
  ("consecutive_outages", .int r.consecutiveOutages),
  ("cadence_sequence", .int r.cadenceSequence),
  ("window_id", orNull .str r.windowId),
  ("scheduled_for", orNull ofInstant r.scheduledFor),
  ("phase", orNull (fun phase => .str phase.value) r.phase),
  ("cancel_requested", .bool r.cancelRequested),
  ("terminal_delete_at", orNull ofInstant r.terminalDeleteAt)]

/-- `WatchRuntime.model_validate`. The version of the schema is 2 in every sidecar. -/
def WatchRuntime.ofJson (j : Json) : Option WatchRuntime := do
  let ms ← j.members ["schema_version", "revision", "required_attempts", "supports_deadline",
    "consecutive_outages", "cadence_sequence", "window_id", "scheduled_for", "phase",
    "cancel_requested", "terminal_delete_at"]
  let r : WatchRuntime := {
    revision := ← defaulting ms "revision" 0 asNat
    requiredAttempts := ← required ms "required_attempts" asNat
    supportsDeadline := ← required ms "supports_deadline" asBool
    consecutiveOutages := ← defaulting ms "consecutive_outages" 0 asNat
    cadenceSequence := ← defaulting ms "cadence_sequence" 0 asNat
    windowId := ← defaulting ms "window_id" none (nullable asString)
    scheduledFor := ← defaulting ms "scheduled_for" none (nullable asInstant)
    phase := ← defaulting ms "phase" none (nullable asRuntimePhase)
    cancelRequested := ← defaulting ms "cancel_requested" false asBool
    terminalDeleteAt := ← defaulting ms "terminal_delete_at" none (nullable asInstant) }
  let version ← defaulting ms "schema_version" 2 asNat
  if r.Valid ∧ version = 2 then some r else none

/-- `Watch.model_dump_json`. -/
def Watch.modelDumpJson (w : Watch) : String := w.toJson.text

/-- `Watch.model_validate_json`. -/
def Watch.modelValidateJson (raw : String) : Option Watch := (Json.parse raw).bind ofJson

/-- `WatchRuntime.model_dump_json`. -/
def WatchRuntime.modelDumpJson (r : WatchRuntime) : String := r.toJson.text

/-- `WatchRuntime.model_validate_json`. -/
def WatchRuntime.modelValidateJson (raw : String) : Option WatchRuntime := (Json.parse raw).bind ofJson

/-- The instants of a watch are ones that a `datetime` can hold. -/
structure Watch.Dated (w : Watch) : Prop where
  createdAt : IsDatetime w.createdAt
  updatedAt : IsDatetime w.updatedAt
  expiresAt : IsDatetime w.expiresAt
  lastCheckedAt : ∀ t ∈ w.lastCheckedAt, IsDatetime t
  nextCheckAt : ∀ t ∈ w.nextCheckAt, IsDatetime t
  booking : ∀ confirmation ∈ w.booking, IsDatetime confirmation.createdAt

/-- The instants of a sidecar are ones that a `datetime` can hold. -/
structure WatchRuntime.Dated (r : WatchRuntime) : Prop where
  scheduledFor : ∀ t ∈ r.scheduledFor, IsDatetime t
  terminalDeleteAt : ∀ t ∈ r.terminalDeleteAt, IsDatetime t

theorem nullable_asInstant {t : Option Time} (h : ∀ x ∈ t, IsDatetime x) :
    nullable asInstant (orNull ofInstant t) = some t :=
  Json.nullable_orNull (fun x hx => asInstant_ofInstant (h x hx)) (by simp [ofInstant])

/-- A valid watch is read back. -/
theorem Watch.ofJson_toJson {w : Watch} (h : w.Valid) (hdated : w.Dated) : ofJson w.toJson = some w := by
  have hslots : array AvailabilitySlot.ofJson (.arr (w.foundSlots.map AvailabilitySlot.toJson)) =
      some w.foundSlots :=
    Json.array_map fun slot hslot => AvailabilitySlot.ofJson_toJson (h.foundSlots.2 slot hslot)
  have hbooking : nullable BookingConfirmation.ofJson (orNull BookingConfirmation.toJson w.booking) =
      some w.booking :=
    Json.nullable_orNull
      (fun b hb => BookingConfirmation.ofJson_toJson (h.booking b hb) (hdated.booking b hb))
      (by simp [BookingConfirmation.toJson])
  have herror : nullable asString (orNull Json.str w.lastError) = some w.lastError :=
    Json.nullable_orNull (fun _ _ => rfl) (by simp)
  rw [ofJson, toJson, Json.members_obj (by rfl), Option.bind_eq_bind, Option.bind_some]
  -- Field after field is read back.
  iterate 14 refine Option.bind_eq_some_iff.mpr ⟨_, by
    simp only [ne_eq, String.reduceEq, not_false_eq_true, required_cons_self, required_cons_ne,
      defaulting_cons_self, defaulting_cons_ne, asString, asNat, asBool, asWatchStatus_value,
      AvailabilityQuery.ofJson_toJson h.query, asInstant_ofInstant hdated.createdAt,
      asInstant_ofInstant hdated.updatedAt, asInstant_ofInstant hdated.expiresAt,
      nullable_asInstant hdated.lastCheckedAt, nullable_asInstant hdated.nextCheckAt, hslots, hbooking,
      herror]
    rfl, ?_⟩
  exact if_pos h

/-- A valid sidecar is read back. -/
theorem WatchRuntime.ofJson_toJson {r : WatchRuntime} (h : r.Valid) (hdated : r.Dated) :
    ofJson r.toJson = some r := by
  have hwindow : nullable asString (orNull Json.str r.windowId) = some r.windowId :=
    Json.nullable_orNull (fun _ _ => rfl) (by simp)
  have hphase : nullable asRuntimePhase (orNull (fun phase => Json.str phase.value) r.phase) =
      some r.phase :=
    Json.nullable_orNull (fun phase _ => asRuntimePhase_value phase) (by simp)
  rw [ofJson, toJson, Json.members_obj (by rfl)]
  simp only [Option.bind_eq_bind, Option.bind_some, ne_eq, String.reduceEq, not_false_eq_true,
    required_cons_self, required_cons_ne, defaulting_cons_self, defaulting_cons_ne, asNat, asBool,
    nullable_asInstant hdated.scheduledFor, nullable_asInstant hdated.terminalDeleteAt, hwindow, hphase]
  exact if_pos ⟨h, trivial⟩

/-- A watch that was decoded has passed its checks. -/
theorem Watch.valid_of_modelValidateJson {raw : String} {w : Watch}
    (h : modelValidateJson raw = some w) : w.Valid := by
  obtain ⟨j, -, h⟩ := Option.bind_eq_some_iff.mp h
  unfold ofJson at h
  -- Field after field has been read.
  iterate 15 obtain ⟨_, -, h⟩ := Option.bind_eq_some_iff.mp h
  dsimp only at h
  split_ifs at h with hvalid
  exact Option.some.inj h ▸ hvalid

/-- A sidecar that was decoded has passed its checks. -/
theorem WatchRuntime.valid_of_modelValidateJson {raw : String} {r : WatchRuntime}
    (h : modelValidateJson raw = some r) : r.Valid := by
  obtain ⟨j, -, h⟩ := Option.bind_eq_some_iff.mp h
  unfold ofJson at h
  iterate 12 obtain ⟨_, -, h⟩ := Option.bind_eq_some_iff.mp h
  split_ifs at h with hvalid
  exact Option.some.inj h ▸ hvalid.1

/-- What was stored for a valid watch is decoded to the watch. -/
theorem Watch.modelValidateJson_modelDumpJson {w : Watch} (h : w.Valid) (hdated : w.Dated) :
    modelValidateJson w.modelDumpJson = some w := by
  rw [modelValidateJson, modelDumpJson, Json.parse_text, Option.bind_some, ofJson_toJson h hdated]

/-- What was stored for a valid sidecar is decoded to the sidecar. -/
theorem WatchRuntime.modelValidateJson_modelDumpJson {r : WatchRuntime} (h : r.Valid)
    (hdated : r.Dated) : modelValidateJson r.modelDumpJson = some r := by
  rw [modelValidateJson, modelDumpJson, Json.parse_text, Option.bind_some, ofJson_toJson h hdated]

end Dibs
