import Mathlib.Data.Prod.Lex
import Mathlib.Logic.Function.Basic
import Dibs.Integrations.Histories
import Dibs.Mock.Choices
import Dibs.Service.Idempotency

/-!
# Executing a booking request

`BookingService.execute` in `backend/services/booking_service.py`. A ready intent to book is looked up under its
key, its table is searched for, and the slots that are found are tried one after the other; where nothing is left
the key is looked up once more. Each of these is an adapter call that other executions can run between. On a
shared store the executions with one key still share one confirmation, which takes one slot
(`identical_requests_share`).
-/

namespace Dibs

/-- `ExecutionStatus`. -/
inductive ExecutionStatus
  | clarificationRequired
  | availabilityFound
  | noAvailability
  | mockBooked
  | watchRequired
  | watchCreated
deriving DecidableEq

/-- `PromptExecutionResult`. The booking service opens no watch, so `watch_id` is left out: it is `None`. -/
structure PromptExecutionResult where
  status : ExecutionStatus
  intent : ReservationIntent
  slots : List AvailabilitySlot
  booking : Option BookingConfirmation
  message : String
deriving DecidableEq

/-- `validate_result_state` accepts a result. -/
structure PromptExecutionResult.Valid (result : PromptExecutionResult) : Prop where
  booked : result.status = .mockBooked ↔ result.booking.isSome = true
  clarification : result.status = .clarificationRequired → result.intent.status ≠ .ready
  watch : result.status ≠ .watchCreated

/-- `f"{action}"`. -/
def IntentAction.formatted : Option IntentAction → String
  | none => "None"
  | some action => "IntentAction." ++ action.value

/-- Where `execute` looks its key up: at the start, after a search that found nothing, after the last slot. -/
inductive ReplayCheck
  | first
  | afterSearch
  | afterSlots
deriving DecidableEq

/-- The adapter call that an execution comes to next. -/
inductive AdapterCall
  | getBooking (key : String) (check : ReplayCheck)
  | searchAvailability (key : Option String)
  /-- `book_slot` for a slot of those that were found; the others are still to be tried. -/
  | bookSlot (key : String) (slots : List AvailabilitySlot) (slot : AvailabilitySlot) (rest : List AvailabilitySlot)
deriving DecidableEq

/-- How far `execute` has come. The text of an exception is given where the service makes it. -/
inductive Execution
  | awaiting (query : AvailabilityQuery) (call : AdapterCall)
  | returned (result : PromptExecutionResult)
  | raised (message : Option String)
deriving DecidableEq

namespace BookingService

/-- The result for an intent that is not ready. -/
def clarificationRequired (intent : ReservationIntent) : PromptExecutionResult :=
  ⟨.clarificationRequired, intent, [], none,
    match intent.clarificationQuestion with
    | some question => if question ≠ "" then question else "More information is required."
    | none => "More information is required."⟩

/-- The result for an intent of the watch service. -/
def watchRequired (intent : ReservationIntent) : PromptExecutionResult :=
  ⟨.watchRequired, intent, [], none,
    "This request needs background monitoring. Route it through the watch service rather than the booking service."⟩

/-- The result of a search that found nothing. -/
def noMatch (intent : ReservationIntent) : PromptExecutionResult :=
  ⟨.noAvailability, intent, [], none,
    "No availability matched the request. (mock search only returns one slot for testing purposes.)"⟩

/-- The result when every slot was lost. -/
def allTaken (intent : ReservationIntent) : PromptExecutionResult :=
  ⟨.noAvailability, intent, [], none, "Every matching mock slot was taken before the booking completed."⟩

/-- The result of a search that was all that was asked for. -/
def availabilityFound (intent : ReservationIntent) (slots : List AvailabilitySlot) : PromptExecutionResult :=
  ⟨.availabilityFound, intent, slots, none, "Found " ++ toString slots.length ++ " mock availability slot(s)."⟩

/-- The result of a booking. -/
def mockBooked (intent : ReservationIntent) (slots : List AvailabilitySlot) (confirmation : BookingConfirmation) :
    PromptExecutionResult :=
  ⟨.mockBooked, intent, slots, some confirmation,
    "Mock reservation confirmed. No real venue or booking provider was contacted."⟩

/-- The result of `_replayed_booking`, where there is a booking. -/
def replayed (intent : ReservationIntent) (existing : BookingConfirmation) : PromptExecutionResult :=
  ⟨.mockBooked, intent, [existing.slot], some existing,
    "Returning the existing mock reservation for this idempotent request. " ++
      "No real venue or booking provider was contacted."⟩

/-- The part of `execute` before its first adapter call. -/
def start (data : UnicodeData) (r : BookingRequest) : Execution :=
  if r.intent.status ≠ .ready then .returned (clarificationRequired r.intent)
  else if r.intent.route = .watchService then .returned (watchRequired r.intent)
  else match queryFrom r.intent with
    | .error message => .raised (some message)
    | .ok query =>
      if r.intent.action = some .bookReservation then
        .awaiting query (.getBooking (idempotencyKey data r.intent query r.scope) .first)
      else .awaiting query (.searchAvailability none)

/-- The loop over the slots, from its next slot on. -/
def nextSlot (query : AvailabilityQuery) (key : String) (slots : List AvailabilitySlot) :
    List AvailabilitySlot → Execution
  | [] => .awaiting query (.getBooking key .afterSlots)
  | slot :: rest => .awaiting query (.bookSlot key slots slot rest)

/-- The part of `execute` after a key was looked up in vain. -/
def notReplayed (intent : ReservationIntent) (query : AvailabilityQuery) (key : String) : ReplayCheck → Execution
  | .first => .awaiting query (.searchAvailability (some key))
  | .afterSearch => .returned (noMatch intent)
  | .afterSlots => .returned (allTaken intent)

/-- The part of `execute` after the search. -/
def searched (intent : ReservationIntent) (query : AvailabilityQuery) (key : Option String)
    (slots : List AvailabilitySlot) : Execution :=
  match slots, key with
  | [], none => .returned (noMatch intent)
  | [], some key => .awaiting query (.getBooking key .afterSearch)
  | _ :: _, _ =>
    if intent.action = some .searchAvailability then .returned (availabilityFound intent slots)
    else match intent.action, key with
      | some .bookReservation, some key => nextSlot query key slots slots
      | action, _ => .raised (some ("Unsupported booking-service action: " ++ IntentAction.formatted action))

/-- The factory that `MockBookingAdapter.book_slot` passes on. -/
def confirmationFactory (key : String) (now : Time) : ConfirmationFactory :=
  .mock ("mock_booking_" ++ uuid5Hex key) now

/-- An adapter call, and `execute` up to its next one. -/
def advance (adapter : MockBookingAdapter) (intent : ReservationIntent) (query : AvailabilityQuery)
    (operationId : String) (now : Time) (m : MockState) : AdapterCall → Execution × MockState
  | .getBooking key check =>
    match m.getBooking key now with
    | some existing => (.returned (replayed intent existing), m)
    | none => (notReplayed intent query key check, m)
  | .searchAvailability key =>
    match adapter.searchAvailability query operationId now m with
    | (none, m) => (.raised none, m)
    | (some slots, m) => (searched intent query key slots, m)
  | .bookSlot key slots slot rest =>
    match m.bookSlot slot.slotId key (confirmationFactory key now) now with
    | (.ok confirmation, m) => (.returned (mockBooked intent slots confirmation), m)
    | (.error error, m) =>
      if error.isSlotRace then (nextSlot query key slots rest, m) else (.raised (some error.message), m)

end BookingService

/-- The booking that an execution returned. -/
def Execution.booking : Execution → Option BookingConfirmation
  | .returned result => result.booking
  | _ => none

/-- How far an execution is from its end: the part of `execute` it is in, and the slots that it has yet to try. -/
def AdapterCall.rank : AdapterCall → ℕ ×ₗ ℕ
  | .getBooking _ .first => toLex (3, 0)
  | .searchAvailability _ => toLex (2, 0)
  | .bookSlot _ _ _ rest => toLex (1, rest.length + 1)
  | .getBooking _ _ => toLex (0, 0)

/-! ## Executions of one store -/

/-- A call of `BookingService.execute`, over a mock adapter of the shared store. -/
structure ServiceCall where
  request : BookingRequest
  unavailableVenues : List String
  execution : Execution

/-- A slot that an adapter call took from the store. -/
structure Consumption where
  /-- The execution that made the call. -/
  execution : ℕ
  /-- The key that the call was made for. -/
  key : Option String
  slotId : String
  /-- The booking of the key after the call. -/
  confirmation : Option BookingConfirmation
deriving DecidableEq

/-- The key that an adapter call is made for. -/
def AdapterCall.key : AdapterCall → Option String
  | .getBooking key _ | .bookSlot key _ _ _ => some key
  | .searchAvailability key => key

/-- An adapter call takes a slot when it gives it a new tombstone, and when it removes it. What a search removes it
evicts for room. -/
def AdapterCall.takes (call : AdapterCall) (m m' : MockState) (slotId : String) : Bool :=
  decide (m'.tombstones.get? slotId ≠ m.tombstones.get? slotId) ||
    match call with
    | .searchAvailability _ => false
    | _ => m.slots.contains slotId && !m'.slots.contains slotId

/-- What an adapter call took, by the tables before it and after it. -/
def AdapterCall.consumes (k : ℕ) (m m' : MockState) (call : AdapterCall) : List Consumption :=
  let slotIds := (m.slots.entries.map Prod.fst ++ m'.tombstones.entries.map Prod.fst).dedup
  (slotIds.filter (call.takes m m')).map fun slotId =>
    ⟨k, call.key, slotId, call.key.bind fun key => (m'.bookings.get? key).map Booking.confirmation⟩

/-- The shared store, the executions that were called, by their numbers, and the slots that were taken so far. -/
structure BookingSys where
  state : MockState
  calls : ℕ → Option ServiceCall
  consumed : List Consumption

/-- What happens next. -/
inductive BookingStep
  | execute (k : ℕ) (request : BookingRequest) (unavailableVenues : List String)
  /-- An execution makes its adapter call and runs up to the next one. -/
  | advance (k : ℕ) (operationId : String) (now : Time)
  /-- A call of somebody who books nothing: the cleanup, a search, a release. -/
  | other (op : MockOp) (now : Time)

/-- The step of a system. -/
def BookingSys.exec (data : UnicodeData) : BookingStep → BookingSys → BookingSys
  | .execute k request unavailableVenues, s =>
    let call := ⟨request, unavailableVenues, BookingService.start data request⟩
    { s with calls := Function.update s.calls k (some call) }
  | .advance k operationId now, s =>
    match s.calls k with
    | some ⟨request, unavailableVenues, .awaiting query call⟩ =>
      let next := BookingService.advance ⟨data, unavailableVenues⟩ request.intent query operationId now s.state call
      ⟨next.2, Function.update s.calls k (some ⟨request, unavailableVenues, next.1⟩),
        call.consumes k s.state next.2 ++ s.consumed⟩
    | _ => s
  | .other op now, s => { s with state := s.state.call now op }

/-- An instant within one retention of the start. -/
def BookingSys.During (start : Time) (s : BookingSys) (now : Time) : Prop :=
  start ≤ now ∧ now < start + s.state.retention

/-- Any number of executions over one store that starts empty, at instants within its retention. -/
def bookingMachine (data : UnicodeData) (start : Time) : Machine BookingSys BookingStep where
  init s := ∃ capacity idleTtl retention pin, s = ⟨.empty capacity idleTtl retention pin, fun _ => none, []⟩
  allowed s
    | .execute k _ _ => s.calls k = none
    | .advance k _ now => s.During start now ∧ ∃ request unavailableVenues query call,
        s.calls k = some ⟨request, unavailableVenues, .awaiting query call⟩
    | .other op now => s.During start now ∧ ∀ slotId key factory, op ≠ .book slotId key factory
  exec := BookingSys.exec data

/-- Every adapter call brings an execution nearer to its end. -/
theorem BookingService.advance_rank {adapter : MockBookingAdapter} {intent : ReservationIntent}
    {query query' : AvailabilityQuery} {operationId : String} {now : Time} {m : MockState} {call call' : AdapterCall}
    (h : (advance adapter intent query operationId now m call).1 = .awaiting query' call') :
    call'.rank < call.rank := by
  have hnext : ∀ key slots rest, nextSlot query key slots rest = .awaiting query' call' →
      call'.rank ≤ toLex (1, rest.length) := by
    intro key slots rest hnext
    cases rest with
    | nil =>
      obtain ⟨-, rfl⟩ := Execution.awaiting.inj hnext
      exact Prod.Lex.toLex_le_toLex.mpr (.inl Nat.zero_lt_one)
    | cons slot rest =>
      obtain ⟨-, rfl⟩ := Execution.awaiting.inj hnext
      exact le_rfl
  cases call with
  | getBooking key check =>
    unfold advance at h
    dsimp only at h
    cases hget : m.getBooking key now with
    | some existing =>
      rw [hget] at h
      contradiction
    | none =>
      rw [hget] at h
      cases check with
      | first =>
        obtain ⟨-, rfl⟩ := Execution.awaiting.inj h
        exact Prod.Lex.toLex_lt_toLex.mpr (.inl (by decide))
      | afterSearch | afterSlots => contradiction
  | searchAvailability key =>
    have hless : ∀ n, toLex (1, n) < AdapterCall.rank (.searchAvailability key) := fun n =>
      Prod.Lex.toLex_lt_toLex.mpr (.inl Nat.one_lt_two)
    unfold advance at h
    dsimp only at h
    split at h
    · contradiction
    · unfold searched at h
      split at h
      · contradiction
      · obtain ⟨-, rfl⟩ := Execution.awaiting.inj h
        exact Prod.Lex.toLex_lt_toLex.mpr (.inl (by decide))
      · split_ifs at h
        split at h
        · dsimp only at h
          exact lt_of_le_of_lt (hnext _ _ _ h) (hless _)
        · contradiction
  | bookSlot key slots slot rest =>
    unfold advance at h
    dsimp only at h
    split at h
    · contradiction
    · split_ifs at h
      refine lt_of_le_of_lt (hnext _ _ _ h) (Prod.Lex.toLex_lt_toLex.mpr (.inr ⟨rfl, ?_⟩))
      omega

/-! ## Where an execution stands -/

/-- The execution has found slots and tries them. -/
def AdapterCall.Trying : AdapterCall → Prop
  | .bookSlot _ _ _ _ => True
  | _ => False

/-- What an execution of a request knows, where it stands: its query and its key are those of the request, and a
booking that it returned was made for the key by one of some consumptions. -/
def Execution.Proper (data : UnicodeData) (r : BookingRequest) (consumed : List Consumption) : Execution → Prop
  | .awaiting query call => BookingService.queryFrom r.intent = .ok query ∧ r.key data = .ok call.key ∧
      (call.Trying → query.Readable)
  | .returned result => result.Valid ∧ ∀ c ∈ result.booking, ∃ e ∈ consumed,
      r.key data = .ok e.key ∧ e.confirmation = some c
  | .raised _ => True

/-- More consumptions change nothing. -/
theorem Execution.Proper.mono {data : UnicodeData} {r : BookingRequest} {consumed consumed' : List Consumption}
    {execution : Execution} (h : execution.Proper data r consumed) (hsub : consumed ⊆ consumed') :
    execution.Proper data r consumed' := by
  cases execution with
  | awaiting query call => exact h
  | raised message => trivial
  | returned result =>
    refine ⟨h.1, fun c hc => ?_⟩
    obtain ⟨e, he, hkey⟩ := h.2 c hc
    exact ⟨e, hsub he, hkey⟩

namespace BookingService

variable {data : UnicodeData} {r : BookingRequest} {consumed : List Consumption} {query : AvailabilityQuery}

/-- The query of an intent is valid. -/
theorem valid_of_queryFrom (h : queryFrom r.intent = .ok query) : query.Valid := by
  unfold queryFrom Dibs.queryFrom at h
  split at h
  · unfold AvailabilityQuery.build at h
    split_ifs at h with hvalid
    obtain rfl := Except.ok.inj h
    exact hvalid
  · contradiction

/-- A result without a booking is proper. -/
theorem proper_unbooked {result : PromptExecutionResult} (hvalid : result.Valid) (hbooking : result.booking = none) :
    (Execution.returned result).Proper data r consumed := by
  refine ⟨hvalid, fun c hc => ?_⟩
  rw [hbooking] at hc
  contradiction

theorem start_proper (data : UnicodeData) (r : BookingRequest) (consumed : List Consumption) :
    (start data r).Proper data r consumed := by
  unfold start
  by_cases hready : r.intent.status = .ready
  · rw [if_neg (not_not.mpr hready)]
    by_cases hroute : r.intent.route = .watchService
    · rw [if_pos hroute]
      exact proper_unbooked ⟨by simp [watchRequired], by simp [watchRequired], by simp [watchRequired]⟩ rfl
    · rw [if_neg hroute]
      cases hquery : queryFrom r.intent with
      | error message => trivial
      | ok query =>
        dsimp only
        split_ifs with haction
        · have hbooks : r.Books query := ⟨hready, hroute, haction, hquery⟩
          exact ⟨hquery, hbooks.key_eq, False.elim⟩
        · refine ⟨hquery, ?_, False.elim⟩
          unfold BookingRequest.key
          rw [if_neg (not_not.mpr hready), if_neg hroute, hquery]
          simp only [bind, Except.bind, pure, Except.pure, if_neg haction, AdapterCall.key]
  · rw [if_pos hready]
    exact proper_unbooked ⟨by simp [clarificationRequired], fun _ => hready, by simp [clarificationRequired]⟩ rfl

theorem noMatch_proper : (Execution.returned (noMatch r.intent)).Proper data r consumed :=
  proper_unbooked ⟨by simp [noMatch], by simp [noMatch], by simp [noMatch]⟩ rfl

theorem notReplayed_proper {key : String} (hquery : queryFrom r.intent = .ok query)
    (hkey : r.key data = .ok (some key)) (check : ReplayCheck) :
    (notReplayed r.intent query key check).Proper data r consumed := by
  cases check with
  | first => exact ⟨hquery, hkey, False.elim⟩
  | afterSearch => exact noMatch_proper
  | afterSlots => exact proper_unbooked ⟨by simp [allTaken], by simp [allTaken], by simp [allTaken]⟩ rfl

theorem nextSlot_proper {key : String} (hquery : queryFrom r.intent = .ok query)
    (hkey : r.key data = .ok (some key)) (hread : query.Readable) (slots rest : List AvailabilitySlot) :
    (nextSlot query key slots rest).Proper data r consumed := by
  cases rest with
  | nil => exact ⟨hquery, hkey, False.elim⟩
  | cons slot rest => exact ⟨hquery, hkey, fun _ => hread⟩

theorem searched_proper {key : Option String} (hquery : queryFrom r.intent = .ok query) (hkey : r.key data = .ok key)
    {slots : List AvailabilitySlot} (hread : slots ≠ [] → query.Readable) :
    (searched r.intent query key slots).Proper data r consumed := by
  unfold searched
  split
  · exact noMatch_proper
  · exact ⟨hquery, hkey, False.elim⟩
  · split_ifs
    · exact proper_unbooked
        ⟨by simp [availabilityFound], by simp [availabilityFound], by simp [availabilityFound]⟩ rfl
    · split
      · exact nextSlot_proper hquery hkey (hread (List.cons_ne_nil _ _)) _ _
      · trivial

/-- A result with a booking is proper where the booking was made for the key. -/
theorem proper_booked {result : PromptExecutionResult} {c : BookingConfirmation} (hstatus : result.status = .mockBooked)
    (hbooking : result.booking = some c)
    (h : ∃ e ∈ consumed, r.key data = .ok e.key ∧ e.confirmation = some c) :
    (Execution.returned result).Proper data r consumed := by
  refine ⟨⟨by simp [hstatus, hbooking], by simp [hstatus], by simp [hstatus]⟩, fun c' hc' => ?_⟩
  obtain rfl := Option.some.inj (hbooking.symm.trans hc')
  exact h

end BookingService

/-! ## The store between adapter calls -/

namespace MockState

/-- Doing nothing keeps the tables. -/
theorem Keeps.refl (m : MockState) (now : Time) : Keeps m m now :=
  ⟨rfl, id, fun _ _ h _ => h, fun _ _ h => h, fun _ _ h _ => h⟩

/-- A search keeps the bookings and their slots' tombstones, and finds only where the times are read. -/
theorem searchAvailability_spec {m : MockState} (hkeyed : Keyed m.slots) (adapter : MockBookingAdapter)
    {query : AvailabilityQuery} (hquery : query.Valid) (operationId : String) (now : Time) :
    Keeps m (adapter.searchAvailability query operationId now m).2 now ∧
      (∀ slots, (adapter.searchAvailability query operationId now m).1 = some slots → slots ≠ [] →
        query.Readable) ∧
      ((adapter.searchAvailability query operationId now m).1 = none → ¬ query.Readable) := by
  unfold MockBookingAdapter.searchAvailability
  cases hgenerate : adapter.generate query with
  | none =>
    refine ⟨.refl m now, by simp, fun _ hread => ?_⟩
    obtain ⟨slots, hslots⟩ := adapter.generate_of_readable hquery hread
    rw [hgenerate] at hslots
    contradiction
  | some candidates =>
    cases candidates with
    | nil => exact ⟨.refl m now, by simp, by simp⟩
    | cons first rest =>
      have hkeeps := publish_keeps hkeyed (first :: rest) operationId now
      refine ⟨⟨hkeeps.retention, hkeeps.slots, hkeeps.bookings, hkeeps.no_new, hkeeps.tombstones⟩, ?_, by simp⟩
      exact fun _ _ _ => MockBookingAdapter.readable_of_generate hquery hgenerate

/-- A call that books nothing keeps the tables. -/
theorem call_keeps {m : MockState} (hkeyed : Keyed m.slots) {op : MockOp} (now : Time)
    (hop : ∀ slotId key factory, op ≠ .book slotId key factory) : Keeps m (m.call now op) now := by
  cases op with
  | publish candidates operationId => exact publish_keeps hkeyed candidates operationId now
  | getBooking key | reconcile key => exact .refl m now
  | book slotId key factory => exact absurd rfl (hop slotId key factory)
  | release operationId => exact ⟨rfl, id, fun _ _ h _ => h, fun _ _ h => h, fun _ _ h _ => h⟩
  | cleanup batchSize => exact cleanup_keeps m now batchSize

/-- A search gives no tombstones. -/
theorem searchAvailability_tombstones (m : MockState) (adapter : MockBookingAdapter) (query : AvailabilityQuery)
    (operationId : String) (now : Time) :
    (adapter.searchAvailability query operationId now m).2.tombstones = m.tombstones := by
  unfold MockBookingAdapter.searchAvailability
  split
  · rfl
  · rfl
  · next candidates _ _ =>
    obtain ⟨slots, hstate⟩ := publish_state now candidates ⟨m.expirePins now, [], []⟩
    exact (congrArg MockState.tombstones hstate :)

end MockState

namespace AdapterCall

/-- A call that leaves the tables takes nothing. -/
theorem consumes_self (k : ℕ) (m : MockState) (call : AdapterCall) : call.consumes k m m = [] := by
  have hnone : ∀ slotId, call.takes m m slotId = false := by
    intro slotId
    unfold takes
    cases call <;> simp
  simp [consumes, hnone]

/-- A search takes nothing, whatever it evicts. -/
theorem consumes_searchAvailability (k : ℕ) (key : Option String) {m m' : MockState}
    (h : m'.tombstones = m.tombstones) : (searchAvailability key).consumes k m m' = [] := by
  have hnone : ∀ slotId, (searchAvailability key).takes m m' slotId = false := by
    intro slotId
    unfold takes
    simp [h]
  simp [consumes, hnone]

/-- A booking takes its slot. -/
theorem consumes_book (k : ℕ) (key : String) {slotId : String} (slots rest : List AvailabilitySlot)
    (slot : AvailabilitySlot) {m : MockState} {entry : SlotEntry} (hslot : m.slots.get? slotId = some entry)
    (b : Booking) (t : Tombstone) (pins : Dict String Pin) :
    (bookSlot key slots slot rest).consumes k m { m with
        bookings := m.bookings.insert key b
        tombstones := m.tombstones.insert slotId t
        slots := m.slots.erase slotId
        pins := pins } = [⟨k, some key, slotId, some b.confirmation⟩] := by
  have htakes : ∀ x, (bookSlot key slots slot rest).takes m { m with
        bookings := m.bookings.insert key b
        tombstones := m.tombstones.insert slotId t
        slots := m.slots.erase slotId
        pins := pins } x = decide (x = slotId) := by
    intro x
    unfold takes
    dsimp only
    by_cases hx : x = slotId
    · subst hx
      simp [Dict.contains_eq, Dict.get?_erase_self, hslot]
    · simp [Dict.contains_eq, Dict.get?_erase_ne _ (Ne.symm hx), Dict.get?_insert_ne _ _ (Ne.symm hx), hx]
  have hin : slotId ∈ m.slots.entries.map Prod.fst := by
    rw [Dict.mem_keys_iff, hslot]
    rfl
  have hone : ∀ ids : List String, slotId ∈ ids →
      ids.dedup.filter (fun x => decide (x = slotId)) = [slotId] := by
    intro ids hids
    rw [List.filter_eq, List.count_eq_one_of_mem (List.nodup_dedup _) (List.mem_dedup.mpr hids)]
    rfl
  unfold consumes
  dsimp only
  rw [funext htakes, hone _ (List.mem_append_left _ hin)]
  simp [AdapterCall.key, Dict.get?_insert_self]

end AdapterCall

namespace BookingSys

/-- The booking that a consumption made, and the tombstone of its slot, last as long as the run. -/
structure Lasts (start : Time) (m : MockState) (e : Consumption) : Prop where
  booking : ∃ key b, e.key = some key ∧ m.bookings.get? key = some b ∧ e.confirmation = some b.confirmation ∧
    start + m.retention ≤ b.protectedUntil
  tombstone : ∃ t, m.tombstones.get? e.slotId = some t ∧ e.key = some t.key ∧
    start + m.retention ≤ t.protectedUntil

/-- The execution that made a consumption had read the times of its query, and returned the booking. -/
def Returns (data : UnicodeData) (calls : ℕ → Option ServiceCall) (e : Consumption) : Prop :=
  ∃ call query result, calls e.execution = some call ∧ BookingService.queryFrom call.request.intent = .ok query ∧
    query.Readable ∧ call.request.key data = .ok e.key ∧ call.execution = .returned result ∧
    result.booking = e.confirmation

/-- What holds between two steps. -/
structure Sound (data : UnicodeData) (start : Time) (s : BookingSys) : Prop where
  keyed : MockState.Keyed s.state.slots
  /-- Every booking was made by a consumption. -/
  bookings : ∀ key b, s.state.bookings.get? key = some b → ∃ e ∈ s.consumed, e.key = some key
  consumed : ∀ e ∈ s.consumed, Lasts start s.state e
  keys : (s.consumed.map Consumption.key).Nodup
  slotIds : (s.consumed.map Consumption.slotId).Nodup
  returns : ∀ e ∈ s.consumed, Returns data s.calls e
  calls : ∀ k call, s.calls k = some call → call.execution.Proper data call.request s.consumed

variable {data : UnicodeData} {start : Time} {s : BookingSys}

/-- Consumptions for one key are one. -/
theorem Sound.unique (h : s.Sound data start) {e e' : Consumption} (he : e ∈ s.consumed) (he' : e' ∈ s.consumed)
    (hkey : e.key = e'.key) : e = e' :=
  List.inj_on_of_nodup_map h.keys he he' hkey

/-- A key whose booking was made has it during the whole run. -/
theorem Sound.getBooking (h : s.Sound data start) {e : Consumption} (he : e ∈ s.consumed) {now : Time}
    (hnow : s.During start now) :
    ∃ key c, e.key = some key ∧ e.confirmation = some c ∧ s.state.getBooking key now = some c := by
  obtain ⟨key, b, hkey, hb, hconfirmation, hlasts⟩ := (h.consumed e he).booking
  refine ⟨key, b.confirmation, hkey, hconfirmation, ?_⟩
  exact (MockState.getBooking_eq_some_iff _ _ _ _).mpr ⟨b, hb, lt_of_lt_of_le hnow.2 hlasts, rfl⟩

/-- What a key has was made for it. -/
theorem Sound.of_getBooking (h : s.Sound data start) {key : String} {now : Time} (hnow : s.During start now)
    {c : BookingConfirmation} (hc : s.state.getBooking key now = some c) :
    ∃ e ∈ s.consumed, e.key = some key ∧ e.confirmation = some c := by
  obtain ⟨b, hb, -, -⟩ := (MockState.getBooking_eq_some_iff _ _ _ _).mp hc
  obtain ⟨e, he, hkey⟩ := h.bookings key b hb
  obtain ⟨key', c', hkey', hconfirmation, hget⟩ := h.getBooking he hnow
  obtain rfl := Option.some.inj (hkey.symm.trans hkey')
  exact ⟨e, he, hkey, hconfirmation.trans (hget.symm.trans hc)⟩

/-- What keeps the tables keeps what lasts. -/
theorem Lasts.keep {m m' : MockState} {now : Time} {e : Consumption} (h : Lasts start m e)
    (hkeeps : MockState.Keeps m m' now) (hnow : now < start + m.retention) : Lasts start m' e := by
  obtain ⟨⟨key, b, hkey, hb, hconfirmation, hbooking⟩, t, ht, htkey, htombstone⟩ := h
  constructor
  · refine ⟨key, b, hkey, hkeeps.bookings _ _ hb (lt_of_lt_of_le hnow hbooking), hconfirmation, ?_⟩
    rwa [hkeeps.retention]
  · refine ⟨t, hkeeps.tombstones _ _ ht (lt_of_lt_of_le hnow htombstone), htkey, ?_⟩
    rwa [hkeeps.retention]

/-- An execution that has returned goes no further. -/
def Unreturned (calls : ℕ → Option ServiceCall) (k : ℕ) : Prop :=
  ∀ call result, calls k = some call → call.execution ≠ .returned result

/-- What was returned stays when another execution goes on. -/
theorem Returns.update {calls : ℕ → Option ServiceCall} {e : Consumption} (h : Returns data calls e) {k : ℕ}
    (hk : Unreturned calls k) (call : ServiceCall) : Returns data (Function.update calls k (some call)) e := by
  obtain ⟨before, query, result, hbefore, hquery, hread, hkey, hreturned, hbooking⟩ := h
  have hne : e.execution ≠ k := by
    rintro rfl
    exact hk before result hbefore hreturned
  refine ⟨before, query, result, ?_, hquery, hread, hkey, hreturned, hbooking⟩
  rw [Function.update_of_ne hne, hbefore]

/-- What holds of every execution still does when one goes on. -/
theorem forall_update {P : ServiceCall → Prop} {calls : ℕ → Option ServiceCall}
    (h : ∀ k call, calls k = some call → P call) {k : ℕ} {call : ServiceCall} (hcall : P call) :
    ∀ k' call', Function.update calls k (some call) k' = some call' → P call' := by
  intro k' call' hsome
  by_cases heq : k' = k
  · rw [heq, Function.update_self] at hsome
    obtain rfl := Option.some.inj hsome
    exact hcall
  · rw [Function.update_of_ne heq] at hsome
    exact h k' call' hsome

/-- A step that keeps the tables, of an execution that had not returned. -/
theorem Sound.keep (h : s.Sound data start) {m : MockState} {now : Time} (hkeeps : MockState.Keeps s.state m now)
    (hnow : s.During start now) {k : ℕ} (hk : Unreturned s.calls k) {r : BookingRequest} {execution : Execution}
    (hproper : execution.Proper data r s.consumed) (unavailableVenues : List String) :
    Sound data start ⟨m, Function.update s.calls k (some ⟨r, unavailableVenues, execution⟩), s.consumed⟩ where
  keyed := hkeeps.slots h.keyed
  bookings := fun key b hb => h.bookings key b (hkeeps.no_new key b hb)
  consumed := fun e he => (h.consumed e he).keep hkeeps hnow.2
  keys := h.keys
  slotIds := h.slotIds
  returns := fun e he => (h.returns e he).update hk _
  calls := forall_update (P := fun call => call.execution.Proper data call.request s.consumed) h.calls hproper

/-- A step that takes nothing. -/
theorem Sound.pass (h : s.Sound data start) {m : MockState} {now : Time} (hkeeps : MockState.Keeps s.state m now)
    (hnow : s.During start now) {k : ℕ} (hk : Unreturned s.calls k) {r : BookingRequest} {execution : Execution}
    (hproper : execution.Proper data r s.consumed) (unavailableVenues : List String) {call : AdapterCall}
    (hnone : call.consumes k s.state m = []) :
    Sound data start ⟨m, Function.update s.calls k (some ⟨r, unavailableVenues, execution⟩),
      call.consumes k s.state m ++ s.consumed⟩ := by
  rw [hnone]
  exact h.keep hkeeps hnow hk hproper unavailableVenues

/-- A step that makes a booking. -/
theorem Sound.book (h : s.Sound data start) {slotId key : String} {factory : ConfirmationFactory} {now : Time}
    (hnow : s.During start now) {entry : SlotEntry}
    (hexpired : ∀ b, s.state.bookings.get? key = some b → b.protectedUntil ≤ now)
    (hfree : ∀ t, s.state.tombstones.get? slotId = some t → now < t.protectedUntil → t.key = key)
    {k : ℕ} (hk : Unreturned s.calls k) {r : BookingRequest} {query : AvailabilityQuery}
    (hquery : BookingService.queryFrom r.intent = .ok query) (hread : query.Readable)
    (hkey : r.key data = .ok (some key)) (slots : List AvailabilitySlot) (unavailableVenues : List String) :
    Sound data start ⟨{ s.state with
        bookings := s.state.bookings.insert key ⟨factory.build entry.slot, now + s.state.retention⟩
        tombstones := s.state.tombstones.insert slotId ⟨key, now + s.state.retention⟩
        slots := s.state.slots.erase slotId
        pins := s.state.pins.erase slotId },
      Function.update s.calls k (some ⟨r, unavailableVenues,
        .returned (BookingService.mockBooked r.intent slots (factory.build entry.slot))⟩),
      ⟨k, some key, slotId, some (factory.build entry.slot)⟩ :: s.consumed⟩ := by
  -- The key has no booking yet, and the slot was taken for no key.
  have hnew : ∀ e ∈ s.consumed, e.key ≠ some key := by
    intro e he hkey
    obtain ⟨key', b, hkey', hb, -, hlasts⟩ := (h.consumed e he).booking
    obtain rfl := Option.some.inj (hkey.symm.trans hkey')
    exact absurd (hlasts.trans (hexpired b hb)) (not_le.mpr hnow.2)
  have hslot : ∀ e ∈ s.consumed, e.slotId ≠ slotId := by
    rintro e he rfl
    obtain ⟨t, ht, htkey, hlasts⟩ := (h.consumed e he).tombstone
    exact hnew e he (hfree t ht (lt_of_lt_of_le hnow.2 hlasts) ▸ htkey)
  have hlasts : start + s.state.retention ≤ now + s.state.retention := Int.add_le_add_right hnow.1 _
  constructor
  · exact h.keyed.erase slotId
  · intro key' b hb
    by_cases heq : key' = key
    · exact ⟨_, List.mem_cons_self, congrArg some heq.symm⟩
    · rw [Dict.get?_insert_ne _ _ (Ne.symm heq)] at hb
      obtain ⟨e, he, hekey⟩ := h.bookings key' b hb
      exact ⟨e, List.mem_cons_of_mem _ he, hekey⟩
  · intro e he
    rcases List.mem_cons.mp he with rfl | he
    · exact ⟨⟨key, _, rfl, Dict.get?_insert_self _ _ _, rfl, hlasts⟩, _, Dict.get?_insert_self _ _ _, rfl, hlasts⟩
    · obtain ⟨⟨key', b, hkey', hb, hconfirmation, hblasts⟩, t, ht, htkey, htlasts⟩ := h.consumed e he
      refine ⟨⟨key', b, hkey', ?_, hconfirmation, hblasts⟩, t, ?_, htkey, htlasts⟩
      · have hne : key ≠ key' := fun heq => hnew e he (heq ▸ hkey')
        rw [Dict.get?_insert_ne _ _ hne, hb]
      · rw [Dict.get?_insert_ne _ _ (Ne.symm (hslot e he)), ht]
  · rw [List.map_cons, List.nodup_cons]
    refine ⟨fun hmem => ?_, h.keys⟩
    obtain ⟨e, he, hekey⟩ := List.mem_map.mp hmem
    exact hnew e he hekey
  · rw [List.map_cons, List.nodup_cons]
    refine ⟨fun hmem => ?_, h.slotIds⟩
    obtain ⟨e, he, heslot⟩ := List.mem_map.mp hmem
    exact hslot e he heslot
  · intro e he
    rcases List.mem_cons.mp he with rfl | he
    · exact ⟨_, query, _, Function.update_self _ _ _, hquery, hread, hkey, rfl, rfl⟩
    · exact (h.returns e he).update hk _
  · refine forall_update (P := fun call => call.execution.Proper data call.request _)
      (fun k' call hcall => (h.calls k' call hcall).mono (List.subset_cons_self _ _)) ?_
    exact BookingService.proper_booked rfl rfl ⟨_, List.mem_cons_self, hkey, rfl⟩

/-- An execution that awaits an adapter call has not returned. -/
theorem unreturned_of_awaiting {k : ℕ} {r : BookingRequest} {unavailableVenues : List String}
    {query : AvailabilityQuery} {call : AdapterCall}
    (h : s.calls k = some ⟨r, unavailableVenues, .awaiting query call⟩) : Unreturned s.calls k := by
  intro before result hbefore hreturned
  obtain rfl := Option.some.inj (h.symm.trans hbefore)
  contradiction

/-- The step of an execution that awaits an adapter call. -/
theorem exec_advance {k : ℕ} {r : BookingRequest} {unavailableVenues : List String} {query : AvailabilityQuery}
    {call : AdapterCall} (h : s.calls k = some ⟨r, unavailableVenues, .awaiting query call⟩) (operationId : String)
    (now : Time) :
    exec data (.advance k operationId now) s =
      ⟨(BookingService.advance ⟨data, unavailableVenues⟩ r.intent query operationId now s.state call).2,
        Function.update s.calls k (some ⟨r, unavailableVenues,
          (BookingService.advance ⟨data, unavailableVenues⟩ r.intent query operationId now s.state call).1⟩),
        call.consumes k s.state
          (BookingService.advance ⟨data, unavailableVenues⟩ r.intent query operationId now s.state call).2 ++
            s.consumed⟩ := by
  simp only [exec, h]

/-- An adapter call for a key that has a booking: it is the search, or the execution returns the booking. -/
theorem advance_of_getBooking (adapter : MockBookingAdapter) (intent : ReservationIntent) (query : AvailabilityQuery)
    (operationId : String) {now : Time} {m : MockState} {call : AdapterCall} {key : String} {c : BookingConfirmation}
    (hkey : call.key = some key) (hget : m.getBooking key now = some c) :
    call = .searchAvailability (some key) ∨
      ∃ result, BookingService.advance adapter intent query operationId now m call = (.returned result, m) ∧
        result.status = .mockBooked ∧ result.booking = some c := by
  cases call with
  | searchAvailability key' =>
    obtain rfl : key' = some key := hkey
    exact .inl rfl
  | getBooking key' check =>
    obtain rfl := Option.some.inj hkey
    refine .inr ⟨BookingService.replayed intent c, ?_, rfl, rfl⟩
    simp only [BookingService.advance, hget]
  | bookSlot key' slots slot rest =>
    obtain rfl := Option.some.inj hkey
    obtain ⟨b, hb, hlive, hconfirmation⟩ := (MockState.getBooking_eq_some_iff _ _ _ _).mp hget
    refine .inr ⟨BookingService.mockBooked intent slots c, ?_, rfl, rfl⟩
    have hresult : m.bookSlot slot.slotId key' (BookingService.confirmationFactory key' now) now = (.ok c, m) := by
      rcases m.bookSlot_cases slot.slotId key' (BookingService.confirmationFactory key' now) now with
        ⟨b', hb', -, hresult⟩ | ⟨hexpired, -⟩
      · obtain rfl := Option.some.inj (hb.symm.trans hb')
        rw [hresult, hconfirmation]
      · exact absurd (hexpired b hb) (not_le.mpr hlive)
    simp only [BookingService.advance, hresult]

/-- The step of an execution that is replayed. -/
theorem Sound.replay (h : s.Sound data start) {now : Time} (hnow : s.During start now) {k : ℕ}
    (hk : Unreturned s.calls k) {r : BookingRequest} {key : String} (hkey : r.key data = .ok (some key))
    {unavailableVenues : List String} {query : AvailabilityQuery} {operationId : String} {call : AdapterCall}
    (hcall : call.key = some key) {c : BookingConfirmation} (hget : s.state.getBooking key now = some c)
    (hsearch : call ≠ .searchAvailability (some key)) :
    Sound data start
      ⟨(BookingService.advance ⟨data, unavailableVenues⟩ r.intent query operationId now s.state call).2,
        Function.update s.calls k (some ⟨r, unavailableVenues,
          (BookingService.advance ⟨data, unavailableVenues⟩ r.intent query operationId now s.state call).1⟩),
        call.consumes k s.state
          (BookingService.advance ⟨data, unavailableVenues⟩ r.intent query operationId now s.state call).2 ++
            s.consumed⟩ := by
  obtain ⟨e, he, hekey, hconfirmation⟩ := h.of_getBooking hnow hget
  obtain ⟨result, hadvance, hstatus, hbooking⟩ := (advance_of_getBooking _ _ _ _ hcall hget).resolve_left hsearch
  rw [hadvance, AdapterCall.consumes_self]
  exact h.keep (.refl _ now) hnow hk
    (BookingService.proper_booked hstatus hbooking ⟨e, he, hekey ▸ hkey, hconfirmation⟩) unavailableVenues

/-- The adapter call of an execution keeps what holds between two steps. -/
theorem Sound.advance (h : s.Sound data start) {now : Time} (hnow : s.During start now) {k : ℕ} {r : BookingRequest}
    {unavailableVenues : List String} {query : AvailabilityQuery} {call : AdapterCall}
    (hcall : s.calls k = some ⟨r, unavailableVenues, .awaiting query call⟩) (operationId : String) :
    (exec data (.advance k operationId now) s).Sound data start := by
  have hk := unreturned_of_awaiting hcall
  obtain ⟨hquery, hkey, hread⟩ : (Execution.awaiting query call).Proper data r s.consumed := h.calls k _ hcall
  rw [exec_advance hcall]
  cases call with
  | getBooking key check =>
    cases hget : s.state.getBooking key now with
    | none =>
      have hadvance : BookingService.advance ⟨data, unavailableVenues⟩ r.intent query operationId now s.state
          (.getBooking key check) = (BookingService.notReplayed r.intent query key check, s.state) := by
        simp only [BookingService.advance, hget]
      rw [hadvance]
      exact h.pass (.refl _ now) hnow hk (BookingService.notReplayed_proper hquery hkey check) unavailableVenues
        (AdapterCall.consumes_self k s.state _)
    | some existing => exact h.replay hnow hk hkey rfl hget (by simp)
  | searchAvailability key =>
    obtain ⟨hkeeps, hfound, -⟩ := MockState.searchAvailability_spec h.keyed ⟨data, unavailableVenues⟩
      (BookingService.valid_of_queryFrom hquery) operationId now
    have htombstones := MockState.searchAvailability_tombstones s.state ⟨data, unavailableVenues⟩ query operationId now
    cases hsearch :
        MockBookingAdapter.searchAvailability ⟨data, unavailableVenues⟩ query operationId now s.state with
    | mk found m =>
      rw [hsearch] at hkeeps hfound htombstones
      have hnone := AdapterCall.consumes_searchAvailability k key htombstones
      cases found with
      | none =>
        have hadvance : BookingService.advance ⟨data, unavailableVenues⟩ r.intent query operationId now s.state
            (.searchAvailability key) = (.raised none, m) := by
          simp only [BookingService.advance, hsearch]
        have hproper : (Execution.raised none).Proper data r s.consumed := trivial
        rw [hadvance]
        exact h.pass hkeeps hnow hk hproper unavailableVenues hnone
      | some slots =>
        have hadvance : BookingService.advance ⟨data, unavailableVenues⟩ r.intent query operationId now s.state
            (.searchAvailability key) = (BookingService.searched r.intent query key slots, m) := by
          simp only [BookingService.advance, hsearch]
        rw [hadvance]
        exact h.pass hkeeps hnow hk (BookingService.searched_proper hquery hkey (hfound slots rfl)) unavailableVenues
          hnone
  | bookSlot key slots slot rest =>
    rcases s.state.bookSlot_cases slot.slotId key (BookingService.confirmationFactory key now) now with
      ⟨b, hb, hlive, hresult⟩ | ⟨hexpired, ⟨error, hresult⟩ | ⟨entry, hslot, hfree, hresult⟩⟩
    · have hget := (MockState.getBooking_eq_some_iff _ _ _ _).mpr ⟨b, hb, hlive, rfl⟩
      exact h.replay hnow hk hkey rfl hget (by simp)
    · have hnone := AdapterCall.consumes_self k s.state (.bookSlot key slots slot rest)
      cases hrace : error.isSlotRace with
      | false =>
        have hadvance : BookingService.advance ⟨data, unavailableVenues⟩ r.intent query operationId now s.state
            (.bookSlot key slots slot rest) = (.raised (some error.message), s.state) := by
          simp only [BookingService.advance, hresult, hrace, Bool.false_eq_true, if_false]
        have hproper : (Execution.raised (some error.message)).Proper data r s.consumed := trivial
        rw [hadvance]
        exact h.pass (.refl _ now) hnow hk hproper unavailableVenues hnone
      | true =>
        have hadvance : BookingService.advance ⟨data, unavailableVenues⟩ r.intent query operationId now s.state
            (.bookSlot key slots slot rest) = (BookingService.nextSlot query key slots rest, s.state) := by
          simp only [BookingService.advance, hresult, hrace, if_true]
        rw [hadvance]
        exact h.pass (.refl _ now) hnow hk (BookingService.nextSlot_proper hquery hkey (hread trivial) slots rest)
          unavailableVenues hnone
    · have hconsumes := AdapterCall.consumes_book k key slots rest slot hslot
        ⟨(BookingService.confirmationFactory key now).build entry.slot, now + s.state.retention⟩
        ⟨key, now + s.state.retention⟩ (s.state.pins.erase slot.slotId)
      simp only [BookingService.advance, hresult]
      rw [hconsumes]
      exact h.book hnow hexpired hfree hk hquery (hread trivial) hkey slots unavailableVenues

/-- An execution that awaits an adapter call makes it. -/
theorem reach_advance (h : (bookingMachine data start).Reach s) (k : ℕ) (operationId : String) {now : Time}
    (hnow : s.During start now) {r : BookingRequest} {unavailableVenues : List String} {query : AvailabilityQuery}
    {call : AdapterCall}
    (hcall : s.calls k = some ⟨r, unavailableVenues, .awaiting query call⟩) {execution : Execution} {m : MockState}
    (hadvance : BookingService.advance ⟨data, unavailableVenues⟩ r.intent query operationId now s.state call =
      (execution, m)) :
    (bookingMachine data start).Reach ⟨m, Function.update s.calls k (some ⟨r, unavailableVenues, execution⟩),
      call.consumes k s.state m ++ s.consumed⟩ := by
  have hstep := h.step (M := bookingMachine data start) (.advance k operationId now)
    ⟨hnow, r, unavailableVenues, query, call, hcall⟩
  change (bookingMachine data start).Reach (BookingSys.exec data (.advance k operationId now) s) at hstep
  rwa [exec_advance hcall, hadvance] at hstep

/-- In every reachable state what holds between two steps does. -/
theorem sound (h : (bookingMachine data start).Reach s) : s.Sound data start := by
  refine h.invariant (P := fun s => s.Sound data start) ?_ ?_
  · rintro s ⟨capacity, idleTtl, retention, pin, rfl⟩
    have hempty : ∀ {α : Type} (key : String) (v : α), (Dict.empty : Dict String α).get? key ≠ some v := by simp
    exact ⟨fun slotId e he => absurd he (hempty slotId e), fun key b hb => absurd hb (hempty key b), by simp,
      List.nodup_nil, List.nodup_nil, by simp, by simp⟩
  · intro s step _ h hallowed
    cases step with
    | execute k request unavailableVenues =>
      have hfree : s.calls k = none := hallowed
      have hk : Unreturned s.calls k := by
        intro call result hcall
        rw [hfree] at hcall
        contradiction
      exact ⟨h.keyed, h.bookings, h.consumed, h.keys, h.slotIds, fun e he => (h.returns e he).update hk _,
        forall_update (P := fun call => call.execution.Proper data call.request s.consumed) h.calls
          (BookingService.start_proper data request s.consumed)⟩
    | advance k operationId now =>
      obtain ⟨hnow, r, unavailableVenues, query, call, hcall⟩ := hallowed
      exact h.advance hnow hcall operationId
    | other op now =>
      obtain ⟨hnow, hop⟩ := hallowed
      have hkeeps := MockState.call_keeps h.keyed now hop
      exact ⟨hkeeps.slots h.keyed, fun key b hb => h.bookings key b (hkeeps.no_new key b hb),
        fun e he => (h.consumed e he).keep hkeeps hnow.2, h.keys, h.slotIds, h.returns, h.calls⟩

/-- Two texts with one digest, of the requests of two executions. -/
def Collide (data : UnicodeData) (r r' : BookingRequest) : Prop :=
  ∃ q q', BookingService.queryFrom r.intent = .ok q ∧ BookingService.queryFrom r'.intent = .ok q' ∧
    BookingService.canonical data r.intent q r.scope ≠ BookingService.canonical data r'.intent q' r'.scope ∧
    sha256Hex (BookingService.canonical data r.intent q r.scope) =
      sha256Hex (BookingService.canonical data r'.intent q' r'.scope)

/-- The key of a request is the digest of its text. -/
theorem key_eq_sha256Hex {r : BookingRequest} {key : String} (hkey : r.key data = .ok (some key))
    {query : AvailabilityQuery} (hquery : BookingService.queryFrom r.intent = .ok query) :
    key = sha256Hex (BookingService.canonical data r.intent query r.scope) := by
  obtain ⟨query', hbooks⟩ := BookingRequest.books_of_key hkey
  obtain rfl := Except.ok.inj (hquery.symm.trans hbooks.query)
  exact (Option.some.inj (Except.ok.inj (hbooks.key_eq.symm.trans hkey))).symm

/-- A query with the text of one that can be read can be read. -/
theorem readable_of_canonical {i i' : ReservationIntent} {q q' : AvailabilityQuery} {scope scope' : String}
    (h : BookingService.canonical data i q scope = BookingService.canonical data i' q' scope')
    (hread : q'.Readable) : q.Readable := by
  obtain ⟨-, -, -, -, -, -, -, htime, hwindow, -, -⟩ := BookingService.canonical_inj data h
  constructor
  · rw [htime, hwindow]
    exact hread.preferredTime
  · rw [hwindow]
    exact hread.timeWindow

/-- An adapter call that starts after the booking of its key was made: the execution goes on, or returns the
booking, or its search raises. Then the booking was made for another text. -/
theorem Sound.ends (h : s.Sound data start) {now : Time} (hnow : s.During start now) {k : ℕ} {r : BookingRequest}
    {unavailableVenues : List String} {query : AvailabilityQuery} {call : AdapterCall}
    (hcall : s.calls k = some ⟨r, unavailableVenues, .awaiting query call⟩) (operationId : String) {e : Consumption}
    (he : e ∈ s.consumed) (hkey : r.key data = .ok e.key) :
    match (BookingService.advance ⟨data, unavailableVenues⟩ r.intent query operationId now s.state call).1 with
    | .awaiting _ _ => True
    | .returned result => result.status = .mockBooked ∧ result.booking = e.confirmation
    | .raised _ => ∃ booker, s.calls e.execution = some booker ∧ Collide data r booker.request := by
  obtain ⟨hquery, hcallKey, -⟩ : (Execution.awaiting query call).Proper data r s.consumed := h.calls k _ hcall
  obtain ⟨key, c, hekey, hconfirmation, hget⟩ := h.getBooking he hnow
  rw [hekey] at hkey
  have hcallKey : call.key = some key := Except.ok.inj (hcallKey.symm.trans hkey)
  rcases advance_of_getBooking ⟨data, unavailableVenues⟩ r.intent query operationId hcallKey hget with
    rfl | ⟨result, hadvance, hstatus, hbooking⟩
  · obtain ⟨-, -, hraises⟩ := MockState.searchAvailability_spec h.keyed ⟨data, unavailableVenues⟩
      (BookingService.valid_of_queryFrom hquery) operationId now
    unfold BookingService.advance
    cases hsearch :
        MockBookingAdapter.searchAvailability ⟨data, unavailableVenues⟩ query operationId now s.state with
    | mk found m =>
      rw [hsearch] at hraises
      cases found with
      | none =>
        obtain ⟨booker, query', -, hbooker, hquery', hread, hkey', -, -⟩ := h.returns e he
        rw [hekey] at hkey'
        refine ⟨booker, hbooker, query, query', hquery, hquery', fun htexts => ?_, ?_⟩
        · exact hraises rfl (readable_of_canonical htexts hread)
        · rw [← key_eq_sha256Hex hkey hquery, ← key_eq_sha256Hex hkey' hquery']
      | some slots =>
        -- The request books, so the search is not the last call.
        obtain ⟨query', hbooks⟩ := BookingRequest.books_of_key hkey
        unfold BookingService.searched
        cases slots with
        | nil => trivial
        | cons slot rest =>
          simp only [hbooks.action, BookingService.nextSlot]
          trivial
  · rw [hadvance]
    exact ⟨hstatus, hbooking.trans hconfirmation.symm⟩

/-- Identical booking requests share one reservation. Whatever executions run over one store, in any order of their
adapter calls and of the cleanups, within one retention: those of one key that return a booking return the same
confirmation; no key takes two slots and no slot is taken by two keys, every slot that was taken has the tombstone of
a key with a booking, and every booking took a slot; an execution whose last adapter call starts after the booking of
its key was made returns it, unless it raises because the booking was made for another text with the same digest; and
an execution that returns `NO_AVAILABILITY` has taken no slot. -/
theorem identical_requests_share (h : (bookingMachine data start).Reach s) :
    (∀ k k' call call' key c c', s.calls k = some call → s.calls k' = some call' →
      call.request.key data = .ok (some key) → call'.request.key data = .ok (some key) →
      call.execution.booking = some c → call'.execution.booking = some c' → c = c') ∧
    (s.consumed.map Consumption.key).Nodup ∧ (s.consumed.map Consumption.slotId).Nodup ∧
    (∀ e ∈ s.consumed, ∃ key b t, e.key = some key ∧ s.state.bookings.get? key = some b ∧
      e.confirmation = some b.confirmation ∧ s.state.tombstones.get? e.slotId = some t ∧ t.key = key) ∧
    (∀ key b, s.state.bookings.get? key = some b → ∃ e ∈ s.consumed, e.key = some key) ∧
    (∀ k operationId now call e, (bookingMachine data start).allowed s (.advance k operationId now) →
      s.calls k = some call → e ∈ s.consumed → call.request.key data = .ok e.key →
      ∃ next, (BookingSys.exec data (.advance k operationId now) s).calls k = some next ∧
        match next.execution with
        | .awaiting _ _ => True
        | .returned result => result.status = .mockBooked ∧ result.booking = e.confirmation
        | .raised _ => ∃ booker, s.calls e.execution = some booker ∧ Collide data call.request booker.request) ∧
    ∀ k call result, s.calls k = some call → call.execution = .returned result →
      result.status = .noAvailability → ∀ e ∈ s.consumed, e.execution ≠ k := by
  have hs := sound h
  -- What an execution returned was made for its key by a consumption.
  have hmade : ∀ k call key c, s.calls k = some call → call.request.key data = .ok (some key) →
      call.execution.booking = some c → ∃ e ∈ s.consumed, e.key = some key ∧ e.confirmation = some c := by
    intro k call key c hcall hkey hbooking
    have hproper := hs.calls k call hcall
    cases hexecution : call.execution with
    | awaiting query call' | raised message =>
      rw [hexecution] at hbooking
      contradiction
    | returned result =>
      rw [hexecution] at hbooking hproper
      obtain ⟨e, he, hekey, hconfirmation⟩ := hproper.2 c hbooking
      exact ⟨e, he, Except.ok.inj (hekey.symm.trans hkey), hconfirmation⟩
  refine ⟨?_, hs.keys, hs.slotIds, fun e he => ?_, hs.bookings, ?_, ?_⟩
  · intro k k' call call' key c c' hcall hcall' hkey hkey' hbooking hbooking'
    obtain ⟨e, he, hekey, hconfirmation⟩ := hmade k call key c hcall hkey hbooking
    obtain ⟨e', he', hekey', hconfirmation'⟩ := hmade k' call' key c' hcall' hkey' hbooking'
    obtain rfl := hs.unique he he' (hekey.trans hekey'.symm)
    exact Option.some.inj (hconfirmation.symm.trans hconfirmation')
  · obtain ⟨⟨key, b, hkey, hb, hconfirmation, -⟩, t, ht, htkey, -⟩ := hs.consumed e he
    exact ⟨key, b, t, hkey, hb, hconfirmation, ht, Option.some.inj (htkey.symm.trans hkey)⟩
  · rintro k operationId now call e ⟨hnow, r, unavailableVenues, query, adapterCall, hawaiting⟩ hcall he hkey
    obtain rfl := Option.some.inj (hawaiting.symm.trans hcall)
    rw [exec_advance hawaiting]
    exact ⟨_, Function.update_self _ _ _, hs.ends hnow hawaiting operationId he hkey⟩
  · rintro k call result hcall hreturned hstatus e he rfl
    obtain ⟨booker, -, made, hbooker, -, -, -, hmade, hbooking⟩ := hs.returns e he
    obtain rfl := Option.some.inj (hcall.symm.trans hbooker)
    obtain rfl := Execution.returned.inj (hreturned.symm.trans hmade)
    obtain ⟨-, b, -, -, hconfirmation, -⟩ := (hs.consumed e he).booking
    have hproper := hs.calls e.execution call hcall
    rw [hreturned] at hproper
    have hbooked := hproper.1.booked.mpr (by rw [hbooking, hconfirmation]; rfl)
    rw [hstatus] at hbooked
    contradiction

end BookingSys

/-! ## Two executions of one request -/

/-- The intent to book the table for two at six. -/
def intentAtSix : ReservationIntent :=
  ⟨.ready, .bookingService, some .bookReservation, some "Trattoria", .restaurant, kwcMarket, some 2,
    some "2030-05-16", some "18:00", none, none, [], [], none⟩

/-- A request of a visitor for it. -/
def visitAtSix : BookingRequest := ⟨intentAtSix, some "visitor-1", none, "a"⟩

theorem queryFrom_visitAtSix : BookingService.queryFrom visitAtSix.intent = .ok (tableAtSix .restaurant) := by
  change (if (tableAtSix .restaurant).Valid then Except.ok (tableAtSix .restaurant) else .error "validation error") = _
  rw [if_pos (tableAtSix_valid .restaurant)]

/-- The key of the request. -/
def keyAtSix : String :=
  BookingService.idempotencyKey .ascii intentAtSix (tableAtSix .restaurant) visitAtSix.scope

/-- An execution of the request at one of its adapter calls. -/
def atSix (call : AdapterCall) : ServiceCall := ⟨visitAtSix, [], .awaiting (tableAtSix .restaurant) call⟩

/-- The store after the search. -/
def publishedAtSix : MockState :=
  (MockHistory.fresh.state.publishAndFilter [slotAtSix .restaurant] "a" 0).2.releaseOperation "a"

theorem key_visitAtSix : visitAtSix.key .ascii = .ok (some keyAtSix) :=
  BookingRequest.Books.key_eq ⟨rfl, by decide, rfl, queryFrom_visitAtSix⟩

theorem start_visitAtSix : BookingService.start .ascii visitAtSix =
    .awaiting (tableAtSix .restaurant) (.getBooking keyAtSix .first) := by
  unfold BookingService.start
  rw [if_neg (by decide), if_neg (by decide), queryFrom_visitAtSix]
  rfl

theorem search_atSix : MockBookingAdapter.searchAvailability ⟨.ascii, []⟩ (tableAtSix .restaurant) "a" 0
    MockHistory.fresh.state = (some [slotAtSix .restaurant], publishedAtSix) := by
  have hgenerate : (MockBookingAdapter.mk .ascii []).generate (tableAtSix .restaurant) = some [slotAtSix .restaurant] :=
    generate_tableAtSix _
  unfold MockBookingAdapter.searchAvailability
  rw [hgenerate]
  dsimp only
  rw [fresh_search]
  rfl

theorem bookSlot_atSix : ∃ c c' m, publishedAtSix.bookSlot (slotAtSix .restaurant).slotId keyAtSix
    (BookingService.confirmationFactory keyAtSix 1) 1 = (.ok c, m) ∧ m.getBooking keyAtSix 2 = some c' ∧
      m.retention = 86400000000 := by
  have hsome : (publishedAtSix.slots.get? (slotAtSix .restaurant).slotId).isSome = true := by decide +kernel
  obtain ⟨entry, hentry⟩ := Option.isSome_iff_exists.mp hsome
  have hbooking : publishedAtSix.bookings.get? keyAtSix = none := rfl
  have htombstone : publishedAtSix.tombstones.get? (slotAtSix .restaurant).slotId = none := rfl
  have hretention : publishedAtSix.retention = 86400000000 := rfl
  unfold MockState.bookSlot
  rw [hbooking, htombstone, hentry]
  refine ⟨_, _, _, rfl, (MockState.getBooking_eq_some_iff _ _ _ _).mpr ⟨_, Dict.get?_insert_self _ _ _, ?_, rfl⟩,
    hretention⟩
  rw [hretention]
  exact (by decide : (2 : Time) < 1 + 86400000000)

/-- Two calls. -/
def twoCalls (first second : ServiceCall) : ℕ → Option ServiceCall :=
  Function.update (Function.update (fun _ => none) 0 (some first)) 1 (some second)

theorem twoCalls_first (first second call : ServiceCall) :
    Function.update (twoCalls first second) 0 (some call) = twoCalls call second := by
  unfold twoCalls
  rw [Function.update_comm (by decide), Function.update_idem]

theorem twoCalls_second (first second call : ServiceCall) :
    Function.update (twoCalls first second) 1 (some call) = twoCalls first call := Function.update_idem _ _ _

/-- Two executions of a request, of which the second one is called while the first one books, return one
confirmation. -/
theorem BookingSys.identical_requests_share_visit : ∃ s c call call',
    (bookingMachine .ascii 0).Reach s ∧ s.calls 0 = some call ∧ s.calls 1 = some call' ∧
      call.execution.booking = some c ∧ call'.execution.booking = some c := by
  obtain ⟨c, c', m, hbook, hget, hretention⟩ := bookSlot_atSix
  have hduring : ∀ now : Time, 0 ≤ now → now < 3 → 0 ≤ now ∧ now < 0 + 86400000000 := fun now hstart hend =>
    ⟨hstart, lt_trans hend (by decide)⟩
  have h₀ : (bookingMachine .ascii 0).Reach ⟨MockHistory.fresh.state, fun _ => none, []⟩ :=
    .init ⟨100, 900000000, 86400000000, 30000000, rfl⟩
  have hcalled := (h₀.step (M := bookingMachine .ascii 0) (.execute 0 visitAtSix []) (Eq.refl none)).step
    (M := bookingMachine .ascii 0) (.execute 1 visitAtSix []) (Eq.refl none)
  have h₁ : (bookingMachine .ascii 0).Reach ⟨MockHistory.fresh.state,
      twoCalls (atSix (.getBooking keyAtSix .first)) (atSix (.getBooking keyAtSix .first)), []⟩ := by
    unfold atSix
    rw [← start_visitAtSix]
    exact hcalled
  -- The first one finds no booking, then one slot, and books it.
  have h₂ := reach_advance h₁ 0 "" (hduring 0 (by decide) (by decide)) rfl rfl
  rw [twoCalls_first] at h₂
  have h₃ := reach_advance h₂ 0 "a" (hduring 0 (by decide) (by decide)) rfl
    (show BookingService.advance ⟨.ascii, []⟩ visitAtSix.intent (tableAtSix .restaurant) "a" 0
      MockHistory.fresh.state (.searchAvailability (some keyAtSix)) = (.awaiting (tableAtSix .restaurant)
        (.bookSlot keyAtSix [slotAtSix .restaurant] (slotAtSix .restaurant) []), publishedAtSix) by
      simp only [BookingService.advance, search_atSix]
      rfl)
  rw [twoCalls_first] at h₃
  have h₄ := reach_advance h₃ 0 "" (hduring 1 (by decide) (by decide)) rfl
    (show BookingService.advance ⟨.ascii, []⟩ visitAtSix.intent (tableAtSix .restaurant) "" 1 publishedAtSix
      (.bookSlot keyAtSix [slotAtSix .restaurant] (slotAtSix .restaurant) []) = (.returned
        (BookingService.mockBooked intentAtSix [slotAtSix .restaurant] c), m) by
      simp only [BookingService.advance, hbook]
      rfl)
  rw [twoCalls_first] at h₄
  -- The second one finds the booking.
  have h₅ := reach_advance h₄ 1 ""
    (show BookingSys.During 0 ⟨m, _, _⟩ 2 by
      unfold During
      dsimp only
      rw [hretention]
      exact hduring 2 (by decide) (by decide)) rfl
    (show BookingService.advance ⟨.ascii, []⟩ visitAtSix.intent (tableAtSix .restaurant) "" 2 m
      (.getBooking keyAtSix .first) = (.returned (BookingService.replayed intentAtSix c'), m) by
      simp only [BookingService.advance, hget]
      rfl)
  rw [twoCalls_second] at h₅
  obtain ⟨hshare, -⟩ := identical_requests_share h₅
  have hsame : c = c' := hshare 0 1 _ _ keyAtSix c c' rfl rfl key_visitAtSix key_visitAtSix rfl rfl
  rw [← hsame] at h₅
  exact ⟨_, c, _, _, h₅, rfl, rfl, rfl, rfl⟩

end Dibs
