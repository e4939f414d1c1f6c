import Dibs.Service.Execution

/-!
# The prompt router

`PromptRouter` of `backend/orchestrator/router.py` over both services. An intent that the validator calls ready goes to
the watch service when it asks for monitoring, and every other one to the booking service, whose execution is the one
of `Dibs.Service.Execution`. Whatever the other requests do to the mock store between its adapter calls, such an
execution comes to a result that `PromptExecutionResult` accepts after at most nineteen of them (`advance_spec`).
-/

namespace Dibs

/-! ## Results -/

/-- A `PromptExecutionResult` with its `watch_id`. -/
structure RoutedResult where
  result : PromptExecutionResult
  watchId : Option String
deriving DecidableEq

/-- `PromptExecutionResult` accepts a result: the bounds of its texts, and `validate_result_state`. -/
structure RoutedResult.Valid (r : RoutedResult) : Prop where
  watchIdSize : ∀ watchId ∈ r.watchId, SizedWithin 1 200 watchId
  message : SizedWithin 1 500 r.result.message
  booked : r.result.status = .mockBooked ↔ r.result.booking.isSome = true
  clarification : r.result.status = .clarificationRequired → r.result.intent.status ≠ .ready
  watch : r.result.status = .watchCreated ↔ r.watchId.isSome = true

instance (r : RoutedResult) : Decidable r.Valid :=
  decidable_of_iff ((∀ watchId ∈ r.watchId, SizedWithin 1 200 watchId) ∧ SizedWithin 1 500 r.result.message ∧
      (r.result.status = .mockBooked ↔ r.result.booking.isSome = true) ∧
      (r.result.status = .clarificationRequired → r.result.intent.status ≠ .ready) ∧
      (r.result.status = .watchCreated ↔ r.watchId.isSome = true))
    ⟨fun ⟨a, b, c, d, e⟩ => ⟨a, b, c, d, e⟩, fun ⟨a, b, c, d, e⟩ => ⟨a, b, c, d, e⟩⟩

/-- The constructor of a `PromptExecutionResult`. -/
def RoutedResult.build (r : RoutedResult) : Option RoutedResult := if r.Valid then some r else none

/-- The status of a result is one that its intent asks for. -/
def ReservationIntent.Asks (intent : ReservationIntent) (status : ExecutionStatus) : Prop :=
  match intent.status, intent.action with
  | .needsClarification, _ => status = .clarificationRequired
  | .ready, some .createWatch => status = .watchCreated
  | .ready, some .searchAvailability => status = .availabilityFound ∨ status = .noAvailability
  | .ready, some .bookReservation => status = .mockBooked ∨ status = .noAvailability
  | .ready, none => False

/-! ## Routes -/

/-- What the router awaits for an intent. -/
inductive Routed
  | booking (execution : Execution)
  /-- `create` of the watch service. -/
  | watch (query : AvailabilityQuery)
  /-- A `ValueError` of `create_from_intent`. -/
  | failed (message : String)

namespace PromptRouter

/-- `execute`, up to the first await of the service that it calls. -/
def execute (data : UnicodeData) (r : BookingRequest) : Routed :=
  if r.intent.status = .ready ∧ r.intent.route = .watchService then
    match WatchService.queryFrom r.intent with
    | .error message => .failed message
    | .ok query => .watch query
  else .booking (BookingService.start data r)

/-- `_watch_message`: a watch whose ceiling may stop it before its date says so. -/
def watchMessage (watch : Watch) (policy : AvailabilityPolicy) : String :=
  let opening := "Watching " ++ watch.query.venueName ++ " for " ++ toString watch.query.partySize ++ " on " ++
    watch.query.date ++ ". "
  if policy.supportsDeadline then
    opening ++ "Background checks run every few minutes until a slot opens or the date passes."
  else
    opening ++ "Background checks run every few minutes for up to " ++ toString policy.effectiveAttempts ++
      " availability checks; monitoring may stop before " ++ watch.query.date ++ "."

end PromptRouter

/-- `describe_policy`: the policy of a watch, derived again from what is stored of it. -/
def WatchService.describePolicy (svc : WatchService) (watch : Watch) : Except String AvailabilityPolicy :=
  derive svc.schedule watch.createdAt watch.expiresAt watch.maxAttempts

/-- The result of `_create_watch` for a watch that was created. -/
def PromptRouter.watchCreated (svc : WatchService) (intent : ReservationIntent) (watch : Watch) :
    Option RoutedResult :=
  match svc.describePolicy watch with
  | .error _ => none
  | .ok policy =>
    RoutedResult.build ⟨⟨.watchCreated, intent, [], none, watchMessage watch policy⟩, some watch.watchId⟩

/-! ## Texts -/

/-- A numeral below a power of ten has as many digits at most. -/
theorem length_toString_nat {n : ℕ} (k : ℕ) (hk : 0 < k) (h : n < 10 ^ k) : (toString n).toList.length ≤ k := by
  rw [Nat.toString_eq_ofList_toDigits, String.toList_ofList]
  exact (Nat.length_toDigits_le_iff (by decide) hk).mpr h

/-- The date of a valid query has ten characters. -/
theorem length_of_isIsoDate {s : String} (h : isIsoDate s = true) : s.toList.length = 10 := by
  unfold isIsoDate matchesTests at h
  simp only [Bool.and_eq_true, decide_eq_true_eq] at h
  exact h.1

/-- A policy is derived again from its own budget. -/
theorem derive_again {schedule : PollSchedule} {now expiresAt : Time} {ceiling : ℕ} {policy : AvailabilityPolicy}
    (h : derive schedule now expiresAt ceiling = .ok policy) (hbudget : 1 ≤ policy.effectiveAttempts) :
    policy.effectiveAttempts ≤ policy.requiredAttempts ∧
      derive schedule now expiresAt policy.effectiveAttempts = .ok policy := by
  unfold derive at h
  split_ifs at h
  obtain rfl := Except.ok.inj h
  dsimp only at hbudget ⊢
  generalize hrequired : (-(-(max 0 (expiresAt - now)) / schedule.earliestDelayMicroseconds) + 1).toNat = required
    at hbudget ⊢
  have hmin : min required (min required ceiling) = min required ceiling := by omega
  refine ⟨Nat.min_le_left _ _, ?_⟩
  unfold derive
  rw [if_neg (Nat.not_lt.mpr hbudget)]
  dsimp only
  rw [hrequired, hmin]

namespace PromptRouter

variable {svc : WatchService} {maxAttempts : ℕ} {zone : Zone} {now : Time} {watchId : String}
  {query : AvailabilityQuery} {autoBook : Bool} {watch : Watch} {runtime : WatchRuntime}

/-- The message of a watch that was opened fits, whatever its venue and its budget. -/
theorem watchMessage_fits {policy : AvailabilityPolicy} (hquery : watch.query.Valid)
    (hbudget : policy.effectiveAttempts ≤ maxRequiredAttempts) : SizedWithin 1 500 (watchMessage watch policy) := by
  have hname := hquery.venueName.1.2
  have hparty := length_toString_nat 3 (by decide) (lt_of_le_of_lt hquery.partySize.2 (by decide : 100 < 10 ^ 3))
  have hdate := length_of_isIsoDate hquery.date.1
  have heleven : maxRequiredAttempts < 10 ^ 11 := by decide
  have hchecks := length_toString_nat 11 (by decide) (lt_of_le_of_lt hbudget heleven)
  have hone : "Watching ".toList.length = 9 := by decide
  have htwo : " for ".toList.length = 5 := by decide
  have hthree : " on ".toList.length = 4 := by decide
  have hfour : ". ".toList.length = 2 := by decide
  unfold watchMessage SizedWithin
  split_ifs
  · have hlast :
        "Background checks run every few minutes until a slot opens or the date passes.".toList.length = 78 := by decide
    simp only [String.toList_append, List.length_append]
    omega
  · have hlimit : "Background checks run every few minutes for up to ".toList.length = 50 := by decide
    have hstop : " availability checks; monitoring may stop before ".toList.length = 49 := by decide
    have hdot : ".".toList.length = 1 := by decide
    simp only [String.toList_append, List.length_append]
    omega

/-- A watch that was opened makes a result that is accepted. -/
theorem watchCreated_opened (h : svc.openWatch maxAttempts zone now watchId query autoBook = .ok (watch, runtime))
    (intent : ReservationIntent) : ∃ result, watchCreated svc intent watch = some result ∧ result.Valid ∧
      result.result.intent = intent ∧ result.result.status = .watchCreated ∧ result.watchId = some watch.watchId := by
  obtain ⟨expiresAt, policy, hpolicy, hopened, hwatch, hruntime⟩ := WatchService.openWatch_ok h
  have heq : watch = (openedWatch watchId query autoBook now expiresAt policy).1 := congrArg Prod.fst hopened
  have hbudget : policy.requiredAttempts ≤ maxRequiredAttempts := by
    have hsidecar : runtime = (openedWatch watchId query autoBook now expiresAt policy).2 := congrArg Prod.snd hopened
    rw [hsidecar] at hruntime
    exact hruntime.requiredAttempts.2
  have hone : 1 ≤ policy.effectiveAttempts := by
    rw [heq] at hwatch
    exact hwatch.maxAttempts
  obtain ⟨hle, hagain⟩ := derive_again hpolicy hone
  have hdescribe : svc.describePolicy watch = .ok policy := by
    rw [heq]
    exact hagain
  have hvalid : RoutedResult.Valid
      ⟨⟨.watchCreated, intent, [], none, watchMessage watch policy⟩, some watch.watchId⟩ := by
    refine ⟨fun id hid => ?_, watchMessage_fits hwatch.query (hle.trans hbudget), by simp, by simp, by simp⟩
    obtain rfl := Option.some.inj hid
    exact hwatch.watchId
  refine ⟨_, ?_, hvalid, rfl, rfl, rfl⟩
  unfold watchCreated
  rw [hdescribe]
  exact if_pos hvalid

end PromptRouter

namespace WatchService

/-- The part of `create` that awaits leaves the live store alone and raises, or stores the watch, and then returns what
was stored if it returns. -/
theorem storeOpened_live (endings : CreateEndings) (watch : Watch) (runtime : WatchRuntime) (now : Time)
    (ownerClientId userId : Option String) (s : Stores) :
    let out := storeOpened endings watch runtime now ownerClientId userId s
    (∃ error, out.1 = .error error) ∧ out.2.live = s.live ∨
      out.2.live = (s.live.createWithSchedule watch runtime).2 ∧
        ∀ stored, out.1 = .ok stored → stored = (s.live.createWithSchedule watch runtime).1.watch := by
  obtain ⟨live, history, published⟩ := s
  obtain ⟨recording, storing, publishing⟩ := endings
  have hreturned : ∀ stored result : Watch, (Except.ok result : Except CreateError Watch) = .ok stored →
      stored = result := fun stored result h => (Except.ok.inj h).symm
  have hraised : ∀ (error : CreateError) (stored result : Watch), (Except.error error : Except CreateError Watch) =
      .ok stored → stored = result := fun error stored result h => by cases h
  cases userId with
  | none =>
    rcases storing with _ | ⟨_ | _⟩ | ⟨_ | _⟩
    · cases history with
      | none =>
        right
        rcases publishing with _ | ⟨_ | _⟩ | ⟨_ | _⟩ <;>
          first | exact ⟨rfl, fun stored => hreturned stored _⟩ | exact ⟨rfl, fun stored => hraised _ stored _⟩
      | some t =>
        right
        rcases recording with _ | ⟨_ | _⟩ | ⟨_ | _⟩ <;> rcases publishing with _ | ⟨_ | _⟩ | ⟨_ | _⟩ <;>
          first | exact ⟨rfl, fun stored => hreturned stored _⟩ | exact ⟨rfl, fun stored => hraised _ stored _⟩
    · exact .inl ⟨⟨_, rfl⟩, rfl⟩
    · exact .inr ⟨rfl, fun stored => hraised _ stored _⟩
    · exact .inl ⟨⟨_, rfl⟩, rfl⟩
    · exact .inr ⟨rfl, fun stored => hraised _ stored _⟩
  | some user =>
    cases history with
    | none => exact .inl ⟨⟨_, rfl⟩, rfl⟩
    | some t =>
      rcases recording with _ | ⟨_ | _⟩ | ⟨_ | _⟩
      · rcases storing with _ | ⟨_ | _⟩ | ⟨_ | _⟩
        · right
          rcases publishing with _ | ⟨_ | _⟩ | ⟨_ | _⟩ <;>
            first | exact ⟨rfl, fun stored => hreturned stored _⟩ | exact ⟨rfl, fun stored => hraised _ stored _⟩
        · exact .inl ⟨⟨_, rfl⟩, rfl⟩
        · exact .inr ⟨rfl, fun stored => hraised _ stored _⟩
        · exact .inl ⟨⟨_, rfl⟩, rfl⟩
        · exact .inr ⟨rfl, fun stored => hraised _ stored _⟩
      all_goals exact .inl ⟨⟨_, rfl⟩, rfl⟩

/-- A creation under a vacant id leaves the watch that it opened in the live store, or nothing, and returns no other
one. -/
theorem create_vacant (svc : WatchService) (maxAttempts : ℕ) (zone : Zone) (endings : CreateEndings) (now : Time)
    {watchId : String} (query : AvailabilityQuery) (autoBook : Bool) (ownerClientId userId : Option String) {s : Stores}
    (hvacant : s.live.Vacant watchId) :
    let out := svc.create maxAttempts zone endings now watchId query autoBook ownerClientId userId s
    (∃ error, out.1 = .error error) ∧ out.2.live.get watchId = none ∨
      ∃ watch runtime, svc.openWatch maxAttempts zone now watchId query autoBook = .ok (watch, runtime) ∧
        out.2.live.get watchId = some watch ∧ ∀ stored, out.1 = .ok stored → stored = watch := by
  have hnone : s.live.get watchId = none := by
    cases hlive : s.live with
    | memory m =>
      rw [hlive] at hvacant
      exact congrArg Row.watch hvacant
    | redis db =>
      rw [hlive] at hvacant
      simp [LiveStore.get, Redis.get, hvacant.watch]
  intro out
  cases hopened : svc.openWatch maxAttempts zone now watchId query autoBook with
  | error error =>
    have hout : out = (.error error, s) := by
      show svc.create _ _ _ _ _ _ _ _ _ s = _
      unfold create
      rw [hopened]
      rfl
    rw [hout]
    exact .inl ⟨⟨error, rfl⟩, hnone⟩
  | ok documents =>
    obtain ⟨watch, runtime⟩ := documents
    obtain ⟨rfl, -, hmarker, -⟩ := openWatch_scheduled hopened
    have hout : out = storeOpened endings watch runtime now ownerClientId userId s := by
      show svc.create _ _ _ _ _ _ _ _ _ s = _
      unfold create
      rw [hopened]
    obtain ⟨hcreated, hholds⟩ := LiveStore.createWithSchedule_vacant hvacant hmarker
    rw [hout]
    rcases storeOpened_live endings watch runtime now ownerClientId userId s with
      ⟨hraised, hlive⟩ | ⟨hlive, hreturned⟩
    · rw [hlive]
      exact .inl ⟨hraised, hnone⟩
    · refine .inr ⟨watch, runtime, rfl, ?_, fun stored hstored => ?_⟩
      · rw [hlive]
        exact hholds.get_eq
      · rw [hreturned stored hstored, hcreated]
        rfl

end WatchService

/-! ## Intents that the validator routes -/

/-- What the validator promises the router of an intent. -/
structure ReservationIntent.Routable (intent : ReservationIntent) : Prop where
  question : ∀ question ∈ intent.clarificationQuestion, SizedWithin 1 400 question
  ready : intent.status = .ready → intent.action.isSome = true ∧ intent.route = routeFor intent.action ∧
    ∃ query, (∀ missing, queryFrom missing intent = .ok query) ∧ query.Valid

/-- Every intent that the validator returns is one. -/
theorem validate_routable (data : UnicodeData) {e : ReservationExtraction} (he : e.Valid) {reference : ReferenceTime}
    {intent : ReservationIntent} (hvalidate : validate data e reference = .ok intent)
    (hyear : reference.today + maxDaysAhead ≤ maxOrdinal) : intent.Routable := by
  obtain ⟨date, time, hdate, htime, rfl⟩ := validate_ok data hvalidate
  have hbuild : (intentOf e (e.resolvedVenue data) date time).build =
      .ok (intentOf e (e.resolvedVenue data) date time) := by
    unfold validate at hvalidate
    rw [hdate] at hvalidate
    simp only [bind, Except.bind, htime] at hvalidate
    exact hvalidate
  unfold ReservationIntent.build at hbuild
  split_ifs at hbuild with hfields
  refine ⟨fun question hq => (hfields.clarificationQuestion question hq).1, fun hready => ?_⟩
  obtain ⟨query, -, hquery, hvalid, -⟩ := queryFrom_ready data he hvalidate hready hyear
  unfold ReservationIntent.validateState at hbuild
  rw [hready] at hbuild
  dsimp only at hbuild
  split_ifs at hbuild with hpresent
  refine ⟨?_, ?_, query, hquery, hvalid⟩
  · unfold ReservationIntent.requiredValuesPresent at hpresent
    simp only [Bool.and_eq_true] at hpresent
    exact hpresent.1.1.1.1
  · rw [intentOf_ready] at hready
    rw [intentOf_missingFields] at hready
    simp only [intentOf, if_pos hready]

/-! ## Executions -/

/-- How many adapter calls an execution still makes at most, this one included. -/
def AdapterCall.left : AdapterCall → ℕ
  | .getBooking _ .first => maxGeneratedSlots + 3
  | .searchAvailability (some _) => maxGeneratedSlots + 2
  | .searchAvailability none => 1
  | .bookSlot _ _ _ rest => rest.length + 2
  | .getBooking _ _ => 1

theorem AdapterCall.left_pos (call : AdapterCall) : 1 ≤ call.left := by
  cases call with
  | getBooking key check => cases check <;> exact Nat.le_add_left _ _
  | searchAvailability key => cases key <;> exact Nat.le_add_left _ _
  | bookSlot key slots slot rest => exact Nat.le_add_left _ _

/-- An adapter call that an intent asks for: only an intent to book looks for a booking or makes one, and the slots
that it has yet to try are the last ones of those that were found. -/
def AdapterCall.Fits (intent : ReservationIntent) : AdapterCall → Prop
  | .getBooking _ _ | .searchAvailability (some _) => intent.action = some .bookReservation
  | .searchAvailability none => intent.action = some .searchAvailability
  | .bookSlot _ slots slot rest => intent.action = some .bookReservation ∧ (slot :: rest).IsSuffix slots ∧
    slots.length ≤ maxGeneratedSlots

/-- What a search of an execution is answered. -/
def AdapterCall.found (adapter : MockBookingAdapter) (query : AvailabilityQuery) (operationId : String) (now : Time)
    (m : MockState) : AdapterCall → Option (List AvailabilitySlot)
  | .searchAvailability _ => (adapter.searchAvailability query operationId now m).1
  | _ => none

/-- An adapter call fits what was found: until the search nothing was, and the slots that are tried are those of the
one search. -/
def AdapterCall.Tries (found : List (List AvailabilitySlot)) : AdapterCall → Prop
  | .getBooking _ .first | .searchAvailability _ => found = []
  | .bookSlot _ slots _ _ => found = [slots]
  | .getBooking _ _ => True

/-- Where an execution of an intent under a key stands after a part of it that leaves it some adapter calls. -/
def Execution.Answers (intent : ReservationIntent) (query : AvailabilityQuery) (key : Option String) (left : ℕ) :
    Execution → Prop
  | .awaiting query' call => query' = query ∧ call.key = key ∧ call.Fits intent ∧ call.left ≤ left
  | .returned result => result.intent = intent ∧ intent.Asks result.status ∧ RoutedResult.Valid ⟨result, none⟩
  | .raised _ => ¬ query.Readable

/-- No more slots are generated than sixteen. -/
theorem length_startTimes {query : AvailabilityQuery} {opens latest : ℕ} {times : List String}
    (h : startTimes query opens latest = some times) : times.length ≤ maxGeneratedSlots := by
  unfold startTimes at h
  split at h
  · split at h
    · obtain rfl := Option.some.inj h
      exact Nat.zero_le _
    · simp only [Option.bind_eq_bind, Option.bind_eq_some_iff] at h
      obtain ⟨time, -, h⟩ := h
      have hsixteen : 1 ≤ maxGeneratedSlots := by decide
      split_ifs at h <;> obtain rfl := Option.some.inj h <;> simp [hsixteen]
  · simp only [Option.bind_eq_bind, Option.bind_eq_some_iff] at h
    obtain ⟨earliest, -, finish, -, h⟩ := h
    obtain rfl := Option.some.inj h
    exact List.length_take_le _ _

/-- A list that is mapped has its length. -/
theorem length_of_mapM {α β : Type} {f : α → Option β} {l : List α} {l' : List β} (h : l.mapM f = some l') :
    l'.length = l.length := by
  induction l generalizing l' with
  | nil =>
    obtain rfl := Option.some.inj h
    rfl
  | cons a l ih =>
    rw [List.mapM_cons] at h
    simp only [Option.bind_eq_bind, Option.bind_eq_some_iff, Option.pure_def] at h
    obtain ⟨b, -, bs, hbs, h⟩ := h
    obtain rfl := Option.some.inj h
    rw [List.length_cons, List.length_cons, ih hbs]

theorem MockBookingAdapter.length_generate {adapter : MockBookingAdapter} {query : AvailabilityQuery}
    {slots : List AvailabilitySlot} (h : adapter.generate query = some slots) : slots.length ≤ maxGeneratedSlots := by
  unfold generate generateFor at h
  split_ifs at h
  · obtain rfl := Option.some.inj h
    exact Nat.zero_le _
  · obtain ⟨day, -, h⟩ := Option.bind_eq_some_iff.mp h
    split_ifs at h
    · obtain rfl := Option.some.inj h
      exact Nat.zero_le _
    · split at h
      · obtain rfl := Option.some.inj h
        exact Nat.zero_le _
      · obtain ⟨times, htimes, h⟩ := Option.bind_eq_some_iff.mp h
        rw [length_of_mapM h]
        refine (List.length_filter_le _ _).trans ?_
        unfold candidateTimes at htimes
        simp only [Option.bind_eq_bind, Option.bind_eq_some_iff] at htimes
        obtain ⟨⟨opens, closes⟩, -, htimes⟩ := htimes
        dsimp only at htimes
        split_ifs at htimes
        · obtain rfl := Option.some.inj htimes
          exact Nat.zero_le _
        · exact length_startTimes htimes

/-- A loop that adds one entry for each candidate at most makes no longer list. -/
theorem MockState.length_publishAndFilter (m : MockState) (candidates : List AvailabilitySlot) (operationId : String)
    (now : Time) : (m.publishAndFilter candidates operationId now).1.length ≤ candidates.length := by
  have hone : ∀ (acc : Published) (slot : AvailabilitySlot),
      (publishOne now acc slot).result.length ≤ acc.result.length + 1 := by
    intro acc slot
    unfold publishOne
    dsimp only
    split_ifs
    · exact Nat.le_succ _
    · split
      · simp
      · split
        · exact Nat.le_succ _
        · simp
    · split
      · simp
      · split
        · exact Nat.le_succ _
        · simp
  have hloop : ∀ (rest : List AvailabilitySlot) (acc : Published),
      (rest.foldl (publishOne now) acc).result.length ≤ acc.result.length + rest.length := by
    intro rest
    induction rest with
    | nil => exact fun acc => le_rfl
    | cons slot rest ih =>
      intro acc
      have := ih (publishOne now acc slot)
      have := hone acc slot
      rw [List.foldl_cons, List.length_cons]
      omega
  have h := hloop candidates ⟨m.expirePins now, [], []⟩
  rwa [List.length_nil, Nat.zero_add] at h

/-- The mock store refuses a slot only for a lost race. -/
theorem MockState.isSlotRace_of_bookSlot {m : MockState} {slotId key : String} {factory : ConfirmationFactory}
    {now : Time} {error : AdapterError} (h : (m.bookSlot slotId key factory now).1 = .error error) :
    error.isSlotRace = true := by
  unfold bookSlot at h
  split at h
  · exact absurd h (by simp)
  · split_ifs at h
    · obtain rfl := Except.error.inj h
      rfl
    · split at h
      · obtain rfl := Except.error.inj h
        rfl
      · exact absurd h (by simp)

/-- A search finds sixteen slots at most, and raises only for times that it cannot read. -/
theorem MockBookingAdapter.searchAvailability_few (adapter : MockBookingAdapter) {query : AvailabilityQuery}
    (hquery : query.Valid) (operationId : String) (now : Time) (m : MockState) :
    (∀ slots, (adapter.searchAvailability query operationId now m).1 = some slots →
        slots.length ≤ maxGeneratedSlots) ∧
      ((adapter.searchAvailability query operationId now m).1 = none → ¬ query.Readable) := by
  unfold searchAvailability
  cases hgenerate : adapter.generate query with
  | none =>
    refine ⟨by simp, fun _ hread => ?_⟩
    obtain ⟨slots, hslots⟩ := adapter.generate_of_readable hquery hread
    rw [hgenerate] at hslots
    contradiction
  | some candidates =>
    have hfew := length_generate hgenerate
    cases candidates with
    | nil => simp [maxGeneratedSlots]
    | cons first rest =>
      refine ⟨fun slots hslots => ?_, by simp⟩
      obtain rfl := Option.some.inj hslots
      exact (m.length_publishAndFilter (first :: rest) operationId now).trans hfew

namespace BookingService

variable {intent : ReservationIntent}

/-- A result without a watch is accepted if its booking agrees with its status and its message is not long. -/
theorem valid_unwatched {status : ExecutionStatus} {slots : List AvailabilitySlot}
    {booking : Option BookingConfirmation} {message : String} (hmessage : SizedWithin 1 500 message)
    (hbooked : status = .mockBooked ↔ booking.isSome = true)
    (hclarification : status = .clarificationRequired → intent.status ≠ .ready) (hwatch : status ≠ .watchCreated) :
    RoutedResult.Valid ⟨⟨status, intent, slots, booking, message⟩, none⟩ :=
  ⟨by simp, hmessage, hbooked, hclarification, by simp [hwatch]⟩

/-- The literal messages fit. -/
theorem fits_literal {l : List Char} (h : 1 ≤ l.length ∧ l.length ≤ 500) : SizedWithin 1 500 (String.ofList l) := by
  unfold SizedWithin
  rwa [String.toList_ofList]

/-- The result for an intent that needs clarification. -/
theorem clarificationRequired_valid (h : intent.Routable) (hincomplete : intent.status = .needsClarification) :
    intent.Asks .clarificationRequired ∧ RoutedResult.Valid ⟨clarificationRequired intent, none⟩ := by
  have hdefault : SizedWithin 1 500 "More information is required." := fits_literal (by decide)
  refine ⟨?_, valid_unwatched ?_ (by simp) (fun _ => by simp [hincomplete]) (by simp)⟩
  · unfold ReservationIntent.Asks
    rw [hincomplete]
  · cases hquestion : intent.clarificationQuestion with
    | none => exact hdefault
    | some question =>
      dsimp only
      split_ifs
      · exact ⟨(h.question question hquestion).1, (h.question question hquestion).2.trans (by decide)⟩
      · exact hdefault

section Ready

variable {query : AvailabilityQuery} {key : Option String}

/-- The status of a ready intent that books or searches. -/
theorem asks_of_ready (hready : intent.status = .ready) {status : ExecutionStatus}
    (h : intent.action = some .searchAvailability ∧ (status = .availabilityFound ∨ status = .noAvailability) ∨
      intent.action = some .bookReservation ∧ (status = .mockBooked ∨ status = .noAvailability)) :
    intent.Asks status := by
  unfold ReservationIntent.Asks
  rw [hready]
  rcases h with ⟨haction, h⟩ | ⟨haction, h⟩ <;> rw [haction] <;> exact h

/-- An execution that ends without a table. -/
theorem unavailable_answers (hready : intent.status = .ready)
    (haction : intent.action = some .searchAvailability ∨ intent.action = some .bookReservation) {message : String}
    (hmessage : SizedWithin 1 500 message) (left : ℕ) :
    (Execution.returned ⟨.noAvailability, intent, [], none, message⟩).Answers intent query key left := by
  refine ⟨rfl, asks_of_ready hready ?_, valid_unwatched hmessage (by simp) (by simp) (by simp)⟩
  exact haction.imp (fun h => ⟨h, .inr rfl⟩) fun h => ⟨h, .inr rfl⟩

theorem noMatch_answers (hready : intent.status = .ready)
    (haction : intent.action = some .searchAvailability ∨ intent.action = some .bookReservation) (left : ℕ) :
    (Execution.returned (noMatch intent)).Answers intent query key left :=
  unavailable_answers hready haction (fits_literal (by decide)) left

/-- An execution that ends with a booking. -/
theorem booked_answers (hready : intent.status = .ready) (haction : intent.action = some .bookReservation)
    (slots : List AvailabilitySlot) (confirmation : BookingConfirmation) {message : String}
    (hmessage : SizedWithin 1 500 message) (left : ℕ) :
    (Execution.returned ⟨.mockBooked, intent, slots, some confirmation, message⟩).Answers intent query key left :=
  ⟨rfl, asks_of_ready hready (.inr ⟨haction, .inl rfl⟩), valid_unwatched hmessage (by simp) (by simp) (by simp)⟩

theorem availabilityFound_answers (hready : intent.status = .ready)
    (haction : intent.action = some .searchAvailability) {slots : List AvailabilitySlot}
    (hfew : slots.length ≤ maxGeneratedSlots) (left : ℕ) :
    (Execution.returned (availabilityFound intent slots)).Answers intent query key left := by
  refine ⟨rfl, asks_of_ready hready (.inl ⟨haction, .inl rfl⟩), valid_unwatched ?_ (by simp) (by simp) (by simp)⟩
  have hdigits := length_toString_nat 2 (by decide) (lt_of_le_of_lt hfew (by decide : maxGeneratedSlots < 10 ^ 2))
  have hopening : "Found ".toList.length = 6 := by decide
  have hrest : " mock availability slot(s).".toList.length = 27 := by decide
  unfold SizedWithin
  simp only [String.toList_append, List.length_append]
  omega

/-- The loop over the slots comes to a slot that was found, or to the last look for the booking. -/
theorem nextSlot_answers (haction : intent.action = some .bookReservation) (key : String)
    {slots rest : List AvailabilitySlot} (hsuffix : rest.IsSuffix slots) (hfew : slots.length ≤ maxGeneratedSlots)
    {left : ℕ} (hleft : rest.length + 1 ≤ left) :
    (nextSlot query key slots rest).Answers intent query (some key) left := by
  cases rest with
  | nil => exact ⟨rfl, rfl, haction, hleft⟩
  | cons slot rest => exact ⟨rfl, rfl, ⟨haction, hsuffix, hfew⟩, hleft⟩

/-- The answer of a booking that is found again. -/
theorem replayed_answers (hready : intent.status = .ready) (haction : intent.action = some .bookReservation)
    (existing : BookingConfirmation) (left : ℕ) :
    (Execution.returned (replayed intent existing)).Answers intent query key left := by
  refine booked_answers hready haction _ _ ?_ left
  have hone : "Returning the existing mock reservation for this idempotent request. ".toList.length = 69 := by decide
  have htwo : "No real venue or booking provider was contacted.".toList.length = 48 := by decide
  unfold SizedWithin
  rw [String.toList_append, List.length_append, hone, htwo]
  decide

/-- An execution of a ready intent that does not ask for monitoring begins with an adapter call. -/
theorem start_answers (data : UnicodeData) {r : BookingRequest} (hready : r.intent.status = .ready)
    (haction : r.intent.action = some .searchAvailability ∨ r.intent.action = some .bookReservation)
    (hroute : r.intent.route ≠ .watchService) (hquery : queryFrom r.intent = .ok query) :
    ∃ call, start data r = .awaiting query call ∧ r.key data = .ok call.key ∧ call.Fits r.intent ∧
      call.Tries [] ∧ call.left ≤ maxGeneratedSlots + 3 := by
  obtain ⟨call, hstart, hfits, htries, hleft⟩ : ∃ call, start data r = .awaiting query call ∧ call.Fits r.intent ∧
      call.Tries [] ∧ call.left ≤ maxGeneratedSlots + 3 := by
    unfold start
    rw [if_neg (not_not.mpr hready), if_neg hroute, hquery]
    dsimp only
    split_ifs with hbooks
    · exact ⟨_, rfl, hbooks, rfl, le_rfl⟩
    · exact ⟨_, rfl, haction.resolve_right hbooks, rfl, by simp [AdapterCall.left]⟩
  have hproper := start_proper data r []
  rw [hstart] at hproper
  exact ⟨call, hstart, hproper.2.1, hfits, htries, hleft⟩

/-- After a search an execution to book tries the slots, and one to search returns them. -/
theorem searched_answers (hready : intent.status = .ready) {key : Option String}
    (hfits : (AdapterCall.searchAvailability key).Fits intent) {slots : List AvailabilitySlot}
    (hfew : slots.length ≤ maxGeneratedSlots) :
    (searched intent query key slots).Answers intent query key ((AdapterCall.searchAvailability key).left - 1) := by
  cases key with
  | none =>
    have haction : intent.action = some .searchAvailability := hfits
    cases slots with
    | nil => exact noMatch_answers hready (.inl haction) _
    | cons slot rest =>
      unfold searched
      dsimp only
      rw [if_pos haction]
      exact availabilityFound_answers hready haction hfew _
  | some key =>
    have haction : intent.action = some .bookReservation := hfits
    cases slots with
    | nil => exact ⟨rfl, rfl, haction, by simp [AdapterCall.left]⟩
    | cons slot rest =>
      unfold searched
      dsimp only
      rw [haction, if_neg (by decide)]
      exact nextSlot_answers haction key (List.suffix_refl _) hfew (Nat.add_le_add_right hfew 1)

/-- Every adapter call brings an execution to its result or leaves it fewer adapter calls, whatever the store is by
then. -/
theorem advance_answers (adapter : MockBookingAdapter) (hready : intent.status = .ready) (hquery : query.Valid)
    (operationId : String) (now : Time) (m : MockState) {call : AdapterCall} (hfits : call.Fits intent) :
    (advance adapter intent query operationId now m call).1.Answers intent query call.key (call.left - 1) := by
  cases call with
  | getBooking key check =>
    unfold advance
    dsimp only
    cases m.getBooking key now with
    | some existing => exact replayed_answers hready hfits existing _
    | none =>
      cases check with
      | first => exact ⟨rfl, rfl, hfits, le_rfl⟩
      | afterSearch => exact noMatch_answers hready (.inr hfits) _
      | afterSlots => exact unavailable_answers hready (.inr hfits) (fits_literal (by decide)) _
  | searchAvailability key =>
    obtain ⟨hfew, hraises⟩ := adapter.searchAvailability_few hquery operationId now m
    unfold advance
    dsimp only
    cases hsearch : adapter.searchAvailability query operationId now m with
    | mk found m' =>
      rw [hsearch] at hfew hraises
      cases found with
      | none => exact hraises rfl
      | some slots => exact searched_answers hready hfits (hfew slots rfl)
  | bookSlot key slots slot rest =>
    obtain ⟨haction, hsuffix, hfew⟩ := hfits
    unfold advance
    dsimp only
    cases hbook : m.bookSlot slot.slotId key (confirmationFactory key now) now with
    | mk answer m' =>
      cases answer with
      | ok confirmation => exact booked_answers hready haction _ _ (fits_literal (by decide)) _
      | error e =>
        have hrace : e.isSlotRace = true := MockState.isSlotRace_of_bookSlot (congrArg Prod.fst hbook)
        dsimp only
        rw [if_pos hrace]
        exact nextSlot_answers haction key ((List.suffix_cons slot rest).trans hsuffix) hfew le_rfl

end Ready

/-- Every adapter call keeps the slots that are tried those of the search. -/
theorem advance_tries {adapter : MockBookingAdapter} {query query' : AvailabilityQuery} {operationId : String}
    {now : Time} {m : MockState} {call call' : AdapterCall} {found : List (List AvailabilitySlot)}
    (h : call.Tries found)
    (hnext : (advance adapter intent query operationId now m call).1 = .awaiting query' call') :
    call'.Tries ((call.found adapter query operationId now m).toList ++ found) := by
  have hloop : ∀ {key : String} {slots rest : List AvailabilitySlot},
      nextSlot query key slots rest = .awaiting query' call' → call'.Tries [slots] := by
    intro key slots rest hnext
    cases rest with
    | nil =>
      obtain ⟨-, rfl⟩ := Execution.awaiting.inj hnext
      trivial
    | cons slot rest =>
      obtain ⟨-, rfl⟩ := Execution.awaiting.inj hnext
      exact rfl
  cases call with
  | getBooking key check =>
    unfold advance at hnext
    dsimp only at hnext
    split at hnext
    · contradiction
    · cases check with
      | first =>
        obtain ⟨-, rfl⟩ := Execution.awaiting.inj hnext
        exact h
      | afterSearch | afterSlots => contradiction
  | searchAvailability key =>
    obtain rfl : found = [] := h
    unfold advance at hnext
    unfold AdapterCall.found
    dsimp only at hnext ⊢
    cases hsearch : adapter.searchAvailability query operationId now m with
    | mk answer m' =>
      rw [hsearch] at hnext
      cases answer with
      | none => contradiction
      | some slots =>
        change searched intent query key slots = _ at hnext
        unfold searched at hnext
        split at hnext
        · contradiction
        · obtain ⟨-, rfl⟩ := Execution.awaiting.inj hnext
          trivial
        · split_ifs at hnext
          split at hnext
          · exact hloop hnext
          · contradiction
  | bookSlot key slots slot rest =>
    obtain rfl : found = [slots] := h
    unfold advance at hnext
    dsimp only at hnext
    split at hnext
    · contradiction
    · split_ifs at hnext
      exact hloop hnext

end BookingService

/-! ## The router -/

/-- What the router does with an intent of the validator: it is answered at once when it needs clarification, watched
when it asks for that, and booked or searched for otherwise. -/
theorem PromptRouter.execute_spec (data : UnicodeData) {r : BookingRequest} (h : r.intent.Routable) :
    (r.intent.status = .needsClarification ∧
        execute data r = .booking (.returned (BookingService.clarificationRequired r.intent))) ∨
      (r.intent.status = .ready ∧ r.intent.action = some .createWatch ∧
        ∃ query, WatchService.queryFrom r.intent = .ok query ∧ execute data r = .watch query) ∨
      r.intent.status = .ready ∧
        (r.intent.action = some .searchAvailability ∨ r.intent.action = some .bookReservation) ∧
        ∃ query call, query.Valid ∧ BookingService.queryFrom r.intent = .ok query ∧
          execute data r = .booking (.awaiting query call) ∧ r.key data = .ok call.key ∧ call.Fits r.intent ∧
          call.Tries [] ∧ call.left ≤ maxGeneratedSlots + 3 := by
  unfold execute
  cases hstatus : r.intent.status with
  | needsClarification =>
    refine .inl ⟨rfl, ?_⟩
    rw [if_neg (by simp)]
    unfold BookingService.start
    rw [if_pos (by simp [hstatus])]
  | ready =>
    obtain ⟨haction, hroute, query, hquery, hvalid⟩ := h.ready hstatus
    obtain ⟨action, haction⟩ := Option.isSome_iff_exists.mp haction
    rw [haction] at hroute
    cases action with
    | createWatch =>
      refine .inr (.inl ⟨rfl, haction, query, hquery _, ?_⟩)
      rw [if_pos ⟨rfl, hroute⟩]
      unfold WatchService.queryFrom
      rw [hquery]
    | searchAvailability | bookReservation =>
      have hwatch : r.intent.route ≠ .watchService := by simp [hroute, routeFor]
      have hbooks : r.intent.action = some .searchAvailability ∨ r.intent.action = some .bookReservation := by
        simp [haction]
      obtain ⟨call, hstart, hkey, hfits, htries, hleft⟩ :=
        BookingService.start_answers data hstatus hbooks hwatch (hquery _)
      refine .inr (.inr ⟨rfl, hbooks, query, call, hvalid, hquery _, ?_, hkey, hfits, htries, hleft⟩)
      rw [if_neg fun hboth => hwatch hboth.2, hstart]

end Dibs
