import Dibs.Api.Access
import Dibs.Service.Router
import Dibs.Service.Throttle

/-!
# Prompts

The routes `parse_prompt` and `parse_and_book` of `backend/main.py` with the engine, the provider boundary and the
router behind them. A prompt is counted against its caller, then the paid provider is awaited, then what the validator
makes of the extraction is answered, booked or watched. Any number of prompts share one throttle, one mock store and the
stores of the watches, and are interleaved at each of their awaits, with anything that others do to these stores.

Without Redis the throttle and the mock store are those of the process. With it the throttle counts what Redis answers,
and lets a prompt through where Redis does not; and a call of the mock store answers as the store in memory does in some
state, or it raises.

Three things follow for every run: the provider is asked no more often for one caller than the throttle of the process
lets through (`prompt_spend_bounded`), a prompt is answered with a result that the response model accepts or with an
error that says what failed (`prompts_answered`), and it does to the stores only what its intent asks for
(`prompts_act_as_asked`).
-/

namespace Dibs

/-! ## Callers -/

/-- `throttle_key`: a caller is an identity and an origin. -/
def throttleKey (lower : String → String) (identity : String) (origin : Option String) : String :=
  lower (pyStrip identity) ++ "|" ++ if origin.getD "" = "" then "-" else origin.getD ""

/-- The headers of a request, its peer address, and the account that `current_user` resolved. -/
structure PromptCaller where
  clientId : Option String
  origin : Option String
  peer : Option String
  userId : Option String
deriving DecidableEq, Repr

/-- The key of `_enforce_prompt_throttle`: a request without a usable client id counts for its peer address. -/
def PromptCaller.key (lower : String → String) (caller : PromptCaller) : String :=
  throttleKey lower ((extractClientId caller.clientId).getD (caller.peer.getD "-")) caller.origin

/-! ## The throttle -/

/-- What prompts are counted by: the throttle of the process, the one in Redis, or nothing. -/
inductive PromptThrottle
  | inProcess (sys : ThrottleSys)
  | shared
  | absent

/-- `RedisSlidingWindowThrottle.aconsume`, by whether Redis accepts the event. Where the call of Redis raises, the
request is let through and not counted. -/
def sharedAdmission (token : String) : Option Bool → Except RateLimited (Option String)
  | some true => .ok (some token)
  | some false => .error .rateLimited
  | none => .ok none

/-- `_enforce_prompt_throttle`, for the key of its caller. -/
def PromptThrottle.enforce (key : String) (readings : Readings) (token : String) (accepted : Option Bool) :
    PromptThrottle → Except RateLimited (Option String) × PromptThrottle
  | .inProcess sys => ((sys.throttle.aconsume key readings token).1,
      .inProcess (ThrottleSys.exec (.aconsume key token, readings) sys))
  | .shared => (sharedAdmission token accepted, .shared)
  | .absent => (.ok none, .absent)

/-- A throttle of the process is counted as its machine counts, and only it is. -/
theorem PromptThrottle.enforce_inProcess {throttle : PromptThrottle} {key token : String} {readings : Readings}
    {accepted : Option Bool} {sys' : ThrottleSys}
    (h : (throttle.enforce key readings token accepted).2 = .inProcess sys') :
    ∃ sys, throttle = .inProcess sys ∧ sys' = ThrottleSys.exec (.aconsume key token, readings) sys ∧
      (throttle.enforce key readings token accepted).1 = (sys.throttle.aconsume key readings token).1 := by
  cases throttle with
  | inProcess sys => exact ⟨sys, rfl, (PromptThrottle.inProcess.inj h).symm, rfl⟩
  | shared | absent => contradiction

/-! ## The provider -/

/-- How the await of `responses.parse` ends. -/
inductive ProviderOutcome
  | rateLimitError
  | openAIError
  | valueError
  /-- A response without parsed output, with the refusals of its contents. -/
  | unparsed (refusals : List (Option String))
  | otherType
  | parsed (extraction : ReservationExtraction)

/-- `ProviderError`, and `ProviderUnavailableError` of it. -/
inductive ProviderError
  | unavailable (message : String)
  | failed (message : String)

/-- `_find_refusal`. -/
def findRefusal (refusals : List (Option String)) : Option String :=
  refusals.findSome? fun refusal => refusal.filter (· ≠ "")

/-- `OpenAIIntentProvider.extract`, after its await. -/
def ProviderOutcome.extract : ProviderOutcome → Except ProviderError ReservationExtraction
  | .rateLimitError => .error (.unavailable
      "The reservation assistant is temporarily unavailable. Please try again in a little while.")
  | .openAIError => .error (.failed "The language model provider request failed")
  | .valueError => .error (.failed "The language model returned invalid structured data")
  | .unparsed refusals => .error (.failed (match findRefusal refusals with
      | some refusal => "The language model refused the request: " ++ refusal
      | none => "The language model did not return structured data"))
  | .otherType => .error (.failed "The language model returned an unexpected data type")
  | .parsed extraction => .ok extraction

/-! ## Requests -/

/-- The two routes. -/
inductive PromptRoute
  | parsePrompt
  | parseAndBook
deriving DecidableEq, Repr

/-- The response of a route. -/
inductive PromptResponse
  | parsed (intent : ReservationIntent)
  | executed (result : RoutedResult)
  | refused (error : HttpException)
  /-- Any other exception, or the cancellation of the request. -/
  | raised
deriving DecidableEq

/-- Where a prompt stands. -/
inductive PromptStage
  /-- The provider is awaited. -/
  | extracting
  /-- An adapter call of the booking service is awaited. -/
  | calling (intent : ReservationIntent) (query : AvailabilityQuery) (call : AdapterCall)
  /-- The creation of a watch is awaited. -/
  | creating (intent : ReservationIntent) (query : AvailabilityQuery)
  /-- The response, with the intent, if the prompt got one. -/
  | answered (intent : Option ReservationIntent) (response : PromptResponse)
deriving DecidableEq

/-- A prompt. The nonce is the `uuid4().hex` that the booking service draws if it needs one. -/
structure Prompt where
  route : PromptRoute
  caller : PromptCaller
  nonce : String
  reference : ReferenceTime
  stage : PromptStage

/-- The response for an error of the provider. -/
def ProviderError.response : ProviderError → PromptResponse
  | .unavailable message => .refused ⟨503, message⟩
  | .failed message => .refused ⟨502, message⟩

/-- The response for an error of `create`. -/
def CreateError.response : CreateError → PromptResponse
  | .pastReservationDate message => .refused ⟨422, message⟩
  | .ownershipUnavailable message => .refused ⟨503, message⟩
  | .value _ | .failed | .cancelled => .raised

/-- A result, if its constructor accepts it. -/
def PromptResponse.ofResult : Option RoutedResult → PromptResponse
  | some result => .executed result
  | none => .raised

/-- Where a prompt stands after a part of an execution. -/
def Execution.stage (intent : ReservationIntent) : Execution → PromptStage
  | .awaiting query call => .calling intent query call
  | .returned result => .answered (some intent) (.ofResult (RoutedResult.build ⟨result, none⟩))
  | .raised _ => .answered (some intent) .raised

/-- The call of the booking service for an intent of a prompt. -/
def Prompt.request (p : Prompt) (intent : ReservationIntent) : BookingRequest :=
  ⟨intent, extractClientId p.caller.clientId, p.caller.userId, p.nonce⟩

/-- Where a prompt stands after the provider: `parse` of the engine, and what its route does with the intent. -/
def Prompt.extracted (data : UnicodeData) (p : Prompt) (outcome : ProviderOutcome) : PromptStage :=
  match outcome.extract with
  | .error error => .answered none error.response
  | .ok extraction =>
    match validate data extraction p.reference with
    | .error _ => .answered none .raised
    | .ok intent =>
      match p.route with
      | .parsePrompt => .answered (some intent) (.parsed intent)
      | .parseAndBook =>
        match PromptRouter.execute data (p.request intent) with
        | .booking execution => execution.stage intent
        | .watch query => .creating intent query
        | .failed _ => .answered (some intent) .raised

/-- Where a prompt stands after the creation of its watch. -/
def created (svc : WatchService) (intent : ReservationIntent) : Except CreateError Watch → PromptStage
  | .ok watch => .answered (some intent) (.ofResult (PromptRouter.watchCreated svc intent watch))
  | .error error => .answered (some intent) error.response

/-! ## The system -/

/-- What prompts did. -/
inductive PromptEvent (κ : Type*)
  /-- The provider was asked. The token is that of the reservation, if the prompt was counted. -/
  | asked (k : κ) (key : String) (time : ℚ) (token : Option String)
  /-- An adapter call of the booking service. -/
  | called (k : κ) (call : AdapterCall)
  /-- What a search was answered. -/
  | found (k : κ) (slots : List AvailabilitySlot)
  /-- An adapter call raised what the store raised. -/
  | failed (k : κ) (call : AdapterCall)
  /-- The creation of a watch left it in the live store. -/
  | opened (k : κ) (watch : Watch)

/-- The throttle, the stores, and the prompts. -/
structure PromptSys (κ : Type*) where
  throttle : PromptThrottle
  state : MockState
  stores : Stores
  prompts : κ → Option Prompt
  /-- What happened, the newest first. -/
  log : List (PromptEvent κ)

/-- What can happen next. -/
inductive PromptStep (κ : Type*)
  /-- A prompt comes in; the engine reads its clock if the throttle lets it through. The last argument is what Redis
  answers to the throttle, if it is asked and answers. -/
  | submit (k : κ) (route : PromptRoute) (caller : PromptCaller) (nonce : String) (reference : ReferenceTime)
      (readings : Readings) (token : String) (accepted : Option Bool)
  /-- The provider answers. -/
  | provide (k : κ) (outcome : ProviderOutcome)
  /-- A prompt's adapter call is executed. -/
  | call (k : κ) (operationId : String) (now : Time)
  /-- A prompt's adapter call raises in the store: Redis fails, or what it has does not read as a document. -/
  | fail (k : κ) (state : MockState)
  /-- A prompt's watch is created, under the id that is drawn. -/
  | create (k : κ) (now : Time) (watchId : String) (endings : CreateEndings)
  /-- Others change the stores. -/
  | others (state : MockState) (stores : Stores)

/-- What the application is built with: the folding of text, the mock adapter, the watch service with its ceiling and
its zone, and the limit of the throttle. -/
structure PromptApp where
  data : UnicodeData
  lower : String → String
  unavailableVenues : List String
  watches : WatchService
  maxAttempts : ℕ
  zone : Zone
  maxEvents : ℕ
  windowSeconds : ℤ

namespace PromptSys

variable {κ : Type*} [DecidableEq κ]

/-- A prompt moves on. -/
def move (s : PromptSys κ) (k : κ) (p : Prompt) : PromptSys κ :=
  { s with prompts := Function.update s.prompts k (some p) }

/-- The step of the system. -/
def exec (app : PromptApp) : PromptStep κ → PromptSys κ → PromptSys κ
  | .submit k route caller nonce reference readings token accepted, s =>
    let key := caller.key app.lower
    let out := s.throttle.enforce key readings token accepted
    match out.1 with
    | .error _ =>
      { s with throttle := out.2 }.move k ⟨route, caller, nonce, reference,
        .answered none (.refused ⟨429, "Too many prompt requests. Try again shortly."⟩)⟩
    | .ok given =>
      { s with throttle := out.2, log := .asked k key readings.recorded given :: s.log }.move k
        ⟨route, caller, nonce, reference, .extracting⟩
  | .provide k outcome, s =>
    match s.prompts k with
    | some p => s.move k { p with stage := p.extracted app.data outcome }
    | none => s
  | .call k operationId now, s =>
    match s.prompts k with
    | some ⟨route, caller, nonce, reference, .calling intent query call⟩ =>
      let adapter := ⟨app.data, app.unavailableVenues⟩
      let next := BookingService.advance adapter intent query operationId now s.state call
      let found := call.found adapter query operationId now s.state
      { s with
        state := next.2
        log := (found.map (PromptEvent.found k)).toList ++ PromptEvent.called k call :: s.log }.move k
        ⟨route, caller, nonce, reference, next.1.stage intent⟩
    | _ => s
  | .fail k state, s =>
    match s.prompts k with
    | some ⟨route, caller, nonce, reference, .calling intent _ call⟩ =>
      { s with state := state, log := .failed k call :: .called k call :: s.log }.move k
        ⟨route, caller, nonce, reference, .answered (some intent) .raised⟩
    | _ => s
  | .create k now watchId endings, s =>
    match s.prompts k with
    | some ⟨route, caller, nonce, reference, .creating intent query⟩ =>
      let out := app.watches.create app.maxAttempts app.zone endings now watchId query false
        (extractClientId caller.clientId) caller.userId s.stores
      { s with stores := out.2, log := ((out.2.live.get watchId).map (PromptEvent.opened k)).toList ++ s.log }.move k
        ⟨route, caller, nonce, reference, created app.watches intent out.1⟩
    | _ => s
  | .others state stores, s => { s with state := state, stores := stores }

/-- A prompt comes in once and before the year 9999, the provider's output passed the schema, and a new watch gets a
new id. -/
def allowed (app : PromptApp) (s : PromptSys κ) : PromptStep κ → Prop
  | .submit k _ caller _ reference readings token _ => s.prompts k = none ∧
      reference.today < ymdOrdinal 9999 1 1 ∧
      ∀ sys, s.throttle = .inProcess sys →
        ThrottleSys.allowed sys (.aconsume (caller.key app.lower) token, readings)
  | .provide k outcome => (∃ p, s.prompts k = some p ∧ p.stage = .extracting) ∧
      ∀ extraction, outcome = .parsed extraction → extraction.Valid
  | .call k _ _ | .fail k _ => ∃ p intent query call, s.prompts k = some p ∧ p.stage = .calling intent query call
  | .create k _ watchId _ => (∃ p intent query, s.prompts k = some p ∧ p.stage = .creating intent query) ∧
      s.stores.live.Vacant watchId
  | .others _ _ => True

/-- Any number of prompts, from whatever stores and a throttle that has counted nothing if it is the process's own. -/
def machine (κ : Type*) [DecidableEq κ] (app : PromptApp) : Machine (PromptSys κ) (PromptStep κ) where
  init s := (∀ sys, s.throttle = .inProcess sys → (ThrottleSys.machine app.maxEvents app.windowSeconds).init sys) ∧
    (∀ k, s.prompts k = none) ∧ s.log = []
  allowed := allowed app
  exec := exec app

end PromptSys

/-! ## What a prompt did -/

/-- What a prompt did, the newest first: when the provider was asked for it, its adapter calls, what its searches were
answered, the calls that raised what the store raised, and the watches that its creation left in the live store. -/
structure PromptTrace where
  asked : List ℚ
  calls : List AdapterCall
  found : List (List AvailabilitySlot)
  failed : List AdapterCall
  opened : List Watch

/-- A prompt that did nothing. -/
def PromptTrace.empty : PromptTrace := ⟨[], [], [], [], []⟩

/-- What an event adds to what a prompt did. -/
def PromptEvent.addTo {κ : Type*} [DecidableEq κ] (k : κ) (trace : PromptTrace) : PromptEvent κ → PromptTrace
  | .asked k' _ time _ => if k' = k then { trace with asked := time :: trace.asked } else trace
  | .called k' call => if k' = k then { trace with calls := call :: trace.calls } else trace
  | .found k' slots => if k' = k then { trace with found := slots :: trace.found } else trace
  | .failed k' call => if k' = k then { trace with failed := call :: trace.failed } else trace
  | .opened k' watch => if k' = k then { trace with opened := watch :: trace.opened } else trace

/-- The prompt of an event. -/
def PromptEvent.of {κ : Type*} : PromptEvent κ → κ
  | .asked k _ _ _ | .called k _ | .found k _ | .failed k _ | .opened k _ => k

/-- The request to the provider that an event counts for a caller. -/
def PromptEvent.paid {κ : Type*} (key : String) : PromptEvent κ → Option ThrottleEvent
  | .asked _ key' time (some token) => if key' = key then some ⟨time, token⟩ else none
  | _ => none

/-- What a prompt did, by the log. -/
def traceOf {κ : Type*} [DecidableEq κ] (k : κ) (log : List (PromptEvent κ)) : PromptTrace :=
  log.foldr (fun event trace => event.addTo k trace) .empty

/-- The requests to the provider that were counted for a caller, the oldest first. -/
def paidFor {κ : Type*} (key : String) (log : List (PromptEvent κ)) : List ThrottleEvent :=
  (log.filterMap (PromptEvent.paid key)).reverse

/-- A slot that was tried is one of the slots that the one search was answered. -/
def PromptTrace.TriesFound (trace : PromptTrace) : Prop :=
  ∀ key slots slot rest, AdapterCall.bookSlot key slots slot rest ∈ trace.calls →
    trace.found = [slots] ∧ slot ∈ slots

/-- What was done for an intent is what it asks for: an intent to watch opens one watch at most, for its own query and
without booking; one to search or to book makes its adapter calls, of which there are nineteen at most, and tries only
slots that its search found; and one that is not ready does nothing. -/
def ReservationIntent.Permits (intent : ReservationIntent) (trace : PromptTrace) : Prop :=
  match intent.status, intent.action with
  | .ready, some .createWatch => trace.calls = [] ∧ trace.opened.length ≤ 1 ∧
    ∀ watch ∈ trace.opened, watch.autoBook = false ∧ WatchService.queryFrom intent = .ok watch.query
  | .ready, some _ => trace.opened = [] ∧ trace.calls.length ≤ maxGeneratedSlots + 3 ∧
    (∀ call ∈ trace.calls, call.Fits intent) ∧ trace.TriesFound
  | _, _ => trace.calls = [] ∧ trace.opened = []

/-- A response that `parse_and_book` has for an intent: a result that its model accepts, for the intent, with a status
that it asks for, and with the id of the watch that was opened; for an intent to watch an error of the creation; for
one to search or to book an error only where the times of its query cannot be read or the store raised. -/
def PromptResponse.Answers (intent : ReservationIntent) (trace : PromptTrace) : PromptResponse → Prop
  | .parsed _ => False
  | .executed r => r.Valid ∧ r.result.intent = intent ∧ intent.Asks r.result.status ∧
    ∀ watchId ∈ r.watchId, ∃ watch ∈ trace.opened, watch.watchId = watchId
  | .refused error => intent.status = .ready ∧ intent.action = some .createWatch ∧
    (error.statusCode = 422 ∨ error.statusCode = 503)
  | .raised => intent.status = .ready ∧ (intent.action = some .createWatch ∨ trace.failed ≠ [] ∨
    ∃ query, BookingService.queryFrom intent = .ok query ∧ ¬ query.Readable)

/-- A prompt whose adapter call is awaited. Its calls are made under the key of its own request. -/
structure Calling (data : UnicodeData) (r : BookingRequest) (trace : PromptTrace) (query : AvailabilityQuery)
    (call : AdapterCall) : Prop where
  ready : r.intent.status = .ready
  query : query.Valid ∧ BookingService.queryFrom r.intent = .ok query
  keys : ∀ c ∈ call :: trace.calls, r.key data = .ok c.key
  fits : ∀ c ∈ call :: trace.calls, c.Fits r.intent
  tries : call.Tries trace.found ∧ trace.TriesFound
  few : trace.calls.length + call.left ≤ maxGeneratedSlots + 3
  opened : trace.opened = []

/-- What a prompt has done where it stands. -/
def Prompt.Stands (data : UnicodeData) (p : Prompt) (trace : PromptTrace) : PromptStage → Prop
  | .extracting => trace.asked.length = 1 ∧ trace.calls = [] ∧ trace.found = [] ∧ trace.opened = []
  | .calling intent query call => p.route = .parseAndBook ∧ trace.asked.length = 1 ∧
    Calling data (p.request intent) trace query call
  | .creating intent query => p.route = .parseAndBook ∧ trace.asked.length = 1 ∧ intent.status = .ready ∧
    intent.action = some .createWatch ∧ WatchService.queryFrom intent = .ok query ∧ trace.calls = [] ∧ trace.opened = []
  | .answered none response => trace.calls = [] ∧ trace.opened = [] ∧
    (trace.asked = [] ∧ response = .refused ⟨429, "Too many prompt requests. Try again shortly."⟩ ∨
      trace.asked.length = 1 ∧ ∃ error, response = .refused error ∧ (error.statusCode = 502 ∨ error.statusCode = 503))
  | .answered (some intent) response => trace.asked.length = 1 ∧
    match p.route with
    | .parsePrompt => trace.calls = [] ∧ trace.opened = [] ∧ response = .parsed intent
    | .parseAndBook => response.Answers intent trace ∧ intent.Permits trace ∧
      ∀ call ∈ trace.calls, (p.request intent).key data = .ok call.key

/-- What a prompt has done, and that it came in before the year 9999. -/
structure Prompt.Sound (data : UnicodeData) (p : Prompt) (trace : PromptTrace) : Prop where
  year : p.reference.today < ymdOrdinal 9999 1 1
  stands : p.Stands data trace p.stage

/-- The provider is asked once at most for a prompt. -/
theorem Prompt.Sound.asked {data : UnicodeData} {p : Prompt} {trace : PromptTrace} (h : p.Sound data trace) :
    trace.asked.length ≤ 1 := by
  obtain ⟨-, hstands⟩ := h
  unfold Prompt.Stands at hstands
  split at hstands
  · exact hstands.1.le
  · exact hstands.2.1.le
  · exact hstands.2.1.le
  · rcases hstands.2.2 with ⟨hnone, -⟩ | ⟨hone, -⟩
    · rw [hnone]
      exact Nat.zero_le _
    · exact hone.le
  · exact hstands.1.le

/-- A prompt is answered without asking the provider exactly when the throttle refuses it. -/
theorem Prompt.Sound.unasked {data : UnicodeData} {p : Prompt} {trace : PromptTrace} (h : p.Sound data trace)
    {intent : Option ReservationIntent} {response : PromptResponse} (hstage : p.stage = .answered intent response) :
    (∃ error, response = .refused error ∧ error.statusCode = 429) ↔ trace.asked = [] := by
  have hnil : trace.asked.length = 1 → trace.asked ≠ [] := by
    intro hone hnil
    rw [hnil] at hone
    contradiction
  have hstands := h.stands
  rw [hstage] at hstands
  cases intent with
  | none =>
    obtain ⟨-, -, ⟨hnone, hrefused⟩ | ⟨hone, error, hrefused, hstatus⟩⟩ := hstands
    · exact ⟨fun _ => hnone, fun _ => ⟨_, hrefused, rfl⟩⟩
    · refine ⟨?_, fun hnone => absurd hnone (hnil hone)⟩
      rintro ⟨error', hrefused', h429⟩
      obtain rfl := PromptResponse.refused.inj (hrefused.symm.trans hrefused')
      rcases hstatus with hstatus | hstatus <;> rw [h429] at hstatus <;> contradiction
  | some intent =>
    obtain ⟨hone, hstands⟩ := hstands
    refine ⟨?_, fun hnone => absurd hnone (hnil hone)⟩
    rintro ⟨error, rfl, h429⟩
    cases hroute : p.route with
    | parsePrompt =>
      rw [hroute] at hstands
      obtain ⟨-, -, hparsed⟩ := hstands
      contradiction
    | parseAndBook =>
      rw [hroute] at hstands
      obtain ⟨⟨-, -, hstatus⟩, -⟩ := hstands
      rcases hstatus with hstatus | hstatus <;> rw [h429] at hstatus <;> contradiction

/-- The intent of a prompt that has one. -/
def PromptStage.intent : PromptStage → Option ReservationIntent
  | .extracting => none
  | .calling intent _ _ | .creating intent _ => some intent
  | .answered intent _ => intent

/-- A call that an intent permits is one of a ready intent to search or to book. -/
theorem AdapterCall.Fits.action {intent : ReservationIntent} {call : AdapterCall} (h : call.Fits intent) :
    intent.action = some .searchAvailability ∨ intent.action = some .bookReservation := by
  cases call with
  | getBooking key check => exact .inr h
  | searchAvailability key =>
    cases key with
    | none => exact .inl h
    | some key => exact .inr h
  | bookSlot key slots slot rest => exact .inr h.1

/-- A prompt without adapter calls has tried nothing. -/
theorem PromptTrace.triesFound_nil {trace : PromptTrace} (hcalls : trace.calls = []) : trace.TriesFound := by
  intro key slots slot rest hcall
  rw [hcalls] at hcall
  contradiction

/-- The next call of a prompt, with what it is answered if it is a search: it tries what was found so far. -/
theorem PromptTrace.TriesFound.call {trace : PromptTrace} (h : trace.TriesFound) {call : AdapterCall}
    {intent : ReservationIntent} (hfits : call.Fits intent) (htries : call.Tries trace.found)
    {found : Option (List AvailabilitySlot)} (hfound : ∀ slots ∈ found, ∃ key, call = .searchAvailability key) :
    PromptTrace.TriesFound
      { trace with calls := call :: trace.calls, found := found.toList ++ trace.found } := by
  intro key slots slot rest hcall
  rcases List.mem_cons.mp hcall with rfl | hcall
  · have hnone : found = none := by
      refine Option.eq_none_iff_forall_not_mem.mpr fun answer hanswer => ?_
      obtain ⟨_, heq⟩ := hfound answer hanswer
      contradiction
    rw [hnone]
    exact ⟨htries, hfits.2.1.subset List.mem_cons_self⟩
  · obtain ⟨heq, hmem⟩ := h key slots slot rest hcall
    have hnone : found = none := by
      refine Option.eq_none_iff_forall_not_mem.mpr fun answer hanswer => ?_
      obtain ⟨key', rfl⟩ := hfound answer hanswer
      have hempty : trace.found = [] := htries
      rw [hempty] at heq
      contradiction
    rw [hnone]
    exact ⟨heq, hmem⟩

/-- Only a search finds slots. -/
theorem AdapterCall.found_search {adapter : MockBookingAdapter} {query : AvailabilityQuery} {operationId : String}
    {now : Time} {m : MockState} {call : AdapterCall} :
    ∀ slots ∈ call.found adapter query operationId now m, ∃ key, call = .searchAvailability key := by
  intro slots hslots
  cases call with
  | searchAvailability key => exact ⟨key, rfl⟩
  | getBooking | bookSlot => contradiction

/-- The calls of an intent to search or to book are permitted. -/
theorem ReservationIntent.permits_calls {intent : ReservationIntent} (hready : intent.status = .ready)
    (haction : intent.action = some .searchAvailability ∨ intent.action = some .bookReservation)
    {trace : PromptTrace} (hopened : trace.opened = []) (hfew : trace.calls.length ≤ maxGeneratedSlots + 3)
    (hfits : ∀ call ∈ trace.calls, call.Fits intent) (htries : trace.TriesFound) : intent.Permits trace := by
  unfold Permits
  rw [hready]
  rcases haction with haction | haction <;> rw [haction] <;> exact ⟨hopened, hfew, hfits, htries⟩

/-- An intent for which nothing was done permits it. -/
theorem ReservationIntent.permits_nothing (intent : ReservationIntent) {trace : PromptTrace}
    (hcalls : trace.calls = []) (hopened : trace.opened = []) : intent.Permits trace := by
  unfold Permits
  split
  · simp [hcalls, hopened]
  · simp [hcalls, hopened, PromptTrace.triesFound_nil hcalls]
  · exact ⟨hcalls, hopened⟩

/-- What a prompt has done for its intent. -/
theorem Prompt.Sound.acts {data : UnicodeData} {p : Prompt} {trace : PromptTrace} (h : p.Sound data trace) :
    match p.stage.intent, p.route with
    | some intent, .parseAndBook => intent.Permits trace ∧
        ∀ call ∈ trace.calls, (p.request intent).key data = .ok call.key
    | _, _ => trace.calls = [] ∧ trace.opened = [] := by
  have hstands := h.stands
  cases hstage : p.stage with
  | extracting =>
    rw [hstage] at hstands
    exact ⟨hstands.2.1, hstands.2.2.2⟩
  | calling intent query call =>
    rw [hstage] at hstands
    obtain ⟨hroute, -, hcalling⟩ := hstands
    rw [hroute]
    have hfits := fun c hc => hcalling.fits c (List.mem_cons_of_mem _ hc)
    have hpermits := ReservationIntent.permits_calls hcalling.ready
      (hcalling.fits call List.mem_cons_self).action hcalling.opened ((Nat.le_add_right _ _).trans hcalling.few) hfits
      hcalling.tries.2
    exact ⟨hpermits, fun c hc => hcalling.keys c (List.mem_cons_of_mem _ hc)⟩
  | creating intent query =>
    rw [hstage] at hstands
    obtain ⟨hroute, -, -, -, -, hcalls, hopened⟩ := hstands
    rw [hroute]
    refine ⟨intent.permits_nothing hcalls hopened, fun call hcall => ?_⟩
    rw [hcalls] at hcall
    contradiction
  | answered intent response =>
    rw [hstage] at hstands
    cases intent with
    | none => exact ⟨hstands.1, hstands.2.1⟩
    | some intent =>
      obtain ⟨-, hstands⟩ := hstands
      cases hroute : p.route with
      | parsePrompt =>
        rw [hroute] at hstands
        exact ⟨hstands.1, hstands.2.1⟩
      | parseAndBook =>
        rw [hroute] at hstands
        exact hstands.2

namespace Prompt

variable {data : UnicodeData} {p : Prompt} {trace : PromptTrace} {intent : ReservationIntent}
  {query : AvailabilityQuery}

/-- A prompt of an intent that is answered by `parse_and_book`. -/
theorem stands_answered (trace : PromptTrace) (hroute : p.route = .parseAndBook) (hasked : trace.asked.length = 1)
    {response : PromptResponse} (hanswers : response.Answers intent trace) (hpermits : intent.Permits trace)
    (hkeys : ∀ call ∈ trace.calls, (p.request intent).key data = .ok call.key) :
    p.Stands data trace (.answered (some intent) response) := by
  unfold Stands
  rw [hroute]
  exact ⟨hasked, hanswers, hpermits, hkeys⟩

/-- A result that is accepted answers its prompt. -/
theorem stands_returned {result : PromptExecutionResult} (hroute : p.route = .parseAndBook)
    (hasked : trace.asked.length = 1) (hpermits : intent.Permits trace)
    (hkeys : ∀ call ∈ trace.calls, (p.request intent).key data = .ok call.key) (hintent : result.intent = intent)
    (hasks : intent.Asks result.status) (hvalid : RoutedResult.Valid ⟨result, none⟩) :
    p.Stands data trace ((Execution.returned result).stage intent) := by
  unfold Execution.stage
  dsimp only
  rw [show RoutedResult.build ⟨result, none⟩ = some ⟨result, none⟩ from if_pos hvalid]
  exact stands_answered trace hroute hasked ⟨hvalid, hintent, hasks, by simp⟩ hpermits hkeys

/-- A prompt whose execution stands where the router says. -/
theorem stands_of_answers {execution : Execution} {key : Option String} {left : ℕ}
    (h : execution.Answers intent query key left) (hroute : p.route = .parseAndBook) (hasked : trace.asked.length = 1)
    (hready : intent.status = .ready) (hquery : query.Valid ∧ BookingService.queryFrom intent = .ok query)
    (haction : intent.action = some .searchAvailability ∨ intent.action = some .bookReservation)
    (hkey : (p.request intent).key data = .ok key)
    (hkeys : ∀ c ∈ trace.calls, (p.request intent).key data = .ok c.key) (hfits : ∀ c ∈ trace.calls, c.Fits intent)
    (hnext : ∀ query' call, execution = .awaiting query' call → call.Tries trace.found) (htries : trace.TriesFound)
    (hfew : trace.calls.length + left ≤ maxGeneratedSlots + 3) (hopened : trace.opened = []) :
    p.Stands data trace (execution.stage intent) := by
  have hpermits : intent.Permits trace :=
    ReservationIntent.permits_calls hready haction hopened ((Nat.le_add_right _ _).trans hfew) hfits htries
  cases execution with
  | awaiting query' call =>
    obtain ⟨rfl, rfl, hcall, hleft⟩ := h
    exact ⟨hroute, hasked, hready, hquery, List.forall_mem_cons.mpr ⟨hkey, hkeys⟩,
      List.forall_mem_cons.mpr ⟨hcall, hfits⟩, ⟨hnext _ call rfl, htries⟩, (Nat.add_le_add_left hleft _).trans hfew,
      hopened⟩
  | returned result =>
    obtain ⟨hintent, hasks, hvalid⟩ := h
    exact stands_returned hroute hasked hpermits hkeys hintent hasks hvalid
  | raised message =>
    exact stands_answered trace hroute hasked ⟨hready, .inr (.inr ⟨query, hquery.2, h⟩)⟩ hpermits hkeys

/-- A prompt after the provider's answer. -/
theorem stands_extracted (data : UnicodeData) (hyear : p.reference.today < ymdOrdinal 9999 1 1)
    {outcome : ProviderOutcome} (hvalid : ∀ extraction, outcome = .parsed extraction → extraction.Valid)
    (hasked : trace.asked.length = 1) (hcalls : trace.calls = []) (hfound : trace.found = [])
    (hopened : trace.opened = []) : p.Stands data trace (p.extracted data outcome) := by
  have hfailed : ∀ message, p.Stands data trace (.answered none (.refused ⟨502, message⟩)) :=
    fun message => ⟨hcalls, hopened, .inr ⟨hasked, _, rfl, .inl rfl⟩⟩
  unfold Prompt.extracted
  cases outcome with
  | rateLimitError => exact ⟨hcalls, hopened, .inr ⟨hasked, _, rfl, .inr rfl⟩⟩
  | openAIError | valueError | unparsed | otherType => exact hfailed _
  | parsed extraction =>
    have hstart : ymdOrdinal 9999 1 1 = 3651695 := by decide
    have hrange : p.reference.today + maxDaysAhead ≤ maxOrdinal := by
      rw [hstart] at hyear
      unfold maxDaysAhead maxOrdinal
      omega
    have hextraction := hvalid extraction rfl
    obtain ⟨intent, hvalidate, -⟩ := validate_total data hextraction hrange
    have hroutable := validate_routable data hextraction hvalidate hrange
    simp only [ProviderOutcome.extract, hvalidate]
    cases hroute : p.route with
    | parsePrompt =>
      unfold Stands
      rw [hroute]
      exact ⟨hasked, hcalls, hopened, rfl⟩
    | parseAndBook =>
      have hnothing : intent.Permits trace := intent.permits_nothing hcalls hopened
      have hnone : ∀ {P : AdapterCall → Prop}, ∀ c ∈ trace.calls, P c := by
        rw [hcalls]
        simp
      dsimp only
      rcases PromptRouter.execute_spec data (r := p.request intent) hroutable with
        ⟨hstatus, hexecute⟩ | ⟨hready, haction, query, hquery, hexecute⟩ |
        ⟨hready, haction, query, call, hquery, hqueryFrom, hexecute, hkey, hfits, htries, hleft⟩
      · rw [hexecute]
        obtain ⟨hasks, hresult⟩ := BookingService.clarificationRequired_valid hroutable hstatus
        exact stands_returned hroute hasked hnothing hnone rfl hasks hresult
      · rw [hexecute]
        exact ⟨hroute, hasked, hready, haction, hquery, hcalls, hopened⟩
      · rw [hexecute]
        refine stands_of_answers ⟨rfl, rfl, hfits, hleft⟩ hroute hasked hready ⟨hquery, hqueryFrom⟩ haction hkey hnone
          hnone (fun query' next hnext => ?_) (PromptTrace.triesFound_nil hcalls) ?_ hopened
        · obtain ⟨-, rfl⟩ := Execution.awaiting.inj hnext
          rwa [hfound]
        · rw [hcalls, List.length_nil, Nat.zero_add]

/-- A prompt after an adapter call, with what its search was answered. -/
theorem stands_called (adapter : MockBookingAdapter) (hroute : p.route = .parseAndBook)
    (hasked : trace.asked.length = 1) (hcalling : Calling adapter.data (p.request intent) trace query call)
    (operationId : String) (now : Time) (state : MockState) :
    p.Stands adapter.data
      { trace with
        calls := call :: trace.calls
        found := (call.found adapter query operationId now state).toList ++ trace.found }
      ((BookingService.advance adapter intent query operationId now state call).1.stage intent) := by
  obtain ⟨hcall, hcalls⟩ := List.forall_mem_cons.mp hcalling.fits
  have hanswers := BookingService.advance_answers adapter hcalling.ready hcalling.query.1 operationId now state hcall
  have hleft := call.left_pos
  have hfew := hcalling.few
  refine stands_of_answers hanswers hroute hasked hcalling.ready hcalling.query hcall.action
    (hcalling.keys _ List.mem_cons_self) hcalling.keys (List.forall_mem_cons.mpr ⟨hcall, hcalls⟩)
    (fun query' next hnext => BookingService.advance_tries hcalling.tries.1 hnext)
    (hcalling.tries.2.call hcall hcalling.tries.1 AdapterCall.found_search) ?_ hcalling.opened
  rw [List.length_cons]
  omega

/-- A prompt whose adapter call raised in the store. -/
theorem stands_failed (hroute : p.route = .parseAndBook) (hasked : trace.asked.length = 1)
    (hcalling : Calling data (p.request intent) trace query call) :
    p.Stands data { trace with calls := call :: trace.calls, failed := call :: trace.failed }
      (.answered (some intent) .raised) := by
  obtain ⟨hcall, hcalls⟩ := List.forall_mem_cons.mp hcalling.fits
  have hleft := call.left_pos
  have hfew := hcalling.few
  have htries : PromptTrace.TriesFound { trace with calls := call :: trace.calls } :=
    hcalling.tries.2.call hcall hcalling.tries.1 (fun _ (hnone : _ ∈ none) => absurd hnone (Option.not_mem_none _))
  have hpermits : intent.Permits { trace with calls := call :: trace.calls, failed := call :: trace.failed } := by
    refine ReservationIntent.permits_calls hcalling.ready hcall.action hcalling.opened ?_ hcalling.fits htries
    rw [List.length_cons]
    omega
  exact stands_answered { trace with calls := call :: trace.calls, failed := call :: trace.failed } hroute hasked
    ⟨hcalling.ready, .inr (.inl (List.cons_ne_nil _ _))⟩ hpermits hcalling.keys

/-- A prompt after the creation of its watch. -/
theorem stands_created {svc : WatchService} {maxAttempts : ℕ} {zone : Zone} {now : Time} {watchId : String}
    {ended : Except CreateError Watch} {found : Option Watch} (hroute : p.route = .parseAndBook)
    (hasked : trace.asked.length = 1) (hready : intent.status = .ready) (haction : intent.action = some .createWatch)
    (hquery : WatchService.queryFrom intent = .ok query) (hcalls : trace.calls = []) (hopened : trace.opened = [])
    (h : (∃ error, ended = .error error) ∧ found = none ∨
      ∃ watch runtime, svc.openWatch maxAttempts zone now watchId query false = .ok (watch, runtime) ∧
        found = some watch ∧ ∀ stored, ended = .ok stored → stored = watch) :
    p.Stands data { trace with opened := found.toList ++ trace.opened } (created svc intent ended) := by
  have hkeys : ∀ call ∈ trace.calls, (p.request intent).key data = .ok call.key := by
    rw [hcalls]
    simp
  -- Whatever was opened before it, an error of the creation answers the prompt.
  have hraised : ∀ (error : CreateError) (opened : List Watch), intent.Permits { trace with opened := opened } →
      p.Stands data { trace with opened := opened } (created svc intent (.error error)) := by
    intro error opened hpermits
    refine stands_answered { trace with opened := opened } hroute hasked ?_ hpermits hkeys
    cases error with
    | pastReservationDate message => exact ⟨hready, haction, .inl rfl⟩
    | ownershipUnavailable message => exact ⟨hready, haction, .inr rfl⟩
    | value message | failed | cancelled => exact ⟨hready, .inl haction⟩
  rw [hopened, List.append_nil]
  rcases h with ⟨⟨error, rfl⟩, rfl⟩ | ⟨watch, runtime, hwatch, rfl, hstored⟩
  · exact hraised error [] (intent.permits_nothing hcalls rfl)
  · have hfields : watch.autoBook = false ∧ watch.query = query ∧ watch.watchId = watchId := by
      obtain ⟨expiresAt, policy, -, heq, -⟩ := WatchService.openWatch_ok hwatch
      obtain ⟨rfl, -⟩ := Prod.mk.inj heq
      exact ⟨rfl, rfl, rfl⟩
    have hpermits : intent.Permits { trace with opened := [watch] } := by
      unfold ReservationIntent.Permits
      rw [hready, haction]
      refine ⟨hcalls, le_rfl, List.forall_mem_singleton.mpr ⟨hfields.1, ?_⟩⟩
      rw [hfields.2.1, hquery]
    cases ended with
    | error error => exact hraised error [watch] hpermits
    | ok stored =>
      obtain rfl := hstored stored rfl
      obtain ⟨result, hresult, hvalid, hintent, hstatus, hid⟩ := PromptRouter.watchCreated_opened hwatch intent
      have hasks : intent.Asks result.result.status := by
        unfold ReservationIntent.Asks
        rw [hready, haction]
        exact hstatus
      unfold created
      dsimp only
      rw [hresult]
      refine stands_answered { trace with opened := [stored] } hroute hasked
        ⟨hvalid, hintent, hasks, fun id hmem => ?_⟩ hpermits hkeys
      exact ⟨stored, List.mem_singleton_self _, Option.some.inj (hid.symm.trans hmem)⟩

end Prompt

/-! ## Runs -/

namespace PromptSys

variable {κ : Type*} [DecidableEq κ] {app : PromptApp} {s : PromptSys κ}

/-- What holds between two steps: the throttle of the process counts the requests to the provider, and every prompt has
done what its stage says. -/
structure Inv (app : PromptApp) (s : PromptSys κ) : Prop where
  throttle : ∀ sys, s.throttle = .inProcess sys →
    sys.Inv app.maxEvents app.windowSeconds ∧ ∀ key, sys.standing key = paidFor key s.log
  untouched : ∀ k, s.prompts k = none → traceOf k s.log = .empty
  sound : ∀ k p, s.prompts k = some p → p.Sound app.data (traceOf k s.log)

/-- What an event adds to what a prompt did. -/
theorem traceOf_cons (k : κ) (event : PromptEvent κ) (log : List (PromptEvent κ)) :
    traceOf k (event :: log) = event.addTo k (traceOf k log) := rfl

/-- Events of one prompt add nothing to another. -/
theorem traceOf_append_of_ne {k k' : κ} (hne : k ≠ k') {events log : List (PromptEvent κ)}
    (hevents : ∀ e ∈ events, e.of = k) : traceOf k' (events ++ log) = traceOf k' log := by
  induction events with
  | nil => rfl
  | cons e events ih =>
    obtain ⟨he, hevents⟩ := List.forall_mem_cons.mp hevents
    rw [List.cons_append, traceOf_cons, ih hevents]
    cases e with
    | asked | called | found | failed | opened =>
      obtain rfl := he
      exact if_neg hne

theorem traceOf_asked (k : κ) (key : String) (time : ℚ) (token : Option String) (log : List (PromptEvent κ)) :
    traceOf k (.asked k key time token :: log) =
      { traceOf k log with asked := time :: (traceOf k log).asked } := if_pos rfl

theorem traceOf_called (k : κ) (call : AdapterCall) (log : List (PromptEvent κ)) :
    traceOf k (.called k call :: log) = { traceOf k log with calls := call :: (traceOf k log).calls } := if_pos rfl

theorem traceOf_failed (k : κ) (call : AdapterCall) (log : List (PromptEvent κ)) :
    traceOf k (.failed k call :: log) = { traceOf k log with failed := call :: (traceOf k log).failed } := if_pos rfl

theorem traceOf_found (k : κ) (found : Option (List AvailabilitySlot)) (log : List (PromptEvent κ)) :
    traceOf k ((found.map (PromptEvent.found k)).toList ++ log) =
      { traceOf k log with found := found.toList ++ (traceOf k log).found } := by
  cases found with
  | none => rfl
  | some slots => exact if_pos rfl

theorem traceOf_opened (k : κ) (found : Option Watch) (log : List (PromptEvent κ)) :
    traceOf k ((found.map (PromptEvent.opened k)).toList ++ log) =
      { traceOf k log with opened := found.toList ++ (traceOf k log).opened } := by
  cases found with
  | none => rfl
  | some watch => exact if_pos rfl

omit [DecidableEq κ] in
/-- What was not asked of the provider is not counted. -/
theorem paidFor_append (key : String) {events : List (PromptEvent κ)} (log : List (PromptEvent κ))
    (hevents : ∀ e ∈ events, e.paid key = none) : paidFor key (events ++ log) = paidFor key log := by
  unfold paidFor
  rw [List.filterMap_append, List.filterMap_eq_nil_iff.mpr hevents, List.nil_append]

/-- A prompt that moves on, while no other one does anything. -/
theorem Inv.move (h : s.Inv app) {t : PromptSys κ} {k : κ} {p : Prompt}
    (hprompts : t.prompts = Function.update s.prompts k (some p))
    (hthrottle : ∀ sys, t.throttle = .inProcess sys →
      sys.Inv app.maxEvents app.windowSeconds ∧ ∀ key, sys.standing key = paidFor key t.log)
    (events : List (PromptEvent κ)) (hlog : t.log = events ++ s.log) (hevents : ∀ e ∈ events, e.of = k)
    (hsound : p.Sound app.data (traceOf k t.log)) : t.Inv app := by
  have hothers : ∀ k', k ≠ k' → traceOf k' t.log = traceOf k' s.log := by
    intro k' hne
    rw [hlog]
    exact traceOf_append_of_ne hne hevents
  refine ⟨hthrottle, fun k' hk' => ?_, fun k' p' hk' => ?_⟩
  · rw [hprompts] at hk'
    by_cases heq : k' = k
    · rw [heq, Function.update_self] at hk'
      contradiction
    · rw [Function.update_of_ne heq] at hk'
      rw [hothers k' (Ne.symm heq)]
      exact h.untouched k' hk'
  · rw [hprompts] at hk'
    by_cases heq : k' = k
    · rw [heq, Function.update_self] at hk'
      obtain rfl := Option.some.inj hk'
      rwa [heq]
    · rw [Function.update_of_ne heq] at hk'
      rw [hothers k' (Ne.symm heq)]
      exact h.sound k' p' hk'

/-- An answer of the throttle, and what stands afterwards. -/
theorem standing_aconsume (t : ThrottleSys) (key token : String) (readings : Readings) :
    (ThrottleSys.exec (.aconsume key token, readings) t).standing =
      ThrottleSys.recordedAs t.standing key readings.recorded (t.throttle.aconsume key readings token).1 := by
  unfold ThrottleSys.exec
  rfl

omit [DecidableEq κ] in
/-- What an asked provider adds to what is counted. -/
theorem paidFor_cons_asked (k : κ) (key key' : String) (time : ℚ) (token : Option String)
    (log : List (PromptEvent κ)) : paidFor key' (.asked k key time token :: log) =
      ThrottleSys.recordedAs (fun key' => paidFor key' log) key time (.ok token) key' := by
  cases token with
  | none => rfl
  | some token =>
    unfold paidFor ThrottleSys.recordedAs SlidingWindowThrottle.withEvent
    rw [List.filterMap_cons]
    unfold PromptEvent.paid
    dsimp only
    split_ifs with hkey
    · exact List.reverse_cons
    · rfl

/-- A prompt that moves on without asking the provider. -/
theorem Inv.act (h : s.Inv app) {t : PromptSys κ} {k : κ} {p : Prompt}
    (hprompts : t.prompts = Function.update s.prompts k (some p)) (hthrottle : t.throttle = s.throttle)
    (events : List (PromptEvent κ)) (hlog : t.log = events ++ s.log)
    (hevents : ∀ e ∈ events, e.of = k ∧ ∀ key, e.paid key = none) (hsound : p.Sound app.data (traceOf k t.log)) :
    t.Inv app := by
  refine h.move hprompts (fun sys hsys => ?_) events hlog (fun e he => (hevents e he).1) hsound
  obtain ⟨hinv, hstanding⟩ := h.throttle sys (hthrottle.symm.trans hsys)
  refine ⟨hinv, fun key => ?_⟩
  rw [hlog, paidFor_append key s.log fun e he => (hevents e he).2 key]
  exact hstanding key

omit [DecidableEq κ] in
/-- An event that stands for what was given, if anything was. -/
theorem forall_mem_optional {α : Type*} {k : κ} (event : α → PromptEvent κ)
    (hevent : ∀ a, (event a).of = k ∧ ∀ key, (event a).paid key = none) (given : Option α) :
    ∀ e ∈ (given.map event).toList, e.of = k ∧ ∀ key, e.paid key = none := by
  intro e he
  obtain ⟨a, -, rfl⟩ := Option.map_eq_some_iff.mp (Option.mem_toList.mp he)
  exact hevent a

/-- A prompt comes in. -/
theorem Inv.submit (hmax : 1 ≤ app.maxEvents) (h : s.Inv app) {k : κ} {route : PromptRoute} {caller : PromptCaller}
    {nonce : String} {reference : ReferenceTime} {readings : Readings} {token : String} {accepted : Option Bool}
    (ha : allowed app s (.submit k route caller nonce reference readings token accepted)) :
    (PromptSys.exec app (.submit k route caller nonce reference readings token accepted) s).Inv app := by
  obtain ⟨hnew, hyear, hthrottle⟩ := ha
  have htrace := h.untouched k hnew
  -- After its answer the throttle of the process stands as the log and this prompt say.
  have hcounted : ∀ sys', (s.throttle.enforce (caller.key app.lower) readings token accepted).2 = .inProcess sys' →
      sys'.Inv app.maxEvents app.windowSeconds ∧ ∀ key, sys'.standing key =
        ThrottleSys.recordedAs (fun key => paidFor key s.log) (caller.key app.lower) readings.recorded
          (s.throttle.enforce (caller.key app.lower) readings token accepted).1 key := by
    intro sys' hsys'
    obtain ⟨sys, hsys, rfl, hanswer⟩ := PromptThrottle.enforce_inProcess hsys'
    obtain ⟨hinv, hstanding⟩ := h.throttle sys hsys
    refine ⟨hinv.exec hmax (hthrottle sys hsys), fun key => ?_⟩
    rw [standing_aconsume, hanswer, funext hstanding]
  unfold PromptSys.exec
  dsimp only
  cases hanswer : (s.throttle.enforce (caller.key app.lower) readings token accepted).1 with
  | error e =>
    rw [hanswer] at hcounted
    dsimp only
    -- A refused prompt leaves no event.
    refine h.move rfl hcounted [] rfl (by simp) ⟨hyear, ?_⟩
    show Prompt.Stands app.data _ (traceOf k s.log) _
    rw [htrace]
    exact ⟨rfl, rfl, .inl ⟨rfl, rfl⟩⟩
  | ok given =>
    rw [hanswer] at hcounted
    dsimp only
    have hpaid : ∀ key, paidFor key (.asked k (caller.key app.lower) readings.recorded given :: s.log) =
        ThrottleSys.recordedAs (fun key => paidFor key s.log) (caller.key app.lower) readings.recorded (.ok given)
          key := fun key => paidFor_cons_asked k _ key _ given s.log
    refine h.move rfl (fun sys hsys => ⟨(hcounted sys hsys).1, fun key => ?_⟩)
      [.asked k (caller.key app.lower) readings.recorded given] rfl (by simp [PromptEvent.of])
      ⟨hyear, ?_⟩
    · exact ((hcounted sys hsys).2 key).trans (hpaid key).symm
    · show Prompt.Stands app.data _ (traceOf k (.asked k _ _ given :: s.log)) .extracting
      rw [traceOf_asked, htrace]
      exact ⟨rfl, rfl, rfl, rfl⟩

/-- The provider answers. -/
theorem Inv.provide (h : s.Inv app) {k : κ} {outcome : ProviderOutcome} (ha : allowed app s (.provide k outcome)) :
    (PromptSys.exec app (.provide k outcome) s).Inv app := by
  obtain ⟨⟨p, hp, hstage⟩, hvalid⟩ := ha
  have hsound := h.sound k p hp
  obtain ⟨hasked, hcalls, hfound, hopened⟩ : p.Stands app.data (traceOf k s.log) .extracting :=
    hstage ▸ hsound.stands
  unfold PromptSys.exec
  simp only [hp]
  exact h.act rfl rfl [] rfl (by simp)
    ⟨hsound.year, Prompt.stands_extracted app.data hsound.year hvalid hasked hcalls hfound hopened⟩

/-- An adapter call is executed. -/
theorem Inv.call (h : s.Inv app) {k : κ} {operationId : String} {now : Time}
    (ha : allowed app s (.call k operationId now)) :
    (PromptSys.exec app (.call k operationId now) s).Inv app := by
  obtain ⟨⟨route, caller, nonce, reference, stage⟩, intent, query, call, hp, rfl⟩ := ha
  have hsound := h.sound k _ hp
  obtain ⟨hroute, hasked, hcalling⟩ := hsound.stands
  set found := call.found ⟨app.data, app.unavailableVenues⟩ query operationId now s.state with hfound
  have htrace : traceOf k ((found.map (PromptEvent.found k)).toList ++ .called k call :: s.log) =
      { traceOf k s.log with
        calls := call :: (traceOf k s.log).calls
        found := found.toList ++ (traceOf k s.log).found } := by
    rw [traceOf_found, traceOf_called]
  unfold PromptSys.exec
  simp only [hp]
  refine h.act rfl rfl ((found.map (PromptEvent.found k)).toList ++ [PromptEvent.called k call])
    (List.append_cons _ _ _) (List.forall_mem_append.mpr ⟨?_, ?_⟩) ⟨hsound.year, ?_⟩
  · exact forall_mem_optional (.found k) (fun _ => ⟨rfl, fun _ => rfl⟩) found
  · exact List.forall_mem_singleton.mpr ⟨rfl, fun _ => rfl⟩
  · show Prompt.Stands app.data _ (traceOf k (Option.toList _ ++ .called k call :: s.log)) _
    rw [← hfound, htrace]
    exact Prompt.stands_called ⟨app.data, app.unavailableVenues⟩ hroute hasked hcalling operationId now s.state

/-- An adapter call raises in the store. -/
theorem Inv.fail (h : s.Inv app) {k : κ} {state : MockState} (ha : allowed app s (.fail k state)) :
    (PromptSys.exec app (.fail k state) s).Inv app := by
  obtain ⟨⟨route, caller, nonce, reference, stage⟩, intent, query, call, hp, rfl⟩ := ha
  have hsound := h.sound k _ hp
  obtain ⟨hroute, hasked, hcalling⟩ := hsound.stands
  unfold PromptSys.exec
  simp only [hp]
  refine h.act rfl rfl [.failed k call, .called k call] rfl (by simp [PromptEvent.of, PromptEvent.paid])
    ⟨hsound.year, ?_⟩
  show Prompt.Stands app.data _ (traceOf k (.failed k call :: .called k call :: s.log)) _
  rw [traceOf_failed, traceOf_called]
  exact Prompt.stands_failed hroute hasked hcalling

/-- A watch is created. -/
theorem Inv.create (h : s.Inv app) {k : κ} {now : Time} {watchId : String} {endings : CreateEndings}
    (ha : allowed app s (.create k now watchId endings)) :
    (PromptSys.exec app (.create k now watchId endings) s).Inv app := by
  obtain ⟨⟨⟨route, caller, nonce, reference, stage⟩, intent, query, hp, rfl⟩, hvacant⟩ := ha
  have hsound := h.sound k _ hp
  obtain ⟨hroute, hasked, hready, haction, hquery, hcalls, hopened⟩ := hsound.stands
  have hcreate := app.watches.create_vacant app.maxAttempts app.zone endings now query false
    (extractClientId caller.clientId) caller.userId hvacant
  unfold PromptSys.exec
  simp only [hp]
  refine h.act rfl rfl _ rfl (forall_mem_optional (.opened k) (fun _ => ⟨rfl, fun _ => rfl⟩) _) ⟨hsound.year, ?_⟩
  show Prompt.Stands app.data _ (traceOf k (Option.toList _ ++ s.log)) _
  rw [traceOf_opened]
  exact Prompt.stands_created hroute hasked hready haction hquery hcalls hopened hcreate

/-- Every step keeps what holds. -/
theorem Inv.exec (hmax : 1 ≤ app.maxEvents) (h : s.Inv app) {i : PromptStep κ} (ha : allowed app s i) :
    (PromptSys.exec app i s).Inv app := by
  cases i with
  | submit k route caller nonce reference readings token accepted => exact h.submit hmax ha
  | provide k outcome => exact h.provide ha
  | call k operationId now => exact h.call ha
  | fail k state => exact h.fail ha
  | create k now watchId endings => exact h.create ha
  | others state stores => exact ⟨h.throttle, h.untouched, h.sound⟩

theorem inv (hmax : 1 ≤ app.maxEvents) (h : (machine κ app).Reach s) : s.Inv app := by
  refine h.invariant (fun s hs => ?_) fun s i _ hs ha => hs.exec hmax ha
  obtain ⟨hthrottle, hprompts, hlog⟩ := hs
  refine ⟨fun sys hsys => ⟨ThrottleSys.inv hmax (.init (hthrottle sys hsys)), fun key => ?_⟩, fun k _ => ?_,
    fun k p hp => ?_⟩
  · rw [hlog, (hthrottle sys hsys).2.1 key]
    rfl
  · rw [hlog]
    rfl
  · rw [hprompts k] at hp
    contradiction

end PromptSys

/-- A reservation is refused exactly when the window is full, and is not counted only when the throttle can track no
more keys. -/
theorem ThrottleSys.Inv.aconsume {maxEvents : ℕ} {windowSeconds : ℤ} {s : ThrottleSys} (hmax : 1 ≤ maxEvents)
    (h : s.Inv maxEvents windowSeconds) (key token : String) {r : Readings} (hle : s.now ≤ r.checked) :
    ((s.throttle.aconsume key r token).1 = .error .rateLimited ↔
        (SlidingWindow.within ThrottleEvent.time (windowSeconds : ℚ) r.checked (s.standing key)).length = maxEvents) ∧
      ((s.throttle.aconsume key r token).1 = .ok none → maxTrackedKeys ≤ s.throttle.failures.size) := by
  have hwindow : s.throttle.window = (windowSeconds : ℚ) := congrArg Int.cast h.width
  have hlimit := h.limit
  have hpast : ∀ e ∈ s.standing key, e.time ≤ r.checked := fun e he => ((h.tracks key).past e he).trans hle
  have hbound := h.bounded key r.checked
  rw [SlidingWindow.within_eq_live hpast] at hbound ⊢
  rcases h.tracks.aconsume hle (hmax.trans_eq h.limit.symm) key token with
    ⟨hanswer, hfull, -⟩ | ⟨hroom, hok⟩
  · rw [hlimit, hwindow] at hfull
    rw [hanswer]
    exact ⟨⟨fun _ => le_antisymm hbound hfull, fun _ => rfl⟩, by simp⟩
  · rw [hlimit, hwindow] at hroom
    have hne : (s.throttle.aconsume key r token).1 ≠ .error .rateLimited := by
      rcases hok with ⟨hanswer, -⟩ | ⟨hanswer, -⟩ <;> simp [hanswer]
    refine ⟨⟨fun hc => absurd hc hne, fun heq => absurd heq hroom.ne⟩, fun hnone => ?_⟩
    rcases hok with ⟨hanswer, -⟩ | ⟨-, -, hfull⟩
    · rw [hanswer] at hnone
      exact absurd hnone (by simp)
    · exact hfull

namespace PromptSys

variable {κ : Type*} [DecidableEq κ] {app : PromptApp} {s : PromptSys κ}

/-- The paid provider is not asked more often for one caller than the throttle of the process lets through. In every
run, whatever comes of the prompts, no stretch of the length of the window holds more than the limit of counted requests
for one caller; a prompt is refused with 429 exactly when the current window of its caller is full; and a request goes
uncounted only while ten thousand callers are tracked. Whatever the throttle is, the provider is asked once at most for
one prompt, and an answered prompt is one that the provider was not asked for exactly when the answer is 429. -/
theorem prompt_spend_bounded (hmax : 1 ≤ app.maxEvents) (h : (machine κ app).Reach s) :
    (∀ sys, s.throttle = .inProcess sys → ∀ key t,
        (SlidingWindow.within ThrottleEvent.time (app.windowSeconds : ℚ) t (paidFor key s.log)).length ≤
          app.maxEvents) ∧
      (∀ k, (traceOf k s.log).asked.length ≤ 1) ∧
      (∀ k p intent response, s.prompts k = some p → p.stage = .answered intent response →
        ((∃ error, response = .refused error ∧ error.statusCode = 429) ↔ (traceOf k s.log).asked = [])) ∧
      ∀ sys, s.throttle = .inProcess sys → ∀ k route caller nonce reference readings token accepted,
        allowed app s (.submit k route caller nonce reference readings token accepted) →
        ((∃ p error,
            (exec app (.submit k route caller nonce reference readings token accepted) s).prompts k = some p ∧
            p.stage = .answered none (.refused error) ∧ error.statusCode = 429) ↔
          (SlidingWindow.within ThrottleEvent.time (app.windowSeconds : ℚ) readings.checked
            (paidFor (caller.key app.lower) s.log)).length = app.maxEvents) ∧
        ((exec app (.submit k route caller nonce reference readings token accepted) s).log =
            .asked k (caller.key app.lower) readings.recorded none :: s.log →
          maxTrackedKeys ≤ sys.throttle.failures.size) := by
  have hinv := inv hmax h
  refine ⟨fun sys hsys key t => ?_, fun k => ?_, fun k p intent response hp hstage => ?_, fun sys hsys => ?_⟩
  · obtain ⟨hthrottle, hstanding⟩ := hinv.throttle sys hsys
    rw [← hstanding key]
    exact hthrottle.bounded key t
  · cases hp : s.prompts k with
    | none =>
      rw [hinv.untouched k hp]
      exact Nat.zero_le _
    | some p => exact (hinv.sound k p hp).asked
  · exact (hinv.sound k p hp).unasked hstage
  · rintro k route caller nonce reference readings token accepted ⟨hnew, hyear, hallowed⟩
    obtain ⟨hthrottle, hstanding⟩ := hinv.throttle sys hsys
    obtain ⟨hrefused, huncounted⟩ := hthrottle.aconsume hmax (caller.key app.lower) token (hallowed sys hsys).1
    have hanswered : (s.throttle.enforce (caller.key app.lower) readings token accepted).1 =
        (sys.throttle.aconsume (caller.key app.lower) readings token).1 := by
      rw [hsys]
      rfl
    rw [hstanding] at hrefused
    rw [← hrefused]
    rw [← hanswered] at huncounted ⊢
    unfold exec
    dsimp only
    cases hanswer : (s.throttle.enforce (caller.key app.lower) readings token accepted).1 with
    | error e =>
      refine ⟨⟨fun _ => rfl, fun _ => ⟨_, _, Function.update_self _ _ _, rfl, rfl⟩⟩, fun hlog => ?_⟩
      exact absurd hlog.symm (List.cons_ne_self _ _)
    | ok given =>
      refine ⟨⟨?_, fun hc => absurd hc (by simp)⟩, fun hlog => ?_⟩
      · rintro ⟨p, error, hp, hstage, -⟩
        obtain rfl : _ = p := Option.some.inj ((Function.update_self k _ s.prompts).symm.trans hp)
        contradiction
      · obtain ⟨-, -, -, rfl⟩ := PromptEvent.asked.inj (List.cons.inj hlog).1
        exact huncounted hanswer

/-- Prompts do what their intents ask for and nothing else. In every run, a prompt without an intent, one that is only
parsed and one that needs clarification have made no adapter call and opened no watch; a prompt whose intent asks to be
watched has made no adapter call and opened one watch at most, for its own query and one that books nothing by itself;
one to search or to book has opened no watch and has made nineteen adapter calls at most, under the key of its own
request, only one to book has looked a booking up or tried a slot, and it tries only slots that its one search was
answered. -/
theorem prompts_act_as_asked (hmax : 1 ≤ app.maxEvents) (h : (machine κ app).Reach s) {k : κ} {p : Prompt}
    (hp : s.prompts k = some p) :
    match p.stage.intent, p.route with
    | some intent, .parseAndBook => intent.Permits (traceOf k s.log) ∧
        ∀ call ∈ (traceOf k s.log).calls, (p.request intent).key app.data = .ok call.key
    | _, _ => (traceOf k s.log).calls = [] ∧ (traceOf k s.log).opened = [] :=
  ((inv hmax h).sound k p hp).acts

end PromptSys

/-! ## A request for a watch -/

/-- A step of a run. -/
theorem PromptSys.reach_exec {κ : Type*} [DecidableEq κ] {app : PromptApp} {s : PromptSys κ} {i : PromptStep κ}
    (h : (machine κ app).Reach s) (ha : allowed app s i) : (machine κ app).Reach (exec app i s) := h.step i ha

/-- An application with a throttle that lets one prompt a minute through. -/
def promptApp : PromptApp := ⟨.ascii, String.toLower, [], .sample, 200, .utc, 1, 60⟩

/-- A visitor without an account. -/
def visitor : PromptCaller := ⟨some "visitor-1", none, some "8.8.8.8", none⟩

/-- A request to watch for a table at seven in the evening. -/
def watchRequest : ReservationExtraction := { eveningRequest with action := some .createWatch }

namespace PromptSys

/-- Nothing has happened yet. -/
def quiet : PromptSys ℕ :=
  ⟨.inProcess ⟨.new 1 60, 0, fun _ => [], []⟩, .empty 100 900000000 86400000000 30000000, .fresh, fun _ => none, []⟩

/-- One prompt was let through. -/
def admitted : PromptSys ℕ :=
  exec promptApp (.submit 0 .parseAndBook visitor "nonce" noon (.once 0) "token" none) quiet

/-- The provider made a request for a watch of it. -/
def routed : PromptSys ℕ := exec promptApp (.provide 0 (.parsed watchRequest)) admitted

/-- The watch was created. -/
def watched : PromptSys ℕ :=
  exec promptApp (.create 0 noon.instant "watch_1" ⟨.returned, .returned, .returned⟩) routed

theorem admitted_reach : (machine ℕ promptApp).Reach admitted := by
  have hinit : (machine ℕ promptApp).Reach quiet := by
    refine .init ⟨fun sys hsys => ?_, fun _ => rfl, rfl⟩
    obtain rfl := PromptThrottle.inProcess.inj hsys
    exact ⟨rfl, fun _ => rfl, rfl⟩
  refine reach_exec hinit ⟨rfl, by decide, fun sys hsys => ?_⟩
  obtain rfl := PromptThrottle.inProcess.inj hsys
  exact ⟨le_refl (0 : ℚ), List.not_mem_nil⟩

/-- The throttle after the prompt. -/
def admittedThrottle : ThrottleSys :=
  ThrottleSys.exec (.aconsume (visitor.key String.toLower) "token", .once 0) ⟨.new 1 60, 0, fun _ => [], []⟩

theorem admitted_throttle : admitted.throttle = .inProcess admittedThrottle := rfl

theorem routed_reach : (machine ℕ promptApp).Reach routed := by
  refine reach_exec admitted_reach ⟨⟨_, rfl, rfl⟩, fun extraction h => ?_⟩
  obtain rfl := ProviderOutcome.parsed.inj h
  exact { eveningRequest_valid with }

/-- The intent of the request. -/
def watchIntent : ReservationIntent :=
  ⟨.ready, .watchService, some .createWatch, some "Trattoria", .restaurant, kwcMarket, some 2, some "2030-01-01",
    some "19:00", none, none, [], [], none⟩

theorem routed_stage : ∃ p query, routed.prompts 0 = some p ∧ p.stage = .creating watchIntent query := by
  have hstage : (routed.prompts 0).map Prompt.stage = some (.creating watchIntent .sample) := by decide +kernel
  obtain ⟨p, hp, hstage⟩ := Option.map_eq_some_iff.mp hstage
  exact ⟨p, _, hp, hstage⟩

theorem routed_stores : routed.stores = .fresh := by
  have hprovide : ∀ p : Option Prompt, (match p with
      | some p => admitted.move 0 { p with stage := p.extracted .ascii (.parsed watchRequest) }
      | none => admitted).stores = admitted.stores := fun p => by cases p <;> rfl
  exact (hprovide (admitted.prompts 0)).trans rfl

theorem watched_reach : (machine ℕ promptApp).Reach watched := by
  obtain ⟨p, query, hp, hstage⟩ := routed_stage
  have hvacant : routed.stores.live.Vacant "watch_1" := by
    rw [routed_stores]
    rfl
  have hallowed : allowed promptApp routed
      (.create 0 noon.instant "watch_1" ⟨.returned, .returned, .returned⟩) := ⟨⟨p, _, query, hp, hstage⟩, hvacant⟩
  unfold watched
  exact reach_exec routed_reach hallowed

/-- The message of the response. -/
def watchedMessage : String :=
  "Watching Trattoria for 2 on 2030-01-01. Background checks run every few minutes for up to 200 " ++
    "availability checks; monitoring may stop before 2030-01-01."

/-- The prompt got its watch. -/
theorem watched_stage : ∃ p, watched.prompts 0 = some p ∧ p.route = .parseAndBook ∧ p.stage =
    .answered (some watchIntent)
      (.executed ⟨⟨.watchCreated, watchIntent, [], none, watchedMessage⟩, some "watch_1"⟩) := by
  have hstage : (watched.prompts 0).map (fun p => (p.route, p.stage)) = some (.parseAndBook,
      .answered (some watchIntent) (.executed
        ⟨⟨.watchCreated, watchIntent, [], none, watchedMessage⟩, some "watch_1"⟩)) := by decide +kernel
  obtain ⟨p, hp, heq⟩ := Option.map_eq_some_iff.mp hstage
  exact ⟨p, hp, Prod.mk.inj heq⟩

/-- The next prompt of the visitor is refused within the minute. -/
theorem prompt_spend_bounded_admitted : ∃ p error,
    (exec promptApp (.submit 1 .parsePrompt visitor "nonce" noon (.once 59) "other" none) admitted).prompts 1 = some p ∧
      p.stage = .answered none (.refused error) ∧ error.statusCode = 429 := by
  have hpast : admittedThrottle.now = 0 := rfl
  have hdrawn : admittedThrottle.drawn = ["token"] := rfl
  have hallowed : allowed promptApp admitted (.submit 1 .parsePrompt visitor "nonce" noon (.once 59) "other" none) := by
    refine ⟨rfl, by decide, fun sys hsys => ?_⟩
    obtain rfl := PromptThrottle.inProcess.inj (admitted_throttle.symm.trans hsys)
    refine ⟨?_, by rw [hdrawn]; decide⟩
    rw [hpast]
    decide +kernel
  have hbound := prompt_spend_bounded le_rfl admitted_reach
  refine (hbound.2.2.2 admittedThrottle admitted_throttle _ _ _ _ _ _ _ _ hallowed).1.mpr ?_
  decide +kernel

/-- The prompt made no adapter call. -/
theorem prompts_act_as_asked_watched :
    watchIntent.Permits (traceOf 0 watched.log) ∧ (traceOf 0 watched.log).calls = [] := by
  obtain ⟨p, hp, hroute, hstage⟩ := watched_stage
  have hacts := prompts_act_as_asked le_rfl watched_reach hp
  rw [hstage, hroute] at hacts
  exact ⟨hacts.1, hacts.1.1⟩

end PromptSys

end Dibs
