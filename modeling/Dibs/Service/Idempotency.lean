import Dibs.Integrations.MockBooking
import Dibs.Lib.JsonAscii
import Dibs.Models.Documents
import Dibs.Service.Intents

/-!
# The idempotency key of a booking

`BookingService._idempotency_key` in `backend/services/booking_service.py`, under which the provider records a
booking and an equal request finds it again. The key is the digest of a canonical text of the owner and of the
query. Two texts are equal exactly when the owners are one and the queries agree up to the case of the venue and
of the special requests and up to the order of these (`idempotencyKey_exact`).
-/

namespace Dibs

/-! ## Keys -/

/-- The eight hexadecimal digits of a word. -/
def Sha256.hexWord (w : ℕ) : List Char := Json.hex4 (w / 65536) ++ Json.hex4 (w % 65536)

/-- `sha256(text.encode("utf-8")).hexdigest()`. -/
def sha256Hex (text : String) : String := String.ofList ((sha256Words text).flatMap Sha256.hexWord)

/-- A call of `BookingService.execute`, with the `uuid4().hex` that it draws if it needs one. -/
structure BookingRequest where
  intent : ReservationIntent
  ownerClientId : Option String
  userId : Option String
  nonce : String

namespace BookingService

/-- `scope`: account identity supersedes the browser id. -/
def scope (ownerClientId userId : Option String) (nonce : String) : String :=
  match userId with
  | some user => "account:" ++ user
  | none =>
    match ownerClientId with
    | some client => if client ≠ "" then "client:" ++ client else "request:" ++ nonce
    | none => "request:" ++ nonce

/-- `sorted(request.casefold() for request in query.special_requests)`. -/
def sortedRequests (data : UnicodeData) (requests : List String) : List String :=
  (requests.map data.casefoldText).mergeSort fun s t => decide (s ≤ t)

/-- `identity`. -/
def identity (data : UnicodeData) (intent : ReservationIntent) (query : AvailabilityQuery) (scope : String) : Json :=
  .obj [
    ("owner", .str scope),
    ("action", Json.orNull (fun action : IntentAction => Json.str action.value) intent.action),
    ("venue_name", .str (data.casefoldText query.venueName)),
    ("venue_type", .str query.venueType.value),
    ("market", .str query.market),
    ("party_size", .int query.partySize),
    ("date", .str query.date),
    ("preferred_time", Json.orNull Json.str query.preferredTime),
    ("time_window", Json.orNull TimeWindow.toJson query.timeWindow),
    ("duration_minutes", Json.orNull (fun n : ℕ => Json.int n) query.durationMinutes),
    ("special_requests", .arr ((sortedRequests data query.specialRequests).map Json.str))]

/-- `canonical`. -/
def canonical (data : UnicodeData) (intent : ReservationIntent) (query : AvailabilityQuery) (scope : String) :
    String :=
  (identity data intent query scope).sortKeys.dumps

/-- `_idempotency_key`. -/
def idempotencyKey (data : UnicodeData) (intent : ReservationIntent) (query : AvailabilityQuery)
    (scope : String) : String :=
  sha256Hex (canonical data intent query scope)

end BookingService

namespace BookingRequest

/-- The scope of a request. -/
def scope (r : BookingRequest) : String := BookingService.scope r.ownerClientId r.userId r.nonce

/-- The part of `execute` before its first await: the key under which the request books, if it does, or the error
of `_query_from`. -/
def key (data : UnicodeData) (r : BookingRequest) : Except String (Option String) :=
  if r.intent.status ≠ .ready then .ok none
  else if r.intent.route = .watchService then .ok none
  else do
    let query ← BookingService.queryFrom r.intent
    if r.intent.action = some .bookReservation then
      return some (BookingService.idempotencyKey data r.intent query r.scope)
    else return none

/-- A ready intent to book, with its query. -/
structure Books (r : BookingRequest) (query : AvailabilityQuery) : Prop where
  ready : r.intent.status = .ready
  route : r.intent.route ≠ .watchService
  action : r.intent.action = some .bookReservation
  query : BookingService.queryFrom r.intent = .ok query

/-- A ready intent to book has a key. -/
theorem Books.key_eq {data : UnicodeData} {r : BookingRequest} {query : AvailabilityQuery} (h : r.Books query) :
    r.key data = .ok (some (BookingService.idempotencyKey data r.intent query r.scope)) := by
  unfold key
  rw [if_neg (not_not.mpr h.ready), if_neg h.route, h.query]
  simp only [bind, Except.bind, pure, Except.pure, if_pos h.action]

/-- Nothing else has a key. -/
theorem books_of_key {data : UnicodeData} {r : BookingRequest} {k : String} (h : r.key data = .ok (some k)) :
    ∃ query, r.Books query := by
  unfold key at h
  split_ifs at h with hready hroute haction
  · exact absurd (Except.ok.inj h) (by simp)
  · exact absurd (Except.ok.inj h) (by simp)
  · cases hquery : BookingService.queryFrom r.intent with
    | error e =>
      rw [hquery] at h
      contradiction
    | ok query => exact ⟨query, not_not.mp hready, hroute, haction, hquery⟩
  · cases hquery : BookingService.queryFrom r.intent with
    | error e =>
      rw [hquery] at h
      contradiction
    | ok query =>
      rw [hquery] at h
      exact absurd (Except.ok.inj h) (by simp)

/-- The query of a ready intent holds what the intent asks for. -/
theorem Books.query_eq {r : BookingRequest} {query : AvailabilityQuery} (h : r.Books query) :
    r.intent.venueName = some query.venueName ∧ query.venueType = r.intent.venueType ∧
      query.market = r.intent.market ∧ r.intent.partySize = some query.partySize ∧
      r.intent.date = some query.date ∧ query.preferredTime = r.intent.preferredTime ∧
      query.timeWindow = r.intent.timeWindow ∧ query.durationMinutes = r.intent.durationMinutes ∧
      query.specialRequests = r.intent.specialRequests := by
  have hquery := h.query
  unfold BookingService.queryFrom queryFrom at hquery
  split at hquery
  next venueName partySize date hvenue hparty hdate =>
    unfold AvailabilityQuery.build at hquery
    split_ifs at hquery
    obtain rfl := Except.ok.inj hquery
    exact ⟨hvenue, rfl, rfl, hparty, hdate, rfl, rfl, rfl, rfl⟩
  next => contradiction

/-- Two requests of one owner: of one account or, where neither has an account, of one browser. -/
def SameOwner (r r' : BookingRequest) : Prop :=
  (∃ user, r.userId = some user ∧ r'.userId = some user) ∨
    r.userId = none ∧ r'.userId = none ∧
      ∃ client, client ≠ "" ∧ r.ownerClientId = some client ∧ r'.ownerClientId = some client

end BookingRequest

/-- Two intents that ask for one thing. -/
structure SameRequest (data : UnicodeData) (i i' : ReservationIntent) : Prop where
  action : i.action = i'.action
  venueName : i.venueName.map data.casefoldText = i'.venueName.map data.casefoldText
  venueType : i.venueType = i'.venueType
  market : i.market = i'.market
  partySize : i.partySize = i'.partySize
  date : i.date = i'.date
  preferredTime : i.preferredTime = i'.preferredTime
  timeWindow : i.timeWindow = i'.timeWindow
  durationMinutes : i.durationMinutes = i'.durationMinutes
  specialRequests : (i.specialRequests.map data.casefoldText).Perm (i'.specialRequests.map data.casefoldText)

/-! ## Exactness -/

theorem IntentAction.value_injective : Function.Injective IntentAction.value := by
  intro a b h
  cases a <;> cases b <;> first | rfl | exact absurd h (by decide)

theorem VenueType.value_injective : Function.Injective VenueType.value := by
  intro a b h
  have hread := asVenueType_value a
  rw [h, asVenueType_value] at hread
  exact (Option.some.inj hread).symm

/-- Texts that begin with different characters differ. -/
theorem append_ne_append {s t : String} {c d : Char} {l l' : List Char} (hs : s.toList = c :: l)
    (ht : t.toList = d :: l') (hcd : c ≠ d) (a b : String) : s ++ a ≠ t ++ b := by
  intro h
  have hlists := congrArg String.toList h
  rw [String.toList_append, String.toList_append, hs, ht] at hlists
  exact hcd (List.cons.inj hlists).1

namespace BookingRequest

/-- The scope of a request names its account, its browser or its own number. -/
theorem scope_cases (r : BookingRequest) :
    (∃ user, r.userId = some user ∧ r.scope = "account:" ++ user) ∨
    (r.userId = none ∧ ∃ client, client ≠ "" ∧ r.ownerClientId = some client ∧ r.scope = "client:" ++ client) ∨
    (r.userId = none ∧ (∀ client ∈ r.ownerClientId, client = "") ∧ r.scope = "request:" ++ r.nonce) := by
  obtain ⟨intent, owner, user, nonce⟩ := r
  unfold scope BookingService.scope
  cases user with
  | some user => exact .inl ⟨user, rfl, rfl⟩
  | none =>
    cases owner with
    | none => exact .inr (.inr ⟨rfl, by simp, rfl⟩)
    | some client =>
      by_cases hclient : client = ""
      · exact .inr (.inr ⟨rfl, by simpa using hclient, by simp [hclient]⟩)
      · exact .inr (.inl ⟨rfl, client, hclient, rfl, by simp [hclient]⟩)

/-- Scopes are equal between requests of one owner only, where each request has a number of its own. -/
theorem scope_eq_iff {r r' : BookingRequest} (hnonce : r.nonce ≠ r'.nonce) :
    r.scope = r'.scope ↔ r.SameOwner r' := by
  have hac : ∀ a b : String, "account:" ++ a ≠ "client:" ++ b := append_ne_append rfl rfl (by decide)
  have har : ∀ a b : String, "account:" ++ a ≠ "request:" ++ b := append_ne_append rfl rfl (by decide)
  have hcr : ∀ a b : String, "client:" ++ a ≠ "request:" ++ b := append_ne_append rfl rfl (by decide)
  unfold SameOwner
  rcases r.scope_cases with ⟨u, hu, hs⟩ | ⟨hu, c, hc, howner, hs⟩ | ⟨hu, howner, hs⟩ <;>
    rcases r'.scope_cases with ⟨u', hu', hs'⟩ | ⟨hu', c', hc', howner', hs'⟩ | ⟨hu', howner', hs'⟩ <;>
    rw [hs, hs', hu, hu']
  · simp [String.append_right_inj, eq_comm]
  · simp [hac]
  · simp [har]
  · simp [(hac _ _).symm]
  · simpa [howner, howner', String.append_right_inj] using fun h : c = c' => h ▸ hc
  · simpa [hcr, howner] using fun hne h => hne (howner' c h)
  · simp [(har _ _).symm]
  · simpa [(hcr _ _).symm] using fun x hne (h : r.ownerClientId = some x) => absurd (howner x h) hne
  · simpa [String.append_right_inj, hnonce] using fun x hne (h : r.ownerClientId = some x) => absurd (howner x h) hne

end BookingRequest

namespace BookingService

variable (data : UnicodeData)

/-- Sorted requests are equal when their multisets are. -/
theorem sortedRequests_eq_iff {l l' : List String} :
    sortedRequests data l = sortedRequests data l' ↔
      (l.map data.casefoldText).Perm (l'.map data.casefoldText) := by
  unfold sortedRequests
  have hperm := fun l : List String => List.mergeSort_perm (l.map data.casefoldText) fun s t => decide (s ≤ t)
  have hsorted : ∀ l : List String, ((l.map data.casefoldText).mergeSort fun s t => decide (s ≤ t)).Pairwise
      fun s t => decide (s ≤ t) = true := fun l =>
    List.pairwise_mergeSort (by simpa using fun _ _ _ => le_trans) (by simpa using le_total) _
  constructor
  · intro h
    have hleft := hperm l
    rw [h] at hleft
    exact hleft.symm.trans (hperm l')
  · intro h
    refine List.Perm.eq_of_pairwise (fun s t _ _ hst hts => ?_) (hsorted l) (hsorted l')
      ((hperm l).trans (h.trans (hperm l').symm))
    exact le_antisymm (of_decide_eq_true hst) (of_decide_eq_true hts)

/-- The canonical text determines the scope and what it says of the request. -/
theorem canonical_inj {i i' : ReservationIntent} {q q' : AvailabilityQuery} {s s' : String}
    (h : canonical data i q s = canonical data i' q' s') :
    s = s' ∧ i.action = i'.action ∧ data.casefoldText q.venueName = data.casefoldText q'.venueName ∧
      q.venueType = q'.venueType ∧ q.market = q'.market ∧ q.partySize = q'.partySize ∧ q.date = q'.date ∧
      q.preferredTime = q'.preferredTime ∧ q.timeWindow = q'.timeWindow ∧
      q.durationMinutes = q'.durationMinutes ∧
      sortedRequests data q.specialRequests = sortedRequests data q'.specialRequests := by
  have hjson := Json.dumps_inj h
  unfold identity at hjson
  have hmembers := Json.sortKeys_obj_inj (by rfl) (by simp) hjson
  simp only [Json.sortMembers, Json.sortKeys, List.cons.injEq, Prod.mk.injEq, true_and, and_true, Json.str.injEq,
    Json.int.injEq, Json.arr.injEq, Json.sortElements_strs, Nat.cast_inj] at hmembers
  obtain ⟨hscope, haction, hvenue, htype, hmarket, hparty, hdate, htime, hwindow, hminutes, hrequests⟩ := hmembers
  refine ⟨hscope, ?_, hvenue, ?_, hmarket, hparty, hdate, ?_, ?_, ?_, ?_⟩
  · refine Json.sortKeys_orNull_inj (fun a b hab => ?_) (by simp [Json.sortKeys]) haction
    rw [Json.sortKeys, Json.sortKeys, Json.str.injEq] at hab
    exact IntentAction.value_injective hab
  · exact VenueType.value_injective htype
  · exact Json.sortKeys_orNull_inj (by simp [Json.sortKeys]) (by simp [Json.sortKeys]) htime
  · refine Json.sortKeys_orNull_inj (fun w v hwv => ?_) (by simp [TimeWindow.toJson, Json.sortKeys]) hwindow
    unfold TimeWindow.toJson at hwv
    have hends := Json.sortKeys_obj_inj (by rfl) (by simp) hwv
    simp only [Json.sortMembers, Json.sortKeys, List.cons.injEq, Prod.mk.injEq, true_and, and_true,
      Json.str.injEq] at hends
    obtain ⟨start, «end»⟩ := w
    obtain ⟨start', end'⟩ := v
    obtain ⟨rfl, rfl⟩ := hends
    rfl
  · exact Json.sortKeys_orNull_inj (by simp [Json.sortKeys]) (by simp [Json.sortKeys]) hminutes
  · exact List.map_injective_iff.mpr (fun s t h => Json.str.inj h) hrequests

/-- The canonical texts of two requests for one thing are equal when their scopes are. -/
theorem canonical_eq {r r' : BookingRequest} {q q' : AvailabilityQuery} (hbooks : r.Books q) (hbooks' : r'.Books q')
    (hscope : r.scope = r'.scope) (h : SameRequest data r.intent r'.intent) :
    canonical data r.intent q r.scope = canonical data r'.intent q' r'.scope := by
  obtain ⟨hvenue, htype, hmarket, hparty, hdate, htime, hwindow, hminutes, hrequests⟩ := hbooks.query_eq
  obtain ⟨hvenue', htype', hmarket', hparty', hdate', htime', hwindow', hminutes', hrequests'⟩ := hbooks'.query_eq
  have hname : data.casefoldText q.venueName = data.casefoldText q'.venueName := by
    have hnames := h.venueName
    rw [hvenue, hvenue'] at hnames
    exact Option.some.inj hnames
  have hsize : q.partySize = q'.partySize := Option.some.inj (hparty.symm.trans (h.partySize.trans hparty'))
  have hday : q.date = q'.date := Option.some.inj (hdate.symm.trans (h.date.trans hdate'))
  have hsorted : sortedRequests data q.specialRequests = sortedRequests data q'.specialRequests := by
    rw [hrequests, hrequests']
    exact (sortedRequests_eq_iff data).mpr h.specialRequests
  unfold canonical identity
  rw [hscope, h.action, hname, htype, htype', h.venueType, hmarket, hmarket', h.market, hsize, hday, htime, htime',
    h.preferredTime, hwindow, hwindow', h.timeWindow, hminutes, hminutes', h.durationMinutes, hsorted]

/-- Requests with equal canonical texts are for one thing. -/
theorem sameRequest_of_canonical {r r' : BookingRequest} {q q' : AvailabilityQuery} (hbooks : r.Books q)
    (hbooks' : r'.Books q') (h : canonical data r.intent q r.scope = canonical data r'.intent q' r'.scope) :
    SameRequest data r.intent r'.intent := by
  obtain ⟨hvenue, htype, hmarket, hparty, hdate, htime, hwindow, hminutes, hrequests⟩ := hbooks.query_eq
  obtain ⟨hvenue', htype', hmarket', hparty', hdate', htime', hwindow', hminutes', hrequests'⟩ := hbooks'.query_eq
  obtain ⟨-, haction, hname, hkind, hplace, hsize, hday, hpreferred, hbounds, hstay, hsorted⟩ :=
    canonical_inj data h
  exact {
    action := haction
    venueName := by rw [hvenue, hvenue', Option.map_some, Option.map_some, hname]
    venueType := by rw [← htype, ← htype', hkind]
    market := by rw [← hmarket, ← hmarket', hplace]
    partySize := by rw [hparty, hparty', hsize]
    date := by rw [hdate, hdate', hday]
    preferredTime := by rw [← htime, ← htime', hpreferred]
    timeWindow := by rw [← hwindow, ← hwindow', hbounds]
    durationMinutes := by rw [← hminutes, ← hminutes', hstay]
    specialRequests := by
      rw [← hrequests, ← hrequests']
      exact (sortedRequests_eq_iff data).mp hsorted }

/-- The idempotency key is exact. Where the digests of the two canonical texts tell these apart, two ready intents
to book have equal keys exactly when the owner is one and the intents ask for one thing; a request without account
and browser shares its key with no other. -/
theorem idempotencyKey_exact {r r' : BookingRequest} {q q' : AvailabilityQuery} (hbooks : r.Books q)
    (hbooks' : r'.Books q') (hnonce : r.nonce ≠ r'.nonce)
    (hdigest : Set.InjOn sha256Hex
      {canonical data r.intent q r.scope, canonical data r'.intent q' r'.scope}) :
    (∃ k k', r.key data = .ok (some k) ∧ r'.key data = .ok (some k') ∧
      (k = k' ↔ r.SameOwner r' ∧ SameRequest data r.intent r'.intent)) ∧
    (r.userId = none → (∀ client ∈ r.ownerClientId, client = "") → r.key data ≠ r'.key data) := by
  have hexact : idempotencyKey data r.intent q r.scope = idempotencyKey data r'.intent q' r'.scope ↔
      r.SameOwner r' ∧ SameRequest data r.intent r'.intent := by
    constructor
    · intro h
      have htexts := hdigest (Set.mem_insert _ _) (Set.mem_insert_of_mem _ rfl) h
      exact ⟨(BookingRequest.scope_eq_iff hnonce).mp (canonical_inj data htexts).1,
        sameRequest_of_canonical data hbooks hbooks' htexts⟩
    · rintro ⟨howner, hrequest⟩
      exact congrArg sha256Hex
        (canonical_eq data hbooks hbooks' ((BookingRequest.scope_eq_iff hnonce).mpr howner) hrequest)
  refine ⟨⟨_, _, hbooks.key_eq, hbooks'.key_eq, hexact⟩, fun huser hclient hkeys => ?_⟩
  rw [hbooks.key_eq, hbooks'.key_eq] at hkeys
  obtain ⟨⟨user, hsome, -⟩ | ⟨-, -, client, hne, hsome, -⟩, -⟩ :=
    hexact.mp (Option.some.inj (Except.ok.inj hkeys))
  · rw [huser] at hsome
    contradiction
  · exact hne (hclient client hsome)

end BookingService

/-- The intent to book a table for four, with a spelling of the venue and of two special requests. -/
def ReservationIntent.coteSample (venueName first second : String) : ReservationIntent :=
  ⟨.ready, .bookingService, some .bookReservation, some venueName, .restaurant, kwcMarket, some 4,
    some "2026-08-22", some "19:00", none, none, [first, second], [], none⟩

/-- A retry in another spelling finds the key of the first request. -/
theorem BookingService.idempotencyKey_exact_retry :
    ∃ r r' : BookingRequest, r.intent ≠ r'.intent ∧ r.nonce ≠ r'.nonce ∧
      ∃ k, r.key .ascii = .ok (some k) ∧ r'.key .ascii = .ok (some k) := by
  let r : BookingRequest := ⟨.coteSample "Cote" "Quiet table" "Window seat", some "visitor-1", none, "a"⟩
  let r' : BookingRequest := ⟨.coteSample "cote" "window seat" "quiet table", some "visitor-1", none, "b"⟩
  have hbooks : r.Books ⟨"Cote", .restaurant, kwcMarket, 4, "2026-08-22", some "19:00", none, none,
      ["Quiet table", "Window seat"]⟩ :=
    ⟨rfl, by decide, rfl, if_pos (by decide)⟩
  have hbooks' : r'.Books ⟨"cote", .restaurant, kwcMarket, 4, "2026-08-22", some "19:00", none, none,
      ["window seat", "quiet table"]⟩ :=
    ⟨rfl, by decide, rfl, if_pos (by decide)⟩
  have howner : r.SameOwner r' := .inr ⟨rfl, rfl, "visitor-1", by decide, rfl, rfl⟩
  have hrequest : SameRequest .ascii r.intent r'.intent :=
    ⟨rfl, by decide, rfl, rfl, rfl, rfl, rfl, rfl, rfl, by decide⟩
  have hnonce : r.nonce ≠ r'.nonce := by decide
  have htexts := canonical_eq .ascii hbooks hbooks' ((BookingRequest.scope_eq_iff hnonce).mpr howner) hrequest
  obtain ⟨⟨k, k', hk, hk', hexact⟩, -⟩ := idempotencyKey_exact .ascii hbooks hbooks' hnonce (by
    rw [htexts, Set.pair_eq_singleton]
    exact Set.injOn_singleton _ _)
  refine ⟨r, r', by decide, hnonce, k, hk, ?_⟩
  rw [hexact.mpr ⟨howner, hrequest⟩]
  exact hk'

end Dibs
