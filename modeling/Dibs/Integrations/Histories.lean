import Mathlib.Data.Set.Function
import Dibs.Integrations.Search
import Dibs.Mock.Protection
import Dibs.Redis.Lua

/-!
# Searches and bookings of many clients

Any number of mock adapters search and book on one store. The store keeps the slot that was published first under
an id and returns it to every later search that generates the id, so a search may be answered with a slot that was
generated for another query. The id is made from the market, the venue, the date, the start, the party and the
duration, and not from the type of the venue: what a query gets agrees with it in everything (`Answers`) as long
as nobody else searched for the same table under another type (`search_answers_match`).
-/

namespace Dibs

/-- A request of a client of the store. -/
inductive MockRequest
  /-- `search_availability` of an adapter, up to the release of its pins. -/
  | search (unavailableVenues : List String) (query : AvailabilityQuery) (operationId : String)
  | release (operationId : String)
  /-- `book_slot`. -/
  | book (slotId key : String)
  | cleanup (batchSize : ℕ)

/-- What a request is answered. -/
inductive MockReply
  | found (query : AvailabilityQuery) (slots : List AvailabilitySlot)
  | confirmed (slotId key : String) (confirmation : BookingConfirmation)
deriving DecidableEq

/-- The shared store and what was answered so far, newest first. -/
structure MockHistory where
  state : MockState
  replies : List MockReply

namespace MockHistory

variable (data : UnicodeData)

/-- Executing a request at an instant. What raises answers nothing. -/
def exec (i : Time × MockRequest) (h : MockHistory) : MockHistory :=
  match i.2 with
  | .search unavailableVenues query operationId =>
    match (MockBookingAdapter.mk data unavailableVenues).generate query with
    | none => h
    | some [] => { h with replies := .found query [] :: h.replies }
    | some candidates =>
      let (available, m) := h.state.publishAndFilter candidates operationId i.1
      ⟨m, .found query available :: h.replies⟩
  | .release operationId => { h with state := h.state.releaseOperation operationId }
  | .book slotId key =>
    match h.state.bookSlot slotId key (.mock ("mock_booking_" ++ uuid5Hex key) i.1) i.1 with
    | (.error _, m) => { h with state := m }
    | (.ok confirmation, m) => ⟨m, .confirmed slotId key confirmation :: h.replies⟩
  | .cleanup batchSize => { h with state := (h.state.cleanup i.1 batchSize).2 }

/-- A search answers what `search_availability` returns and leaves the state that it leaves, before its pins are
released. -/
theorem exec_search (unavailableVenues : List String) (query : AvailabilityQuery) (operationId : String) (now : Time)
    (h : MockHistory) {slots : List AvailabilitySlot} {m : MockState}
    (hsearch : (MockBookingAdapter.mk data unavailableVenues).searchAvailability query operationId now h.state =
      (some slots, m)) :
    (exec data (now, .search unavailableVenues query operationId) h).replies = .found query slots :: h.replies ∧
      (m = (exec data (now, .search unavailableVenues query operationId) h).state ∨
        m = (exec data (now, .search unavailableVenues query operationId) h).state.releaseOperation operationId) := by
  unfold MockBookingAdapter.searchAvailability at hsearch
  unfold exec
  dsimp only
  cases hgenerate : (MockBookingAdapter.mk data unavailableVenues).generate query with
  | none =>
    rw [hgenerate] at hsearch
    exact absurd (congrArg Prod.fst hsearch) (by simp)
  | some candidates =>
    rw [hgenerate] at hsearch
    cases candidates with
    | nil =>
      obtain ⟨hslots, rfl⟩ := Prod.mk.inj hsearch
      obtain rfl := Option.some.inj hslots
      exact ⟨rfl, .inl rfl⟩
    | cons first rest =>
      obtain ⟨hslots, rfl⟩ := Prod.mk.inj hsearch
      obtain rfl := Option.some.inj hslots
      exact ⟨rfl, .inr rfl⟩

/-- A slot was returned by a search. -/
def Returned (h : MockHistory) (slot : AvailabilitySlot) : Prop :=
  ∃ query slots, MockReply.found query slots ∈ h.replies ∧ slot ∈ slots

end MockHistory

/-- The texts that the slots of a query are identified by. -/
def MockBookingAdapter.identities (adapter : MockBookingAdapter) (query : AvailabilityQuery) : Set String :=
  { text | ∃ slots slot, adapter.generate query = some slots ∧ slot ∈ slots ∧
      text = adapter.identity query slot.startTime }

/-- The clients of one store that starts empty. Their queries are valid, and the texts that identify their slots
are among some given ones. -/
def mockHistoryMachine (data : UnicodeData) (texts : Set String) : Machine MockHistory (Time × MockRequest) where
  init h := ∃ capacity idleTtl retention pin, h = ⟨.empty capacity idleTtl retention pin, []⟩
  allowed _ i := match i.2 with
    | .search unavailableVenues query _ =>
      query.Valid ∧ (MockBookingAdapter.mk data unavailableVenues).identities query ⊆ texts
    | _ => True
  exec := MockHistory.exec data

/-- A slot agrees with a query. -/
structure AvailabilitySlot.Answers (slot : AvailabilitySlot) (data : UnicodeData) (query : AvailabilityQuery) :
    Prop where
  date : slot.date = query.date
  partySize : slot.partySize = query.partySize
  venueType : slot.venueType = query.venueType
  venueName : data.casefoldText slot.venueName = data.casefoldText query.venueName
  endTime : Dibs.endTime slot.startTime query.durationMinutes = some slot.endTime

namespace MockHistory

/-- Every search was answered with slots that agree with its query, and what is confirmed later for one of them
agrees with it too. -/
def Matched (data : UnicodeData) (h : MockHistory) : Prop :=
  ∀ later query slots earlier, h.replies = later ++ .found query slots :: earlier → ∀ slot ∈ slots,
    slot.Answers data query ∧ ∀ slotId key confirmation, .confirmed slotId key confirmation ∈ later →
      confirmation.slot.slotId = slot.slotId → confirmation.slot.Answers data query

/-- What is confirmed is for the slot that was asked for, or the key was used before and its first confirmation is
given again. -/
def Booked (h : MockHistory) : Prop :=
  ∀ later slotId key confirmation earlier, h.replies = later ++ .confirmed slotId key confirmation :: earlier →
    confirmation.slot.slotId = slotId ∨ ∃ first, .confirmed first key confirmation ∈ earlier

/-- A search generates no slot id that was returned to a query for another type of venue. -/
def Unconfused (data : UnicodeData) (h : MockHistory) (i : Time × MockRequest) : Prop :=
  match i.2 with
  | .search unavailableVenues query _ =>
    ∀ candidates, (MockBookingAdapter.mk data unavailableVenues).generate query = some candidates →
      ∀ candidate ∈ candidates, ∀ slot, h.Returned slot → slot.slotId = candidate.slotId →
        slot.venueType = query.venueType
  | _ => True

end MockHistory

/-! ## What identifies a slot -/

/-- A character that no test of a pattern lets pass is in no text of the pattern. -/
theorem notMem_of_matchesTests {tests : List (Char → Bool)} {s : String} {c : Char}
    (hc : ∀ test ∈ tests, test c = false) (h : matchesTests tests s = true) : c ∉ s.toList := by
  unfold matchesTests at h
  generalize s.toList = cs at h
  induction cs generalizing tests with
  | nil => exact List.not_mem_nil
  | cons d cs ih =>
    cases tests with
    | nil => simp at h
    | cons test tests =>
      simp only [List.length_cons, Nat.add_right_cancel_iff, List.zipWith_cons_cons, List.all_cons, id_eq,
        Bool.and_eq_true, decide_eq_true_eq] at h
      obtain ⟨hlength, hd, hall⟩ := h
      have htail : c ∉ cs := ih (fun test ht => hc test (List.mem_cons_of_mem _ ht)) (by simp [hlength, hall])
      intro hmem
      rcases List.mem_cons.mp hmem with rfl | hmem
      · rw [hc test List.mem_cons_self] at hd
        contradiction
      · exact htail hmem

/-- Dates and clock times contain no bar. -/
theorem bar_notMem_of_isIsoDate {s : String} (h : isIsoDate s = true) : '|' ∉ s.toList :=
  notMem_of_matchesTests (by decide) h

theorem bar_notMem_of_isHourMinute {s : String} (h : isHourMinute s = true) : '|' ∉ s.toList := by
  unfold isHourMinute at h
  rcases Bool.or_eq_true_iff.mp h with h | h
  · exact notMem_of_matchesTests (by decide) h
  · exact notMem_of_matchesTests (by decide) h

/-- The text for a duration. -/
theorem bar_notMem_duration (duration : Option ℕ) : '|' ∉ (duration.elim "none" toString).toList := by
  cases duration with
  | none => decide
  | some minutes => exact notMem_toString (by decide) minutes

/-- Two texts around a bar that is in neither right half agree half by half. -/
theorem bar_inj {l l' r r' : String} (hr : '|' ∉ r.toList) (hr' : '|' ∉ r'.toList)
    (h : l ++ "|" ++ r = l' ++ "|" ++ r') : l = l' ∧ r = r' := by
  have htexts : l.toList ++ '|' :: r.toList = l'.toList ++ '|' :: r'.toList := by
    simpa using congrArg String.toList h
  obtain ⟨hl, hr⟩ := append_cons_inj_of_notMem hr hr' htexts
  exact ⟨String.toList_inj.mp hl, String.toList_inj.mp hr⟩

/-- A query whose slots have one identity for one start are alike but for the type of the venue and the time. -/
theorem identity_parts {data : UnicodeData} {q q' : AvailabilityQuery} (hq : q.Valid) (hq' : q'.Valid)
    {start start' : String} (hstart : isHourMinute start = true) (hstart' : isHourMinute start' = true)
    (h : (MockBookingAdapter.mk data []).identity q start = (MockBookingAdapter.mk data []).identity q' start') :
    data.casefoldText q.venueName = data.casefoldText q'.venueName ∧ q.date = q'.date ∧ start = start' ∧
      q.partySize = q'.partySize ∧ q.duration.elim "none" toString = q'.duration.elim "none" toString := by
  have htext : ∀ (query : AvailabilityQuery) (t : String), (MockBookingAdapter.mk data []).identity query t =
      (query.market ++ "|" ++ data.casefoldText query.venueName ++ "|" ++ query.date ++ "|" ++ t ++ "|" ++
        toString query.partySize) ++ "|" ++ query.duration.elim "none" toString := by
    intro query t
    unfold MockBookingAdapter.identity
    simp only [String.append_assoc]
  rw [htext, htext] at h
  obtain ⟨h, hduration⟩ := bar_inj (bar_notMem_duration _) (bar_notMem_duration _) h
  obtain ⟨h, hparty⟩ := bar_inj (notMem_toString (by decide) _) (notMem_toString (by decide) _) h
  obtain ⟨h, hstarts⟩ := bar_inj (bar_notMem_of_isHourMinute hstart) (bar_notMem_of_isHourMinute hstart') h
  obtain ⟨h, hdate⟩ := bar_inj (bar_notMem_of_isIsoDate hq.date.1) (bar_notMem_of_isIsoDate hq'.date.1) h
  -- The name may contain bars, but all queries name one market.
  rw [hq.market, hq'.market, String.append_right_inj] at h
  exact ⟨h, hdate, hstarts, toString_nat_inj hparty, hduration⟩

/-- The durations of valid queries that are written alike are one. -/
theorem durationMinutes_eq {q q' : AvailabilityQuery} (hq : q.Valid) (hq' : q'.Valid)
    (h : q.duration.elim "none" toString = q'.duration.elim "none" toString) :
    q.durationMinutes = q'.durationMinutes := by
  have hgiven : ∀ {query : AvailabilityQuery}, query.Valid → query.duration = query.durationMinutes := by
    intro query hvalid
    unfold AvailabilityQuery.duration
    cases hminutes : query.durationMinutes with
    | none => rfl
    | some minutes =>
      have hpos := (hvalid.durationMinutes minutes hminutes).1
      simp [Option.filter, show minutes ≠ 0 by omega]
  have hnumeral : ∀ n : ℕ, toString n ≠ "none" := by
    intro n heq
    have hletter : 'n' ∉ (toString n).toList := notMem_toString (by decide) n
    rw [heq] at hletter
    exact hletter (by decide)
  rw [hgiven hq, hgiven hq'] at h
  cases hm : q.durationMinutes with
  | none =>
    cases hm' : q'.durationMinutes with
    | none => rfl
    | some n =>
      rw [hm, hm'] at h
      exact absurd h.symm (hnumeral n)
  | some m =>
    cases hm' : q'.durationMinutes with
    | none =>
      rw [hm, hm'] at h
      exact absurd h (hnumeral m)
    | some n =>
      rw [hm, hm'] at h
      rw [toString_nat_inj h]

/-- A slot that was generated for a query, and the text that it is identified by. -/
structure AvailabilitySlot.Made (slot : AvailabilitySlot) (data : UnicodeData) (texts : Set String)
    (query : AvailabilityQuery) : Prop where
  valid : query.Valid
  slotId : slot.slotId = "mock_" ++ uuid5Hex ((MockBookingAdapter.mk data []).identity query slot.startTime)
  text : (MockBookingAdapter.mk data []).identity query slot.startTime ∈ texts
  startTime : isHourMinute slot.startTime = true
  answers : slot.Answers data query

/-- What a loop collects is a result of a step. -/
theorem mem_of_mapM {α β : Type} {f : α → Option β} {l : List α} {r : List β} (h : l.mapM f = some r) {y : β}
    (hy : y ∈ r) : ∃ x ∈ l, f x = some y := by
  induction l generalizing r with
  | nil =>
    obtain rfl : [] = r := Option.some.inj h
    contradiction
  | cons x l ih =>
    rw [List.mapM_cons] at h
    obtain ⟨z, hz, h⟩ := Option.bind_eq_some_iff.mp h
    obtain ⟨rest, hrest, h⟩ := Option.bind_eq_some_iff.mp h
    obtain rfl : z :: rest = r := Option.some.inj h
    rcases List.mem_cons.mp hy with rfl | hy
    · exact ⟨x, List.mem_cons_self, hz⟩
    · obtain ⟨w, hw, hfw⟩ := ih hrest hy
      exact ⟨w, List.mem_cons_of_mem _ hw, hfw⟩

/-- The slots of a venue are built by `slotAt`. -/
theorem mem_generateFor {adapter : MockBookingAdapter} {profile : VenueProfile} {query : AvailabilityQuery}
    {slots : List AvailabilitySlot} (h : adapter.generateFor profile query = some slots) {slot : AvailabilitySlot}
    (hslot : slot ∈ slots) : ∃ start, adapter.slotAt profile query start = some slot := by
  unfold MockBookingAdapter.generateFor at h
  split_ifs at h with hblocked
  · obtain rfl := Option.some.inj h
    contradiction
  obtain ⟨day, -, h⟩ := Option.bind_eq_some_iff.mp h
  split_ifs at h with hclosed
  · obtain rfl := Option.some.inj h
    contradiction
  cases hhours : profile.hoursFor day with
  | none =>
    rw [hhours] at h
    obtain rfl := Option.some.inj h
    contradiction
  | some hours =>
    rw [hhours] at h
    obtain ⟨times, -, h⟩ := Option.bind_eq_some_iff.mp h
    obtain ⟨start, -, hstart⟩ := mem_of_mapM h hslot
    exact ⟨start, hstart⟩

/-- What is generated for a query is made for it. -/
theorem made_of_generate {data : UnicodeData} {unavailableVenues : List String} {texts : Set String}
    {query : AvailabilityQuery} (hquery : query.Valid)
    (htexts : (MockBookingAdapter.mk data unavailableVenues).identities query ⊆ texts)
    {slots : List AvailabilitySlot} (h : (MockBookingAdapter.mk data unavailableVenues).generate query = some slots)
    {slot : AvailabilitySlot} (hslot : slot ∈ slots) : slot.Made data texts query := by
  obtain ⟨start, hstart⟩ := mem_generateFor h hslot
  unfold MockBookingAdapter.slotAt at hstart
  obtain ⟨finish, hfinish, hbuild⟩ := Option.bind_eq_some_iff.mp hstart
  unfold AvailabilitySlot.build at hbuild
  split_ifs at hbuild with hvalid
  obtain rfl := Option.some.inj hbuild
  exact {
    valid := hquery
    slotId := rfl
    text := htexts ⟨slots, _, h, hslot, rfl⟩
    startTime := hvalid.startTime
    answers := ⟨rfl, rfl, rfl, rfl, hfinish⟩
  }

/-- Slots with one id agree with the same queries, if they are for one type of venue. -/
theorem AvailabilitySlot.Made.answers_of_slotId {data : UnicodeData} {texts : Set String}
    (hinj : Set.InjOn uuid5Hex texts) {x y : AvailabilitySlot} {qx qy query : AvailabilityQuery}
    (hx : x.Made data texts qx) (hy : y.Made data texts qy) (hid : x.slotId = y.slotId)
    (htype : y.venueType = x.venueType) (h : x.Answers data query) : y.Answers data query := by
  have huuid : "mock_" ++ uuid5Hex ((MockBookingAdapter.mk data []).identity qx x.startTime) =
      "mock_" ++ uuid5Hex ((MockBookingAdapter.mk data []).identity qy y.startTime) := by
    rw [← hx.slotId, ← hy.slotId, hid]
  have hidentity := hinj hx.text hy.text (String.append_right_inj _ |>.mp huuid)
  obtain ⟨hname, hdate, hstart, hparty, hduration⟩ :=
    identity_parts hx.valid hy.valid hx.startTime hy.startTime hidentity
  have hends : some x.endTime = some y.endTime := by
    rw [← hx.answers.endTime, ← hy.answers.endTime, hstart, durationMinutes_eq hx.valid hy.valid hduration]
  exact {
    date := by rw [hy.answers.date, ← hdate, ← hx.answers.date, h.date]
    partySize := by rw [hy.answers.partySize, ← hparty, ← hx.answers.partySize, h.partySize]
    venueType := htype.trans h.venueType
    venueName := by rw [hy.answers.venueName, ← hname, ← hx.answers.venueName, h.venueName]
    endTime := by rw [← hstart, h.endTime, hends]
  }

/-! ## What a search returns and what the store keeps -/

namespace MockState

/-- A store holds a slot. -/
def Holds (slots : Dict String SlotEntry) (slot : AvailabilitySlot) : Prop :=
  ∃ slotId e, slots.get? slotId = some e ∧ e.slot = slot

theorem holds_of_insert {slots : Dict String SlotEntry} {slotId : String} {e : SlotEntry} {slot : AvailabilitySlot}
    (h : Holds (slots.insert slotId e) slot) : slot = e.slot ∨ Holds slots slot := by
  obtain ⟨other, e', he', rfl⟩ := h
  rw [Dict.get?_insert] at he'
  split_ifs at he' with heq
  · exact .inl (congrArg SlotEntry.slot (Option.some.inj he').symm)
  · exact .inr ⟨other, e', he', rfl⟩

theorem holds_of_erase {slots : Dict String SlotEntry} {slotId : String} {slot : AvailabilitySlot}
    (h : Holds (slots.erase slotId) slot) : Holds slots slot := by
  obtain ⟨other, e', he', rfl⟩ := h
  rw [Dict.get?_erase] at he'
  split_ifs at he' with heq
  exact ⟨other, e', he', rfl⟩

/-- What the loop of `publish_and_filter` returned so far are candidates, or slots that the store held under their
ids, and the store holds nothing else than it did. -/
structure PublishedFrom (slots : Dict String SlotEntry) (candidates : List AvailabilitySlot) (acc : Published) :
    Prop where
  keyed : Keyed acc.state.slots
  result : ∀ slot ∈ acc.result, ∃ candidate ∈ candidates, slot.slotId = candidate.slotId ∧
    (slot = candidate ∨ Holds slots slot)
  stored : ∀ slot, Holds acc.state.slots slot → slot ∈ acc.result ∨ Holds slots slot

/-- One candidate of the loop. -/
theorem PublishedFrom.step {slots : Dict String SlotEntry} {candidates : List AvailabilitySlot} {acc : Published}
    (h : PublishedFrom slots candidates acc) (now : Time) {candidate : AvailabilitySlot}
    (hcandidate : candidate ∈ candidates) : PublishedFrom slots candidates (publishOne now acc candidate) := by
  unfold publishOne
  dsimp only
  split
  · exact h
  split
  · rename_i entry hget
    have hid := h.keyed _ _ hget
    have hholds : Holds acc.state.slots entry.slot := ⟨_, _, hget, rfl⟩
    -- The slot was published by an earlier search, or by this one for an earlier candidate.
    have hentry : ∃ c ∈ candidates, entry.slot.slotId = c.slotId ∧ (entry.slot = c ∨ Holds slots entry.slot) := by
      rcases h.stored _ hholds with hresult | hheld
      · exact h.result _ hresult
      · exact ⟨candidate, hcandidate, hid, .inr hheld⟩
    refine ⟨h.keyed.insert hid, fun slot hslot => ?_, fun slot hslot => ?_⟩
    · rcases List.mem_append.mp hslot with hslot | hslot
      · exact h.result slot hslot
      · rwa [List.mem_singleton.mp hslot]
    · rcases holds_of_insert hslot with rfl | hslot
      · exact .inl (List.mem_append_right _ (List.mem_singleton_self _))
      · exact (h.stored slot hslot).imp_left (List.mem_append_left _)
  · split
    · exact h
    · rename_i m hroom
      obtain ⟨hkeyed, hstored⟩ : Keyed m.slots ∧ ∀ slot, Holds m.slots slot → Holds acc.state.slots slot := by
        split_ifs at hroom
        · obtain ⟨gone, rfl⟩ := evictOne_eq hroom
          exact ⟨h.keyed.erase gone, fun _ => holds_of_erase⟩
        · obtain rfl := Option.some.inj hroom
          exact ⟨h.keyed, fun _ => id⟩
      refine ⟨hkeyed.insert rfl, fun slot hslot => ?_, fun slot hslot => ?_⟩
      · rcases List.mem_append.mp hslot with hslot | hslot
        · exact h.result slot hslot
        · rw [List.mem_singleton.mp hslot]
          exact ⟨candidate, hcandidate, rfl, .inl rfl⟩
      · rcases holds_of_insert hslot with rfl | hslot
        · exact .inl (List.mem_append_right _ (List.mem_singleton_self _))
        · exact (h.stored slot (hstored slot hslot)).imp_left (List.mem_append_left _)

/-- `publish_and_filter` returns candidates, or slots that the store held under their ids, and leaves the
bookings alone. -/
theorem publishAndFilter_spec {m : MockState} (hm : Keyed m.slots) (candidates : List AvailabilitySlot)
    (operationId : String) (now : Time) :
    (∀ slot ∈ (m.publishAndFilter candidates operationId now).1, ∃ candidate ∈ candidates,
      slot.slotId = candidate.slotId ∧ (slot = candidate ∨ Holds m.slots slot)) ∧
    (∀ slot, Holds (m.publishAndFilter candidates operationId now).2.slots slot →
      slot ∈ (m.publishAndFilter candidates operationId now).1 ∨ Holds m.slots slot) ∧
    Keyed (m.publishAndFilter candidates operationId now).2.slots ∧
    (m.publishAndFilter candidates operationId now).2.bookings = m.bookings := by
  have loop : ∀ (rest : List AvailabilitySlot) (acc : Published), (∀ c ∈ rest, c ∈ candidates) →
      PublishedFrom m.slots candidates acc →
      PublishedFrom m.slots candidates (rest.foldl (publishOne now) acc) := by
    intro rest
    induction rest with
    | nil => exact fun acc _ h => h
    | cons c rest ih =>
      exact fun acc hrest h => ih _ (fun d hd => hrest d (List.mem_cons_of_mem _ hd))
        (h.step now (hrest c List.mem_cons_self))
  have hend := loop candidates ⟨m.expirePins now, [], []⟩ (fun _ h => h)
    ⟨hm, fun _ h => absurd h List.not_mem_nil, fun _ h => .inr h⟩
  obtain ⟨slots, hstate, -⟩ := (publish_inv hm candidates now).state
  refine ⟨hend.result, hend.stored, hend.keyed, ?_⟩
  unfold publishAndFilter
  dsimp only
  rw [hstate]
  rfl

end MockState

/-! ## Histories -/

namespace MockHistory

open MockState (Holds Keyed)

variable {data : UnicodeData} {texts : Set String}

theorem Returned.cons {h : MockHistory} {slot : AvailabilitySlot} (hslot : h.Returned slot) (m : MockState)
    (reply : MockReply) : Returned ⟨m, reply :: h.replies⟩ slot := by
  obtain ⟨query, slots, hmem, hslot⟩ := hslot
  exact ⟨query, slots, List.mem_cons_of_mem _ hmem, hslot⟩

/-- What is returned after a search is its result, or was returned before. -/
theorem returned_found {h : MockHistory} {m : MockState} {query : AvailabilityQuery}
    {slots : List AvailabilitySlot} {slot : AvailabilitySlot}
    (hslot : Returned ⟨m, .found query slots :: h.replies⟩ slot) : slot ∈ slots ∨ h.Returned slot := by
  obtain ⟨q, l, hmem, hslot⟩ := hslot
  rcases List.mem_cons.mp hmem with heq | hmem
  · obtain ⟨-, rfl⟩ := MockReply.found.inj heq
    exact .inl hslot
  · exact .inr ⟨q, l, hmem, hslot⟩

/-- A booking returns no slot. -/
theorem returned_confirmed {h : MockHistory} {m : MockState} {slotId key : String} {c : BookingConfirmation}
    {slot : AvailabilitySlot} (hslot : Returned ⟨m, .confirmed slotId key c :: h.replies⟩ slot) :
    h.Returned slot := by
  obtain ⟨q, l, hmem, hslot⟩ := hslot
  rcases List.mem_cons.mp hmem with heq | hmem
  · contradiction
  · exact ⟨q, l, hmem, hslot⟩

/-- Where the slots in the store and in the replies come from. -/
structure Traced (data : UnicodeData) (texts : Set String) (h : MockHistory) : Prop where
  keyed : Keyed h.state.slots
  /-- The store holds what a search returned. -/
  stored : ∀ slot, Holds h.state.slots slot → h.Returned slot
  /-- A booking was confirmed to its key. -/
  booked : ∀ key b, h.state.bookings.get? key = some b → ∃ first, .confirmed first key b.confirmation ∈ h.replies
  /-- What is confirmed was returned before. -/
  confirmed : ∀ slotId key c, .confirmed slotId key c ∈ h.replies → h.Returned c.slot
  made : ∀ slot, h.Returned slot → ∃ query, slot.Made data texts query
  /-- Slots with one id are for one type of venue. -/
  one : ∀ x y, h.Returned x → h.Returned y → x.slotId = y.slotId → x.venueType = y.venueType
  found : ∀ query slots, .found query slots ∈ h.replies → ∀ slot ∈ slots, slot.Answers data query
  replays : h.Booked

/-- What the replies of a history are, from where its slots come from. -/
theorem Traced.matched {h : MockHistory} (ht : h.Traced data texts) (hinj : Set.InjOn uuid5Hex texts) :
    h.Matched data := by
  intro later query slots earlier hsplit slot hslot
  have hfound : .found query slots ∈ h.replies := by
    rw [hsplit]
    exact List.mem_append_right _ List.mem_cons_self
  have hanswers := ht.found query slots hfound slot hslot
  have hreturned : h.Returned slot := ⟨query, slots, hfound, hslot⟩
  refine ⟨hanswers, fun slotId key c hc hid => ?_⟩
  have hconfirmed : h.Returned c.slot := by
    apply ht.confirmed slotId key c
    rw [hsplit]
    exact List.mem_append_left _ hc
  obtain ⟨qx, hx⟩ := ht.made _ hreturned
  obtain ⟨qy, hy⟩ := ht.made _ hconfirmed
  exact hx.answers_of_slotId hinj hy hid.symm (ht.one _ _ hconfirmed hreturned hid) hanswers

/-- A reply that is no new booking for another slot keeps the bookings right. -/
theorem Booked.cons {h : MockHistory} (hb : h.Booked) {m : MockState} {reply : MockReply}
    (hreply : ∀ slotId key c, reply = .confirmed slotId key c →
      c.slot.slotId = slotId ∨ ∃ first, .confirmed first key c ∈ h.replies) :
    Booked ⟨m, reply :: h.replies⟩ := by
  intro later slotId key c earlier hsplit
  cases later with
  | nil =>
    obtain ⟨rfl, rfl⟩ := List.cons.inj hsplit
    exact hreply slotId key c rfl
  | cons r later => exact hb later slotId key c earlier (List.cons.inj hsplit).2

/-- A request that answers nothing and takes slots and bookings away. -/
theorem Traced.keep {h : MockHistory} (ht : h.Traced data texts) {m : MockState} (hkeyed : Keyed m.slots)
    (hslots : ∀ slot, Holds m.slots slot → Holds h.state.slots slot)
    (hbookings : ∀ key b, m.bookings.get? key = some b → h.state.bookings.get? key = some b) :
    Traced data texts { h with state := m } :=
  { ht with
    keyed := hkeyed
    stored := fun slot hslot => ht.stored slot (hslots slot hslot)
    booked := fun key b hb => ht.booked key b (hbookings key b hb) }

/-- A search that returns slots made for its query, or slots that agree with it and were returned before. -/
theorem Traced.search {h : MockHistory} (ht : h.Traced data texts) {m : MockState} {query : AvailabilityQuery}
    {slots : List AvailabilitySlot} (hkeyed : Keyed m.slots)
    (hstored : ∀ slot, Holds m.slots slot → slot ∈ slots ∨ h.Returned slot)
    (hbookings : m.bookings = h.state.bookings) (hmade : ∀ slot ∈ slots, ∃ q, slot.Made data texts q)
    (hanswers : ∀ slot ∈ slots, slot.Answers data query)
    (hone : ∀ slot ∈ slots, ∀ y, h.Returned y → y.slotId = slot.slotId → y.venueType = query.venueType) :
    Traced data texts ⟨m, .found query slots :: h.replies⟩ := by
  have hfound : MockReply.found query slots ∈ .found query slots :: h.replies := List.mem_cons_self
  exact {
    keyed := hkeyed
    stored := fun slot hslot => (hstored slot hslot).elim (fun hnew => ⟨query, slots, hfound, hnew⟩)
      fun hold => hold.cons m _
    booked := by
      intro key b hb
      rw [show (MockHistory.mk m (.found query slots :: h.replies)).state.bookings = h.state.bookings from
        hbookings] at hb
      obtain ⟨first, hfirst⟩ := ht.booked key b hb
      exact ⟨first, List.mem_cons_of_mem _ hfirst⟩
    confirmed := by
      intro slotId key c hc
      rcases List.mem_cons.mp hc with heq | hc
      · contradiction
      · exact (ht.confirmed slotId key c hc).cons m _
    made := fun slot hslot => (returned_found hslot).elim (hmade slot) (ht.made slot)
    one := by
      intro x y hx hy hid
      rcases returned_found hx with hx | hx
      · rcases returned_found hy with hy | hy
        · rw [(hanswers x hx).venueType, (hanswers y hy).venueType]
        · rw [(hanswers x hx).venueType, hone x hx y hy hid.symm]
      · rcases returned_found hy with hy | hy
        · rw [(hanswers y hy).venueType, hone y hy x hx hid]
        · exact ht.one x y hx hy hid
    found := by
      intro q l hl slot hslot
      rcases List.mem_cons.mp hl with heq | hl
      · obtain ⟨rfl, rfl⟩ := MockReply.found.inj heq
        exact hanswers slot hslot
      · exact ht.found q l hl slot hslot
    replays := ht.replays.cons fun _ _ _ heq => by contradiction
  }

/-- A booking that is confirmed for the slot that was asked for, or again to a key. -/
theorem Traced.book {h : MockHistory} (ht : h.Traced data texts) {m : MockState} {slotId key : String}
    {c : BookingConfirmation} (hkeyed : Keyed m.slots)
    (hslots : ∀ slot, Holds m.slots slot → Holds h.state.slots slot)
    (hbookings : ∀ k b, m.bookings.get? k = some b →
      h.state.bookings.get? k = some b ∨ k = key ∧ b.confirmation = c)
    (hreturned : h.Returned c.slot)
    (hslot : c.slot.slotId = slotId ∨ ∃ first, .confirmed first key c ∈ h.replies) :
    Traced data texts ⟨m, .confirmed slotId key c :: h.replies⟩ where
  keyed := hkeyed
  stored := fun slot h' => (ht.stored slot (hslots slot h')).cons m _
  booked := by
    intro k b hb
    rcases hbookings k b hb with hold | ⟨rfl, rfl⟩
    · obtain ⟨first, hfirst⟩ := ht.booked k b hold
      exact ⟨first, List.mem_cons_of_mem _ hfirst⟩
    · exact ⟨slotId, List.mem_cons_self⟩
  confirmed := by
    intro sid k c' hc
    rcases List.mem_cons.mp hc with heq | hc
    · obtain ⟨-, -, rfl⟩ := MockReply.confirmed.inj heq
      exact hreturned.cons m _
    · exact (ht.confirmed sid k c' hc).cons m _
  made := fun slot h' => ht.made slot (returned_confirmed h')
  one := fun x y hx hy => ht.one x y (returned_confirmed hx) (returned_confirmed hy)
  found := by
    intro q l hl slot hl'
    rcases List.mem_cons.mp hl with heq | hl
    · contradiction
    · exact ht.found q l hl slot hl'
  replays := ht.replays.cons fun sid k c' heq => by
    obtain ⟨rfl, rfl, rfl⟩ := MockReply.confirmed.inj heq
    exact hslot

/-- Nothing is published yet. -/
theorem traced_init {h : MockHistory} (hinit : (mockHistoryMachine data texts).init h) : h.Traced data texts := by
  obtain ⟨capacity, idleTtl, retention, pin, rfl⟩ := hinit
  have hnone : ∀ slot, ¬ Returned ⟨.empty capacity idleTtl retention pin, []⟩ slot :=
    fun _ ⟨_, _, hmem, _⟩ => absurd hmem List.not_mem_nil
  exact {
    keyed := fun _ _ h => by contradiction
    stored := fun _ ⟨_, _, h, _⟩ => by contradiction
    booked := fun _ _ h => by contradiction
    confirmed := fun _ _ _ h => by contradiction
    made := fun slot h => absurd h (hnone slot)
    one := fun x _ h => absurd h (hnone x)
    found := fun _ _ h => by contradiction
    replays := fun later _ _ _ _ h => by
      cases later with
      | nil => contradiction
      | cons => contradiction
  }

/-- Every request keeps track, if a search generates no id of a slot for another type of venue. -/
theorem Traced.exec {h : MockHistory} (ht : h.Traced data texts) (hinj : Set.InjOn uuid5Hex texts)
    {i : Time × MockRequest} (hallowed : (mockHistoryMachine data texts).allowed h i) (hgood : h.Unconfused data i) :
    Traced data texts (MockHistory.exec data i h) := by
  obtain ⟨now, request⟩ := i
  cases request with
  | search unavailableVenues query operationId =>
    obtain ⟨hquery, htexts⟩ := hallowed
    unfold MockHistory.exec
    dsimp only
    unfold Unconfused at hgood
    dsimp only at hgood
    cases hgenerate : (MockBookingAdapter.mk data unavailableVenues).generate query with
    | none => exact ht
    | some candidates =>
      have hmade : ∀ c ∈ candidates, c.Made data texts query :=
        fun c hc => made_of_generate hquery htexts hgenerate hc
      cases candidates with
      | nil =>
        exact ht.search ht.keyed (fun slot hslot => .inr (ht.stored slot hslot)) rfl (by simp) (by simp) (by simp)
      | cons first rest =>
        obtain ⟨hresult, hstored, hkeyed, hbookings⟩ :=
          MockState.publishAndFilter_spec ht.keyed (first :: rest) operationId now
        -- A slot of the result is made for the query, or it was returned before under the id of a candidate.
        have hslots : ∀ slot ∈ (h.state.publishAndFilter (first :: rest) operationId now).1,
            (∃ q, slot.Made data texts q) ∧ slot.Answers data query ∧
              ∃ c ∈ first :: rest, slot.slotId = c.slotId := by
          intro slot hslot
          obtain ⟨c, hc, hid, rfl | hheld⟩ := hresult slot hslot
          · exact ⟨⟨query, hmade _ hc⟩, (hmade _ hc).answers, _, hc, rfl⟩
          · have hreturned := ht.stored slot hheld
            obtain ⟨q, hq⟩ := ht.made slot hreturned
            have htype := hgood _ hgenerate c hc slot hreturned hid
            exact ⟨⟨q, hq⟩, (hmade c hc).answers_of_slotId hinj hq hid.symm
              (htype.trans (hmade c hc).answers.venueType.symm) (hmade c hc).answers, c, hc, hid⟩
        refine ht.search hkeyed (fun slot hslot => (hstored slot hslot).imp_right (ht.stored slot)) hbookings
          (fun slot hslot => (hslots slot hslot).1) (fun slot hslot => (hslots slot hslot).2.1) ?_
        intro slot hslot y hy hid
        obtain ⟨-, -, c, hc, hcid⟩ := hslots slot hslot
        exact hgood _ hgenerate c hc y hy (hid.trans hcid)
  | release operationId => exact ht.keep ht.keyed (fun _ => id) fun _ _ => id
  | book slotId key =>
    unfold MockHistory.exec
    dsimp only
    rcases h.state.bookSlot_cases slotId key (.mock ("mock_booking_" ++ uuid5Hex key) now) now with
      ⟨b, hb, -, hbook⟩ | ⟨-, ⟨error, hbook⟩ | ⟨entry, hget, -, hbook⟩⟩
    · rw [hbook]
      dsimp only
      obtain ⟨first, hfirst⟩ := ht.booked key b hb
      exact ht.book ht.keyed (fun _ => id) (fun _ _ => .inl) (ht.confirmed _ _ _ hfirst) (.inr ⟨first, hfirst⟩)
    · rw [hbook]
      exact ht
    · rw [hbook]
      dsimp only
      have hslot : ((ConfirmationFactory.mock ("mock_booking_" ++ uuid5Hex key) now).build entry.slot).slot =
          entry.slot := ConfirmationFactory.slot_eq _ _
      refine ht.book (ht.keyed.erase slotId) (fun _ => MockState.holds_of_erase) (fun k b' hb' => ?_) ?_
        (.inl (by rw [hslot, ht.keyed _ _ hget]))
      · rw [Dict.get?_insert] at hb'
        split_ifs at hb' with heq
        · obtain rfl := Option.some.inj hb'
          exact .inr ⟨heq.symm, rfl⟩
        · exact .inl hb'
      · rw [hslot]
        exact ht.stored _ ⟨slotId, entry, hget, rfl⟩
  | cleanup batchSize =>
    have hkeeps := h.state.cleanup_keeps now batchSize
    refine ht.keep (hkeeps.slots ht.keyed) (fun slot hslot => ?_) hkeeps.no_new
    obtain ⟨slotId, e, he, rfl⟩ := hslot
    unfold MockState.cleanup at he
    dsimp only at he
    rw [MockState.get?_eraseAll] at he
    split_ifs at he
    exact ⟨slotId, e, he, rfl⟩

/-- Searches and bookings of any clients on one store, as long as no search generates a slot id that was returned
to a query for another type of venue: every search returns slots that agree with its query, and so does what is
booked of them later. -/
theorem search_answers_match (data : UnicodeData) {texts : Set String} (hinj : Set.InjOn uuid5Hex texts)
    {h : MockHistory} (hinit : (mockHistoryMachine data texts).init h) {requests : List (Time × MockRequest)}
    (hruns : (mockHistoryMachine data texts).Runs h requests)
    (hgood : (mockHistoryMachine data texts).EachStep (Unconfused data) h requests) :
    (mockHistoryMachine data texts).Always (fun h => h.Matched data ∧ h.Booked) h requests := by
  have htraced : ∀ s, ((mockHistoryMachine data texts).restrict (Unconfused data)).Reach s →
      s.Traced data texts := fun s hs => by
    refine hs.invariant (fun s h0 => ?_) fun s i _ ht hstep => ?_
    · exact traced_init h0
    · exact ht.exec hinj hstep.1 hstep.2
  exact Machine.Always.of_eachStep (fun s hs => ⟨(htraced s hs).matched hinj, (htraced s hs).replays⟩) hinit hruns hgood

end MockHistory

/-! ## One table -/

/-- A query for a table for two at six. -/
def tableAtSix (venueType : VenueType) : AvailabilityQuery :=
  ⟨"Trattoria", venueType, kwcMarket, 2, "2030-05-16", some "18:00", none, none, []⟩

/-- The slot that is generated for it. -/
def slotAtSix (venueType : VenueType) : AvailabilitySlot :=
  MockBookingAdapter.plain.slotFor defaultVenueProfile (tableAtSix venueType) "18:00"

theorem generate_tableAtSix (venueType : VenueType) :
    MockBookingAdapter.plain.generate (tableAtSix venueType) = some [slotAtSix venueType] := by
  have hgenerate : ∀ t : VenueType, MockBookingAdapter.plain.generateFor defaultVenueProfile (tableAtSix t) =
      some [slotAtSix t] := by
    intro t
    cases t <;> decide +kernel
  unfold MockBookingAdapter.generate
  exact (congrArg (fun profile => MockBookingAdapter.plain.generateFor profile (tableAtSix venueType))
    profileFor_trattoria).trans (hgenerate venueType)

/-- The text that identifies it, for either type of venue. -/
def textAtSix : String := MockBookingAdapter.plain.identity (tableAtSix .restaurant) "18:00"

theorem identities_tableAtSix (venueType : VenueType) :
    MockBookingAdapter.plain.identities (tableAtSix venueType) ⊆ {textAtSix} := by
  rintro text ⟨slots, slot, hslots, hslot, rfl⟩
  obtain rfl := Option.some.inj ((generate_tableAtSix venueType).symm.trans hslots)
  rw [List.mem_singleton.mp hslot]
  rfl

theorem tableAtSix_valid (venueType : VenueType) : (tableAtSix venueType).Valid := by
  cases venueType <;> decide

/-- A store in which nothing was searched yet. -/
def MockHistory.fresh : MockHistory := ⟨.empty 100 900000000 86400000000 30000000, []⟩

/-- A search for the table. -/
def searchAtSix (venueType : VenueType) (operationId : String) : MockRequest :=
  .search [] (tableAtSix venueType) operationId

theorem exec_searchAtSix (h : MockHistory) (now : Time) (venueType : VenueType) (operationId : String) :
    MockHistory.exec .ascii (now, searchAtSix venueType operationId) h =
      ⟨(h.state.publishAndFilter [slotAtSix venueType] operationId now).2,
        .found (tableAtSix venueType) (h.state.publishAndFilter [slotAtSix venueType] operationId now).1 ::
          h.replies⟩ := by
  have hgenerate : (MockBookingAdapter.mk .ascii []).generate (tableAtSix venueType) = some [slotAtSix venueType] :=
    generate_tableAtSix venueType
  unfold MockHistory.exec searchAtSix
  dsimp only
  rw [hgenerate]

/-- The first search publishes its slot. -/
theorem fresh_search (venueType : VenueType) (operationId : String) :
    (MockHistory.fresh.state.publishAndFilter [slotAtSix venueType] operationId 0).1 = [slotAtSix venueType] := by
  cases venueType <;> rfl

/-- The same table an hour later. -/
def tableAtSeven : AvailabilityQuery := { tableAtSix .restaurant with preferredTime := some "19:00" }

def slotAtSeven : AvailabilitySlot := MockBookingAdapter.plain.slotFor defaultVenueProfile tableAtSeven "19:00"

def textAtSeven : String := MockBookingAdapter.plain.identity tableAtSeven "19:00"

theorem generate_tableAtSeven : MockBookingAdapter.plain.generate tableAtSeven = some [slotAtSeven] := by
  have hgenerate : MockBookingAdapter.plain.generateFor defaultVenueProfile tableAtSeven = some [slotAtSeven] := by
    decide +kernel
  unfold MockBookingAdapter.generate
  exact (congrArg (fun profile => MockBookingAdapter.plain.generateFor profile tableAtSeven)
    profileFor_trattoria).trans hgenerate

theorem identities_tableAtSeven : MockBookingAdapter.plain.identities tableAtSeven ⊆ {textAtSix, textAtSeven} := by
  rintro text ⟨slots, slot, hslots, hslot, rfl⟩
  obtain rfl := Option.some.inj (generate_tableAtSeven.symm.trans hslots)
  rw [List.mem_singleton.mp hslot]
  exact .inr rfl

/-- The texts of the two tables have two UUIDs. -/
theorem uuid5Hex_injOn_texts : Set.InjOn uuid5Hex {textAtSix, textAtSeven} := by
  have hne : uuid5Hex textAtSix ≠ uuid5Hex textAtSeven := by decide +kernel
  exact Set.injOn_pair.mpr fun heq => absurd heq hne

/-- One client searches at six and another at seven, and the table at six is booked. -/
def bookedAtSix : List (Time × MockRequest) :=
  [(0, searchAtSix .restaurant "a"), (1, .search [] tableAtSeven "b"), (2, .release "a"),
    (3, .book (slotAtSix .restaurant).slotId "key")]

theorem bookedAtSix_runs : (mockHistoryMachine .ascii {textAtSix, textAtSeven}).Runs .fresh bookedAtSix :=
  ⟨⟨tableAtSix_valid _, (identities_tableAtSix _).trans fun _ => .inl⟩, ⟨by decide, identities_tableAtSeven⟩, trivial,
    trivial, trivial⟩

theorem bookedAtSix_unconfused : (mockHistoryMachine .ascii {textAtSix, textAtSeven}).EachStep
    (MockHistory.Unconfused .ascii) .fresh bookedAtSix := by
  refine ⟨?_, ?_, trivial, trivial, trivial⟩
  · rintro candidates - candidate - slot ⟨query, slots, hmem, -⟩ -
    contradiction
  · rintro candidates - candidate - slot ⟨query, slots, hmem, hslot⟩ -
    change MockReply.found query slots ∈
      (MockHistory.exec .ascii (0, searchAtSix .restaurant "a") .fresh).replies at hmem
    rw [exec_searchAtSix, fresh_search] at hmem
    obtain ⟨-, rfl⟩ := MockReply.found.inj (List.mem_singleton.mp hmem)
    rw [List.mem_singleton.mp hslot]
    rfl

/-- Both searches get their slots, and the booking confirms the first. -/
theorem MockHistory.search_answers_match_booked :
    (mockHistoryMachine .ascii {textAtSix, textAtSeven}).Always (fun h => h.Matched .ascii ∧ h.Booked) .fresh
      bookedAtSix :=
  search_answers_match .ascii uuid5Hex_injOn_texts ⟨100, 900000000, 86400000000, 30000000, rfl⟩ bookedAtSix_runs
    bookedAtSix_unconfused

/-- Two clients search for one table, as a restaurant and as a place for recreation. -/
def searchedTwice : List (Time × MockRequest) :=
  [(0, searchAtSix .restaurant "a"), (1, searchAtSix .recreation "b")]

theorem searchedTwice_runs : (mockHistoryMachine .ascii {textAtSix}).Runs .fresh searchedTwice :=
  ⟨⟨tableAtSix_valid _, identities_tableAtSix _⟩, ⟨tableAtSix_valid _, identities_tableAtSix _⟩, trivial⟩

theorem searchedTwice_replies : ((mockHistoryMachine .ascii {textAtSix}).final .fresh searchedTwice).replies =
    [.found (tableAtSix .recreation) [slotAtSix .restaurant],
      .found (tableAtSix .restaurant) [slotAtSix .restaurant]] := by
  have hsecond : ((MockHistory.fresh.state.publishAndFilter [slotAtSix .restaurant] "a" 0).2.publishAndFilter
      [slotAtSix .recreation] "b" 1).1 = [slotAtSix .restaurant] := by
    decide +kernel
  change (MockHistory.exec .ascii (1, searchAtSix .recreation "b")
    (MockHistory.exec .ascii (0, searchAtSix .restaurant "a") .fresh)).replies = _
  rw [exec_searchAtSix, exec_searchAtSix, fresh_search]
  dsimp only
  rw [hsecond]
  rfl

/-- The search for recreation is answered with a restaurant. -/
theorem other_type_returned : ¬ ∀ (data : UnicodeData) (texts : Set String), Set.InjOn uuid5Hex texts →
    ∀ h, (mockHistoryMachine data texts).init h → ∀ requests, (mockHistoryMachine data texts).Runs h requests →
      (mockHistoryMachine data texts).Always (fun h => h.Matched data ∧ h.Booked) h requests := by
  intro hall
  have hmatched := (hall .ascii {textAtSix} (Set.injOn_singleton _ _) .fresh
    ⟨100, 900000000, 86400000000, 30000000, rfl⟩ searchedTwice searchedTwice_runs).final.1
  obtain ⟨hanswers, -⟩ := hmatched [] _ _ _ searchedTwice_replies (slotAtSix .restaurant) (List.mem_singleton_self _)
  exact absurd hanswers.venueType (by decide)

end Dibs
