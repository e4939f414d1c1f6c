import Dibs.Integrations.Histories
import Dibs.Service.Mail

/-!
# Mail about simulated bookings

The only provider that `backend/main.py` builds is the mock adapter. What its store holds are slots that the adapter
generated, and confirmations that it made of them, so whatever it answers is marked as simulated
(`MockHistory.Simulated`), and no message about a watch that it served says that a table was booked, or opened
(`MailSys.mails_simulated`).
-/

namespace Dibs

/-- A slot that an adapter generates is marked as simulated. -/
theorem isSimulated_of_generate {data : UnicodeData} {unavailableVenues : List String} {query : AvailabilityQuery}
    {slots : List AvailabilitySlot} (h : (MockBookingAdapter.mk data unavailableVenues).generate query = some slots)
    {slot : AvailabilitySlot} (hslot : slot ∈ slots) : slot.isSimulated = true := by
  obtain ⟨start, hstart⟩ := mem_generateFor h hslot
  unfold MockBookingAdapter.slotAt at hstart
  obtain ⟨finish, -, hbuild⟩ := Option.bind_eq_some_iff.mp hstart
  unfold AvailabilitySlot.build at hbuild
  split_ifs at hbuild
  obtain rfl := Option.some.inj hbuild
  rfl

/-! ## What the mock provider holds -/

namespace MockHistory

open MockState (Holds Keyed)

variable {data : UnicodeData} {texts : Set String} {h : MockHistory}

/-- Whatever the store holds is marked as simulated. -/
structure Simulated (h : MockHistory) : Prop where
  keyed : Keyed h.state.slots
  slots : ∀ slot, Holds h.state.slots slot → slot.isSimulated = true
  bookings : ∀ key b, h.state.bookings.get? key = some b → b.confirmation.isSimulated = true

/-- What a search returns, and what it leaves in the store. -/
theorem Simulated.publish (hs : h.Simulated) {candidates : List AvailabilitySlot}
    (hcandidates : ∀ slot ∈ candidates, slot.isSimulated = true) (operationId : String) (now : Time) :
    (∀ slot ∈ (h.state.publishAndFilter candidates operationId now).1, slot.isSimulated = true) ∧
      ∀ replies, Simulated ⟨(h.state.publishAndFilter candidates operationId now).2, replies⟩ := by
  obtain ⟨hresult, hstored, hkeyed, hbookings⟩ :=
    MockState.publishAndFilter_spec hs.keyed candidates operationId now
  have hmarked : ∀ slot ∈ (h.state.publishAndFilter candidates operationId now).1, slot.isSimulated = true := by
    intro slot hslot
    obtain ⟨candidate, hcandidate, -, rfl | hheld⟩ := hresult slot hslot
    · exact hcandidates _ hcandidate
    · exact hs.slots slot hheld
  exact ⟨hmarked, fun replies => ⟨hkeyed, fun slot hslot => (hstored slot hslot).elim (hmarked slot) (hs.slots slot),
    fun key b hb => hs.bookings key b (hbookings ▸ hb)⟩⟩

/-- What a booking returns, and what it leaves in the store. -/
theorem Simulated.book (hs : h.Simulated) (slotId key bookingId : String) (now : Time) :
    (∀ c, (h.state.bookSlot slotId key (.mock bookingId now) now).1 = .ok c → c.isSimulated = true) ∧
      ∀ replies, Simulated ⟨(h.state.bookSlot slotId key (.mock bookingId now) now).2, replies⟩ := by
  rcases h.state.bookSlot_cases slotId key (.mock bookingId now) now with
    ⟨b, hb, -, hbook⟩ | ⟨-, ⟨error, hbook⟩ | ⟨entry, hget, -, hbook⟩⟩
  · rw [hbook]
    refine ⟨fun c hc => ?_, fun replies => ⟨hs.keyed, hs.slots, hs.bookings⟩⟩
    obtain rfl := Except.ok.inj hc
    exact hs.bookings key b hb
  · rw [hbook]
    exact ⟨fun c hc => by contradiction, fun replies => ⟨hs.keyed, hs.slots, hs.bookings⟩⟩
  · rw [hbook]
    refine ⟨fun c hc => ?_, fun replies => ⟨hs.keyed.erase slotId, fun slot hslot => ?_, fun k b hb => ?_⟩⟩
    · obtain rfl := Except.ok.inj hc
      rfl
    · exact hs.slots slot (MockState.holds_of_erase hslot)
    · rw [Dict.get?_insert] at hb
      split_ifs at hb
      · obtain rfl := Option.some.inj hb
        rfl
      · exact hs.bookings k b hb

/-- Every request keeps what the store holds marked as simulated. -/
theorem Simulated.exec (hs : h.Simulated) (i : Time × MockRequest) : Simulated (MockHistory.exec data i h) := by
  obtain ⟨now, request⟩ := i
  cases request with
  | search unavailableVenues query operationId =>
    unfold MockHistory.exec
    dsimp only
    cases hgenerate : (MockBookingAdapter.mk data unavailableVenues).generate query with
    | none => exact hs
    | some candidates =>
      cases candidates with
      | nil => exact ⟨hs.keyed, hs.slots, hs.bookings⟩
      | cons first rest =>
        exact (hs.publish (fun slot hslot => isSimulated_of_generate hgenerate hslot) operationId now).2 _
  | release operationId => exact ⟨hs.keyed, hs.slots, hs.bookings⟩
  | book slotId key =>
    have hbook := (hs.book slotId key ("mock_booking_" ++ uuid5Hex key) now).2
    unfold MockHistory.exec
    dsimp only
    split <;> rename_i hout <;> rw [hout] at hbook
    · exact hbook _
    · exact hbook _
  | cleanup batchSize =>
    have hkeeps := h.state.cleanup_keeps now batchSize
    refine ⟨hkeeps.slots hs.keyed, fun slot hslot => ?_, fun key b hb => hs.bookings key b (hkeeps.no_new key b hb)⟩
    obtain ⟨slotId, e, he, rfl⟩ := hslot
    unfold MockHistory.exec MockState.cleanup at he
    dsimp only at he
    rw [MockState.get?_eraseAll] at he
    split_ifs at he
    exact hs.slots _ ⟨slotId, e, he, rfl⟩

/-- Whatever the mock provider holds in any run is marked as simulated. -/
theorem simulated (hr : (mockHistoryMachine data texts).Reach h) : h.Simulated := by
  refine hr.invariant (P := Simulated) ?_ fun h i _ hs _ => hs.exec i
  rintro h ⟨capacity, idleTtl, retention, pin, rfl⟩
  exact ⟨fun _ _ hget => by contradiction, fun _ ⟨_, _, hget, _⟩ => by contradiction, fun _ _ hget => by contradiction⟩

end MockHistory

/-! ## What the mock provider answers -/

/-- What a mock adapter answers, at some time, over a store that any number of adapters share. -/
inductive Input.FromMock (data : UnicodeData) : Input → Prop
  /-- `search_availability`. -/
  | searched {h : MockHistory} (hreach : (mockHistoryMachine data Set.univ).Reach h) (unavailableVenues : List String)
      (query : AvailabilityQuery) (operationId : String) (now : Time) {slots : List AvailabilitySlot}
      (hsearch : ((MockBookingAdapter.mk data unavailableVenues).searchAvailability query operationId now
        h.state).1 = some slots) : FromMock data (.slots slots)
  /-- `get_booking`. -/
  | replayed {h : MockHistory} (hreach : (mockHistoryMachine data Set.univ).Reach h) (key : String) (now : Time) :
      FromMock data (.booking (h.state.getBooking key now))
  /-- `book_slot`. -/
  | booked {h : MockHistory} (hreach : (mockHistoryMachine data Set.univ).Reach h) (slotId key : String) (now : Time)
      {confirmation : BookingConfirmation}
      (hbook : (h.state.bookSlot slotId key (.mock ("mock_booking_" ++ uuid5Hex key) now) now).1 =
        .ok confirmation) : FromMock data (.confirmed confirmation)
  /-- `reconcile_booking`. -/
  | reconciled {h : MockHistory} (hreach : (mockHistoryMachine data Set.univ).Reach h) (key : String) (now : Time) :
      FromMock data (.reconciled (h.state.reconcileBooking key now))
  /-- The call raises, or its time is over. -/
  | failed (failure : Failure) : FromMock data (.failed failure)

/-- What an answer carries is marked as simulated. -/
def Input.Simulated : Input → Prop
  | .slots found => ∀ slot ∈ found, slot.isSimulated = true
  | .booking (some confirmation) | .confirmed confirmation | .reconciled (.confirmed confirmation) =>
    confirmation.isSimulated = true
  | _ => True

theorem Input.FromMock.simulated {data : UnicodeData} {input : Input} (h : input.FromMock data) :
    input.Simulated := by
  cases h with
  | searched hreach unavailableVenues query operationId now hsearch =>
    rename_i h slots
    have hs := MockHistory.simulated hreach
    unfold MockBookingAdapter.searchAvailability at hsearch
    cases hgenerate : (MockBookingAdapter.mk data unavailableVenues).generate query with
    | none =>
      rw [hgenerate] at hsearch
      contradiction
    | some candidates =>
      rw [hgenerate] at hsearch
      cases candidates with
      | nil =>
        obtain rfl := Option.some.inj hsearch
        exact fun slot hslot => absurd hslot List.not_mem_nil
      | cons first rest =>
        obtain rfl := Option.some.inj hsearch
        exact (hs.publish (fun slot hslot => isSimulated_of_generate hgenerate hslot) operationId now).1
  | replayed hreach key now =>
    rename_i h
    cases hget : h.state.getBooking key now with
    | none => trivial
    | some confirmation =>
      obtain ⟨b, hb, -, rfl⟩ := (MockState.getBooking_eq_some_iff ..).mp hget
      exact (MockHistory.simulated hreach).bookings key b hb
  | booked hreach slotId key now hbook => exact ((MockHistory.simulated hreach).book slotId key _ now).1 _ hbook
  | reconciled hreach key now =>
    rename_i h
    have hs := MockHistory.simulated hreach
    unfold MockState.reconcileBooking
    cases hb : h.state.bookings.get? key with
    | none => trivial
    | some b =>
      dsimp only
      split_ifs
      · exact hs.bookings key b hb
      · trivial
  | failed => trivial

/-! ## What is sent about it -/

namespace MailSys

variable {κ : Type*} [DecidableEq κ] {app : MailApp} {s : MailSys κ}

/-- Where the provider is the mock adapter, every message about a booking or about availability is one about a
simulation. In every run of the service, the routes and the notifications in which the provider answers as mock
adapters over a store in memory in any state that they can reach, a subject says that a booking or availability was
simulated, and its text says so again, or it says that the watch has ended; none says that a table was booked or that
one opened. -/
theorem mails_simulated (data : UnicodeData) (h : (machine app).Reach s)
    (hmock : ∀ answer ∈ s.service.answers, answer.2.FromMock data) {notice : Notice} {message : EmailMessage}
    (hm : (notice, message) ∈ s.outbox) :
    (∃ headline : Headline, headline.text.toList <+: message.subject.toList) ∧
    ∀ headline : Headline, headline.text.toList <+: message.subject.toList →
      headline = .ended ∨ (headline = .mockBooking ∨ headline = .mockAvailability) ∧ Disclaims message.content := by
  obtain ⟨hbegins, hholds⟩ := mails_truthful h hm
  refine ⟨hbegins, fun headline hheadline => ?_⟩
  have hholds := hholds headline hheadline
  cases headline with
  | ended => exact .inl rfl
  | mockBooking => exact .inr ⟨.inl rfl, hholds.1⟩
  | mockAvailability => exact .inr ⟨.inr rfl, hholds.1⟩
  | unconfirmed => contradiction
  | booked =>
    -- The provider marks every confirmation.
    obtain ⟨booking, ⟨input, hanswer, hinput⟩, hreal, -⟩ := hholds
    have hsimulated := (hmock _ hanswer).simulated
    rcases hinput with rfl | rfl | rfl
    all_goals exact absurd (hsimulated.symm.trans hreal) (by decide)
  | opened =>
    obtain ⟨slots, hfound, slot, hslot, hreal⟩ := hholds
    have hsimulated := (hmock _ hfound.2).simulated slot (List.mem_of_mem_take hslot)
    exact absurd (hsimulated.symm.trans hreal) (by decide)

/-! ### A run -/

/-- What the mock adapter confirms for a table at six. -/
def confirmedAtSix : BookingConfirmation :=
  (ConfirmationFactory.mock ("mock_booking_" ++ uuid5Hex "watch:watch_1") 60000000).build (slotAtSix .restaurant)

/-- The creation of a watch, and a delivery that books the table at six. -/
def runAtSix : List SysLabel :=
  AnsweredSys.creation :: AnsweredSys.bookingRun (slotAtSix .restaurant) confirmedAtSix

theorem runAtSix_runs : (answeredMachine .sample).Runs .fresh runAtSix :=
  ⟨⟨by decide +kernel, by decide, by decide, RedisService.opens_opened⟩,
    AnsweredSys.runs_of_plain (by decide +kernel)⟩

/-- The application once Ada was told of the table at six. -/
def toldAtSix : MailSys ℕ := (machine sampleApp).final (announced runAtSix) [.advance 0, .advance 0, .advance 0]

theorem toldAtSix_reach : (machine sampleApp).Reach toldAtSix :=
  Reach.advance (Reach.advance (Reach.advance (announced_reach runAtSix_runs) (by decide +kernel))
    (by decide +kernel)) (by decide +kernel)

theorem fresh_history_reach : (mockHistoryMachine .ascii Set.univ).Reach .fresh :=
  .init ⟨100, 900000000, 86400000000, 30000000, rfl⟩

theorem ok_of_toOption {ε α : Type*} {x : Except ε α} {a : α} (h : x.toOption = some a) : x = .ok a := by
  cases x with
  | error => contradiction
  | ok b => exact congrArg Except.ok (Option.some.inj h)

theorem toldAtSix_fromMock : ∀ answer ∈ toldAtSix.service.answers, answer.2.FromMock .ascii := by
  have hsearched : (mockHistoryMachine .ascii Set.univ).Reach
      (MockHistory.exec .ascii (0, searchAtSix .restaurant "a") .fresh) :=
    fresh_history_reach.step (M := mockHistoryMachine .ascii Set.univ) (0, searchAtSix .restaurant "a")
      ⟨tableAtSix_valid _, Set.subset_univ _⟩
  have hanswers : toldAtSix.service.answers = [("watch_1", .confirmed confirmedAtSix),
      ("watch_1", .slots [slotAtSix .restaurant]), ("watch_1", .booking none)] := by
    decide +kernel
  rw [hanswers]
  intro answer hanswer
  simp only [List.mem_cons, List.not_mem_nil, or_false] at hanswer
  rcases hanswer with rfl | rfl | rfl
  · refine .booked hsearched (slotAtSix .restaurant).slotId "watch:watch_1" 60000000 ?_
    rw [exec_searchAtSix]
    have hok : (((MockHistory.fresh.state.publishAndFilter [slotAtSix .restaurant] "a" 0).2.bookSlot
        (slotAtSix .restaurant).slotId "watch:watch_1"
        (.mock ("mock_booking_" ++ uuid5Hex "watch:watch_1") 60000000) 60000000).1).toOption = some confirmedAtSix := by
      decide +kernel
    exact ok_of_toOption hok
  · refine .searched fresh_history_reach [] (tableAtSix .restaurant) "a" 0 ?_
    have hgenerate : (MockBookingAdapter.mk .ascii []).generate (tableAtSix .restaurant) =
        some [slotAtSix .restaurant] := generate_tableAtSix .restaurant
    unfold MockBookingAdapter.searchAvailability
    rw [hgenerate]
    exact congrArg some (fresh_search .restaurant "a")
  · exact .replayed fresh_history_reach "watch:watch_1" 0

theorem mails_simulated_toldAtSix : ∃ notice message, (notice, message) ∈ toldAtSix.outbox ∧
    (∃ headline : Headline, headline.text.toList <+: message.subject.toList) ∧
      ∀ headline : Headline, headline.text.toList <+: message.subject.toList →
        headline = .ended ∨
          (headline = .mockBooking ∨ headline = .mockAvailability) ∧ Disclaims message.content := by
  have hsent : toldAtSix.outbox ≠ [] := by decide +kernel
  obtain ⟨⟨notice, message⟩, rest, houtbox⟩ := List.exists_cons_of_ne_nil hsent
  have hm : (notice, message) ∈ toldAtSix.outbox := by
    rw [houtbox]
    exact List.mem_cons_self
  exact ⟨notice, message, hm, mails_simulated .ascii toldAtSix_reach toldAtSix_fromMock hm⟩

end MailSys

end Dibs
