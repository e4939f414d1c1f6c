import Dibs.Mock.Records
import Dibs.Mock.Simulation

/-!
# The two stores of the mock provider agree

`InMemoryMockBookingStateRepository` and `RedisMockBookingStateRepository` are called with the same
arguments at the same instants. As long as each call is `Settled`, they answer the same and hold the same
slots (`mock_stores_agree`). A call is not settled where the float of `_to_ms` is a millisecond low; where the
stores would choose differently, as several slots were untouched as long, or more entries are due than a batch
takes, and the table in memory has them in another order than the sorted set; or where a script meets a
tombstone whose text it cannot read.
-/

namespace Dibs

/-- What a call returns, or raises of the adapter's errors. -/
inductive MockAnswer
  | published (slots : List AvailabilitySlot)
  | booking (booking : Option BookingConfirmation)
  | reconciled (result : Reconciliation)
  | booked (result : Except AdapterError BookingConfirmation)
  | released
  | cleaned (counts : CleanupCounts)

/-- What a call on the store in memory answers. -/
def MockState.answer (m : MockState) (now : Time) : MockOp → MockAnswer
  | .publish candidates operationId => .published (m.publishAndFilter candidates operationId now).1
  | .getBooking key => .booking (m.getBooking key now)
  | .reconcile key => .reconciled (m.reconcileBooking key now)
  | .book slotId key factory => .booked (m.bookSlot slotId key factory now).1
  | .release _ => .released
  | .cleanup batchSize => .cleaned (m.cleanup now batchSize).1

namespace MockDb

/-- What a call on the store on Redis answers, if it raises nothing else. -/
def answer (db : MockDb) (limits : MockLimits) (now : Time) : MockOp → Option MockAnswer
  | .publish candidates operationId =>
    (db.publishAndFilter limits candidates operationId now).1.map .published
  | .getBooking key => (db.getBooking key now).map .booking
  | .reconcile key => (db.reconcileBooking key now).map .reconciled
  | .book slotId key factory => (db.bookSlot limits slotId key factory now).1.map .booked
  | .release _ => some .released
  | .cleanup batchSize => some (.cleaned (db.cleanup limits now batchSize).1)

/-- The database that a call leaves. -/
def call (db : MockDb) (limits : MockLimits) (now : Time) : MockOp → MockDb
  | .publish candidates operationId => (db.publishAndFilter limits candidates operationId now).2
  | .getBooking _ | .reconcile _ => db
  | .book slotId key factory => (db.bookSlot limits slotId key factory now).2
  | .release operationId => db.releaseScript operationId
  | .cleanup batchSize => (db.cleanup limits now batchSize).2

end MockDb

/-- The two stores at an instant, in milliseconds. -/
structure MockStores where
  now : ℤ
  memory : MockState
  db : MockDb

/-- What happens next. -/
inductive MockEvent
  /-- A call on both stores. -/
  | call (op : MockOp)
  /-- A time to live ends on Redis. -/
  | expire (key : MockKey)

namespace MockStores

/-- Executing an event at an instant. -/
def exec (limits : MockLimits) (s : MockStores) (now : ℤ) : MockEvent → MockStores
  | .call op => ⟨now, s.memory.call (ofMillis now) op, s.db.call limits (ofMillis now) op⟩
  | .expire key => ⟨now, s.memory, s.db.expire key⟩

/-- A time to live ends no sooner than what it stands for. -/
def Possible (s : MockStores) (now : ℤ) : MockEvent → Prop
  | .call _ => True
  | .expire key => s.db.Lapsed now key

/-- The float of `_to_ms` has the millisecond of the call, both stores choose by the same order, and the
scripts can read the tombstones that they meet. -/
def Settled (s : MockStores) (now : ℤ) : MockEvent → Prop
  | .call (.publish candidates _) => toMs (ofMillis now) = now ∧
      (∀ slot ∈ candidates, s.db.Legible slot.slotId) ∧
      MockState.PublishTies (ofMillis now) candidates ⟨s.memory.expirePins (ofMillis now), [], []⟩
  | .call (.getBooking _) | .call (.reconcile _) => toMs (ofMillis now) = now
  | .call (.book slotId key _) => toMs (ofMillis now) = now ∧
      (s.memory.getBooking key (ofMillis now) = none → s.db.Legible slotId)
  | .call (.cleanup batchSize) => toMs (ofMillis now) = now ∧
      MockState.BatchByScore s.memory.slots
        ((s.memory.expirePins (ofMillis now)).isIdle (ofMillis now)) SlotEntry.lastTouch batchSize ∧
      MockState.BatchByScore s.memory.bookings (fun _ b => decide (b.protectedUntil ≤ ofMillis now))
        Booking.protectedUntil batchSize
  | .call (.release _) | .expire _ => True

/-- The stores answer the same, and hold the same slots afterwards. -/
def Agree (limits : MockLimits) (s : MockStores) (now : ℤ) (event : MockEvent) : Prop :=
  (∀ op, event = .call op →
    s.db.answer limits (ofMillis now) op = some (s.memory.answer (ofMillis now) op)) ∧
  ∀ sid, (s.exec limits now event).db.slots.get? sid =
    ((s.exec limits now event).memory.slots.get? sid).map SlotEntry.slot

end MockStores

/-- Runs of both stores with the same limits, from empty ones, at non-decreasing instants. -/
def mockStoresMachine (limits : MockLimits) : Machine MockStores (ℤ × MockEvent) where
  init s := s.memory = .empty limits.capacity (ofMillis limits.idleTtlMs) (ofMillis limits.retentionMs)
    (ofMillis limits.pinMs) ∧ s.db = .empty
  allowed s i := s.now ≤ i.1 ∧ s.Possible i.1 i.2
  exec i s := s.exec limits i.1 i.2

/-- The two stores agree at an instant. -/
structure MockAgree (limits : MockLimits) (now : ℤ) (m : MockState) (db : MockDb) : Prop where
  slots : SlotsAgree limits now m db
  records : RecordsAgree now m db
  retention : m.retention = ofMillis limits.retentionMs

namespace MockAgree

variable {limits : MockLimits} {now : ℤ} {m : MockState} {db : MockDb}

theorem mono (h : MockAgree limits now m db) {later : ℤ} (hle : now ≤ later) :
    MockAgree limits later m db :=
  ⟨h.slots.mono hle, h.records.mono hle, h.retention⟩

/-- `publish_and_filter` on both stores. -/
theorem publish (h : MockAgree limits now m db) (candidates : List AvailabilitySlot) (operation : String)
    (hexact : toMs (ofMillis now) = now) (hlegible : ∀ slot ∈ candidates, db.Legible slot.slotId)
    (hties : MockState.PublishTies (ofMillis now) candidates ⟨m.expirePins (ofMillis now), [], []⟩) :
    (db.publishAndFilter limits candidates operation (ofMillis now)).1 =
        some (m.publishAndFilter candidates operation (ofMillis now)).1 ∧
      MockAgree limits now (m.publishAndFilter candidates operation (ofMillis now)).2
        (db.publishAndFilter limits candidates operation (ofMillis now)).2 := by
  unfold MockDb.publishAndFilter
  rw [hexact]
  obtain ⟨hanswer, hslots⟩ := h.slots.publish operation candidates
    (fun slot hslot => h.records.buried (hlegible slot hslot)) hties
  obtain ⟨slots, hstate⟩ := MockState.publish_state (ofMillis now) candidates
    ⟨m.expirePins (ofMillis now), [], []⟩
  refine ⟨hanswer, hslots, ?_, (congrArg MockState.retention hstate).trans h.retention⟩
  exact h.records.congr (congrArg MockState.bookings hstate :) (congrArg MockState.tombstones hstate :)
    (db.records_publishScript operation now limits.pinMs limits.capacity candidates)

/-- `book_slot` on both stores. -/
theorem book (h : MockAgree limits now m db) (slotId key : String) (factory : ConfirmationFactory)
    (hexact : toMs (ofMillis now) = now) (hlegible : m.getBooking key (ofMillis now) = none → db.Legible slotId) :
    (db.bookSlot limits slotId key factory (ofMillis now)).1 =
        some (m.bookSlot slotId key factory (ofMillis now)).1 ∧
      MockAgree limits now (m.bookSlot slotId key factory (ofMillis now)).2
        (db.bookSlot limits slotId key factory (ofMillis now)).2 := by
  have hprotected := h.records.protectedBooking key
  have hdoc := h.slots.doc slotId
  have huntil : ofMillis now + m.retention = ofMillis (now + limits.retentionMs) := by
    rw [h.retention, ofMillis_add]
  unfold MockDb.bookSlot MockDb.sendBooking MockDb.bookScript MockState.bookSlot
  rw [hexact, hprotected]
  cases hbooking : (m.bookings.get? key).filter fun b => decide (ofMillis now < b.protectedUntil) with
  | some b => exact ⟨rfl, h⟩
  | none =>
    have hnone : m.getBooking key (ofMillis now) = none := by
      unfold MockState.getBooking
      cases hkey : m.bookings.get? key with
      | none => rfl
      | some b =>
        rw [hkey] at hbooking
        simpa [Option.filter] using hbooking
    rw [Option.map_none, h.records.takenByOther (hlegible hnone) key]
    dsimp only
    cases (m.tombstones.get? slotId).any
        fun tomb => decide (ofMillis now < tomb.protectedUntil) && !decide (tomb.key = key) with
    | true => exact ⟨rfl, h⟩
    | false =>
      cases hslot : m.slots.get? slotId with
      | none =>
        rw [hslot, Option.map_none] at hdoc
        simp only [Dict.contains_eq, hdoc]
        exact ⟨rfl, h⟩
      | some entry =>
        rw [hslot, Option.map_some] at hdoc
        simp only [Dict.contains_eq, hdoc, huntil, Option.isSome_some, Bool.not_true, Bool.false_eq_true,
          if_false]
        refine ⟨rfl, ?_⟩
        exact ⟨h.slots.book _ _ slotId key _ _, h.records.book slotId key _ _ _ _, h.retention⟩

/-- `reconcile_booking` on both stores. -/
theorem reconcile (h : MockAgree limits now m db) (hexact : toMs (ofMillis now) = now) (key : String) :
    db.reconcileBooking key (ofMillis now) = some (m.reconcileBooking key (ofMillis now)) := by
  unfold MockDb.reconcileBooking
  rw [h.records.getBooking hexact key]
  unfold MockState.getBooking MockState.reconcileBooking
  cases m.bookings.get? key with
  | none => rfl
  | some b =>
    by_cases hlive : ofMillis now < b.protectedUntil
    · simp [hlive, not_le.mpr hlive]
    · simp [hlive, not_lt.mp hlive]

/-- `release_operation` on both stores. -/
theorem release (h : MockAgree limits now m db) (operation : String) :
    MockAgree limits now (m.releaseOperation operation) (db.releaseScript operation) :=
  ⟨h.slots.release operation, h.records.congr rfl rfl (db.records_releaseScript operation), h.retention⟩

/-- `cleanup` on both stores. -/
theorem cleanup (h : MockAgree limits now m db) (hexact : toMs (ofMillis now) = now) (batch : ℕ)
    (hidle : MockState.BatchByScore m.slots ((m.expirePins (ofMillis now)).isIdle (ofMillis now))
      SlotEntry.lastTouch batch)
    (hexpired : MockState.BatchByScore m.bookings (fun _ b => decide (b.protectedUntil ≤ ofMillis now))
      Booking.protectedUntil batch) :
    (db.cleanup limits (ofMillis now) batch).1 = (m.cleanup (ofMillis now) batch).1 ∧
      MockAgree limits now (m.cleanup (ofMillis now) batch).2 (db.cleanup limits (ofMillis now) batch).2 := by
  unfold MockDb.cleanup
  rw [hexact]
  obtain ⟨hslotCount, hslots⟩ := h.slots.cleanup batch hidle
  obtain ⟨hrecordCount, hrecords⟩ := h.records.cleanup (now - limits.idleTtlMs) batch hexpired
  exact ⟨congrArg₂ CleanupCounts.mk hslotCount.symm hrecordCount.symm, hslots, hrecords, h.retention⟩

/-- A settled call is answered the same by both stores, and keeps them in agreement. -/
theorem call (h : MockAgree limits now m db) (op : MockOp)
    (hsettled : (⟨now, m, db⟩ : MockStores).Settled now (.call op)) :
    db.answer limits (ofMillis now) op = some (m.answer (ofMillis now) op) ∧
      MockAgree limits now (m.call (ofMillis now) op) (db.call limits (ofMillis now) op) := by
  cases op with
  | publish candidates operation =>
    obtain ⟨hexact, hlegible, hties⟩ := hsettled
    obtain ⟨hanswer, hagree⟩ := h.publish candidates operation hexact hlegible hties
    exact ⟨congrArg (Option.map MockAnswer.published) hanswer, hagree⟩
  | getBooking key => exact ⟨congrArg (Option.map MockAnswer.booking) (h.records.getBooking hsettled key), h⟩
  | reconcile key => exact ⟨congrArg (Option.map MockAnswer.reconciled) (h.reconcile hsettled key), h⟩
  | book slotId key factory =>
    obtain ⟨hanswer, hagree⟩ := h.book slotId key factory hsettled.1 hsettled.2
    exact ⟨congrArg (Option.map MockAnswer.booked) hanswer, hagree⟩
  | release operation => exact ⟨rfl, h.release operation⟩
  | cleanup batch =>
    obtain ⟨hexact, hidle, hexpired⟩ := hsettled
    obtain ⟨hcounts, hagree⟩ := h.cleanup hexact batch hidle hexpired
    exact ⟨congrArg (some ∘ MockAnswer.cleaned) hcounts, hagree⟩

theorem expire (h : MockAgree limits now m db) {key : MockKey} (hlapsed : db.Lapsed now key) :
    MockAgree limits now m (db.expire key) :=
  ⟨h.slots.expire hlapsed, h.records.expire hlapsed, h.retention⟩

/-- Empty stores agree. -/
theorem empty (limits : MockLimits) (now : ℤ) : MockAgree limits now
    (.empty limits.capacity (ofMillis limits.idleTtlMs) (ofMillis limits.retentionMs) (ofMillis limits.pinMs))
    .empty where
  slots := {
    capacity := rfl
    idleTtl := rfl
    pin := rfl
    whole := ⟨fun _ _ h => by contradiction, fun _ _ h => by contradiction⟩
    keys := fun _ => rfl
    indexed := fun _ => .absent
    pins := ⟨fun _ _ _ h => by contradiction, fun _ _ h => by contradiction⟩ }
  records := {
    whole := fun _ _ h => by contradiction
    wholeTomb := fun _ _ h => by contradiction
    deadline := fun _ => rfl
    booking := fun _ _ h => by contradiction
    tombstone := fun _ _ h => by contradiction
    text := fun _ _ h => by contradiction }
  retention := rfl

end MockAgree

namespace MockStores

variable {limits : MockLimits} {s : MockStores}

/-- A settled event keeps the stores in agreement, and is answered the same by both. -/
theorem agree_step (h : MockAgree limits s.now s.memory s.db) {now : ℤ} {event : MockEvent}
    (hle : s.now ≤ now) (hpossible : s.Possible now event) (hsettled : s.Settled now event) :
    s.Agree limits now event ∧ MockAgree limits (s.exec limits now event).now
      (s.exec limits now event).memory (s.exec limits now event).db := by
  have hnow := h.mono hle
  cases event with
  | call op =>
    obtain ⟨hanswer, hagree⟩ := hnow.call op hsettled
    refine ⟨⟨fun op' hop => ?_, hagree.slots.doc⟩, hagree⟩
    obtain rfl := MockEvent.call.inj hop
    exact hanswer
  | expire key =>
    have hagree := hnow.expire hpossible
    exact ⟨⟨fun op' hop => by contradiction, hagree.slots.doc⟩, hagree⟩

/-- A run of settled events keeps agreeing stores in agreement. -/
theorem agree_run {steps : List (ℤ × MockEvent)} (h : MockAgree limits s.now s.memory s.db)
    (hr : (mockStoresMachine limits).Runs s steps)
    (hsettled : (mockStoresMachine limits).EachStep (fun s i => s.Settled i.1 i.2) s steps) :
    (mockStoresMachine limits).EachStep (fun s i => s.Agree limits i.1 i.2) s steps := by
  induction steps generalizing s with
  | nil => trivial
  | cons i steps ih =>
    obtain ⟨⟨hle, hpossible⟩, hrest⟩ := hr
    obtain ⟨hstep, hkept⟩ := agree_step h hle hpossible hsettled.1
    exact ⟨hstep, ih hkept hrest hsettled.2⟩

end MockStores

open MockStores in
/-- In every run from empty stores whose calls are all settled, both stores answer every call the same
and hold the same slots after it. -/
theorem mock_stores_agree {limits : MockLimits} {s : MockStores}
    (hs : (mockStoresMachine limits).init s) {steps : List (ℤ × MockEvent)}
    (hr : (mockStoresMachine limits).Runs s steps)
    (hsettled : (mockStoresMachine limits).EachStep (fun s i => s.Settled i.1 i.2) s steps) :
    (mockStoresMachine limits).EachStep (fun s i => s.Agree limits i.1 i.2) s steps := by
  refine agree_run ?_ hr hsettled
  rw [hs.1, hs.2]
  exact .empty limits s.now

namespace MockStores

/-- Two empty stores. -/
def fresh (limits : MockLimits) : MockStores :=
  ⟨0, .empty limits.capacity (ofMillis limits.idleTtlMs) (ofMillis limits.retentionMs) (ofMillis limits.pinMs),
    .empty⟩

/-- A store of two slots, with the default lifetimes. -/
def twoSlots : MockLimits := ⟨2, 600000, 3600000, 120000⟩

/-- Three searches, the last of which has to evict a slot, and a booking. -/
def settledRun : List (ℤ × MockEvent) :=
  [(0, .call (.publish [.sample "b"] "op")), (1, .call (.publish [.sample "a"] "op")),
    (1, .call (.release "op")), (2, .call (.publish [.sample "c"] "op")),
    (3, .call (.book "a" "key" (.mock "A" 3000))), (600002, .call (.cleanup 10))]

end MockStores

open MockStores in
/-- The slot that the last search evicts is the one that was untouched longest, so both stores have the
other one to book. -/
theorem mock_stores_agree_settled : (mockStoresMachine twoSlots).EachStep
    (fun s i => s.Agree twoSlots i.1 i.2) (fresh twoSlots) settledRun := by
  refine mock_stores_agree ⟨rfl, rfl⟩ ?_ ?_
  · exact ⟨⟨by decide, trivial⟩, ⟨by decide, trivial⟩, ⟨by decide, trivial⟩, ⟨by decide, trivial⟩,
      ⟨by decide, trivial⟩, ⟨by decide, trivial⟩, trivial⟩
  · refine ⟨?_, ?_, trivial, ?_, ?_, ?_, trivial⟩
    · exact ⟨by decide +kernel, by decide +kernel, by decide +kernel⟩
    · exact ⟨by decide +kernel, by decide +kernel, by decide +kernel⟩
    · exact ⟨by decide +kernel, by decide +kernel, by decide +kernel⟩
    · exact ⟨by decide +kernel, by decide +kernel⟩
    · exact ⟨by decide +kernel, by decide +kernel, by decide +kernel⟩

namespace MockStores

/-- A search for two slots fills the store, and another one has to evict one of them. -/
def tiedRun : List (ℤ × MockEvent) :=
  [(0, .call (.publish [.sample "b", .sample "a"] "op")), (0, .call (.release "op")),
    (1, .call (.publish [.sample "c"] "op"))]

end MockStores

open MockStores in
/-- In memory the slot that was published first goes, on Redis the first by name. -/
theorem mock_stores_disagree : ¬ ∀ limits s, (mockStoresMachine limits).init s → ∀ steps,
    (mockStoresMachine limits).Runs s steps →
    (mockStoresMachine limits).EachStep (fun s i => s.Agree limits i.1 i.2) s steps := by
  intro h
  obtain ⟨-, -, hlast, -⟩ := h twoSlots (fresh twoSlots) ⟨rfl, rfl⟩ tiedRun
    ⟨⟨by decide, trivial⟩, ⟨by decide, trivial⟩, ⟨by decide, trivial⟩, trivial⟩
  exact absurd (hlast.2 "b") (by decide +kernel)

end Dibs
