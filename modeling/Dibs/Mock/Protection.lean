import Mathlib.Data.Int.Order.Basic
import Dibs.Lib.Machine
import Dibs.Mock.State

/-!
# No double booking and stable replay

What a booking on the mock provider is worth. The four tables expire entries in batches of their own,
so a booking outlives its key's entry nowhere but its slot is kept by the tombstone: `Guarded` says
that an unexpired booking of a key is always matched by a tombstone of the same key on its slot that
lasts as long. Everything else follows from that in one state: `protected` is what every method then
answers about the key and about the slot.
-/

namespace Dibs

/-- One call of a method of the mock provider's state. -/
inductive MockOp
  | publish (candidates : List AvailabilitySlot) (operationId : String)
  | getBooking (key : String)
  | reconcile (key : String)
  | book (slotId key : String) (factory : ConfirmationFactory)
  | release (operationId : String)
  | cleanup (batchSize : ℕ)

namespace MockState

/-- The state that a call leaves. -/
def call (m : MockState) (now : Time) : MockOp → MockState
  | .publish candidates operationId => (m.publishAndFilter candidates operationId now).2
  | .getBooking _ | .reconcile _ => m
  | .book slotId key factory => (m.bookSlot slotId key factory now).2
  | .release operationId => m.releaseOperation operationId
  | .cleanup batchSize => (m.cleanup now batchSize).2

/-- A published slot stands under its own id. -/
def Keyed (slots : Dict String SlotEntry) : Prop :=
  ∀ slotId e, slots.get? slotId = some e → e.slot.slotId = slotId

/-- The tables at an instant, and from then on: an unexpired booking has its slot's tombstone. -/
structure Guarded (m : MockState) (now : Time) : Prop where
  /-- A booking lasts for some time. -/
  retention : 0 < m.retention
  /-- Slots stand under their own ids. -/
  slots : Keyed m.slots
  /-- An unexpired booking is matched by a tombstone of its key that lasts as long. -/
  tombstone : ∀ key b, m.bookings.get? key = some b → now < b.protectedUntil →
    m.tombstones.get? b.confirmation.slot.slotId = some ⟨key, b.protectedUntil⟩

/-- What a method does to a guarded state: it keeps the retention and the slots under their ids, it
keeps every unexpired booking and tombstone. -/
structure Keeps (m m' : MockState) (now : Time) : Prop where
  /-- The retention is configuration. -/
  retention : m'.retention = m.retention
  /-- Slots stay under their own ids. -/
  slots : Keyed m.slots → Keyed m'.slots
  /-- An unexpired booking stays. -/
  bookings : ∀ key b, m.bookings.get? key = some b → now < b.protectedUntil →
    m'.bookings.get? key = some b
  /-- No booking appears. -/
  no_new : ∀ key b, m'.bookings.get? key = some b → m.bookings.get? key = some b
  /-- An unexpired tombstone stays. -/
  tombstones : ∀ slotId t, m.tombstones.get? slotId = some t → now < t.protectedUntil →
    m'.tombstones.get? slotId = some t

/-- What keeps the tables keeps them guarded. -/
theorem Keeps.guarded {m m' : MockState} {now : Time} (h : Keeps m m' now) (hg : m.Guarded now) :
    m'.Guarded now :=
  ⟨h.retention ▸ hg.retention, h.slots hg.slots, fun key b hb hlive =>
    h.tombstones _ _ (hg.tombstone key b (h.no_new key b hb) hlive) hlive⟩

/-- Storing slots under their own ids. -/
theorem Keyed.insert {slots : Dict String SlotEntry} (h : Keyed slots) {slot : AvailabilitySlot}
    {e : SlotEntry} (he : e.slot.slotId = slot.slotId) : Keyed (slots.insert slot.slotId e) := by
  intro slotId e' hget
  rw [Dict.get?_insert] at hget
  split_ifs at hget with hid
  · obtain rfl := Option.some.inj hget
    rw [he, hid]
  · exact h slotId e' hget

/-- Removing slots. -/
theorem Keyed.erase {slots : Dict String SlotEntry} (h : Keyed slots) (slotId : String) :
    Keyed (slots.erase slotId) := by
  intro slotId' e hget
  rw [Dict.get?_erase] at hget
  split_ifs at hget
  exact h slotId' e hget

/-- A due key stands for a due entry. -/
theorem due_of_mem {α : Type} {d : Dict String α} {due : String → α → Bool} {n : ℕ} {k : String}
    (h : k ∈ dueKeys d due n) : ∃ v, d.get? k = some v ∧ due k v = true := by
  obtain ⟨e, he, rfl⟩ := List.mem_map.mp (List.mem_of_mem_take h)
  obtain ⟨he, hdue⟩ := List.mem_filter.mp he
  exact ⟨e.2, d.get?_eq_some_iff.mpr he, hdue⟩

/-- Deleting a batch of due entries leaves every entry that is not due. -/
theorem get?_eraseAll_due {α : Type} {d : Dict String α} {due : String → α → Bool} {n : ℕ}
    {k : String} {v : α} (h : d.get? k = some v) (hdue : due k v = false) :
    (eraseAll d (dueKeys d due n)).get? k = some v := by
  rw [get?_eraseAll, if_neg, h]
  intro hm
  obtain ⟨v', hv', hd'⟩ := due_of_mem hm
  obtain rfl : v = v' := Option.some.inj (h.symm.trans hv')
  simp [hdue] at hd'

/-- `cleanup` deletes expired records and idle slots only. -/
theorem cleanup_keeps (m : MockState) (now : Time) (batchSize : ℕ) :
    Keeps m (m.cleanup now batchSize).2 now := by
  refine ⟨rfl, fun h slotId e hget => ?_, fun key b hb hlive => ?_, fun key b hb => ?_,
    fun slotId t ht hlive => ?_⟩
  · simp only [cleanup, get?_eraseAll] at hget
    split_ifs at hget
    exact h slotId e hget
  · exact get?_eraseAll_due hb (by simpa using hlive)
  · simp only [cleanup, get?_eraseAll] at hb
    split_ifs at hb
    exact hb
  · exact get?_eraseAll_due ht (by simpa using hlive)

/-- `_evict_one` removes one slot. -/
theorem evictOne_eq {m m' : MockState} {exempt : List String} (h : m.evictOne exempt = some m') :
    ∃ slotId, m' = { m with slots := m.slots.erase slotId } := by
  obtain ⟨oldest, -, rfl⟩ := Option.map_eq_some_iff.mp h
  exact ⟨oldest.1, rfl⟩

/-- Whether a slot is protected by an unexpired tombstone. -/
def Buried (m : MockState) (now : Time) (slotId : String) : Prop :=
  ∃ t, m.tombstones.get? slotId = some t ∧ now < t.protectedUntil

/-- What the loop of `publish_and_filter` keeps: only slots change, they stay under their ids, and no
slot in the result is buried. -/
structure PublishInv (m : MockState) (now : Time) (acc : MockState.Published) : Prop where
  /-- Only the slots of the state differ from those at the start. -/
  state : ∃ slots, acc.state = { m with slots := slots } ∧ Keyed slots
  /-- No slot in the result is buried. -/
  result : ∀ slot ∈ acc.result, ¬ m.Buried now slot.slotId

/-- One candidate keeps the loop's invariant. -/
theorem PublishInv.step {m : MockState} {now : Time} {acc : MockState.Published}
    (h : PublishInv m now acc) (slot : AvailabilitySlot) :
    PublishInv m now (publishOne now acc slot) := by
  obtain ⟨slots, hstate, hkeyed⟩ := h.state
  unfold publishOne
  dsimp only
  split
  · exact h
  · rename_i htomb
    have hfree : ¬ m.Buried now slot.slotId := by
      rintro ⟨t, ht, hlive⟩
      rw [hstate] at htomb
      simp [ht, hlive] at htomb
    have happend : ∀ x : AvailabilitySlot, x.slotId = slot.slotId →
        ∀ y ∈ acc.result ++ [x], ¬ m.Buried now y.slotId := by
      intro x hx y hy
      rcases List.mem_append.mp hy with hy | hy
      · exact h.result y hy
      · obtain rfl := List.mem_singleton.mp hy
        rw [hx]
        exact hfree
    split
    · rename_i entry hget
      rw [hstate] at hget
      have hid := hkeyed _ _ hget
      exact ⟨⟨slots.insert slot.slotId { entry with lastTouch := now }, by simp [hstate],
        hkeyed.insert hid⟩, happend _ hid⟩
    · split
      · exact h
      · rename_i m' hroom
        obtain ⟨slots', hm', hkeyed'⟩ : ∃ slots', m' = { m with slots := slots' } ∧ Keyed slots' := by
          split_ifs at hroom
          · obtain ⟨gone, rfl⟩ := evictOne_eq hroom
            exact ⟨_, by rw [hstate], hkeyed.erase gone⟩
          · obtain rfl := Option.some.inj hroom
            exact ⟨slots, hstate, hkeyed⟩
        exact ⟨⟨slots'.insert slot.slotId ⟨slot, now⟩, by simp [hm'], hkeyed'.insert rfl⟩,
          happend _ rfl⟩

/-- `publish_and_filter` keeps the invariant of its loop. -/
theorem publish_inv {m : MockState} (hm : Keyed m.slots) (candidates : List AvailabilitySlot)
    (now : Time) : PublishInv (m.expirePins now) now
      (candidates.foldl (publishOne now) ⟨m.expirePins now, [], []⟩) := by
  have loop : ∀ acc, PublishInv (m.expirePins now) now acc →
      PublishInv (m.expirePins now) now (candidates.foldl (publishOne now) acc) := by
    induction candidates with
    | nil => exact fun acc h => h
    | cons slot candidates ih => exact fun acc h => ih _ (h.step slot)
  exact loop _ ⟨⟨m.slots, rfl, hm⟩, by simp⟩

/-- `publish_and_filter` changes slots and pins only. -/
theorem publish_keeps {m : MockState} (hm : Keyed m.slots) (candidates : List AvailabilitySlot)
    (operationId : String) (now : Time) :
    Keeps m (m.publishAndFilter candidates operationId now).2 now := by
  obtain ⟨slots, hstate, hkeyed⟩ := (publish_inv hm candidates now).state
  unfold publishAndFilter
  dsimp only
  rw [hstate]
  exact ⟨rfl, fun _ => hkeyed, fun _ _ h _ => h, fun _ _ h => h, fun _ _ h _ => h⟩

/-- `publish_and_filter` returns no protected slot. -/
theorem publish_not_buried {m : MockState} (hm : Keyed m.slots) (candidates : List AvailabilitySlot)
    (operationId : String) (now : Time) :
    ∀ slot ∈ (m.publishAndFilter candidates operationId now).1, ¬ m.Buried now slot.slotId :=
  (publish_inv hm candidates now).result

/-- `book_slot` replays an unexpired booking of the key, or refuses, or stores a new booking with its
tombstone on a slot that no other key protects. -/
theorem bookSlot_cases (m : MockState) (slotId key : String) (factory : ConfirmationFactory)
    (now : Time) :
    (∃ b, m.bookings.get? key = some b ∧ now < b.protectedUntil ∧
      m.bookSlot slotId key factory now = (.ok b.confirmation, m)) ∨
    ((∀ b, m.bookings.get? key = some b → b.protectedUntil ≤ now) ∧
      ((∃ error, m.bookSlot slotId key factory now = (.error error, m)) ∨
      ∃ entry, m.slots.get? slotId = some entry ∧
        (∀ t, m.tombstones.get? slotId = some t → now < t.protectedUntil → t.key = key) ∧
        m.bookSlot slotId key factory now = (.ok (factory.build entry.slot), { m with
          bookings := m.bookings.insert key ⟨factory.build entry.slot, now + m.retention⟩
          tombstones := m.tombstones.insert slotId ⟨key, now + m.retention⟩
          slots := m.slots.erase slotId
          pins := m.pins.erase slotId }))) := by
  unfold bookSlot
  split
  · rename_i existing hf
    obtain ⟨hget, hlive⟩ := Option.filter_eq_some_iff.mp hf
    exact .inl ⟨existing, hget, by simpa using hlive, rfl⟩
  · rename_i hf
    refine .inr ⟨fun b hb => ?_, ?_⟩
    · simpa [hb, Option.filter] using hf
    · split_ifs with htomb
      · exact .inl ⟨_, rfl⟩
      · split
        · exact .inl ⟨_, rfl⟩
        · rename_i entry hget
          refine .inr ⟨entry, hget, fun t ht hlive => ?_, rfl⟩
          simpa [ht, hlive] using htomb

/-- Every method keeps the tables guarded, and every unexpired booking. -/
theorem Guarded.call {m : MockState} {now : Time} (h : m.Guarded now) (op : MockOp) :
    (m.call now op).Guarded now ∧ ∀ key b, m.bookings.get? key = some b → now < b.protectedUntil →
      (m.call now op).bookings.get? key = some b := by
  have keeps : ∀ {m'}, Keeps m m' now → m'.Guarded now ∧ ∀ key b, m.bookings.get? key = some b →
      now < b.protectedUntil → m'.bookings.get? key = some b :=
    fun hk => ⟨hk.guarded h, hk.bookings⟩
  cases op with
  | publish candidates operationId => exact keeps (publish_keeps h.slots candidates operationId now)
  | getBooking key | reconcile key => exact ⟨h, fun _ _ hb _ => hb⟩
  | release operationId =>
    exact keeps ⟨rfl, id, fun _ _ hb _ => hb, fun _ _ hb => hb, fun _ _ ht _ => ht⟩
  | cleanup batchSize => exact keeps (cleanup_keeps m now batchSize)
  | book slotId key factory =>
    change (m.bookSlot slotId key factory now).2.Guarded now ∧ ∀ key' b, _ → _ →
      (m.bookSlot slotId key factory now).2.bookings.get? key' = some b
    rcases bookSlot_cases m slotId key factory now with
      ⟨b, -, -, he⟩ | ⟨hexp, ⟨error, he⟩ | ⟨entry, hget, htomb, he⟩⟩ <;> rw [he]
    · exact ⟨h, fun _ _ hb _ => hb⟩
    · exact ⟨h, fun _ _ hb _ => hb⟩
    · have hslot : (factory.build entry.slot).slot.slotId = slotId := by
        rw [factory.slot_eq]
        exact h.slots slotId entry hget
      refine ⟨⟨h.retention, h.slots.erase slotId, fun key' b hb hlive => ?_⟩,
        fun key' b hb hlive => ?_⟩
      · simp only [Dict.get?_insert] at hb ⊢
        split_ifs at hb with hkey
        · obtain rfl := Option.some.inj hb
          rw [if_pos hslot.symm, hkey]
        · have ht := h.tombstone key' b hb hlive
          rw [if_neg]
          · exact ht
          · rintro rfl
            exact hkey (htomb _ ht hlive).symm
      · simp only [Dict.get?_insert]
        rw [if_neg]
        · exact hb
        · rintro rfl
          exact absurd (hexp b hb) (not_le.mpr hlive)

/-- The retention is configuration. -/
theorem Guarded.call_retention {m : MockState} {now : Time} (h : m.Guarded now) (op : MockOp) :
    (m.call now op).retention = m.retention := by
  cases op with
  | getBooking | reconcile | release => rfl
  | publish candidates operationId => exact (publish_keeps h.slots candidates operationId now).retention
  | cleanup batchSize => exact (cleanup_keeps m now batchSize).retention
  | book slotId key factory =>
    change (m.bookSlot slotId key factory now).2.retention = m.retention
    rcases bookSlot_cases m slotId key factory now with
      ⟨_, -, -, he⟩ | ⟨-, ⟨error, he⟩ | ⟨entry, -, -, he⟩⟩ <;> rw [he]

/-- The clock may move. -/
theorem Guarded.mono {m : MockState} {now now' : Time} (h : m.Guarded now) (hn : now ≤ now') :
    m.Guarded now' :=
  ⟨h.retention, h.slots, fun key b hb hlive => h.tombstone key b hb (lt_of_le_of_lt hn hlive)⟩

end MockState

/-- The state of a run of the mock provider, and the instant of its last call. -/
structure MockRun where
  state : MockState
  now : Time

/-- The machine of a mock provider, empty at first, whose calls come at non-decreasing instants. -/
def mockMachine : Machine MockRun (Time × MockOp) where
  init s := ∃ capacity idleTtl retention pin, 0 < retention ∧
    s.state = .empty capacity idleTtl retention pin
  allowed s i := s.now ≤ i.1
  exec i s := ⟨s.state.call i.1 i.2, i.1⟩

instance (s : MockRun) : DecidablePred (mockMachine.allowed s) := fun i =>
  inferInstanceAs (Decidable (s.now ≤ i.1))

namespace MockRun

/-- In every reachable state the tables are guarded. -/
theorem guarded {s : MockRun} (h : mockMachine.Reach s) : s.state.Guarded s.now := by
  refine h.invariant (P := fun s => s.state.Guarded s.now) ?_ ?_
  · rintro s ⟨capacity, idleTtl, retention, pin, hpos, hs⟩
    rw [hs]
    exact ⟨hpos, fun _ _ h => by simp [MockState.empty] at h, fun _ _ h => by simp [MockState.empty] at h⟩
  · intro s i _ hg ha
    exact ((hg.mono ha).call i.2).1

/-- An unexpired booking stays until it expires. -/
theorem booking_later {s s' : MockRun} (h : mockMachine.Reach s) (hl : mockMachine.Later s s')
    {key : String} {b : Booking} (hb : s.state.bookings.get? key = some b)
    (hlive : s'.now < b.protectedUntil) : s'.state.bookings.get? key = some b := by
  refine (hl.stable (P := fun s => s.now < b.protectedUntil → s.state.bookings.get? key = some b)
    ?_ h fun _ => hb) hlive
  intro s i hr ih (ha : s.now ≤ i.1) hlive
  have hnow : i.1 < b.protectedUntil := hlive
  exact (((guarded hr).mono ha).call i.2).2 key b (ih (lt_of_le_of_lt ha hnow)) hnow

end MockRun

namespace MockState

/-- What a key's protected confirmation is worth at an instant: the key gets it from every method,
whatever it asks for, a search returns its slot to nobody, and another key that holds no booking of
its own is refused the slot. -/
structure Protects (m : MockState) (now : Time) (key : String) (c : BookingConfirmation) : Prop where
  /-- `book_slot` with the key replays it. -/
  book : ∀ slotId factory, (m.bookSlot slotId key factory now).1 = .ok c
  /-- `get_booking` returns it. -/
  getBooking : m.getBooking key now = some c
  /-- `reconcile_booking` confirms it. -/
  reconcile : m.reconcileBooking key now = .confirmed c
  /-- No search returns its slot. -/
  publish : ∀ candidates operationId, ∀ slot ∈ (m.publishAndFilter candidates operationId now).1,
    slot.slotId ≠ c.slot.slotId
  /-- Another key that holds no booking is refused its slot. -/
  refuse : ∀ key' factory, key' ≠ key → m.getBooking key' now = none →
    (m.bookSlot c.slot.slotId key' factory now).1 =
      .error (.slotUnavailable ("Mock slot is already booked: " ++ c.slot.slotId))

/-- A key has a booking exactly when its table has an unexpired one. -/
theorem getBooking_eq_some_iff (m : MockState) (key : String) (now : Time)
    (c : BookingConfirmation) : m.getBooking key now = some c ↔
      ∃ b, m.bookings.get? key = some b ∧ now < b.protectedUntil ∧ b.confirmation = c := by
  unfold MockState.getBooking
  cases hb : m.bookings.get? key with
  | none => simp
  | some b =>
    by_cases h : b.protectedUntil ≤ now
    · simp [h, not_lt.mpr h]
    · simp [h, not_le.mp h]

/-- In guarded tables an unexpired booking protects its confirmation. -/
theorem Guarded.protects {m : MockState} {now : Time} (h : m.Guarded now) {key : String} {b : Booking}
    (hb : m.bookings.get? key = some b) (hlive : now < b.protectedUntil) :
    m.Protects now key b.confirmation := by
  have ht := h.tombstone key b hb hlive
  refine ⟨fun slotId factory => ?_, ?_, ?_, fun candidates operationId slot hs heq => ?_,
    fun key' factory hne hnone => ?_⟩
  · rcases bookSlot_cases m slotId key factory now with ⟨b', hb', -, he⟩ | ⟨hexp, -⟩
    · obtain rfl : b = b' := Option.some.inj (hb.symm.trans hb')
      rw [he]
    · exact absurd (hexp b hb) (not_le.mpr hlive)
  · exact (getBooking_eq_some_iff m key now _).mpr ⟨b, hb, hlive, rfl⟩
  · simp [reconcileBooking, hb, hlive]
  · exact publish_not_buried h.slots candidates operationId now slot hs ⟨_, heq ▸ ht, hlive⟩
  · have hf : (m.bookings.get? key').filter (fun existing => decide (now < existing.protectedUntil)) =
        none := by
      cases hb' : m.bookings.get? key' with
      | none => rfl
      | some b' =>
        have hn : ¬ now < b'.protectedUntil := fun hlt =>
          absurd ((getBooking_eq_some_iff m key' now _).mpr ⟨b', hb', hlt, rfl⟩) (by simp [hnone])
        simp [Option.filter, hn]
    simp [bookSlot, hf, ht, hlive, Ne.symm hne]

end MockState

/-- No double booking and stable replay on the mock provider. For every trace of calls at
non-decreasing instants: no two keys hold unexpired confirmations for one slot, and from the moment
`book_slot` returns a confirmation to a key until the key's recorded protection ends, a full
retention later when the booking is new, the confirmation is protected at every instant, whatever is
called in between. -/
theorem mock_bookings_protected {s : MockRun} (h : mockMachine.Reach s) (now : Time)
    (hnow : s.now ≤ now) :
    (∀ key key' c c', s.state.getBooking key now = some c → s.state.getBooking key' now = some c' →
      c.slot.slotId = c'.slot.slotId → key = key') ∧
    (∀ slotId key factory c, (s.state.bookSlot slotId key factory now).1 = .ok c →
      ∃ ends, (s.state.getBooking key now = none → ends = now + s.state.retention) ∧
        now < ends ∧ ∀ s', mockMachine.Later ⟨(s.state.bookSlot slotId key factory now).2, now⟩ s' →
          ∀ later, s'.now ≤ later → later < ends → s'.state.Protects later key c) := by
  have hg := (MockRun.guarded h).mono hnow
  refine ⟨fun key key' c c' hc hc' hslot => ?_, fun slotId key factory c hok => ?_⟩
  · obtain ⟨b, hb, hlive, rfl⟩ := (MockState.getBooking_eq_some_iff _ _ _ _).mp hc
    obtain ⟨b', hb', hlive', rfl⟩ := (MockState.getBooking_eq_some_iff _ _ _ _).mp hc'
    have ht := hg.tombstone key b hb hlive
    rw [hslot, hg.tombstone key' b' hb' hlive'] at ht
    exact (congrArg Tombstone.key (Option.some.inj ht)).symm
  · obtain ⟨b, hb, hlive, rfl, hnew⟩ : ∃ b,
        (s.state.bookSlot slotId key factory now).2.bookings.get? key = some b ∧
          now < b.protectedUntil ∧ b.confirmation = c ∧
          (s.state.getBooking key now = none → b.protectedUntil = now + s.state.retention) := by
      rcases s.state.bookSlot_cases slotId key factory now with
        ⟨b, hb, hlive, he⟩ | ⟨-, ⟨error, he⟩ | ⟨entry, -, -, he⟩⟩ <;> rw [he] at hok ⊢
      · refine ⟨b, hb, hlive, by simpa using hok, fun hnone => ?_⟩
        have hsome := (s.state.getBooking_eq_some_iff key now b.confirmation).mpr ⟨b, hb, hlive, rfl⟩
        exact absurd (hnone.symm.trans hsome) (by simp)
      · simp at hok
      · have hpos := hg.retention
        exact ⟨_, Dict.get?_insert_self _ _ _, Int.lt_add_of_pos_right now hpos, by simpa using hok,
          fun _ => rfl⟩
    refine ⟨b.protectedUntil, hnew, hlive, fun s' hl later hs' hlater => ?_⟩
    have hr : mockMachine.Reach ⟨(s.state.bookSlot slotId key factory now).2, now⟩ :=
      h.step (M := mockMachine) (now, .book slotId key factory) hnow
    have hb' := MockRun.booking_later hr hl hb (lt_of_le_of_lt hs' hlater)
    exact ((MockRun.guarded (hr.later hl)).mono hs').protects hb' hlater

/-- The provider after a search that found two slots. -/
def searched : MockRun :=
  mockMachine.final ⟨.empty 8 10 100 5, 0⟩ [(0, .publish [.sample "s1", .sample "s2"] "op")]

/-- The provider after a search that found two slots is reachable. -/
theorem searched_reach : mockMachine.Reach searched := by
  have h0 : mockMachine.Reach ⟨.empty 8 10 100 5, 0⟩ := .init ⟨8, 10, 100, 5, by decide, rfl⟩
  exact h0.final (by decide)

/-- The provider after one key has booked the first slot. -/
def booked : MockRun := mockMachine.exec (1, .book "s1" "a" (.mock "A" 1)) searched

/-- The provider after another key has booked the second slot. -/
def bookedTwice : MockRun := mockMachine.exec (2, .book "s2" "b" (.mock "B" 2)) booked

/-- The first key's confirmation is protected while and after the other key books. -/
theorem mock_bookings_protected_booked : ∃ ends, 1 < ends ∧ ∀ later, 2 ≤ later → later < ends →
    bookedTwice.state.Protects later "a" ⟨"A", "mock", .mockConfirmed, .sample "s1", 1⟩ := by
  have hb : (searched.state.bookSlot "s1" "a" (.mock "A" 1) 1).1 =
      .ok ⟨"A", "mock", .mockConfirmed, .sample "s1", 1⟩ := rfl
  obtain ⟨ends, -, hlive, hp⟩ :=
    (mock_bookings_protected searched_reach 1 (by decide)).2 "s1" "a" (.mock "A" 1) _ hb
  refine ⟨ends, hlive, fun later hle hlt => hp bookedTwice (.single ?_) later hle hlt⟩
  exact ⟨(2, .book "s2" "b" (.mock "B" 2)), by decide, rfl⟩

/-- A key that holds a booking of its own is not refused another key's slot: it gets its own
confirmation back. -/
theorem mock_other_key_not_refused : ¬ ∀ s, mockMachine.Reach s → ∀ now, s.now ≤ now →
    ∀ key key' c factory, s.state.getBooking key now = some c → key' ≠ key →
      ∃ message, (s.state.bookSlot c.slot.slotId key' factory now).1 =
        .error (.slotUnavailable message) := by
  intro h
  have hr : mockMachine.Reach bookedTwice :=
    (searched_reach.step (M := mockMachine) (1, .book "s1" "a" (.mock "A" 1)) (by decide)).step
      (M := mockMachine) (2, .book "s2" "b" (.mock "B" 2)) (by decide)
  have hc : bookedTwice.state.getBooking "a" 3 = some ⟨"A", "mock", .mockConfirmed, .sample "s1", 1⟩ := by
    decide +kernel
  have hb : (bookedTwice.state.bookSlot "s1" "b" (.mock "B" 3) 3).1 =
      .ok ⟨"B", "mock", .mockConfirmed, .sample "s2", 2⟩ := rfl
  obtain ⟨message, he⟩ := h bookedTwice hr 3 (by decide) "a" "b" _ (.mock "B" 3) hc (by decide)
  exact absurd (hb.symm.trans he) (by simp)

end Dibs
