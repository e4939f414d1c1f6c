import Dibs.Mock.Choices
import Dibs.Mock.Repository

/-!
# The slots of the mock provider in both stores

`SlotsAgree` relates the slots of `InMemoryMockBookingStateRepository` to the keys of
`RedisMockBookingStateRepository` at an instant: for each slot, once pins that have lapsed are dropped on
both sides, the same keys. Each method keeps the relation as long as both stores choose the same slots.

In memory the pins of a publication come last, on Redis each comes with its slot: `Published.finish` is
the state in memory as if the publication ended at a candidate, and `PublishAgrees` compares that.
-/

namespace Dibs

open Function (update)

/-- The slots of the two stores at an instant, and what the choice among them depends on. -/
structure SlotsAgree (limits : MockLimits) (now : ℤ) (m : MockState) (db : MockDb) : Prop where
  capacity : m.capacity = limits.capacity
  idleTtl : m.idleTtl = ofMillis limits.idleTtlMs
  pin : m.pin = ofMillis limits.pinMs
  whole : m.WholeSlots
  keys : ∀ sid, (db.slotKeys sid).settle now = (m.slotKeys sid).settle now
  indexed : db.Indexed
  pins : db.PinsListed limits.pinMs now

namespace SlotsAgree

variable {limits : MockLimits} {now : ℤ} {m : MockState} {db : MockDb}

theorem mono (h : SlotsAgree limits now m db) {later : ℤ} (hle : now ≤ later) :
    SlotsAgree limits later m db :=
  { h with
    keys := fun sid => by
      rw [← SlotKeys.settle_settle hle, h.keys sid, SlotKeys.settle_settle hle]
    pins := h.pins.mono hle }

/-- The stores have the same slots, with the same documents. -/
theorem doc (h : SlotsAgree limits now m db) (sid : String) :
    db.slots.get? sid = (m.slots.get? sid).map SlotEntry.slot := by
  have hdoc := congrArg SlotKeys.doc (h.keys sid)
  rwa [SlotKeys.settle_doc, SlotKeys.settle_doc, MockState.slotKeys_doc] at hdoc

end SlotsAgree

/-- The two publications so far. -/
structure PublishAgrees (limits : MockLimits) (now : ℤ) (operation : String) (acc : MockState.Published)
    (acc' : MockDb.Publication) : Prop where
  capacity : acc.state.capacity = limits.capacity
  touch : ∀ sid entry, acc.state.slots.get? sid = some entry → Time.Whole entry.lastTouch
  live : ∀ sid pin, acc.state.pins.get? sid = some pin → ofMillis now < pin.expiresAt
  keys : ∀ sid, acc'.db.slotKeys sid =
    (acc.finish ⟨operation, ofMillis (now + limits.pinMs)⟩).slotKeys sid
  pins : acc'.db.PinsListed limits.pinMs now
  result : acc'.result = acc.result

namespace PublishAgrees

variable {limits : MockLimits} {now : ℤ} {operation : String} {acc : MockState.Published}
  {acc' : MockDb.Publication}

theorem indexed (h : PublishAgrees limits now operation acc acc') : acc'.db.Indexed := by
  intro sid
  rw [h.keys sid]
  exact MockState.slotKeys_sound _ sid

/-- The eviction index holds the slots that are not exempt, by when they were last asked for. -/
theorem lru_eq_some_iff (h : PublishAgrees limits now operation acc acc') (sid : String) (touched : ℤ) :
    acc'.db.lru.get? sid = some touched ↔ ∃ entry, acc.state.slots.get? sid = some entry ∧
      sid ∉ acc.state.pinnedIds (ofMillis now) ++ acc.admitted ∧ millis entry.lastTouch = touched := by
  have hidle : acc'.db.lru.get? sid = ((acc.finish ⟨operation, ofMillis (now + limits.pinMs)⟩).slotKeys
      sid).idle := congrArg SlotKeys.idle (h.keys sid)
  rw [hidle, MockState.idle_eq_some_iff, MockState.mem_exempt_iff h.live
    ⟨operation, ofMillis (now + limits.pinMs)⟩]
  simp only [Option.not_isSome_iff_eq_none]
  rfl

/-- The stores count as many slots. -/
theorem size_eq (h : PublishAgrees limits now operation acc acc') :
    acc.state.slots.size = acc'.db.all.size := by
  refine Dict.size_eq_of_keys fun sid => ?_
  rw [h.indexed.all_iff sid]
  have hdoc : acc'.db.slots.get? sid = ((acc.finish ⟨operation, ofMillis (now + limits.pinMs)⟩).slotKeys
      sid).doc := congrArg SlotKeys.doc (h.keys sid)
  rw [hdoc, MockState.slotKeys_doc, Option.isSome_map]
  rfl

/-- The stores evict the same slot where ties go by name. -/
theorem evict (h : PublishAgrees limits now operation acc acc')
    (hties : acc.state.TiesByName (acc.state.pinnedIds (ofMillis now) ++ acc.admitted)) :
    (acc.state.evictOne (acc.state.pinnedIds (ofMillis now) ++ acc.admitted) = none ∧
      acc'.db.evictOldest = none) ∨
    ∃ victim, acc.state.evictOne (acc.state.pinnedIds (ofMillis now) ++ acc.admitted) =
        some { acc.state with slots := acc.state.slots.erase victim } ∧
      acc'.db.evictOldest = some (acc'.db.dropSlot victim) ∧
      PublishAgrees limits now operation
        { acc with state := { acc.state with slots := acc.state.slots.erase victim } }
        { acc' with db := acc'.db.dropSlot victim } := by
  have hfound := MockState.oldestOf_foldl (acc.state.pinnedIds (ofMillis now) ++ acc.admitted)
    acc.state.slots.entries
  unfold MockState.evictOne MockDb.evictOldest
  cases holdest : acc.state.slots.entries.foldl
      (MockState.olderOf (acc.state.pinnedIds (ofMillis now) ++ acc.admitted)) none with
  | none =>
    rw [holdest] at hfound
    refine .inl ⟨rfl, ?_⟩
    rw [Option.map_eq_none_iff, Dict.first_eq_none_iff]
    intro sid
    rw [Option.eq_none_iff_forall_ne_some]
    intro touched hlru
    obtain ⟨entry, hentry, hfree, -⟩ := (h.lru_eq_some_iff sid touched).mp hlru
    exact hfree (hfound _ ((acc.state.slots.get?_eq_some_iff).mp hentry))
  | some oldest =>
    obtain ⟨victim, touch⟩ := oldest
    rw [holdest] at hfound
    obtain ⟨⟨⟨sid, entry⟩, hentry, rfl, hfree, rfl⟩, hleast⟩ := hfound
    have hslot : acc.state.slots.get? sid = some entry := (acc.state.slots.get?_eq_some_iff).mpr hentry
    have hlru := (h.lru_eq_some_iff sid _).mpr ⟨entry, hslot, hfree, rfl⟩
    -- The first member of the index was untouched as long, so its name decides.
    have hfirst : acc'.db.lru.first = some sid := by
      cases hfirst : acc'.db.lru.first with
      | none =>
        rw [(Dict.first_eq_none_iff _).mp hfirst sid] at hlru
        contradiction
      | some first =>
        obtain ⟨touched, htouched, hlowest⟩ := acc'.db.lru.first_eq_some hfirst
        obtain ⟨entry', hslot', hfree', rfl⟩ := (h.lru_eq_some_iff first touched).mp htouched
        have hle : millis entry.lastTouch ≤ millis entry'.lastTouch :=
          millis_mono (hleast (first, entry') ((acc.state.slots.get?_eq_some_iff).mp hslot') hfree')
        rcases Prod.Lex.toLex_le_toLex.mp (hlowest sid _ hlru) with hlt | ⟨heq, hname⟩
        · exact absurd hlt (not_lt.mpr hle)
        · have htouch : entry'.lastTouch = entry.lastTouch := by
            rw [← h.touch first entry' hslot', ← h.touch sid entry hslot]
            exact congrArg ofMillis heq
          have hname' := hties _ holdest _ ((acc.state.slots.get?_eq_some_iff).mp hslot') hfree' htouch
          exact congrArg some (le_antisymm hname hname')
    refine .inr ⟨sid, rfl, by rw [hfirst, Option.map_some], ?_⟩
    have hvictim : acc'.db.slotKeys sid = .evictable entry.slot (millis entry.lastTouch) := by
      rw [h.keys sid]
      exact MockState.slotKeys_evictable hslot ((MockState.mem_exempt_iff h.live _ sid).not.mp hfree)
    have hkeys : (acc'.db.dropSlot sid).slotKeys = update acc'.db.slotKeys sid .absent := by
      rw [MockDb.slotKeys_dropSlot, hvictim]
      rfl
    exact {
      capacity := h.capacity
      touch := fun v entry hv => by
        change (acc.state.slots.erase sid).get? v = some entry at hv
        rw [Dict.get?_erase] at hv
        split_ifs at hv
        exact h.touch v entry hv
      live := h.live
      keys := fun v => by
        rw [hkeys, MockState.slotKeys_finish_erase, funext h.keys]
      pins := h.pins.update hkeys (fun _ _ _ _ _ _ hmem => hmem) (fun _ _ howner => by contradiction)
        fun _ hlapses => by contradiction
      result := h.result }

/-- The stores have the same slots. -/
theorem doc (h : PublishAgrees limits now operation acc acc') (sid : String) :
    acc'.db.slots.get? sid = (acc.state.slots.get? sid).map SlotEntry.slot := by
  have hdoc := congrArg SlotKeys.doc (h.keys sid)
  rwa [MockState.slotKeys_doc] at hdoc

/-- Both stores admit a slot: its document and its score are there, and it is pinned. -/
theorem admitted (h : PublishAgrees limits now operation acc acc') {sid : String} {doc : AvailabilitySlot}
    {db : MockDb} {k : SlotKeys}
    (hdb : db.slotKeys = update acc'.db.slotKeys sid (k.touch now)) (hdoc : k.doc = some doc)
    (howner : k.owner = (acc'.db.slotKeys sid).owner) (hlapses : k.lapses = (acc'.db.slotKeys sid).lapses)
    (hlisted : ∀ owner, db.listed owner = acc'.db.listed owner) :
    PublishAgrees limits now operation
      ⟨{ acc.state with slots := acc.state.slots.insert sid ⟨doc, ofMillis now⟩ }, acc.admitted.insert sid,
        acc.result ++ [doc]⟩
      ⟨MockDb.pinSlot operation now limits.pinMs db sid, acc'.result ++ [doc]⟩ where
  capacity := h.capacity
  touch v entry hv := by
    change (acc.state.slots.insert sid ⟨doc, ofMillis now⟩).get? v = some entry at hv
    rw [Dict.get?_insert] at hv
    split_ifs at hv
    · rw [← Option.some.inj hv]
      exact whole_ofMillis now
    · exact h.touch v entry hv
  live := h.live
  keys v := by
    have hkeys := MockDb.slotKeys_pinSlot operation now limits.pinMs db sid
    rw [hdb, Function.update_self, Function.update_idem, SlotKeys.touch_pin hdoc] at hkeys
    change (MockDb.pinSlot operation now limits.pinMs db sid).slotKeys v = _
    rw [hkeys, MockState.slotKeys_finish_admit, funext h.keys, millis_ofMillis, millis_ofMillis]
  pins := by
    have hpins : db.PinsListed limits.pinMs now := by
      refine h.pins.update hdb (fun v owner _ _ _ _ hmem => ?_) ?_ ?_
      · rwa [hlisted]
      · intro owner lapses ho hl hlive
        rw [hlisted]
        exact h.pins.listed sid owner lapses (howner ▸ ho) (hlapses ▸ hl) hlive
      · intro lapses hl
        exact h.pins.bound sid lapses (hlapses ▸ hl)
    exact hpins.pinSlot operation sid
  result := by rw [h.result]

/-- One candidate. -/
theorem one (h : PublishAgrees limits now operation acc acc') (slot : AvailabilitySlot)
    (hburied : acc'.db.buried slot.slotId now = some ((acc.state.tombstones.get? slot.slotId).any
      fun tomb => decide (ofMillis now < tomb.protectedUntil)))
    (hties : MockState.NeedsRoom (ofMillis now) acc slot →
      acc.state.TiesByName (acc.state.pinnedIds (ofMillis now) ++ acc.admitted)) :
    ∃ next, MockDb.publishOne operation now limits.pinMs limits.capacity acc' slot = some next ∧
      PublishAgrees limits now operation (MockState.publishOne (ofMillis now) acc slot) next := by
  unfold MockDb.publishOne MockState.publishOne
  dsimp only
  rw [hburied]
  cases htomb : (acc.state.tombstones.get? slot.slotId).any
      fun tomb => decide (ofMillis now < tomb.protectedUntil) with
  | true => exact ⟨acc', rfl, h⟩
  | false =>
    have hdoc := h.doc slot.slotId
    cases hslot : acc.state.slots.get? slot.slotId with
    | some entry =>
      rw [hslot, Option.map_some] at hdoc
      rw [hdoc]
      refine ⟨_, rfl, ?_⟩
      exact h.admitted (acc'.db.slotKeys_touch slot.slotId now) hdoc rfl rfl fun _ => rfl
    | none =>
      rw [hslot, Option.map_none] at hdoc
      rw [hdoc, ← h.size_eq, h.capacity]
      -- Where the store is full, both evict the same slot, or none.
      by_cases hfull : limits.capacity ≤ acc.state.slots.size
      · simp only [if_pos hfull]
        rcases h.evict (hties ⟨htomb, hslot, h.capacity ▸ hfull⟩) with ⟨hmemory, hredis⟩ |
          ⟨victim, hmemory, hredis, hroom⟩
        · rw [hmemory, hredis]
          exact ⟨acc', rfl, h⟩
        · rw [hmemory, hredis]
          refine ⟨_, rfl, ?_⟩
          exact hroom.admitted (MockDb.slotKeys_store (acc'.db.dropSlot victim) slot now) rfl rfl rfl fun _ => rfl
      · simp only [if_neg hfull]
        refine ⟨_, rfl, ?_⟩
        exact h.admitted (MockDb.slotKeys_store acc'.db slot now) rfl rfl rfl fun _ => rfl

/-- The loop over the candidates. -/
theorem loop (h : PublishAgrees limits now operation acc acc') (candidates : List AvailabilitySlot)
    (hburied : ∀ slot ∈ candidates, acc'.db.buried slot.slotId now =
      some ((acc.state.tombstones.get? slot.slotId).any
        fun tomb => decide (ofMillis now < tomb.protectedUntil)))
    (hties : MockState.PublishTies (ofMillis now) candidates acc) :
    ∃ next : MockDb.Publication,
      MockDb.publishLoop operation now limits.pinMs limits.capacity candidates acc' =
        (some next.result, next.db) ∧
      PublishAgrees limits now operation (candidates.foldl (MockState.publishOne (ofMillis now)) acc) next := by
  induction candidates generalizing acc acc' with
  | nil => exact ⟨acc', rfl, h⟩
  | cons slot rest ih =>
    obtain ⟨hslot, hrest⟩ := List.forall_mem_cons.mp hburied
    obtain ⟨next, hnext, hagrees⟩ := h.one slot hslot hties.1
    -- Neither store's tombstones change.
    obtain ⟨slots, hstate⟩ := MockState.publishOne_state (ofMillis now) acc slot
    have hrecords := MockDb.records_publishOne hnext
    have hburied' : ∀ slot' ∈ rest, next.db.buried slot'.slotId now =
        some (((MockState.publishOne (ofMillis now) acc slot).state.tombstones.get? slot'.slotId).any
          fun tomb => decide (ofMillis now < tomb.protectedUntil)) := by
      intro slot' hslot'
      rw [hstate, MockDb.buried_of_records hrecords]
      exact hrest slot' hslot'
    obtain ⟨last, hlast, hlastAgrees⟩ := ih hagrees hburied' hties.2
    refine ⟨last, ?_, hlastAgrees⟩
    rw [MockDb.publishLoop, hnext]
    exact hlast

end PublishAgrees

namespace SlotsAgree

variable {limits : MockLimits} {now : ℤ} {m : MockState} {db : MockDb}

/-- Once the lapsed pins are dropped on both sides, the keys of every slot are the same. -/
theorem reconcile (h : SlotsAgree limits now m db) (sid : String) :
    (db.reconcilePins now).slotKeys sid = (m.expirePins (ofMillis now)).slotKeys sid := by
  rw [MockState.slotKeys_expirePins h.whole, ← h.keys sid]
  exact db.slotKeys_reconcilePins now sid

/-- After the lapsed pins are dropped, the others are live. -/
theorem live_expirePins (m : MockState) (now : Time) (sid : String) (pin : Pin)
    (hpin : (m.expirePins now).pins.get? sid = some pin) : now < pin.expiresAt := by
  change (m.pins.filter _).get? sid = some pin at hpin
  rw [Dict.get?_filter] at hpin
  simpa using (Option.filter_eq_some_iff.mp hpin).2

/-- The instants of the pins that have not lapsed are whole. -/
theorem whole_expirePins (h : SlotsAgree limits now m db) :
    (m.expirePins (ofMillis now)).WholeSlots where
  touch := h.whole.touch
  pin sid pin hpin := by
    change (m.pins.filter _).get? sid = some pin at hpin
    rw [Dict.get?_filter] at hpin
    exact h.whole.pin sid pin (Option.filter_eq_some_iff.mp hpin).1

/-- Both stores publish the same slots where ties go by name. -/
theorem publish (h : SlotsAgree limits now m db) (operation : String)
    (candidates : List AvailabilitySlot)
    (hburied : ∀ slot ∈ candidates, db.buried slot.slotId now =
      some ((m.tombstones.get? slot.slotId).any fun tomb => decide (ofMillis now < tomb.protectedUntil)))
    (hties : MockState.PublishTies (ofMillis now) candidates ⟨m.expirePins (ofMillis now), [], []⟩) :
    (db.publishScript operation now limits.pinMs limits.capacity candidates).1 =
        some (m.publishAndFilter candidates operation (ofMillis now)).1 ∧
      SlotsAgree limits now (m.publishAndFilter candidates operation (ofMillis now)).2
        (db.publishScript operation now limits.pinMs limits.capacity candidates).2 := by
  have hbegin : PublishAgrees limits now operation ⟨m.expirePins (ofMillis now), [], []⟩
      ⟨db.reconcilePins now, []⟩ := {
    capacity := h.capacity
    touch := h.whole.touch
    live := live_expirePins m (ofMillis now)
    keys := h.reconcile
    pins := h.pins.reconcilePins
    result := rfl }
  have hburied' : ∀ slot ∈ candidates, (db.reconcilePins now).buried slot.slotId now =
      some ((m.tombstones.get? slot.slotId).any fun tomb => decide (ofMillis now < tomb.protectedUntil)) := by
    intro slot hslot
    rw [MockDb.buried_of_records (MockDb.records_of_rest (db.rest_reconcilePins now))]
    exact hburied slot hslot
  obtain ⟨last, hlast, hagrees⟩ := hbegin.loop candidates hburied' hties
  obtain ⟨slots, hstate⟩ := MockState.publish_state (ofMillis now) candidates
    ⟨m.expirePins (ofMillis now), [], []⟩
  have hpublish : db.publishScript operation now limits.pinMs limits.capacity candidates =
      (some last.result, last.db) := hlast
  have hfinish : (m.publishAndFilter candidates operation (ofMillis now)).2 =
      (candidates.foldl (MockState.publishOne (ofMillis now)) ⟨m.expirePins (ofMillis now), [], []⟩).finish
        ⟨operation, ofMillis (now + limits.pinMs)⟩ := by
    rw [← ofMillis_add, ← h.pin]
    rfl
  rw [hpublish]
  refine ⟨congrArg some hagrees.result, ?_⟩
  rw [hfinish]
  exact {
    capacity := hagrees.capacity
    idleTtl := (congrArg MockState.idleTtl hstate).trans h.idleTtl
    pin := (congrArg MockState.pin hstate).trans h.pin
    whole := {
      touch := hagrees.touch
      pin := fun sid pin hpin => by
        simp only [MockState.Published.finish, MockState.get?_foldl_insert] at hpin
        split_ifs at hpin
        · rw [← Option.some.inj hpin]
          exact whole_ofMillis _
        · rw [hstate] at hpin
          exact h.whole_expirePins.pin sid pin hpin }
    keys := fun sid => congrArg (SlotKeys.settle now) (hagrees.keys sid)
    indexed := hagrees.indexed
    pins := hagrees.pins }

/-- A booking removes the slot from both stores. -/
theorem book (h : SlotsAgree limits now m db) (bookings : Dict String Booking)
    (tombstones : Dict String Tombstone) (sid key : String) (conf : Option BookingConfirmation)
    (protectedMs : ℤ) :
    SlotsAgree limits now
      { m with
        bookings := bookings
        tombstones := tombstones
        slots := m.slots.erase sid
        pins := m.pins.erase sid }
      (db.book sid key conf protectedMs) := by
  have hkeys := db.slotKeys_book sid key conf protectedMs
  refine ⟨h.capacity, h.idleTtl, h.pin, ⟨?_, ?_⟩, fun v => ?_, h.indexed.update hkeys .absent,
    h.pins.book sid key conf protectedMs⟩
  · intro v entry hv
    change (m.slots.erase sid).get? v = some entry at hv
    rw [Dict.get?_erase] at hv
    split_ifs at hv
    exact h.whole.touch v entry hv
  · intro v pin hv
    change (m.pins.erase sid).get? v = some pin at hv
    rw [Dict.get?_erase] at hv
    split_ifs at hv
    exact h.whole.pin v pin hv
  · rw [hkeys]
    by_cases hv : v = sid
    · subst hv
      rw [Function.update_self]
      simp [MockState.slotKeys]
    · rw [Function.update_of_ne hv, h.keys v]
      simp only [MockState.slotKeys, Dict.get?_erase_ne _ (Ne.symm hv)]

/-- What has run out may vanish. -/
theorem expire (h : SlotsAgree limits now m db) {key : MockKey} (hlapsed : db.Lapsed now key) :
    SlotsAgree limits now m (db.expire key) :=
  { h with
    keys := fun sid => by
      rw [MockDb.slotKeys_expire]
      exact h.keys sid
    indexed := fun sid => by
      rw [MockDb.slotKeys_expire]
      exact h.indexed sid
    pins := h.pins.expire hlapsed }

/-- Both stores release the pins of an operation. -/
theorem release (h : SlotsAgree limits now m db) (operation : String) :
    SlotsAgree limits now (m.releaseOperation operation) (db.releaseScript operation) := by
  have hpin : ∀ v pin, (m.releaseOperation operation).pins.get? v = some pin → m.pins.get? v = some pin := by
    intro v pin hv
    change (m.pins.filter _).get? v = some pin at hv
    rw [Dict.get?_filter] at hv
    exact (Option.filter_eq_some_iff.mp hv).1
  refine ⟨h.capacity, h.idleTtl, h.pin, ⟨h.whole.touch, fun v pin hv => h.whole.pin v pin (hpin v pin hv)⟩,
    fun v => ?_, fun v => ?_, ?_, ?_⟩
  · rw [MockDb.slotKeys_releaseScript, MockState.slotKeys_releaseOperation]
    have hkeys := h.keys v
    cases hlapses : ((db.slotKeys v).settle now).lapses with
    | none =>
      -- Whatever either side drops has lapsed.
      have hdb := SlotKeys.settle_unpin (h.indexed v) hlapses
      have hm := SlotKeys.settle_unpin (m.slotKeys_sound v) (hkeys ▸ hlapses)
      split <;> split
      · rw [hdb, hm, hkeys]
      · rw [hdb, hkeys]
      · rw [hm, hkeys]
      · exact hkeys
    | some lapses =>
      -- The pin is live, so it is the same on both sides, and listed.
      have hlive := SlotKeys.lt_of_settle hlapses
      have hdb := SlotKeys.settle_of_lapses hlapses
      have hm := SlotKeys.settle_of_lapses (hkeys ▸ hlapses)
      have hsame : db.slotKeys v = m.slotKeys v := by rw [← hdb, ← hm, hkeys]
      rw [hdb] at hlapses
      rw [← hsame]
      by_cases howner : (db.slotKeys v).owner = some operation
      · rw [if_pos ⟨h.pins.listed v operation lapses howner hlapses hlive, howner⟩, if_pos howner]
      · rw [if_neg fun hboth => howner hboth.2, if_neg howner]
  · rw [MockDb.slotKeys_releaseScript]
    split
    · exact (h.indexed v).unpin
    · exact h.indexed v
  · intro v owner lapses howner hlapses hlive
    rw [MockDb.slotKeys_releaseScript] at howner hlapses
    split at howner
    · contradiction
    next hkept =>
      rw [if_neg hkept] at hlapses
      have hlisted := h.pins.listed v owner lapses howner hlapses hlive
      have hne : operation ≠ owner := by
        rintro rfl
        exact hkept ⟨hlisted, howner⟩
      rwa [MockDb.listed_releaseScript db hne]
  · intro v lapses hlapses
    rw [MockDb.slotKeys_releaseScript] at hlapses
    split at hlapses
    · contradiction
    · exact h.pins.bound v lapses hlapses

/-- The slots that are idle in memory are those of the eviction index up to the cutoff. -/
theorem idle_iff (h : SlotsAgree limits now m db) (sid : String) (touched : ℤ) :
    ((db.reconcilePins now).lru.get? sid = some touched ∧ touched ≤ now - limits.idleTtlMs) ↔
      ∃ entry, m.slots.get? sid = some entry ∧
        (m.expirePins (ofMillis now)).isIdle (ofMillis now) sid entry = true ∧
        millis entry.lastTouch = touched := by
  have hlru : (db.reconcilePins now).lru.get? sid = ((m.expirePins (ofMillis now)).slotKeys sid).idle :=
    congrArg SlotKeys.idle (h.reconcile sid)
  rw [hlru, MockState.idle_eq_some_iff]
  have hpinned := MockState.mem_pinnedIds_iff (live_expirePins m (ofMillis now)) sid
  have hdue : ∀ entry, m.slots.get? sid = some entry →
      (entry.lastTouch + m.idleTtl ≤ ofMillis now ↔ millis entry.lastTouch ≤ now - limits.idleTtlMs) := by
    intro entry hentry
    rw [h.idleTtl, ← h.whole.touch sid entry hentry, ofMillis_add, millis_ofMillis]
    have hle : ∀ a b : ℤ, a * 1000 ≤ b * 1000 ↔ a ≤ b := fun a b => by omega
    refine (hle _ _).trans ?_
    omega
  constructor
  · rintro ⟨⟨entry, hentry, hfree, rfl⟩, hcutoff⟩
    have hfree' : sid ∉ (m.expirePins (ofMillis now)).pinnedIds (ofMillis now) := by
      rw [hpinned, hfree]
      exact Bool.false_ne_true
    refine ⟨entry, hentry, ?_, rfl⟩
    rw [MockState.isIdle, decide_eq_false hfree', Bool.not_false, Bool.true_and, decide_eq_true_eq]
    exact (hdue entry hentry).mpr hcutoff
  · rintro ⟨entry, hentry, hidle, rfl⟩
    rw [MockState.isIdle, Bool.and_eq_true, Bool.not_eq_true', decide_eq_false_iff_not,
      decide_eq_true_eq, hpinned, Option.not_isSome_iff_eq_none] at hidle
    exact ⟨⟨entry, hentry, hidle.1, rfl⟩, (hdue entry hentry).mp hidle.2⟩

/-- Both stores remove as many idle slots, and the same ones, where the batches are the same. -/
theorem cleanup (h : SlotsAgree limits now m db) (batch : ℕ)
    (hbatch : MockState.BatchByScore m.slots ((m.expirePins (ofMillis now)).isIdle (ofMillis now))
      SlotEntry.lastTouch batch) :
    (m.cleanup (ofMillis now) batch).1.idleSlots =
        (db.cleanupScript now (now - limits.idleTtlMs) batch).1.idleSlots ∧
      SlotsAgree limits now (m.cleanup (ofMillis now) batch).2
        (db.cleanupScript now (now - limits.idleTtlMs) batch).2 := by
  have hperm := MockState.dueKeys_perm (z := (db.reconcilePins now).lru) h.idle_iff h.whole.touch hbatch
  refine ⟨hperm.length_eq, ?_⟩
  have hkeys : ∀ sid, (db.cleanupScript now (now - limits.idleTtlMs) batch).2.slotKeys sid =
      (m.cleanup (ofMillis now) batch).2.slotKeys sid := by
    intro sid
    rw [MockDb.slotKeys_cleanupScript, h.reconcile sid]
    have hslot : (m.cleanup (ofMillis now) batch).2.slots.get? sid =
        if sid ∈ MockState.dueKeys m.slots ((m.expirePins (ofMillis now)).isIdle (ofMillis now)) batch then none
        else m.slots.get? sid := MockState.get?_eraseAll _ _ _
    have hpin : (m.cleanup (ofMillis now) batch).2.pins = (m.expirePins (ofMillis now)).pins := rfl
    by_cases hidle : sid ∈ MockState.dueKeys m.slots
        ((m.expirePins (ofMillis now)).isIdle (ofMillis now)) batch
    · rw [if_pos (hperm.mem_iff.mp hidle)]
      rw [if_pos hidle] at hslot
      obtain ⟨entry, hentry, hdue⟩ := MockState.due_of_mem hidle
      obtain ⟨hlru, -⟩ := (h.idle_iff sid _).mpr ⟨entry, hentry, hdue, rfl⟩
      have hidleKey := (congrArg SlotKeys.idle (h.reconcile sid)).symm.trans hlru
      obtain ⟨entry', hentry', hfree, -⟩ := (MockState.idle_eq_some_iff _ _ _).mp hidleKey
      have hevictable := MockState.slotKeys_evictable hentry' (by rw [hfree]; exact Bool.false_ne_true)
      rw [hevictable]
      simp only [MockState.slotKeys, hslot]
      rfl
    · rw [if_neg (hperm.mem_iff.not.mp hidle)]
      rw [if_neg hidle] at hslot
      simp only [MockState.slotKeys, hslot, hpin]
      rfl
  have hpins := h.pins.reconcilePins
  -- The cleanup leaves the pins as the reconciliation does.
  have howner : ∀ sid, ((db.cleanupScript now (now - limits.idleTtlMs) batch).2.slotKeys sid).owner =
      ((db.reconcilePins now).slotKeys sid).owner := by
    intro sid
    rw [MockDb.slotKeys_cleanupScript]
    split <;> rfl
  have hlapses : ∀ sid, ((db.cleanupScript now (now - limits.idleTtlMs) batch).2.slotKeys sid).lapses =
      ((db.reconcilePins now).slotKeys sid).lapses := by
    intro sid
    rw [MockDb.slotKeys_cleanupScript]
    split <;> rfl
  have hlisted : ∀ owner, (db.cleanupScript now (now - limits.idleTtlMs) batch).2.listed owner =
      (db.reconcilePins now).listed owner := by
    intro owner
    unfold MockDb.cleanupScript
    simp only [MockDb.foldl_dropSlot, MockDb.foldl_dropBooking, MockDb.foldl_dropTombstone, MockDb.listed]
  refine ⟨h.capacity, h.idleTtl, h.pin, ⟨?_, h.whole_expirePins.pin⟩,
    fun sid => congrArg (SlotKeys.settle now) (hkeys sid), fun sid => ?_, ?_, ?_⟩
  · intro sid entry hentry
    change (MockState.eraseAll m.slots _).get? sid = some entry at hentry
    rw [MockState.get?_eraseAll] at hentry
    split_ifs at hentry
    exact h.whole.touch sid entry hentry
  · rw [hkeys sid]
    exact MockState.slotKeys_sound _ sid
  · intro sid owner lapses ho hl hlive
    rw [howner] at ho
    rw [hlapses] at hl
    rw [hlisted]
    exact hpins.listed sid owner lapses ho hl hlive
  · intro sid lapses hl
    rw [hlapses] at hl
    exact hpins.bound sid lapses hl

end SlotsAgree

end Dibs
