import Dibs.Lib.Machine
import Dibs.Mock.Index

/-!
# The mock provider's keys belong together

Every script leaves each slot absent, evictable or pinned, whatever the other scripts did before, whenever
the slots of an operation vanish with their time to live, and also when it fails halfway. So the keys tell
one story (`Represented`). A new slot takes the place of an evictable one once the capacity is
reached; nothing but a booking takes a slot that is pinned.
-/

namespace Dibs

namespace MockDb

/-- The keys of every slot agree with each other. -/
def Indexed (db : MockDb) : Prop := ∀ sid, (db.slotKeys sid).Sound

/-- The keys agree, and there are no more slots than the capacity. -/
structure Fits (capacity : ℕ) (db : MockDb) : Prop where
  indexed : db.Indexed
  size_le : db.all.size ≤ capacity

/-- Pinned slots stay, and stay pinned. -/
def KeepsPinned (db db' : MockDb) : Prop :=
  ∀ sid, (db.slotKeys sid).lapses.isSome = true →
    (db'.slotKeys sid).lapses.isSome = true ∧ (db'.slotKeys sid).doc = (db.slotKeys sid).doc

theorem KeepsPinned.refl (db : MockDb) : db.KeepsPinned db := fun _ h => ⟨h, rfl⟩

theorem KeepsPinned.trans {db db' db'' : MockDb} (h : db.KeepsPinned db') (h' : db'.KeepsPinned db'') :
    db.KeepsPinned db'' := by
  intro sid hpinned
  obtain ⟨hpinned', hdoc⟩ := h sid hpinned
  obtain ⟨hpinned'', hdoc'⟩ := h' sid hpinned'
  exact ⟨hpinned'', hdoc'.trans hdoc⟩

/-- A change of one slot keeps the keys in agreement when it keeps that slot's. -/
theorem Indexed.update {db db' : MockDb} (h : db.Indexed) {sid : String} {k : SlotKeys}
    (hdb' : db'.slotKeys = Function.update db.slotKeys sid k) (hk : k.Sound) : db'.Indexed := by
  intro v
  rw [hdb']
  by_cases hv : v = sid
  · subst hv
    rwa [Function.update_self]
  · rw [Function.update_of_ne hv]
    exact h v

/-- A change of one slot keeps the pinned slots when it leaves that slot pinned, with its document, or
when the slot was not pinned. -/
theorem KeepsPinned.update {db db' : MockDb} {sid : String} {k : SlotKeys}
    (hdb' : db'.slotKeys = Function.update db.slotKeys sid k)
    (hk : (db.slotKeys sid).lapses.isSome = true →
      k.lapses.isSome = true ∧ k.doc = (db.slotKeys sid).doc) : db.KeepsPinned db' := by
  intro v hv
  rw [hdb']
  by_cases h : v = sid
  · subst h
    rw [Function.update_self]
    exact hk hv
  · rw [Function.update_of_ne h]
    exact ⟨hv, rfl⟩

/-- Where the keys agree, a slot is counted exactly when it has a document. -/
theorem Indexed.all_iff {db : MockDb} (h : db.Indexed) (sid : String) :
    (db.all.get? sid).isSome = true ↔ (db.slots.get? sid).isSome = true :=
  (h sid).touched_iff

/-- An eviction removes one evictable slot. -/
theorem evictOldest_spec {db db' : MockDb} (h : db.Indexed) (hdb' : db.evictOldest = some db') :
    ∃ victim doc touched, db.slotKeys victim = .evictable doc touched ∧
      db'.slotKeys = Function.update db.slotKeys victim .absent ∧ db'.all.size < db.all.size := by
  obtain ⟨victim, hfirst, rfl⟩ := Option.map_eq_some_iff.mp hdb'
  obtain ⟨touched, hidle, -⟩ := db.lru.first_eq_some hfirst
  obtain ⟨doc, hkeys⟩ := (h victim).eq_evictable hidle
  refine ⟨victim, doc, touched, hkeys, ?_, ?_⟩
  · rw [slotKeys_dropSlot, hkeys]
    rfl
  · have hcounted : (db.all.get? victim).isSome = true := by
      change (db.slotKeys victim).touched.isSome = true
      rw [hkeys]
      rfl
    exact db.all.size_erase_lt hcounted

/-- One candidate: the keys keep in agreement, the slots within the capacity, and the pinned slots
stay. -/
theorem publishOne_fits {capacity : ℕ} {operation : String} {now pinTtl : ℤ} {acc acc' : Publication}
    {slot : AvailabilitySlot} (h : acc.db.Fits capacity)
    (hacc : publishOne operation now pinTtl capacity acc slot = some acc') :
    acc'.db.Fits capacity ∧ acc.db.KeepsPinned acc'.db := by
  unfold publishOne at hacc
  dsimp only at hacc
  split at hacc
  next => contradiction
  next =>
    obtain rfl := Option.some.inj hacc
    exact ⟨h, .refl _⟩
  next =>
    split at hacc
    next sjson hslot =>
      -- The slot is there: its score is set, and it is pinned.
      obtain rfl := Option.some.inj hacc
      have hdoc : (acc.db.slotKeys slot.slotId).doc = some sjson := hslot
      have hkeys := slotKeys_pinSlot operation now pinTtl
        { acc.db with all := acc.db.all.insert slot.slotId now } slot.slotId
      rw [slotKeys_touch, Function.update_self, Function.update_idem, SlotKeys.touch_pin hdoc] at hkeys
      refine ⟨⟨h.indexed.update hkeys (.pinned ..), ?_⟩, .update hkeys fun _ => ⟨rfl, hdoc.symm⟩⟩
      have hall := congrArg MockDb.all (rest_pinSlot operation now pinTtl
        { acc.db with all := acc.db.all.insert slot.slotId now } slot.slotId)
      have hcounted : (acc.db.all.get? slot.slotId).isSome = true :=
        (h.indexed.all_iff slot.slotId).mpr (by rw [hslot]; rfl)
      have hsize : (acc.db.all.insert slot.slotId now).size = acc.db.all.size := by
        rw [Dict.size_insert, if_pos hcounted]
      exact ((congrArg Dict.size hall).trans hsize).trans_le h.size_le
    next hslot =>
      split at hacc
      next =>
        obtain rfl := Option.some.inj hacc
        exact ⟨h, .refl _⟩
      next room hroom =>
        obtain rfl := Option.some.inj hacc
        -- There is room, perhaps after an eviction.
        have hnone : (acc.db.slotKeys slot.slotId).doc = none := hslot
        obtain ⟨hindexed, hsize, hkept, hnone⟩ : room.Indexed ∧ room.all.size < capacity ∧
            acc.db.KeepsPinned room ∧ (room.slotKeys slot.slotId).doc = none := by
          split at hroom
          next =>
            obtain ⟨victim, doc, touched, hvictim, hkeys, hsmaller⟩ := evictOldest_spec h.indexed hroom
            refine ⟨h.indexed.update hkeys .absent, lt_of_lt_of_le hsmaller h.size_le, .update hkeys ?_, ?_⟩
            · rw [hvictim]
              exact fun hpinned => absurd hpinned Bool.false_ne_true
            · rw [hkeys]
              by_cases hv : slot.slotId = victim
              · rw [hv, Function.update_self]
                rfl
              · rw [Function.update_of_ne hv]
                exact hnone
          next hfull =>
            obtain rfl := Option.some.inj hroom
            exact ⟨h.indexed, not_le.mp hfull, .refl _, hnone⟩
        have hkeys := slotKeys_pinSlot operation now pinTtl
          { room with
            slots := room.slots.insert slot.slotId slot
            all := room.all.insert slot.slotId now } slot.slotId
        rw [slotKeys_store, Function.update_self, Function.update_idem, SlotKeys.touch_pin rfl] at hkeys
        have hall := congrArg MockDb.all (rest_pinSlot operation now pinTtl
          { room with
            slots := room.slots.insert slot.slotId slot
            all := room.all.insert slot.slotId now } slot.slotId)
        refine ⟨⟨hindexed.update hkeys (.pinned ..), ?_⟩, hkept.trans (.update hkeys ?_)⟩
        · refine (congrArg Dict.size hall).trans_le ?_
          change (room.all.insert slot.slotId now).size ≤ capacity
          rw [Dict.size_insert]
          split <;> omega
        · -- A slot that is pinned has a document; this one has none.
          intro hpinned
          have hdoc := (hindexed slot.slotId).doc_isSome hpinned
          rw [hnone] at hdoc
          contradiction

/-- The loop over the candidates, also when it fails at one of them. -/
theorem publishLoop_fits {capacity : ℕ} (operation : String) (now pinTtl : ℤ)
    (candidates : List AvailabilitySlot) {acc : Publication} (h : acc.db.Fits capacity) :
    (publishLoop operation now pinTtl capacity candidates acc).2.Fits capacity ∧
      acc.db.KeepsPinned (publishLoop operation now pinTtl capacity candidates acc).2 := by
  induction candidates generalizing acc with
  | nil => exact ⟨h, .refl _⟩
  | cons slot rest ih =>
    unfold publishLoop
    split
    next => exact ⟨h, .refl _⟩
    next acc' hacc =>
      obtain ⟨hfits, hkept⟩ := publishOne_fits h hacc
      obtain ⟨hfits', hkept'⟩ := ih hfits
      exact ⟨hfits', hkept.trans hkept'⟩

/-- Reconciling keeps the keys in agreement. -/
theorem Fits.reconcilePins {capacity : ℕ} {db : MockDb} (h : db.Fits capacity) (now : ℤ) :
    (db.reconcilePins now).Fits capacity := by
  refine ⟨fun sid => ?_, ?_⟩
  · rw [slotKeys_reconcilePins]
    split
    · exact (h.indexed sid).unpin
    · exact h.indexed sid
  · have hall := congrArg MockDb.all (db.rest_reconcilePins now)
    exact (congrArg Dict.size hall).trans_le h.size_le

/-- A publication keeps the keys in agreement, and every slot that is pinned once the lapsed pins are
dropped. -/
theorem Fits.publishScript {capacity : ℕ} {db : MockDb} (h : db.Fits capacity) (operation : String)
    (now pinTtl : ℤ) (candidates : List AvailabilitySlot) :
    (db.publishScript operation now pinTtl capacity candidates).2.Fits capacity ∧
      (db.reconcilePins now).KeepsPinned (db.publishScript operation now pinTtl capacity candidates).2 :=
  have hreconciled : (⟨db.reconcilePins now, []⟩ : Publication).db.Fits capacity := h.reconcilePins now
  publishLoop_fits operation now pinTtl candidates hreconciled

/-- Reconciling leaves a pin that has not lapsed. -/
theorem slotKeys_reconcilePins_live {db : MockDb} {now lapses : ℤ} {sid : String}
    (h : (db.slotKeys sid).lapses = some lapses) (hlive : now < lapses) :
    (db.reconcilePins now).slotKeys sid = db.slotKeys sid := by
  rw [slotKeys_reconcilePins, if_neg]
  rintro ⟨lapses', hlapses', hle⟩
  rw [h] at hlapses'
  obtain rfl := Option.some.inj hlapses'
  omega

/-- Releasing keeps the keys in agreement. -/
theorem Fits.releaseScript {capacity : ℕ} {db : MockDb} (h : db.Fits capacity) (operation : String) :
    (db.releaseScript operation).Fits capacity := by
  refine ⟨fun sid => ?_, ?_⟩
  · rw [slotKeys_releaseScript]
    split
    · exact (h.indexed sid).unpin
    · exact h.indexed sid
  · have hall := congrArg MockDb.all (db.rest_releaseScript operation)
    exact (congrArg Dict.size hall).trans_le h.size_le

/-- A booking keeps the keys in agreement. -/
theorem Fits.book {capacity : ℕ} {db : MockDb} (h : db.Fits capacity) (sid key : String)
    (conf : Option BookingConfirmation) (protectedMs : ℤ) :
    (db.book sid key conf protectedMs).Fits capacity := by
  refine ⟨h.indexed.update (db.slotKeys_book sid key conf protectedMs) .absent, ?_⟩
  have hall : (db.book sid key conf protectedMs).all = db.all.erase sid :=
    congrArg MockDb.all (rest_disown { db with
      bookings := db.bookings.insert key conf
      bookExp := db.bookExp.insert key protectedMs
      booked := db.booked.insert sid (tombstoneText key protectedMs)
      tombExp := db.tombExp.insert sid protectedMs
      slots := db.slots.erase sid
      all := db.all.erase sid
      lru := db.lru.erase sid
      pin := db.pin.erase sid } sid)
  rw [hall]
  exact (db.all.size_erase_le sid).trans h.size_le

/-- The members of the eviction index are evictable. -/
theorem Indexed.mem_lru {db : MockDb} (h : db.Indexed) {max : ℤ} {sid : String}
    (hsid : sid ∈ db.lru.rangeByScore max) : ∃ doc touched, db.slotKeys sid = .evictable doc touched := by
  obtain ⟨touched, hidle, -⟩ := (Dict.mem_rangeByScore _).mp hsid
  obtain ⟨doc, hkeys⟩ := (h sid).eq_evictable hidle
  exact ⟨doc, touched, hkeys⟩

/-- The cleanup keeps the keys in agreement, and every pinned slot. -/
theorem Fits.cleanupScript {capacity : ℕ} {db : MockDb} (h : db.Fits capacity) (now idleCutoff : ℤ)
    (batch : ℕ) : (db.cleanupScript now idleCutoff batch).2.Fits capacity ∧
      (db.reconcilePins now).KeepsPinned (db.cleanupScript now idleCutoff batch).2 := by
  have hreconciled := h.reconcilePins now
  refine ⟨⟨fun sid => ?_, ?_⟩, fun sid hpinned => ?_⟩
  · rw [slotKeys_cleanupScript]
    split
    next hsid =>
      obtain ⟨doc, touched, hkeys⟩ := hreconciled.indexed.mem_lru (List.mem_of_mem_take hsid)
      rw [hkeys]
      exact .absent
    next => exact hreconciled.indexed sid
  · -- Only the removal of idle slots changes what is counted.
    have hrecords : ∀ {f : MockDb → String → MockDb}, (∀ db k, (f db k).all = db.all) →
        ∀ (keys : List String) (db : MockDb), (keys.foldl f db).all = db.all := fun {f} hf keys db =>
      List.foldlRecOn keys f (motive := fun db' : MockDb => db'.all = db.all) rfl
        fun db' hdb' k _ => (hf db' k).trans hdb'
    have hidle : ∀ (sids : List String) (db : MockDb), (sids.foldl dropSlot db).all.size ≤ db.all.size :=
      fun sids db => List.foldlRecOn sids dropSlot
        (motive := fun db' : MockDb => db'.all.size ≤ db.all.size) le_rfl
        fun db' hdb' sid _ => (db'.all.size_erase_le sid).trans hdb'
    unfold MockDb.cleanupScript
    dsimp only
    rw [hrecords (f := dropTombstone) fun _ _ => rfl, hrecords (f := dropBooking) fun _ _ => rfl]
    exact (hidle _ _).trans hreconciled.size_le
  · rw [slotKeys_cleanupScript, if_neg]
    · exact ⟨hpinned, rfl⟩
    · intro hsid
      obtain ⟨doc, touched, hkeys⟩ := hreconciled.indexed.mem_lru (List.mem_of_mem_take hsid)
      rw [hkeys] at hpinned
      contradiction

end MockDb

/-- One script, or the end of a time to live. -/
inductive MockScript
  | publish (operation : String) (pinTtl : ℤ) (candidates : List AvailabilitySlot)
  | book (sid key : String) (conf : Option BookingConfirmation) (protectedMs : ℤ)
  | release (operation : String)
  | cleanup (idleCutoff : ℤ) (batch : ℕ)
  | expire (key : MockKey)

namespace MockDb

/-- The database that a script leaves. -/
def run (capacity : ℕ) (db : MockDb) (now : ℤ) : MockScript → MockDb
  | .publish operation pinTtl candidates => (db.publishScript operation now pinTtl capacity candidates).2
  | .book sid key conf protectedMs => (db.bookScript sid key conf protectedMs now).2
  | .release operation => db.releaseScript operation
  | .cleanup idleCutoff batch => (db.cleanupScript now idleCutoff batch).2
  | .expire key => db.expire key

/-- What `BOOK_SLOT` does to the database: nothing, or it books. -/
theorem bookScript_cases (db : MockDb) (sid key : String) (conf : Option BookingConfirmation)
    (protectedMs now : ℤ) :
    (db.bookScript sid key conf protectedMs now).2 = db ∨
    (db.bookScript sid key conf protectedMs now).1 = some (.booked conf) ∧
      (db.bookScript sid key conf protectedMs now).2 = db.book sid key conf protectedMs := by
  rcases db.bookScript_spec sid key conf protectedMs now with ⟨text, -, h⟩ | ⟨-, ⟨-, h⟩ | ⟨-, h⟩ |
    ⟨-, ⟨-, h⟩ | ⟨slot, -, h⟩⟩⟩ <;> rw [h]
  case inr.inr.inr.inr => exact .inr ⟨rfl, rfl⟩
  all_goals exact .inl rfl

/-- Every script keeps the keys in agreement and the slots within the capacity. -/
theorem Fits.run {capacity : ℕ} {db : MockDb} (h : db.Fits capacity) (now : ℤ) (script : MockScript) :
    (db.run capacity now script).Fits capacity := by
  cases script with
  | publish operation pinTtl candidates => exact (h.publishScript operation now pinTtl candidates).1
  | book sid key conf protectedMs =>
    unfold MockDb.run
    dsimp only
    rcases db.bookScript_cases sid key conf protectedMs now with hdb | ⟨-, hdb⟩ <;> rw [hdb]
    · exact h
    · exact h.book sid key conf protectedMs
  | release operation => exact h.releaseScript operation
  | cleanup idleCutoff batch => exact (h.cleanupScript now idleCutoff batch).1
  | expire key =>
    refine ⟨fun sid => ?_, ?_⟩
    · change ((db.expire key).slotKeys sid).Sound
      rw [slotKeys_expire]
      exact h.indexed sid
    · cases key <;> exact h.size_le

/-- The script books a slot. -/
def Books (db : MockDb) (now : ℤ) (sid : String) : MockScript → Prop
  | .book sid' key conf protectedMs =>
    sid' = sid ∧ (db.bookScript sid' key conf protectedMs now).1 = some (.booked conf)
  | _ => False

/-- A slot whose pin has not lapsed keeps its document, unless it is booked. -/
theorem Fits.run_pinned {capacity : ℕ} {db : MockDb} (h : db.Fits capacity) {now lapses : ℤ} {sid : String}
    (hpin : (db.slotKeys sid).lapses = some lapses) (hlive : now < lapses) (script : MockScript)
    (hbook : ¬ db.Books now sid script) :
    ((db.run capacity now script).slotKeys sid).doc = (db.slotKeys sid).doc := by
  have hreconciled := slotKeys_reconcilePins_live hpin hlive
  have hpinned : ((db.reconcilePins now).slotKeys sid).lapses.isSome = true := by
    rw [hreconciled, hpin]
    rfl
  cases script with
  | publish operation pinTtl candidates =>
    have hkept := (h.publishScript operation now pinTtl candidates).2 sid hpinned
    exact hkept.2.trans (by rw [hreconciled])
  | book sid' key conf protectedMs =>
    rcases db.bookScript_cases sid' key conf protectedMs now with hdb | ⟨hbooked, hdb⟩
    · change ((db.bookScript sid' key conf protectedMs now).2.slotKeys sid).doc = _
      rw [hdb]
    · have hne : sid ≠ sid' := fun heq => hbook ⟨heq.symm, hbooked⟩
      change ((db.bookScript sid' key conf protectedMs now).2.slotKeys sid).doc = _
      rw [hdb, slotKeys_book, Function.update_of_ne hne]
  | release operation =>
    change ((db.releaseScript operation).slotKeys sid).doc = _
    rw [slotKeys_releaseScript]
    split <;> rfl
  | cleanup idleCutoff batch =>
    have hkept := (h.cleanupScript now idleCutoff batch).2 sid hpinned
    exact hkept.2.trans (by rw [hreconciled])
  | expire key =>
    change ((db.expire key).slotKeys sid).doc = _
    rw [slotKeys_expire]

/-- The keys of the store tell one story. -/
structure Represented (db : MockDb) : Prop where
  /-- The members of `all` are the slots that have a document. -/
  all_iff : ∀ sid, db.all.contains sid = true ↔ db.slots.contains sid = true
  /-- No slot is both evictable and pinned. -/
  disjoint : ∀ sid, ¬ (db.lru.contains sid = true ∧ db.pin.contains sid = true)
  /-- Every slot is evictable or pinned, and nothing else is. -/
  union : ∀ sid, db.lru.contains sid = true ∨ db.pin.contains sid = true ↔ db.all.contains sid = true
  /-- The pinned slots have an owner, and no others. -/
  owner_iff : ∀ sid, db.pinOwner.contains sid = true ↔ db.pin.contains sid = true
  /-- An evictable slot carries its score. -/
  score : ∀ sid score, db.lru.get? sid = some score → db.all.get? sid = some score

/-- Where the keys of every slot agree, the keys of the store tell one story. -/
theorem Indexed.represented {db : MockDb} (h : db.Indexed) : db.Represented := by
  -- Each part is about the keys of one slot.
  have hkeys : ∀ k : SlotKeys, k.Sound → (k.touched.isSome = true ↔ k.doc.isSome = true) ∧
      ¬ (k.idle.isSome = true ∧ k.lapses.isSome = true) ∧
      (k.idle.isSome = true ∨ k.lapses.isSome = true ↔ k.touched.isSome = true) ∧
      (k.owner.isSome = true ↔ k.lapses.isSome = true) ∧
      ∀ score, k.idle = some score → k.touched = some score := by
    intro k hk
    cases hk <;> simp [SlotKeys.absent, SlotKeys.evictable, SlotKeys.pinned]
  exact ⟨fun sid => (hkeys _ (h sid)).1, fun sid => (hkeys _ (h sid)).2.1,
    fun sid => (hkeys _ (h sid)).2.2.1, fun sid => (hkeys _ (h sid)).2.2.2.1,
    fun sid => (hkeys _ (h sid)).2.2.2.2⟩

/-- There are as many slots as are counted. -/
theorem Fits.slots_le {capacity : ℕ} {db : MockDb} (h : db.Fits capacity) : db.slots.size ≤ capacity := by
  have hsize : db.slots.size = db.all.size :=
    Dict.size_eq_of_keys fun sid => (h.indexed.all_iff sid).symm
  exact hsize.trans_le h.size_le

theorem empty_fits (capacity : ℕ) : empty.Fits capacity := ⟨fun _ => .absent, Nat.zero_le _⟩

end MockDb

/-- The store at an instant. -/
structure MockStore where
  now : ℤ
  db : MockDb

/-- Runs of the scripts of a store at non-decreasing instants. -/
def mockStoreMachine (capacity : ℕ) : Machine MockStore (ℤ × MockScript) where
  init s := s.db = .empty
  allowed s i := s.now ≤ i.1
  exec i s := ⟨i.1, s.db.run capacity i.1 i.2⟩

/-- After every sequence of scripts, with times to live ending at any moment, the keys of the store tell
one story, the live slots are within the capacity, and no script removes a slot whose pin has not lapsed
but by booking it. -/
theorem mock_store_represented {capacity : ℕ} {s : MockStore}
    (hs : (mockStoreMachine capacity).Reach s) :
    s.db.Represented ∧ s.db.slots.size ≤ capacity ∧
      ∀ i, (mockStoreMachine capacity).allowed s i → ∀ sid lapses, s.db.pin.get? sid = some lapses →
        i.1 < lapses → ¬ s.db.Books i.1 sid i.2 →
        s.db.slots.contains sid = true ∧
          ((mockStoreMachine capacity).exec i s).db.slots.get? sid = s.db.slots.get? sid := by
  have hfits : s.db.Fits capacity := by
    refine hs.invariant (P := fun s : MockStore => s.db.Fits capacity) (fun s h => ?_) fun s i _ h _ => ?_
    · exact h ▸ MockDb.empty_fits capacity
    · exact h.run i.1 i.2
  refine ⟨hfits.indexed.represented, hfits.slots_le, fun i _ sid lapses hpin hlive hbook => ⟨?_, ?_⟩⟩
  · exact (hfits.indexed sid).doc_isSome (congrArg Option.isSome hpin)
  · exact hfits.run_pinned hpin hlive i.2 hbook

/-- A store of one slot after a search for two. -/
def oneSlotStore : MockStore :=
  (mockStoreMachine 1).final ⟨0, .empty⟩ [(0, .publish "op" 120000 [.sample "s1", .sample "s2"])]

theorem oneSlotStore_reach : (mockStoreMachine 1).Reach oneSlotStore :=
  (Machine.Reach.init (M := mockStoreMachine 1) (s := ⟨0, .empty⟩) rfl).final ⟨le_rfl, trivial⟩

/-- The first slot fills the store, and stays there while its pin lasts. -/
theorem mock_store_represented_full : oneSlotStore.db.Represented ∧ oneSlotStore.db.slots.size ≤ 1 ∧
    ((mockStoreMachine 1).exec (1, .cleanup 1 10) oneSlotStore).db.slots.get? "s1" =
      some (.sample "s1") := by
  obtain ⟨hkeys, hsize, hstays⟩ := mock_store_represented oneSlotStore_reach
  refine ⟨hkeys, hsize, ?_⟩
  have hpin : oneSlotStore.db.pin.get? "s1" = some 120000 := by decide +kernel
  have hallowed : (mockStoreMachine 1).allowed oneSlotStore (1, .cleanup 1 10) :=
    show (0 : ℤ) ≤ 1 by decide
  exact (hstays _ hallowed "s1" 120000 hpin (by decide) id).2.trans (by decide +kernel)

end Dibs
