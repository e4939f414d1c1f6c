import Dibs.Mock.Scripts

/-!
# What the scripts do to one slot

A slot of the mock provider is spread over five keys. `SlotKeys` is what they hold of one slot, and each
write of the scripts has one lemma that says what it does to the keys of every slot. A slot is absent,
idle or pinned (`SlotKeys.Sound`).
-/

namespace Dibs

open Function (update)

/-- What the database holds of one slot. -/
@[ext]
structure SlotKeys where
  /-- The document under `slot`. -/
  doc : Option AvailabilitySlot
  /-- The score in `all`. -/
  touched : Option ℤ
  /-- The score in `lru`. -/
  idle : Option ℤ
  /-- The score in `pin`. -/
  lapses : Option ℤ
  /-- The field of `pinowner`. -/
  owner : Option String
deriving DecidableEq

namespace SlotKeys

/-- A slot that is not there. -/
def absent : SlotKeys := ⟨none, none, none, none, none⟩

/-- A slot that may be evicted. -/
def evictable (doc : AvailabilitySlot) (touched : ℤ) : SlotKeys :=
  ⟨some doc, some touched, some touched, none, none⟩

/-- A slot that an operation has pinned. -/
def pinned (doc : AvailabilitySlot) (touched lapses : ℤ) (owner : String) : SlotKeys :=
  ⟨some doc, some touched, none, some lapses, some owner⟩

/-- The keys of a slot agree with each other. -/
inductive Sound : SlotKeys → Prop
  | absent : Sound absent
  | evictable (doc touched) : Sound (evictable doc touched)
  | pinned (doc touched lapses owner) : Sound (pinned doc touched lapses owner)

/-- The keys after a pin is dropped. -/
def unpin (k : SlotKeys) : SlotKeys :=
  { k with
    lapses := none
    owner := none
    idle := match k.doc, k.touched with
      | some _, some score => some score
      | _, _ => k.idle }

/-- The keys after a slot is pinned. -/
def pin (k : SlotKeys) (lapses : ℤ) (owner : String) : SlotKeys :=
  { k with idle := none, lapses := some lapses, owner := some owner }

/-- The keys after a slot is removed. -/
def drop (k : SlotKeys) : SlotKeys := { k with doc := none, touched := none, idle := none }

/-- The keys after a slot's score is set. -/
def touch (k : SlotKeys) (now : ℤ) : SlotKeys := { k with touched := some now }

theorem Sound.unpin {k : SlotKeys} (h : k.Sound) : k.unpin.Sound := by
  cases h with
  | absent => exact .absent
  | evictable doc touched => exact .evictable doc touched
  | pinned doc touched => exact .evictable doc touched

/-- Dropping a pin keeps the document. -/
@[simp]
theorem unpin_doc (k : SlotKeys) : k.unpin.doc = k.doc := rfl

/-- A pin is dropped once. -/
@[simp]
theorem unpin_unpin (k : SlotKeys) : k.unpin.unpin = k.unpin := by
  unfold unpin
  cases k.doc <;> cases k.touched <;> rfl

/-- A slot that is there and asked for is pinned by who asks. -/
theorem touch_pin {k : SlotKeys} {doc : AvailabilitySlot} (hdoc : k.doc = some doc) (now lapses : ℤ)
    (owner : String) : (k.touch now).pin lapses owner = pinned doc now lapses owner := by
  simp [touch, pin, pinned, hdoc]

/-- A slot is counted exactly when it has a document. -/
theorem Sound.touched_iff {k : SlotKeys} (h : k.Sound) : k.touched.isSome = true ↔ k.doc.isSome = true := by
  cases h <;> exact Iff.rfl

/-- A pinned slot has a document. -/
theorem Sound.doc_isSome {k : SlotKeys} (h : k.Sound) (hpinned : k.lapses.isSome = true) :
    k.doc.isSome = true := by
  cases h with
  | pinned => rfl
  | _ => contradiction

/-- A slot in the eviction index is evictable. -/
theorem Sound.eq_evictable {k : SlotKeys} (h : k.Sound) {touched : ℤ} (hidle : k.idle = some touched) :
    ∃ doc, k = SlotKeys.evictable doc touched := by
  cases h with
  | absent => contradiction
  | evictable doc touched' =>
    obtain rfl := Option.some.inj hidle
    exact ⟨doc, rfl⟩
  | pinned => contradiction

end SlotKeys

namespace MockDb

/-- What the database holds of a slot. -/
def slotKeys (db : MockDb) (sid : String) : SlotKeys :=
  ⟨db.slots.get? sid, db.all.get? sid, db.lru.get? sid, db.pin.get? sid, db.pinOwner.get? sid⟩

/-- The database without its pins and its eviction index. -/
def rest (db : MockDb) : MockDb := { db with lru := .empty, pin := .empty, pinOwner := .empty, pinOps := .empty }

@[simp]
theorem rest_unlist (db : MockDb) (operation sid : String) : (db.unlist operation sid).rest = db.rest := by
  unfold unlist
  split <;> rfl

@[simp]
theorem rest_takeOver (db : MockDb) (operation sid : String) :
    (db.takeOver operation sid).rest = db.rest := by
  unfold takeOver
  split
  · split
    · exact db.rest_unlist _ _
    · rfl
  · rfl

@[simp]
theorem rest_disown (db : MockDb) (sid : String) : (db.disown sid).rest = db.rest := by
  unfold disown
  split
  next owner _ => exact db.rest_unlist owner sid
  next => rfl

@[simp]
theorem rest_returnToLru (db : MockDb) (sid : String) : (db.returnToLru sid).rest = db.rest := by
  unfold returnToLru
  repeat' split
  all_goals rfl

theorem rest_reconcileOne (db : MockDb) (sid : String) : (db.reconcileOne sid).rest = db.rest := by
  unfold reconcileOne
  rw [rest_returnToLru, rest_disown]
  rfl

/-- Pinning leaves the rest alone. -/
@[simp]
theorem rest_pinSlot (operation : String) (now pinTtl : ℤ) (db : MockDb) (sid : String) :
    (pinSlot operation now pinTtl db sid).rest = db.rest :=
  ({ db with lru := db.lru.erase sid } : MockDb).rest_takeOver operation sid

theorem rest_releaseOne (operation : String) (db : MockDb) (sid : String) :
    (releaseOne operation db sid).rest = db.rest := by
  unfold releaseOne
  split
  · rw [rest_returnToLru]
    rfl
  · rfl

/-- A loop leaves the rest alone when its iterations do. -/
theorem rest_foldl {f : MockDb → String → MockDb} (hf : ∀ db sid, (f db sid).rest = db.rest)
    (sids : List String) (db : MockDb) : (sids.foldl f db).rest = db.rest :=
  List.foldlRecOn sids f (motive := fun db' : MockDb => db'.rest = db.rest) rfl
    fun db' hdb' sid _ => (hf db' sid).trans hdb'

/-- Reconciling leaves the rest alone. -/
@[simp]
theorem rest_reconcilePins (db : MockDb) (now : ℤ) : (db.reconcilePins now).rest = db.rest :=
  rest_foldl rest_reconcileOne _ db

/-- Releasing leaves the rest alone. -/
@[simp]
theorem rest_releaseScript (db : MockDb) (operation : String) :
    (db.releaseScript operation).rest = db.rest :=
  rest_foldl (rest_releaseOne operation) ((db.pinOps.get? operation).getD []) db

@[simp]
theorem slotKeys_empty (sid : String) : empty.slotKeys sid = .absent := rfl

@[simp]
theorem slotKeys_dropBooking (db : MockDb) (key : String) : (db.dropBooking key).slotKeys = db.slotKeys :=
  rfl

@[simp]
theorem slotKeys_dropTombstone (db : MockDb) (sid : String) :
    (db.dropTombstone sid).slotKeys = db.slotKeys := rfl

@[simp]
theorem slotKeys_expire (db : MockDb) (key : MockKey) : (db.expire key).slotKeys = db.slotKeys := by
  cases key <;> rfl

@[simp]
theorem slotKeys_unlist (db : MockDb) (operation sid : String) :
    (db.unlist operation sid).slotKeys = db.slotKeys := by
  unfold unlist
  split <;> rfl

@[simp]
theorem slotKeys_takeOver (db : MockDb) (operation sid : String) :
    (db.takeOver operation sid).slotKeys = db.slotKeys := by
  unfold takeOver
  split
  · split
    · exact db.slotKeys_unlist _ _
    · rfl
  · rfl

/-- Dropping the owner is about one slot. -/
theorem slotKeys_disown (db : MockDb) (sid : String) :
    (db.disown sid).slotKeys = update db.slotKeys sid { db.slotKeys sid with owner := none } := by
  unfold disown
  funext v
  by_cases hv : v = sid
  · subst hv
    rw [Function.update_self]
    split
    next owner howner =>
      have h := congrFun (db.slotKeys_unlist owner v) v
      simp only [slotKeys, SlotKeys.mk.injEq, Dict.get?_erase_self] at h ⊢
      tauto
    next hnone => simp only [slotKeys, hnone]
  · rw [Function.update_of_ne hv]
    split
    next owner howner =>
      have h := congrFun (db.slotKeys_unlist owner sid) v
      simp only [slotKeys, SlotKeys.mk.injEq, Dict.get?_erase_ne _ (Ne.symm hv)] at h ⊢
      tauto
    next => rfl

/-- Returning a slot to the eviction index is about one slot. -/
theorem slotKeys_returnToLru (db : MockDb) (sid : String) :
    (db.returnToLru sid).slotKeys = update db.slotKeys sid { db.slotKeys sid with
      idle := match (db.slotKeys sid).doc, (db.slotKeys sid).touched with
        | some _, some score => some score
        | _, _ => (db.slotKeys sid).idle } := by
  unfold returnToLru
  funext v
  by_cases hv : v = sid
  · subst hv
    rw [Function.update_self]
    cases hdoc : db.slots.get? v <;> cases hscore : db.all.get? v <;>
      simp [slotKeys, hdoc, hscore]
  · rw [Function.update_of_ne hv]
    split
    · split
      · simp [slotKeys, Dict.get?_insert_ne, Ne.symm hv]
      · rfl
    · rfl

/-- Dropping a lapsed pin is about one slot. -/
theorem slotKeys_reconcileOne (db : MockDb) (sid : String) :
    (db.reconcileOne sid).slotKeys = update db.slotKeys sid (db.slotKeys sid).unpin := by
  have hpin : ({ db with pin := db.pin.erase sid } : MockDb).slotKeys =
      update db.slotKeys sid { db.slotKeys sid with lapses := none } := by
    funext v
    by_cases hv : v = sid
    · subst hv
      simp [slotKeys]
    · simp [slotKeys, Dict.get?_erase_ne, hv, Ne.symm hv]
  unfold reconcileOne
  rw [slotKeys_returnToLru, slotKeys_disown, hpin]
  simp [SlotKeys.unpin]

/-- Pinning is about one slot. -/
theorem slotKeys_pinSlot (operation : String) (now pinTtl : ℤ) (db : MockDb) (sid : String) :
    (pinSlot operation now pinTtl db sid).slotKeys =
      update db.slotKeys sid ((db.slotKeys sid).pin (now + pinTtl) operation) := by
  have hkeys := ({ db with lru := db.lru.erase sid } : MockDb).slotKeys_takeOver operation sid
  unfold pinSlot
  dsimp only
  generalize ({ db with lru := db.lru.erase sid } : MockDb).takeOver operation sid = moved at hkeys ⊢
  funext v
  have hv := congrFun hkeys v
  simp only [slotKeys, SlotKeys.mk.injEq] at hv
  obtain ⟨hslots, hall, hlru, hpin, howner⟩ := hv
  by_cases h : v = sid
  · subst h
    rw [Function.update_self]
    simp [slotKeys, SlotKeys.pin, hslots, hall, hlru]
  · rw [Function.update_of_ne h]
    simp [slotKeys, Dict.get?_insert_ne, Dict.get?_erase_ne, Ne.symm h, hslots, hall, hlru, hpin, howner]

/-- Removing an unpinned slot is about one slot. -/
theorem slotKeys_dropSlot (db : MockDb) (sid : String) :
    (db.dropSlot sid).slotKeys = update db.slotKeys sid (db.slotKeys sid).drop := by
  funext v
  by_cases hv : v = sid
  · subst hv
    simp [slotKeys, dropSlot, SlotKeys.drop]
  · simp [slotKeys, dropSlot, Dict.get?_erase_ne, hv, Ne.symm hv]

/-- Booking is about one slot. -/
theorem slotKeys_book (db : MockDb) (sid key : String) (conf : Option BookingConfirmation)
    (protectedMs : ℤ) : (db.book sid key conf protectedMs).slotKeys = update db.slotKeys sid .absent := by
  unfold book
  rw [slotKeys_disown]
  funext v
  by_cases hv : v = sid
  · subst hv
    simp [slotKeys, SlotKeys.absent]
  · simp [slotKeys, Dict.get?_erase_ne, hv, Ne.symm hv]

/-- Releasing is about one slot, and only the owner of its pin can do it. -/
theorem slotKeys_releaseOne (operation : String) (db : MockDb) (sid : String) :
    (releaseOne operation db sid).slotKeys = update db.slotKeys sid
      (if (db.slotKeys sid).owner = some operation then (db.slotKeys sid).unpin
      else db.slotKeys sid) := by
  unfold releaseOne
  by_cases howner : (db.slotKeys sid).owner = some operation
  · have hpin : ({ db with pin := db.pin.erase sid, pinOwner := db.pinOwner.erase sid } : MockDb).slotKeys =
        update db.slotKeys sid { db.slotKeys sid with lapses := none, owner := none } := by
      funext v
      by_cases hv : v = sid
      · subst hv
        simp [slotKeys]
      · simp [slotKeys, Dict.get?_erase_ne, hv, Ne.symm hv]
    rw [if_pos howner, if_pos (show db.pinOwner.get? sid = some operation from howner),
      slotKeys_returnToLru, hpin]
    simp [SlotKeys.unpin]
  · rw [if_neg howner, if_neg (show ¬ db.pinOwner.get? sid = some operation from howner),
      Function.update_eq_self]

/-- Storing a candidate, with its score, is about one slot. -/
theorem slotKeys_store (db : MockDb) (slot : AvailabilitySlot) (now : ℤ) :
    ({ db with
      slots := db.slots.insert slot.slotId slot
      all := db.all.insert slot.slotId now } : MockDb).slotKeys =
      update db.slotKeys slot.slotId ({ db.slotKeys slot.slotId with doc := some slot }.touch now) := by
  funext v
  by_cases hv : v = slot.slotId
  · subst hv
    simp [slotKeys, SlotKeys.touch]
  · simp [slotKeys, Dict.get?_insert_ne, hv, Ne.symm hv]

/-- Setting a score is about one slot. -/
theorem slotKeys_touch (db : MockDb) (sid : String) (now : ℤ) :
    ({ db with all := db.all.insert sid now } : MockDb).slotKeys =
      update db.slotKeys sid ((db.slotKeys sid).touch now) := by
  funext v
  by_cases hv : v = sid
  · subst hv
    simp [slotKeys, SlotKeys.touch]
  · simp [slotKeys, Dict.get?_insert_ne, hv, Ne.symm hv]

/-- A loop over slots does to each what one iteration does, when a second iteration does no more. -/
theorem slotKeys_foldl {f : MockDb → String → MockDb} {g : SlotKeys → SlotKeys}
    (hf : ∀ db sid, (f db sid).slotKeys = update db.slotKeys sid (g (db.slotKeys sid)))
    (hg : ∀ k, g (g k) = g k) (sids : List String) (db : MockDb) (v : String) :
    (sids.foldl f db).slotKeys v = if v ∈ sids then g (db.slotKeys v) else db.slotKeys v := by
  induction sids generalizing db with
  | nil => simp
  | cons sid rest ih =>
    rw [List.foldl_cons, ih, hf]
    by_cases hv : v = sid
    · subst hv
      simp [hg]
    · simp [hv]

/-- Reconciling drops exactly the pins that have lapsed. -/
theorem slotKeys_reconcilePins (db : MockDb) (now : ℤ) (v : String) :
    (db.reconcilePins now).slotKeys v =
      if ∃ lapses, (db.slotKeys v).lapses = some lapses ∧ lapses ≤ now then (db.slotKeys v).unpin
      else db.slotKeys v := by
  unfold reconcilePins
  rw [slotKeys_foldl slotKeys_reconcileOne SlotKeys.unpin_unpin]
  simp only [Dict.mem_rangeByScore]
  rfl

/-- Releasing drops exactly the pins of the slots that are listed under their owner. -/
theorem slotKeys_releaseScript (db : MockDb) (operation v : String) :
    (db.releaseScript operation).slotKeys v =
      if v ∈ (db.pinOps.get? operation).getD [] ∧ (db.slotKeys v).owner = some operation then
        (db.slotKeys v).unpin
      else db.slotKeys v := by
  have hfold := slotKeys_foldl (slotKeys_releaseOne operation)
    (g := fun k => if k.owner = some operation then k.unpin else k) (fun k => ?_)
    ((db.pinOps.get? operation).getD []) db v
  · refine Eq.trans hfold ?_
    by_cases hmem : v ∈ (db.pinOps.get? operation).getD []
    · simp [hmem]
    · simp [hmem]
  · by_cases hk : k.owner = some operation
    · simp [hk, SlotKeys.unpin]
    · simp [hk]

/-- The cleanup removes the slots of a list. -/
theorem slotKeys_foldl_dropSlot (sids : List String) (db : MockDb) (v : String) :
    (sids.foldl dropSlot db).slotKeys v =
      if v ∈ sids then (db.slotKeys v).drop else db.slotKeys v :=
  slotKeys_foldl slotKeys_dropSlot (fun _ => rfl) sids db v

/-- Removing records changes the keys of no slot. -/
theorem slotKeys_foldl_eq {f : MockDb → String → MockDb} (hf : ∀ db k, (f db k).slotKeys = db.slotKeys)
    (keys : List String) (db : MockDb) : (keys.foldl f db).slotKeys = db.slotKeys :=
  List.foldlRecOn keys f (motive := fun db' : MockDb => db'.slotKeys = db.slotKeys) rfl
    fun db' hdb' k _ => (hf db' k).trans hdb'

/-- What the cleanup does to the keys of a slot: it drops its pin if that has lapsed, and removes it if
it is in the batch of idle ones. -/
theorem slotKeys_cleanupScript (db : MockDb) (now idleCutoff : ℤ) (batch : ℕ) (v : String) :
    (db.cleanupScript now idleCutoff batch).2.slotKeys v =
      if v ∈ ((db.reconcilePins now).lru.rangeByScore idleCutoff).take batch then
        ((db.reconcilePins now).slotKeys v).drop
      else (db.reconcilePins now).slotKeys v := by
  unfold cleanupScript
  dsimp only
  rw [slotKeys_foldl_eq slotKeys_dropTombstone, slotKeys_foldl_eq slotKeys_dropBooking,
    slotKeys_foldl_dropSlot]

/-! ## The records of the bookings -/

/-- The database without its slots: the bookings, the tombstones and their deadlines. -/
def records (db : MockDb) : MockDb :=
  { db.rest with slots := .empty, all := .empty }

theorem records_of_rest {db db' : MockDb} (h : db'.rest = db.rest) : db'.records = db.records :=
  congrArg (fun db : MockDb => { db with slots := .empty, all := .empty }) h

/-- Whether a slot is buried is a matter of the records. -/
theorem buried_of_records {db db' : MockDb} (h : db'.records = db.records) (sid : String) (now : ℤ) :
    db'.buried sid now = db.buried sid now := by
  have hbooked : db'.records.booked = db.records.booked := congrArg MockDb.booked h
  have hbooked : db'.booked = db.booked := hbooked
  rw [buried, buried, hbooked]

@[simp]
theorem records_dropSlot (db : MockDb) (sid : String) : (db.dropSlot sid).records = db.records := rfl

/-- A publication leaves the records alone. -/
theorem records_publishOne {operation : String} {now pinTtl : ℤ} {capacity : ℕ} {acc acc' : Publication}
    {slot : AvailabilitySlot} (h : publishOne operation now pinTtl capacity acc slot = some acc') :
    acc'.db.records = acc.db.records := by
  unfold publishOne at h
  dsimp only at h
  split at h
  · contradiction
  · obtain rfl := Option.some.inj h
    rfl
  · split at h
    · obtain rfl := Option.some.inj h
      exact (records_of_rest (rest_pinSlot operation now pinTtl _ slot.slotId)).trans rfl
    · split at h
      · obtain rfl := Option.some.inj h
        rfl
      next room hroom =>
        have hrecords : room.records = acc.db.records := by
          split at hroom
          · obtain ⟨victim, -, rfl⟩ := Option.map_eq_some_iff.mp hroom
            rfl
          · obtain rfl := Option.some.inj hroom
            rfl
        obtain rfl := Option.some.inj h
        exact (records_of_rest (rest_pinSlot operation now pinTtl _ slot.slotId)).trans hrecords

theorem records_publishLoop (operation : String) (now pinTtl : ℤ) (capacity : ℕ)
    (candidates : List AvailabilitySlot) (acc : Publication) :
    (publishLoop operation now pinTtl capacity candidates acc).2.records = acc.db.records := by
  induction candidates generalizing acc with
  | nil => rfl
  | cons slot rest ih =>
    unfold publishLoop
    split
    · rfl
    next acc' hacc => rw [ih acc', records_publishOne hacc]

@[simp]
theorem records_publishScript (db : MockDb) (operation : String) (now pinTtl : ℤ) (capacity : ℕ)
    (candidates : List AvailabilitySlot) :
    (db.publishScript operation now pinTtl capacity candidates).2.records = db.records :=
  (records_publishLoop operation now pinTtl capacity candidates _).trans
    (records_of_rest (db.rest_reconcilePins now))

@[simp]
theorem records_releaseScript (db : MockDb) (operation : String) :
    (db.releaseScript operation).records = db.records :=
  records_of_rest (db.rest_releaseScript operation)

/-- What `BOOK_SLOT` does, by the tests that it makes. -/
theorem bookScript_spec (db : MockDb) (sid key : String) (conf : Option BookingConfirmation)
    (protectedMs now : ℤ) :
    (∃ text, db.protectedBooking key now = some text ∧
      db.bookScript sid key conf protectedMs now = (some (.existing text), db)) ∨
    db.protectedBooking key now = none ∧
      (db.takenByOther sid key now = none ∧ db.bookScript sid key conf protectedMs now = (none, db) ∨
      db.takenByOther sid key now = some true ∧
        db.bookScript sid key conf protectedMs now = (some .unavailable, db) ∨
      db.takenByOther sid key now = some false ∧
        (db.slots.get? sid = none ∧ db.bookScript sid key conf protectedMs now = (some .notFound, db) ∨
        ∃ slot, db.slots.get? sid = some slot ∧
          db.bookScript sid key conf protectedMs now =
            (some (.booked conf), db.book sid key conf protectedMs))) := by
  unfold bookScript
  cases hprotected : db.protectedBooking key now with
  | some text => exact .inl ⟨text, rfl, rfl⟩
  | none =>
    refine .inr ⟨rfl, ?_⟩
    cases htaken : db.takenByOther sid key now with
    | none => exact .inl ⟨rfl, rfl⟩
    | some taken =>
      cases taken with
      | true => exact .inr (.inl ⟨rfl, rfl⟩)
      | false =>
        refine .inr (.inr ⟨rfl, ?_⟩)
        cases hslot : db.slots.get? sid with
        | none => exact .inl ⟨rfl, by simp [hslot]⟩
        | some slot => exact .inr ⟨slot, rfl, by simp [hslot]⟩

/-- What a booking makes of the records. -/
theorem records_book (db : MockDb) (sid key : String) (conf : Option BookingConfirmation)
    (protectedMs : ℤ) : (db.book sid key conf protectedMs).records = { db.records with
      bookings := db.bookings.insert key conf
      bookExp := db.bookExp.insert key protectedMs
      booked := db.booked.insert sid (tombstoneText key protectedMs)
      tombExp := db.tombExp.insert sid protectedMs } :=
  (records_of_rest (rest_disown _ sid)).trans rfl

/-- A booking stores one text. -/
theorem bookings_book (db : MockDb) (sid key : String) (conf : Option BookingConfirmation)
    (protectedMs : ℤ) : (db.book sid key conf protectedMs).bookings = db.bookings.insert key conf :=
  (congrArg MockDb.bookings (db.records_book sid key conf protectedMs) :)

theorem foldl_dropSlot (sids : List String) (db : MockDb) :
    sids.foldl dropSlot db = { db with
      lru := MockState.eraseAll db.lru sids
      all := MockState.eraseAll db.all sids
      slots := MockState.eraseAll db.slots sids } := by
  induction sids generalizing db with
  | nil => rfl
  | cons sid rest ih => exact ih (db.dropSlot sid)

theorem foldl_dropBooking (keys : List String) (db : MockDb) :
    keys.foldl dropBooking db = { db with
      bookings := MockState.eraseAll db.bookings keys
      bookExp := MockState.eraseAll db.bookExp keys } := by
  induction keys generalizing db with
  | nil => rfl
  | cons key rest ih => exact ih (db.dropBooking key)

theorem foldl_dropTombstone (sids : List String) (db : MockDb) :
    sids.foldl dropTombstone db = { db with
      booked := MockState.eraseAll db.booked sids
      tombExp := MockState.eraseAll db.tombExp sids } := by
  induction sids generalizing db with
  | nil => rfl
  | cons sid rest ih => exact ih (db.dropTombstone sid)

/-- The cleanup counts the bookings that it removes. -/
theorem cleanupScript_expiredRecords (db : MockDb) (now idleCutoff : ℤ) (batch : ℕ) :
    (db.cleanupScript now idleCutoff batch).1.expiredRecords =
      ((db.bookExp.rangeByScore now).take batch).length := by
  have hbookExp : (db.reconcilePins now).bookExp = db.bookExp :=
    (congrArg MockDb.bookExp (db.rest_reconcilePins now) :)
  unfold cleanupScript
  simp only [foldl_dropSlot, hbookExp]

/-- What the cleanup makes of the records: it removes a batch of those whose time has passed. -/
theorem records_cleanupScript (db : MockDb) (now idleCutoff : ℤ) (batch : ℕ) :
    (db.cleanupScript now idleCutoff batch).2.records = { db.records with
      bookings := MockState.eraseAll db.bookings ((db.bookExp.rangeByScore now).take batch)
      bookExp := MockState.eraseAll db.bookExp ((db.bookExp.rangeByScore now).take batch)
      booked := MockState.eraseAll db.booked ((db.tombExp.rangeByScore now).take batch)
      tombExp := MockState.eraseAll db.tombExp ((db.tombExp.rangeByScore now).take batch) } := by
  have hrecords := records_of_rest (db.rest_reconcilePins now)
  have hbookings := congrArg MockDb.bookings hrecords
  have hbookExp := congrArg MockDb.bookExp hrecords
  have hbooked := congrArg MockDb.booked hrecords
  have htombExp := congrArg MockDb.tombExp hrecords
  unfold cleanupScript
  simp only [foldl_dropSlot, foldl_dropBooking, foldl_dropTombstone]
  simp only [records, rest] at hbookings hbookExp hbooked htombExp ⊢
  rw [hbookings, hbookExp, hbooked, htombExp]

end MockDb

end Dibs
