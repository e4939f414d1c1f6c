import Dibs.Mock.Representation
import Dibs.Redis.Repository

/-!
# Pins of the mock provider that lapse

A pin that has lapsed is dropped at the next publication or cleanup, in memory and on Redis, and nothing
reads it before. `SlotKeys.settle` is what the keys of a slot come to by then; `MockState.slotKeys` is what
the keys of a slot in memory would be. A release looks for the pins of an operation in its list, so a pin
that has not lapsed has to be listed (`PinsListed`).
-/

namespace Dibs

/-- The whole milliseconds of an instant, as a number that loses nothing on the way. -/
def millis (t : Time) : ℤ := t.tdiv 1000

/-- The instant of a whole millisecond. -/
def ofMillis (milliseconds : ℤ) : Time := milliseconds * 1000

theorem millis_mono {a b : Time} (h : a ≤ b) : millis a ≤ millis b := Int.tdiv_le_tdiv (by decide) h

@[simp]
theorem millis_ofMillis (milliseconds : ℤ) : millis (ofMillis milliseconds) = milliseconds :=
  Int.mul_tdiv_cancel _ (by decide)

/-- An instant on a whole millisecond. -/
def Time.Whole (t : Time) : Prop := ofMillis (millis t) = t

theorem whole_ofMillis (milliseconds : ℤ) : Time.Whole (ofMillis milliseconds) := by
  unfold Time.Whole
  rw [millis_ofMillis]

theorem ofMillis_add (a b : ℤ) : ofMillis a + ofMillis b = ofMillis (a + b) := by
  unfold ofMillis
  ring

/-- Whole milliseconds compare as their numbers do. -/
theorem ofMillis_lt_iff (a b : ℤ) : ofMillis a < ofMillis b ↔ a < b := by
  have h : a * 1000 < b * 1000 ↔ a < b := by omega
  exact h

namespace SlotKeys

/-- The keys of a slot once a lapsed pin is dropped. -/
def settle (now : ℤ) (k : SlotKeys) : SlotKeys :=
  if ∃ lapses, k.lapses = some lapses ∧ lapses ≤ now then k.unpin else k

/-- Settled keys have no lapsed pin. -/
theorem lt_of_settle {now lapses : ℤ} {k : SlotKeys} (h : (k.settle now).lapses = some lapses) :
    now < lapses := by
  unfold settle at h
  split at h
  · contradiction
  next hlive =>
    by_contra hle
    exact hlive ⟨lapses, h, not_lt.mp hle⟩

/-- Keys that settle with a pin are settled. -/
theorem settle_of_lapses {now lapses : ℤ} {k : SlotKeys} (h : (k.settle now).lapses = some lapses) :
    k.settle now = k := by
  unfold settle at h ⊢
  split
  next hlapsed =>
    rw [if_pos hlapsed] at h
    contradiction
  next => rfl

/-- Keys without a lapsed pin are settled. -/
theorem settle_eq {now : ℤ} {k : SlotKeys} (h : ∀ lapses, k.lapses = some lapses → now < lapses) :
    k.settle now = k := by
  unfold settle
  rw [if_neg]
  rintro ⟨lapses, hlapses, hle⟩
  exact absurd (h lapses hlapses) (not_lt.mpr hle)

@[simp]
theorem settle_doc (now : ℤ) (k : SlotKeys) : (k.settle now).doc = k.doc := by
  unfold settle
  split <;> rfl

/-- Dropping a pin that settles away changes nothing. -/
theorem settle_unpin {now : ℤ} {k : SlotKeys} (hk : k.Sound) (h : (k.settle now).lapses = none) :
    k.unpin.settle now = k.settle now := by
  have hunpin : k.unpin.settle now = k.unpin := settle_eq fun lapses h => by contradiction
  rw [hunpin]
  unfold settle at h ⊢
  split
  next => rfl
  next hlive =>
    rw [if_neg hlive] at h
    -- Without a pin there is nothing to drop.
    cases hk with
    | absent => rfl
    | evictable => rfl
    | pinned => contradiction

/-- Keys that settle at an instant to the same do so later. -/
theorem settle_settle {now later : ℤ} (h : now ≤ later) (k : SlotKeys) :
    (k.settle now).settle later = k.settle later := by
  by_cases hlapsed : ∃ lapses, k.lapses = some lapses ∧ lapses ≤ now
  · obtain ⟨lapses, hlapses, hle⟩ := hlapsed
    have hnow : k.settle now = k.unpin := if_pos ⟨lapses, hlapses, hle⟩
    have hlater : k.settle later = k.unpin := if_pos ⟨lapses, hlapses, hle.trans h⟩
    rw [hnow, hlater]
    exact settle_eq fun lapses h => by contradiction
  · have hnow : k.settle now = k := if_neg hlapsed
    rw [hnow]

end SlotKeys

namespace MockState

/-- What the database would hold of a slot. -/
def slotKeys (m : MockState) (sid : String) : SlotKeys :=
  match m.slots.get? sid, m.pins.get? sid with
  | none, _ => .absent
  | some entry, none => .evictable entry.slot (millis entry.lastTouch)
  | some entry, some pin =>
    .pinned entry.slot (millis entry.lastTouch) (millis pin.expiresAt) pin.operationId

theorem slotKeys_sound (m : MockState) (sid : String) : (m.slotKeys sid).Sound := by
  unfold slotKeys
  split
  · exact .absent
  · exact .evictable ..
  · exact .pinned ..

/-- Every instant that the slots and the pins hold is a whole millisecond. -/
structure WholeSlots (m : MockState) : Prop where
  touch : ∀ sid entry, m.slots.get? sid = some entry → Time.Whole entry.lastTouch
  pin : ∀ sid pin, m.pins.get? sid = some pin → Time.Whole pin.expiresAt

end MockState

namespace MockDb

/-- What a key with a time to live stands for has run out, by the deadlines that the scripts read. -/
def Lapsed (db : MockDb) (now : ℤ) : MockKey → Prop
  | .booking key => ∀ deadline, db.bookExp.get? key = some deadline → deadline ≤ now
  | .booked sid => ∀ deadline, db.tombExp.get? sid = some deadline → deadline ≤ now
  | .pinOp operation => ∀ sid lapses, (db.slotKeys sid).owner = some operation →
      (db.slotKeys sid).lapses = some lapses → lapses ≤ now

/-- The slots that are listed under an operation. -/
def listed (db : MockDb) (operation : String) : List String := (db.pinOps.get? operation).getD []

/-- A pin that has not lapsed is listed under its owner, and none lasts longer than a pin does from
now. -/
structure PinsListed (pinTtl now : ℤ) (db : MockDb) : Prop where
  listed : ∀ sid owner lapses, (db.slotKeys sid).owner = some owner →
    (db.slotKeys sid).lapses = some lapses → now < lapses → sid ∈ db.listed owner
  bound : ∀ sid lapses, (db.slotKeys sid).lapses = some lapses → lapses ≤ now + pinTtl

/-- Taking one slot off a list keeps the others on it. -/
theorem mem_listed_unlist {db : MockDb} (operation : String) {sid v owner : String} (hv : v ≠ sid)
    (h : v ∈ db.listed owner) : v ∈ (db.unlist operation sid).listed owner := by
  unfold unlist
  split
  · exact h
  next members hmembers =>
    by_cases howner : owner = operation
    · subst howner
      have hmem : v ∈ members.erase sid := by
        rw [listed, hmembers] at h
        exact (List.mem_erase_of_ne hv).mpr h
      have hne : members.erase sid ≠ [] := List.ne_nil_of_mem hmem
      simp only [listed, if_neg hne, Dict.get?_insert_self, Option.getD_some]
      exact hmem
    · simp only [listed] at h ⊢
      split
      · rwa [Dict.get?_erase_ne _ (Ne.symm howner)]
      · rwa [Dict.get?_insert_ne _ _ (Ne.symm howner)]

theorem mem_listed_takeOver {db : MockDb} {sid v operation owner : String} (hv : v ≠ sid)
    (h : v ∈ db.listed owner) : v ∈ (db.takeOver operation sid).listed owner := by
  unfold takeOver
  split
  · split
    · exact mem_listed_unlist _ hv h
    · exact h
  · exact h

theorem mem_listed_disown (db : MockDb) {sid v owner : String} (hv : v ≠ sid)
    (h : v ∈ db.listed owner) : v ∈ (db.disown sid).listed owner := by
  unfold disown
  split
  next owner' _ => exact mem_listed_unlist owner' hv h
  next => exact h

theorem listed_returnToLru (db : MockDb) (sid owner : String) :
    (db.returnToLru sid).listed owner = db.listed owner := by
  unfold returnToLru
  repeat' split
  all_goals rfl

theorem mem_listed_reconcileOne {db : MockDb} {sid v owner : String} (hv : v ≠ sid)
    (h : v ∈ db.listed owner) : v ∈ (db.reconcileOne sid).listed owner := by
  unfold reconcileOne
  rw [listed_returnToLru]
  exact mem_listed_disown _ hv h

/-- Releasing an operation leaves the lists of the others. -/
theorem listed_releaseScript (db : MockDb) {operation owner : String} (h : operation ≠ owner) :
    (db.releaseScript operation).listed owner = db.listed owner := by
  have hloop : (((db.pinOps.get? operation).getD []).foldl (releaseOne operation) db).pinOps = db.pinOps := by
    refine List.foldlRecOn _ (releaseOne operation) (motive := fun db' : MockDb => db'.pinOps = db.pinOps) rfl ?_
    intro db' hdb' sid _
    rw [← hdb']
    unfold releaseOne returnToLru
    repeat' split
    all_goals rfl
  unfold releaseScript MockDb.listed
  simp only [hloop, Dict.get?_erase_ne _ h]

variable {pinTtl now : ℤ} {db db' : MockDb}

/-- A change of one slot keeps the pins listed when it keeps the others on their lists. -/
theorem PinsListed.update (h : db.PinsListed pinTtl now) {sid : String} {k : SlotKeys}
    (hkeys : db'.slotKeys = Function.update db.slotKeys sid k)
    (hothers : ∀ v owner lapses, v ≠ sid → (db.slotKeys v).lapses = some lapses → now < lapses →
      v ∈ db.listed owner → v ∈ db'.listed owner)
    (hlisted : ∀ owner lapses, k.owner = some owner → k.lapses = some lapses → now < lapses →
      sid ∈ db'.listed owner)
    (hbound : ∀ lapses, k.lapses = some lapses → lapses ≤ now + pinTtl) :
    db'.PinsListed pinTtl now := by
  constructor
  · intro v owner lapses howner hlapses hlive
    rw [hkeys] at howner hlapses
    by_cases hv : v = sid
    · subst hv
      rw [Function.update_self] at howner hlapses
      exact hlisted owner lapses howner hlapses hlive
    · rw [Function.update_of_ne hv] at howner hlapses
      exact hothers v owner lapses hv hlapses hlive (h.listed v owner lapses howner hlapses hlive)
  · intro v lapses hlapses
    rw [hkeys] at hlapses
    by_cases hv : v = sid
    · subst hv
      rw [Function.update_self] at hlapses
      exact hbound lapses hlapses
    · rw [Function.update_of_ne hv] at hlapses
      exact h.bound v lapses hlapses

/-- Pins stay listed as time passes. -/
theorem PinsListed.mono (h : db.PinsListed pinTtl now) {later : ℤ} (hle : now ≤ later) :
    db.PinsListed pinTtl later := by
  constructor
  · intro sid owner lapses howner hlapses hlive
    exact h.listed sid owner lapses howner hlapses (lt_of_le_of_lt hle hlive)
  · intro sid lapses hlapses
    have := h.bound sid lapses hlapses
    omega

/-- A list may vanish once every pin of its operation has lapsed. -/
theorem PinsListed.expire (h : db.PinsListed pinTtl now) {key : MockKey} (hlapsed : db.Lapsed now key) :
    (db.expire key).PinsListed pinTtl now := by
  constructor
  · intro sid owner lapses howner hl hlive
    rw [slotKeys_expire] at howner hl
    have hmem := h.listed sid owner lapses howner hl hlive
    cases key with
    | pinOp operation =>
      have hne : operation ≠ owner := by
        rintro rfl
        exact not_lt.mpr (hlapsed sid lapses howner hl) hlive
      simp only [MockDb.listed, MockDb.expire] at hmem ⊢
      rwa [Dict.get?_erase_ne _ hne]
    | _ => exact hmem
  · intro sid lapses hl
    rw [slotKeys_expire] at hl
    exact h.bound sid lapses hl

/-- Reconciling keeps the pins listed. -/
theorem PinsListed.reconcilePins (h : db.PinsListed pinTtl now) :
    (db.reconcilePins now).PinsListed pinTtl now := by
  unfold MockDb.reconcilePins
  refine List.foldlRecOn _ reconcileOne (motive := fun db : MockDb => db.PinsListed pinTtl now) h ?_
  intro db' h' sid _
  refine h'.update (db'.slotKeys_reconcileOne sid) (fun v owner _ hv _ _ hmem => ?_) ?_ ?_
  · exact mem_listed_reconcileOne hv hmem
  · exact fun owner lapses howner => by contradiction
  · exact fun lapses hlapses => by contradiction

/-- Pinning keeps the pins listed. With a lifetime that is not positive the list goes, but then no pin
lasts. -/
theorem PinsListed.pinSlot (h : db.PinsListed pinTtl now) (operation sid : String) :
    (pinSlot operation now pinTtl db sid).PinsListed pinTtl now := by
  refine h.update (slotKeys_pinSlot operation now pinTtl db sid) ?_ ?_ ?_
  · intro v owner lapses hv hlapses hlive hmem
    have hbound := h.bound v lapses hlapses
    have hmoved : v ∈ (({ db with lru := db.lru.erase sid } : MockDb).takeOver operation sid).listed owner :=
      mem_listed_takeOver hv hmem
    unfold MockDb.pinSlot
    simp only [MockDb.listed] at hmoved ⊢
    rw [if_neg (by omega)]
    by_cases howner : operation = owner
    · subst howner
      rw [Dict.get?_insert_self]
      exact List.mem_insert_of_mem hmoved
    · rwa [Dict.get?_insert_ne _ _ howner]
  · intro owner lapses howner hlapses hlive
    obtain rfl : operation = owner := Option.some.inj howner
    obtain rfl : now + pinTtl = lapses := Option.some.inj hlapses
    unfold MockDb.pinSlot
    simp only [MockDb.listed]
    rw [if_neg (by omega), Dict.get?_insert_self]
    exact List.mem_insert_self
  · intro lapses hlapses
    exact (Option.some.inj hlapses).symm.le

/-- A booking keeps the other pins listed. -/
theorem PinsListed.book (h : db.PinsListed pinTtl now) (sid key : String)
    (conf : Option BookingConfirmation) (protectedMs : ℤ) :
    (db.book sid key conf protectedMs).PinsListed pinTtl now := by
  refine h.update (db.slotKeys_book sid key conf protectedMs) (fun v owner _ hv _ _ hmem => ?_) ?_ ?_
  · exact mem_listed_disown { db with
      bookings := db.bookings.insert key conf
      bookExp := db.bookExp.insert key protectedMs
      booked := db.booked.insert sid (tombstoneText key protectedMs)
      tombExp := db.tombExp.insert sid protectedMs
      slots := db.slots.erase sid
      all := db.all.erase sid
      lru := db.lru.erase sid
      pin := db.pin.erase sid } hv hmem
  · exact fun owner lapses howner => by contradiction
  · exact fun lapses hlapses => by contradiction

end MockDb

end Dibs
