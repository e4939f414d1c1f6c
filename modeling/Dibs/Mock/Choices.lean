import Mathlib.Data.List.Induction
import Dibs.Mock.Pins
import Dibs.Mock.Protection

/-!
# What the mock provider chooses

The store in memory goes through its tables in their order: it evicts the first of the slots that were
untouched longest, and cleans up the first entries that are due. The store on Redis takes both by score
and then by name. `TiesByName` and `BatchByScore` say that the two orders lead to the same choice.
-/

namespace Dibs

open Function (update)

namespace MockState

/-- What the search for the slot that was untouched longest has found among some entries. -/
def OldestOf (exempt : List String) (entries : List (String × SlotEntry)) :
    Option (String × Time) → Prop
  | none => ∀ e ∈ entries, e.1 ∈ exempt
  | some (victim, touch) => (∃ e ∈ entries, e.1 = victim ∧ e.1 ∉ exempt ∧ e.2.lastTouch = touch) ∧
    ∀ e ∈ entries, e.1 ∉ exempt → touch ≤ e.2.lastTouch

/-- The search of `_evict_one` finds it. -/
theorem oldestOf_foldl (exempt : List String) (entries : List (String × SlotEntry)) :
    OldestOf exempt entries (entries.foldl (olderOf exempt) none) := by
  induction entries using List.reverseRecOn with
  | nil => exact fun e he => absurd he List.not_mem_nil
  | append_singleton entries e ih =>
    rw [List.foldl_concat]
    generalize entries.foldl (olderOf exempt) none = oldest at ih
    unfold olderOf
    split
    next hexempt =>
      -- The entry is exempt, so the search goes on with what it had.
      cases oldest with
      | none =>
        intro e' he'
        rcases List.mem_append.mp he' with he' | he'
        · exact ih e' he'
        · rw [List.mem_singleton.mp he']
          exact hexempt
      | some found =>
        obtain ⟨⟨e', he', hfound⟩, hleast⟩ := ih
        refine ⟨⟨e', List.mem_append_left _ he', hfound⟩, fun e'' he'' hno => ?_⟩
        rcases List.mem_append.mp he'' with he'' | he''
        · exact hleast e'' he'' hno
        · rw [List.mem_singleton.mp he''] at hno
          exact absurd hexempt hno
    next hfree =>
      split
      next =>
        refine ⟨⟨e, by simp, rfl, hfree, rfl⟩, fun e' he' hno => ?_⟩
        rcases List.mem_append.mp he' with he' | he'
        · exact absurd (ih e' he') hno
        · rw [List.mem_singleton.mp he']
      next victim touch =>
        obtain ⟨⟨e', he', hfound⟩, hleast⟩ := ih
        split
        next hlt =>
          refine ⟨⟨e, by simp, rfl, hfree, rfl⟩, fun e'' he'' hno => ?_⟩
          rcases List.mem_append.mp he'' with he'' | he''
          · exact hlt.le.trans (hleast e'' he'' hno)
          · rw [List.mem_singleton.mp he'']
        next hge =>
          refine ⟨⟨e', List.mem_append_left _ he', hfound⟩, fun e'' he'' hno => ?_⟩
          rcases List.mem_append.mp he'' with he'' | he''
          · exact hleast e'' he'' hno
          · rw [List.mem_singleton.mp he'']
            exact not_lt.mp hge

/-- Among the evictable slots that were untouched longest, the first in the table is the first by
name. -/
def TiesByName (m : MockState) (exempt : List String) : Prop :=
  ∀ oldest ∈ m.slots.entries.foldl (olderOf exempt) none, ∀ e ∈ m.slots.entries,
    e.1 ∉ exempt → e.2.lastTouch = oldest.2 → oldest.1 ≤ e.1

instance (m : MockState) (exempt : List String) : Decidable (m.TiesByName exempt) :=
  inferInstanceAs (Decidable (∀ oldest ∈ m.slots.entries.foldl (olderOf exempt) none, _))

/-- A candidate is new, no tombstone keeps it out, and the store is full. -/
def NeedsRoom (now : Time) (acc : Published) (slot : AvailabilitySlot) : Prop :=
  (acc.state.tombstones.get? slot.slotId).any (fun tomb => decide (now < tomb.protectedUntil)) = false ∧
    acc.state.slots.get? slot.slotId = none ∧ acc.state.capacity ≤ acc.state.slots.size

instance (now : Time) (acc : Published) (slot : AvailabilitySlot) : Decidable (NeedsRoom now acc slot) :=
  inferInstanceAs (Decidable (_ ∧ _))

/-- A candidate changes nothing of the state but its slots. -/
theorem publishOne_state (now : Time) (acc : Published) (slot : AvailabilitySlot) :
    ∃ slots, (publishOne now acc slot).state = { acc.state with slots := slots } := by
  unfold publishOne
  dsimp only
  split
  · exact ⟨_, rfl⟩
  · split
    · exact ⟨_, rfl⟩
    · split
      · exact ⟨_, rfl⟩
      next room hroom =>
        split at hroom
        · obtain ⟨oldest, -, rfl⟩ := Option.map_eq_some_iff.mp hroom
          exact ⟨_, rfl⟩
        · obtain rfl := Option.some.inj hroom
          exact ⟨_, rfl⟩

/-- Nor does a list of candidates. -/
theorem publish_state (now : Time) (candidates : List AvailabilitySlot) (acc : Published) :
    ∃ slots, (candidates.foldl (publishOne now) acc).state = { acc.state with slots := slots } := by
  induction candidates generalizing acc with
  | nil => exact ⟨_, rfl⟩
  | cons slot rest ih =>
    obtain ⟨slots, hslots⟩ := publishOne_state now acc slot
    obtain ⟨slots', hslots'⟩ := ih (publishOne now acc slot)
    exact ⟨slots', by rw [List.foldl_cons, hslots', hslots]⟩

/-- Every eviction for a list of candidates meets its ties by name. -/
def PublishTies (now : Time) : List AvailabilitySlot → Published → Prop
  | [], _ => True
  | slot :: rest, acc =>
    (NeedsRoom now acc slot → acc.state.TiesByName (acc.state.pinnedIds now ++ acc.admitted)) ∧
      PublishTies now rest (publishOne now acc slot)

instance decidablePublishTies (now : Time) : ∀ candidates acc, Decidable (PublishTies now candidates acc)
  | [], _ => inferInstanceAs (Decidable True)
  | slot :: rest, acc =>
    have := decidablePublishTies now rest (publishOne now acc slot)
    inferInstanceAs (Decidable (_ ∧ _))

/-- A slot is in the eviction index exactly when it is there and not pinned. -/
theorem idle_eq_some_iff (m : MockState) (sid : String) (touched : ℤ) :
    (m.slotKeys sid).idle = some touched ↔ ∃ entry, m.slots.get? sid = some entry ∧
      m.pins.get? sid = none ∧ millis entry.lastTouch = touched := by
  unfold slotKeys
  cases hslot : m.slots.get? sid with
  | none => simp [SlotKeys.absent]
  | some entry =>
    cases hpin : m.pins.get? sid with
    | none => simp [SlotKeys.evictable]
    | some pin => simp [SlotKeys.pinned]

@[simp]
theorem slotKeys_doc (m : MockState) (sid : String) :
    (m.slotKeys sid).doc = (m.slots.get? sid).map SlotEntry.slot := by
  unfold slotKeys
  cases m.slots.get? sid with
  | none => rfl
  | some entry => cases m.pins.get? sid <;> rfl

/-- A slot that is there and not pinned is evictable. -/
theorem slotKeys_evictable {m : MockState} {sid : String} {entry : SlotEntry}
    (hslot : m.slots.get? sid = some entry) (hpin : ¬ (m.pins.get? sid).isSome = true) :
    m.slotKeys sid = .evictable entry.slot (millis entry.lastTouch) := by
  rw [Option.not_isSome_iff_eq_none] at hpin
  simp only [slotKeys, hslot, hpin]

/-- The keys of a slot after the lapsed pins are dropped. -/
theorem slotKeys_expirePins {m : MockState} (h : m.WholeSlots) (now : ℤ) (sid : String) :
    (m.expirePins (ofMillis now)).slotKeys sid = (m.slotKeys sid).settle now := by
  simp only [slotKeys, expirePins, Dict.get?_filter]
  cases m.slots.get? sid with
  | none => rfl
  | some entry =>
    cases hpin : m.pins.get? sid with
    | none => rfl
    | some pin =>
      have hlive : ofMillis now < pin.expiresAt ↔ now < millis pin.expiresAt := by
        rw [← ofMillis_lt_iff now, h.pin sid pin hpin]
      by_cases hlapsed : now < millis pin.expiresAt
      · simp [Option.filter, hlive, hlapsed, SlotKeys.settle, SlotKeys.pinned, not_le.mpr hlapsed]
      · simp [Option.filter, hlive, hlapsed, SlotKeys.settle, SlotKeys.pinned, SlotKeys.evictable,
          SlotKeys.unpin, not_lt.mp hlapsed]

/-- Releasing drops the pins of an operation. -/
theorem slotKeys_releaseOperation (m : MockState) (operation sid : String) :
    (m.releaseOperation operation).slotKeys sid =
      if (m.slotKeys sid).owner = some operation then (m.slotKeys sid).unpin else m.slotKeys sid := by
  cases hslot : m.slots.get? sid with
  | none => simp [slotKeys, releaseOperation, hslot, SlotKeys.absent]
  | some entry =>
    cases hpin : m.pins.get? sid with
    | none => simp [slotKeys, releaseOperation, Dict.get?_filter, hslot, hpin, SlotKeys.evictable]
    | some pin =>
      by_cases howner : pin.operationId = operation
      · simp [slotKeys, releaseOperation, Dict.get?_filter, hslot, hpin, Option.filter, howner,
          SlotKeys.pinned, SlotKeys.evictable, SlotKeys.unpin]
      · simp [slotKeys, releaseOperation, Dict.get?_filter, hslot, hpin, Option.filter, howner,
          SlotKeys.pinned]

/-- A slot that `cleanup` finds idle. -/
def isIdle (m : MockState) (now : Time) (slotId : String) (entry : SlotEntry) : Bool :=
  !decide (slotId ∈ m.pinnedIds now) && decide (entry.lastTouch + m.idleTtl ≤ now)

/-- A batch of due keys, as the table orders them, are the first ones by score and then by name. -/
def BatchByScore {α : Type} (d : Dict String α) (due : String → α → Bool) (score : α → Time) (n : ℕ) :
    Prop :=
  ∀ x ∈ (d.filter due).entries.take n, ∀ y ∈ (d.filter due).entries.drop n,
    toLex (score x.2, x.1) ≤ toLex (score y.2, y.1)

instance {α : Type} (d : Dict String α) (due : String → α → Bool) (score : α → Time) (n : ℕ) :
    Decidable (BatchByScore d due score n) :=
  inferInstanceAs (Decidable (∀ x ∈ (d.filter due).entries.take n, _))

/-- Then a sorted set with the same due members yields the same batch. -/
theorem dueKeys_perm {α : Type} {d : Dict String α} {due : String → α → Bool} {score : α → Time} {n : ℕ}
    {z : Dict String ℤ} {max : ℤ}
    (hz : ∀ k s, z.get? k = some s ∧ s ≤ max ↔
      ∃ v, d.get? k = some v ∧ due k v = true ∧ millis (score v) = s)
    (hwhole : ∀ k v, d.get? k = some v → Time.Whole (score v)) (hbatch : BatchByScore d due score n) :
    (dueKeys d due n).Perm ((z.rangeByScore max).take n) := by
  have hnodup : ((d.filter due).entries.map Prod.fst).Nodup := (d.filter due).nodup
  have hfiltered : ∀ {k v}, (k, v) ∈ (d.filter due).entries ↔ d.get? k = some v ∧ due k v = true := by
    intro k v
    rw [← Dict.get?_eq_some_iff, Dict.get?_filter, Option.filter_eq_some_iff]
  have hrange : ∀ k, k ∈ z.rangeByScore max ↔ ∃ v, d.get? k = some v ∧ due k v = true := by
    intro k
    rw [Dict.mem_rangeByScore]
    constructor
    · rintro ⟨s, hs⟩
      obtain ⟨v, hv, hdue, -⟩ := (hz k s).mp hs
      exact ⟨v, hv, hdue⟩
    · rintro ⟨v, hv, hdue⟩
      exact ⟨_, (hz k _).mpr ⟨v, hv, hdue, rfl⟩⟩
  have hsame : ((d.filter due).entries.map Prod.fst).Perm (z.rangeByScore max) := by
    rw [List.perm_ext_iff_of_nodup hnodup (z.rangeByScore_nodup max)]
    intro k
    rw [hrange, Dict.mem_keys_iff, Dict.get?_filter, Option.isSome_iff_exists]
    simp only [Option.filter_eq_some_iff]
  refine z.take_rangeByScore_perm (hnodup.sublist (List.take_sublist ..)) (fun k hk => ?_) ?_ ?_
  · exact hsame.mem_iff.mp (List.mem_of_mem_take hk)
  · rw [dueKeys, List.length_take, hsame.length_eq]
  · intro x hx y hy hout sx sy hsx hsy
    rw [dueKeys, ← List.map_take] at hx hout
    obtain ⟨⟨x, vx⟩, hentry, rfl⟩ := List.mem_map.mp hx
    obtain ⟨hvx, hduex⟩ := hfiltered.mp (List.mem_of_mem_take hentry)
    obtain ⟨vy, hvy, hduey⟩ := (hrange y).mp hy
    -- An entry that is due but not in the batch comes after it.
    have hlater : (y, vy) ∈ (d.filter due).entries.drop n := by
      have hmem := hfiltered.mpr ⟨hvy, hduey⟩
      rw [← List.take_append_drop n (d.filter due).entries, List.mem_append] at hmem
      refine hmem.resolve_left fun htake => hout ?_
      exact List.mem_map.mpr ⟨_, htake, rfl⟩
    obtain ⟨hzx, -⟩ := (hz x _).mpr ⟨vx, hvx, hduex, rfl⟩
    obtain ⟨hzy, -⟩ := (hz y _).mpr ⟨vy, hvy, hduey, rfl⟩
    obtain rfl := Option.some.inj (hsx.symm.trans hzx)
    obtain rfl := Option.some.inj (hsy.symm.trans hzy)
    -- On whole milliseconds the scores compare as the instants do.
    rcases Prod.Lex.toLex_le_toLex.mp (hbatch _ hentry _ hlater) with hlt | ⟨heq, hname⟩
    · refine Prod.Lex.toLex_le_toLex.mpr (.inl ?_)
      have hlt' : score vx < score vy := hlt
      rwa [← hwhole x vx hvx, ← hwhole y vy hvy, ofMillis_lt_iff] at hlt'
    · exact Prod.Lex.toLex_le_toLex.mpr (.inr ⟨congrArg millis heq, hname⟩)

/-- The state of a publication with its pins transferred. -/
def Published.finish (acc : Published) (pin : Pin) : MockState :=
  { acc.state with
    pins := acc.admitted.foldl (fun pins slotId => pins.insert slotId pin) acc.state.pins }

theorem get?_foldl_insert {α : Type} (keys : List String) (d : Dict String α) (v : α) (k : String) :
    (keys.foldl (fun d k => d.insert k v) d).get? k = if k ∈ keys then some v else d.get? k := by
  induction keys generalizing d with
  | nil => simp
  | cons key rest ih =>
    rw [List.foldl_cons, ih, Dict.get?_insert]
    by_cases hk : key = k
    · simp [hk]
    · simp [hk, Ne.symm hk]

/-- Where no pin has lapsed, the pinned slots are those with a pin. -/
theorem mem_pinnedIds_iff {m : MockState} {now : Time}
    (hlive : ∀ sid pin, m.pins.get? sid = some pin → now < pin.expiresAt) (sid : String) :
    sid ∈ m.pinnedIds now ↔ (m.pins.get? sid).isSome = true := by
  unfold pinnedIds
  rw [Dict.mem_keys_iff, Dict.get?_filter]
  cases hpin : m.pins.get? sid with
  | none => rfl
  | some pin => simp [Option.filter, hlive sid pin hpin]

/-- A slot is exempt from an eviction exactly when it is pinned, or about to be. -/
theorem mem_exempt_iff {now : Time} {acc : Published}
    (hlive : ∀ sid pin, acc.state.pins.get? sid = some pin → now < pin.expiresAt) (pin : Pin)
    (sid : String) : sid ∈ acc.state.pinnedIds now ++ acc.admitted ↔
      ((acc.finish pin).pins.get? sid).isSome = true := by
  rw [List.mem_append, mem_pinnedIds_iff hlive, Published.finish, get?_foldl_insert]
  by_cases hadmitted : sid ∈ acc.admitted
  · simp [hadmitted]
  · simp [hadmitted]

/-- Admitting a slot is about one slot. -/
theorem slotKeys_finish_admit (acc : Published) (pin : Pin) (doc : AvailabilitySlot) (touch : Time)
    (sid : String) (result : List AvailabilitySlot) :
    (Published.finish ⟨{ acc.state with slots := acc.state.slots.insert sid ⟨doc, touch⟩ },
      acc.admitted.insert sid, result⟩ pin).slotKeys =
      update (acc.finish pin).slotKeys sid
        (.pinned doc (millis touch) (millis pin.expiresAt) pin.operationId) := by
  funext v
  simp only [Published.finish, slotKeys, get?_foldl_insert, List.mem_insert_iff]
  by_cases hv : v = sid
  · subst hv
    simp
  · simp only [hv, false_or, Dict.get?_insert_ne _ _ (Ne.symm hv), Function.update_of_ne hv, slotKeys,
      get?_foldl_insert]

/-- Removing a slot is about one slot. -/
theorem slotKeys_finish_erase (acc : Published) (pin : Pin) (victim : String) :
    (Published.finish { acc with state := { acc.state with slots := acc.state.slots.erase victim } }
      pin).slotKeys = update (acc.finish pin).slotKeys victim .absent := by
  funext v
  simp only [Published.finish, slotKeys, get?_foldl_insert]
  by_cases hv : v = victim
  · subst hv
    simp
  · simp only [Dict.get?_erase_ne _ (Ne.symm hv), Function.update_of_ne hv, slotKeys, get?_foldl_insert]

end MockState

end Dibs
