import Dibs.Mock.Choices
import Dibs.Mock.Repository

/-!
# The records of the mock provider in both stores

`RecordsAgree` relates the bookings and tombstones of `InMemoryMockBookingStateRepository` to the keys of
`RedisMockBookingStateRepository` at an instant. The deadlines of all bookings are the same, since the
cleanup counts them; of the rest only what is protected still has to agree, since nothing reads the rest.

On Redis the deadline of a tombstone is both a score and part of a text, and the scripts read the text.
It has to be `Legible`: a key with a bar, or a deadline past `10^14`, is not read back as it was written.
-/

namespace Dibs

/-- A tombstone that reads as one names the key that it was written with. -/
theorem key_of_parseTombstone {key : String} {ms : ℤ} {held : String × ℤ}
    (h : parseTombstone (tombstoneText key ms) = some held) : held.1 = key := by
  have htext : (tombstoneText key ms).toList = key.toList ++ '|' :: (luaToString ms).toList := by
    simp [tombstoneText]
  obtain ⟨⟨before, after⟩, hsplit, h⟩ := Option.bind_eq_some_iff.mp h
  obtain ⟨deadline, hdeadline, h⟩ := Option.bind_eq_some_iff.mp h
  obtain rfl := Option.some.inj h
  rw [htext] at hsplit
  -- A bar in the key would stand before the bar of the text, and the rest would be no number.
  have hbar : '|' ∉ key.toList := by
    intro hmem
    obtain ⟨l, r, hl, hfirst⟩ := List.eq_append_cons_of_mem hmem
    rw [hl, List.append_assoc, List.cons_append, splitOnce_append hfirst] at hsplit
    obtain ⟨-, rfl⟩ := Prod.mk.inj (Option.some.inj hsplit)
    exact bar_notMem_of_luaToNumber hdeadline (by simp)
  rw [splitOnce_append hbar] at hsplit
  obtain ⟨rfl, -⟩ := Prod.mk.inj (Option.some.inj hsplit)
  exact String.ofList_toList

namespace MockDb

/-- The text of a slot's tombstone, if there is one, reads as the deadline in `tombexp`. -/
def Legible (db : MockDb) (sid : String) : Prop :=
  ∀ text ∈ db.booked.get? sid, (parseTombstone text).map Prod.snd = db.tombExp.get? sid

instance (db : MockDb) (sid : String) : Decidable (db.Legible sid) :=
  inferInstanceAs (Decidable (∀ text ∈ db.booked.get? sid, _))

end MockDb

/-- The records of the two stores at an instant. -/
structure RecordsAgree (now : ℤ) (m : MockState) (db : MockDb) : Prop where
  whole : ∀ key b, m.bookings.get? key = some b → Time.Whole b.protectedUntil
  wholeTomb : ∀ sid t, m.tombstones.get? sid = some t → Time.Whole t.protectedUntil
  deadline : ∀ key, db.bookExp.get? key = (m.bookings.get? key).map fun b => millis b.protectedUntil
  /-- A booking that is protected is stored. -/
  booking : ∀ key b, m.bookings.get? key = some b → now < millis b.protectedUntil →
    db.bookings.get? key = some (some b.confirmation)
  /-- So is the text of a tombstone that protects. -/
  tombstone : ∀ sid t, m.tombstones.get? sid = some t → now < millis t.protectedUntil →
    db.booked.get? sid = some (tombstoneText t.key (millis t.protectedUntil)) ∧
      db.tombExp.get? sid = some (millis t.protectedUntil)
  /-- And every text is that of a tombstone, which protects until its deadline. -/
  text : ∀ sid text, db.booked.get? sid = some text → ∃ key ms, text = tombstoneText key ms ∧
    db.tombExp.get? sid = some ms ∧ (now < ms → m.tombstones.get? sid = some ⟨key, ofMillis ms⟩)

namespace RecordsAgree

variable {now : ℤ} {m m' : MockState} {db db' : MockDb}

/-- An instant in memory is past exactly when its milliseconds are. -/
theorem lt_iff {t : Time} (ht : t.Whole) : ofMillis now < t ↔ now < millis t := by
  rw [← ofMillis_lt_iff now (millis t), ht]

theorem mono (h : RecordsAgree now m db) {later : ℤ} (hle : now ≤ later) : RecordsAgree later m db where
  whole := h.whole
  wholeTomb := h.wholeTomb
  deadline := h.deadline
  booking key b hb hlive := h.booking key b hb (lt_of_le_of_lt hle hlive)
  tombstone sid t ht hlive := h.tombstone sid t ht (lt_of_le_of_lt hle hlive)
  text sid text htext := by
    obtain ⟨key, ms, hms, hexp, hheld⟩ := h.text sid text htext
    exact ⟨key, ms, hms, hexp, fun hlive => hheld (lt_of_le_of_lt hle hlive)⟩

/-- Whatever leaves the records of both stores alone keeps them in agreement. -/
theorem congr (h : RecordsAgree now m db) (hbookings : m'.bookings = m.bookings)
    (htombstones : m'.tombstones = m.tombstones) (hrecords : db'.records = db.records) :
    RecordsAgree now m' db' := by
  have hdbBookings : db'.bookings = db.bookings := (congrArg MockDb.bookings hrecords :)
  have hbookExp : db'.bookExp = db.bookExp := (congrArg MockDb.bookExp hrecords :)
  have hbooked : db'.booked = db.booked := (congrArg MockDb.booked hrecords :)
  have htombExp : db'.tombExp = db.tombExp := (congrArg MockDb.tombExp hrecords :)
  constructor
  · exact hbookings ▸ h.whole
  · exact htombstones ▸ h.wholeTomb
  · rw [hbookExp, hbookings]
    exact h.deadline
  · rw [hdbBookings, hbookings]
    exact h.booking
  · rw [hbooked, htombExp, htombstones]
    exact h.tombstone
  · rw [hbooked, htombExp, htombstones]
    exact h.text

/-- Where the tombstone of a slot is legible, it protects the slot for the same key in both stores, or in
neither. -/
theorem held_cases (h : RecordsAgree now m db) {sid : String} (hlegible : db.Legible sid) :
    (∃ key ms text, db.booked.get? sid = some text ∧ parseTombstone text = some (key, ms) ∧ now < ms ∧
      m.tombstones.get? sid = some ⟨key, ofMillis ms⟩) ∨
    (∀ text, db.booked.get? sid = some text → ∃ held, parseTombstone text = some held ∧ held.2 ≤ now) ∧
      ∀ t, m.tombstones.get? sid = some t → ¬ ofMillis now < t.protectedUntil := by
  cases hbooked : db.booked.get? sid with
  | none =>
    refine .inr ⟨fun text htext => by contradiction, fun t ht hlive => ?_⟩
    have hstored := (h.tombstone sid t ht ((lt_iff (h.wholeTomb sid t ht)).mp hlive)).1
    rw [hbooked] at hstored
    contradiction
  | some text =>
    obtain ⟨key, ms, rfl, hexp, hheld⟩ := h.text sid text hbooked
    have hread := hlegible _ hbooked
    rw [hexp] at hread
    obtain ⟨held, hparse, hdeadline⟩ := Option.map_eq_some_iff.mp hread
    have hkey := key_of_parseTombstone hparse
    by_cases hlive : now < ms
    · refine .inl ⟨key, ms, _, rfl, ?_, hlive, hheld hlive⟩
      rw [hparse, ← hkey, ← hdeadline]
    · refine .inr ⟨fun text htext => ⟨held, ?_, hdeadline.trans_le (not_lt.mp hlive)⟩, fun t ht hlater => ?_⟩
      · rw [← Option.some.inj htext, hparse]
      · -- A tombstone that protects has the deadline of the score.
        have hlater' := (lt_iff (h.wholeTomb sid t ht)).mp hlater
        have hexp' := (h.tombstone sid t ht hlater').2
        rw [hexp] at hexp'
        exact hlive (Option.some.inj hexp' ▸ hlater')

/-- The publications of both stores skip the same slots. -/
theorem buried (h : RecordsAgree now m db) {sid : String} (hlegible : db.Legible sid) :
    db.buried sid now =
      some ((m.tombstones.get? sid).any fun tomb => decide (ofMillis now < tomb.protectedUntil)) := by
  unfold MockDb.buried
  rcases h.held_cases hlegible with ⟨key, ms, text, hbooked, hparse, hlive, htomb⟩ | ⟨hdb, hm⟩
  · simp [hbooked, hparse, htomb, hlive, ofMillis_lt_iff]
  · have hfree : (m.tombstones.get? sid).any (fun tomb => decide (ofMillis now < tomb.protectedUntil)) =
        false := by
      cases htomb : m.tombstones.get? sid with
      | none => rfl
      | some t => simpa using hm t htomb
    rw [hfree]
    cases hbooked : db.booked.get? sid with
    | none => rfl
    | some text =>
      obtain ⟨held, hparse, hdeadline⟩ := hdb text hbooked
      simp [hparse, hdeadline]

/-- The bookings of both stores meet the same tombstones of other keys. -/
theorem takenByOther (h : RecordsAgree now m db) {sid : String} (hlegible : db.Legible sid)
    (key : String) : db.takenByOther sid key now = some ((m.tombstones.get? sid).any fun tomb =>
      decide (ofMillis now < tomb.protectedUntil) && !decide (tomb.key = key)) := by
  unfold MockDb.takenByOther
  rcases h.held_cases hlegible with ⟨key', ms, text, hbooked, hparse, hlive, htomb⟩ | ⟨hdb, hm⟩
  · simp [hbooked, hparse, htomb, hlive, ofMillis_lt_iff]
  · have hfree : (m.tombstones.get? sid).any (fun tomb =>
        decide (ofMillis now < tomb.protectedUntil) && !decide (tomb.key = key)) = false := by
      cases htomb : m.tombstones.get? sid with
      | none => rfl
      | some t => simp [hm t htomb]
    rw [hfree]
    cases hbooked : db.booked.get? sid with
    | none => rfl
    | some text =>
      obtain ⟨held, hparse, hdeadline⟩ := hdb text hbooked
      simp [hparse, not_lt.mpr hdeadline]

/-- The protected booking of a key is the same in both stores. -/
theorem protectedBooking (h : RecordsAgree now m db) (key : String) :
    db.protectedBooking key now =
      ((m.bookings.get? key).filter fun b => decide (ofMillis now < b.protectedUntil)).map
        fun b => some b.confirmation := by
  unfold MockDb.protectedBooking
  rw [h.deadline key]
  cases hbooking : m.bookings.get? key with
  | none => simp
  | some b =>
    by_cases hlive : now < millis b.protectedUntil
    · have hlive' := (lt_iff (h.whole key b hbooking)).mpr hlive
      simp [h.booking key b hbooking hlive, Option.filter, hlive, hlive']
    · have hlive' := (lt_iff (h.whole key b hbooking)).not.mpr hlive
      cases db.bookings.get? key <;> simp [Option.filter, hlive, hlive']

/-- `get_booking` answers the same in both stores. -/
theorem getBooking (h : RecordsAgree now m db) (hexact : toMs (ofMillis now) = now) (key : String) :
    db.getBooking key (ofMillis now) = some (m.getBooking key (ofMillis now)) := by
  unfold MockDb.getBooking MockState.getBooking getAnswer
  rw [h.deadline key, hexact]
  cases hbooking : m.bookings.get? key with
  | none => cases db.bookings.get? key <;> rfl
  | some b =>
    have hlt : ofMillis now < b.protectedUntil ↔ now < millis b.protectedUntil := lt_iff (h.whole key b hbooking)
    by_cases hlive : now < millis b.protectedUntil
    · simp only [h.booking key b hbooking hlive, Option.map_some, not_le.mpr hlive,
        not_le.mpr (hlt.mpr hlive), if_false]
    · cases db.bookings.get? key <;>
        simp only [Option.map_some, not_lt.mp hlive, not_lt.mp (hlt.not.mpr hlive), if_true]

/-- Both stores record a booking. -/
theorem book (h : RecordsAgree now m db) (sid key : String) (conf : BookingConfirmation) (ms : ℤ)
    (slots : Dict String SlotEntry) (pins : Dict String Pin) :
    RecordsAgree now
      { m with
        bookings := m.bookings.insert key ⟨conf, ofMillis ms⟩
        tombstones := m.tombstones.insert sid ⟨key, ofMillis ms⟩
        slots := slots
        pins := pins }
      (db.book sid key (some conf) ms) := by
  have hrecords := db.records_book sid key (some conf) ms
  have hbookings : (db.book sid key (some conf) ms).bookings = db.bookings.insert key (some conf) :=
    (congrArg MockDb.bookings hrecords :)
  have hbookExp : (db.book sid key (some conf) ms).bookExp = db.bookExp.insert key ms :=
    (congrArg MockDb.bookExp hrecords :)
  have hbooked : (db.book sid key (some conf) ms).booked = db.booked.insert sid (tombstoneText key ms) :=
    (congrArg MockDb.booked hrecords :)
  have htombExp : (db.book sid key (some conf) ms).tombExp = db.tombExp.insert sid ms :=
    (congrArg MockDb.tombExp hrecords :)
  constructor
  · intro key' b hb
    simp only [Dict.get?_insert] at hb
    split_ifs at hb
    · rw [← Option.some.inj hb]
      exact whole_ofMillis ms
    · exact h.whole key' b hb
  · intro sid' t ht
    simp only [Dict.get?_insert] at ht
    split_ifs at ht
    · rw [← Option.some.inj ht]
      exact whole_ofMillis ms
    · exact h.wholeTomb sid' t ht
  · intro key'
    simp only [hbookExp, Dict.get?_insert]
    split_ifs
    · rw [Option.map_some, millis_ofMillis]
    · exact h.deadline key'
  · intro key' b hb hlive
    simp only [Dict.get?_insert] at hb
    rw [hbookings, Dict.get?_insert]
    split_ifs at hb ⊢
    · rw [← Option.some.inj hb]
    · exact h.booking key' b hb hlive
  · intro sid' t ht hlive
    simp only [Dict.get?_insert] at ht
    rw [hbooked, htombExp, Dict.get?_insert, Dict.get?_insert]
    split_ifs at ht ⊢
    · rw [← Option.some.inj ht, millis_ofMillis]
      exact ⟨rfl, rfl⟩
    · exact h.tombstone sid' t ht hlive
  · intro sid' text htext
    rw [hbooked, Dict.get?_insert] at htext
    simp only [htombExp, Dict.get?_insert]
    split_ifs at htext ⊢
    · exact ⟨key, ms, (Option.some.inj htext).symm, rfl, fun _ => rfl⟩
    · exact h.text sid' text htext

/-- The bookings that have run out in memory are those of `bookexp` up to now. -/
theorem expired_iff (h : RecordsAgree now m db) (key : String) (deadline : ℤ) :
    (db.bookExp.get? key = some deadline ∧ deadline ≤ now) ↔ ∃ b, m.bookings.get? key = some b ∧
      decide (b.protectedUntil ≤ ofMillis now) = true ∧ millis b.protectedUntil = deadline := by
  rw [h.deadline key]
  cases hbooking : m.bookings.get? key with
  | none => simp
  | some b =>
    have hle : b.protectedUntil ≤ ofMillis now ↔ millis b.protectedUntil ≤ now := by
      rw [← not_lt, ← not_lt, lt_iff (h.whole key b hbooking)]
    simp only [Option.map_some, Option.some.injEq, exists_eq_left', decide_eq_true_eq, hle]
    constructor
    · rintro ⟨rfl, hpast⟩
      exact ⟨hpast, rfl⟩
    · rintro ⟨hpast, rfl⟩
      exact ⟨rfl, hpast⟩

/-- Both stores remove as many bookings, and the same ones, where the batches are the same. -/
theorem cleanup (h : RecordsAgree now m db) (idleCutoff : ℤ) (batch : ℕ)
    (hbatch : MockState.BatchByScore m.bookings (fun _ b => decide (b.protectedUntil ≤ ofMillis now))
      Booking.protectedUntil batch) :
    (m.cleanup (ofMillis now) batch).1.expiredRecords =
        (db.cleanupScript now idleCutoff batch).1.expiredRecords ∧
      RecordsAgree now (m.cleanup (ofMillis now) batch).2 (db.cleanupScript now idleCutoff batch).2 := by
  have hperm := MockState.dueKeys_perm (z := db.bookExp) h.expired_iff h.whole hbatch
  have hrecords := db.records_cleanupScript now idleCutoff batch
  have hbookings : (db.cleanupScript now idleCutoff batch).2.bookings =
      MockState.eraseAll db.bookings ((db.bookExp.rangeByScore now).take batch) :=
    (congrArg MockDb.bookings hrecords :)
  have hbookExp : (db.cleanupScript now idleCutoff batch).2.bookExp =
      MockState.eraseAll db.bookExp ((db.bookExp.rangeByScore now).take batch) :=
    (congrArg MockDb.bookExp hrecords :)
  have hbooked : (db.cleanupScript now idleCutoff batch).2.booked =
      MockState.eraseAll db.booked ((db.tombExp.rangeByScore now).take batch) :=
    (congrArg MockDb.booked hrecords :)
  have htombExp : (db.cleanupScript now idleCutoff batch).2.tombExp =
      MockState.eraseAll db.tombExp ((db.tombExp.rangeByScore now).take batch) :=
    (congrArg MockDb.tombExp hrecords :)
  have hkept := m.cleanup_keeps (ofMillis now) batch
  -- A member of a batch has run out.
  have hpast : ∀ {z : Dict String ℤ} {k : String} {score : ℤ}, z.get? k = some score → now < score →
      k ∉ (z.rangeByScore now).take batch := by
    intro z k score hscore hlive hmem
    obtain ⟨score', hscore', hle⟩ := (Dict.mem_rangeByScore _).mp (List.mem_of_mem_take hmem)
    rw [hscore] at hscore'
    obtain rfl := Option.some.inj hscore'
    omega
  refine ⟨?_, ⟨?_, ?_, ?_, ?_, ?_, ?_⟩⟩
  · rw [db.cleanupScript_expiredRecords]
    exact hperm.length_eq
  · exact fun key b hb => h.whole key b (hkept.no_new key b hb)
  · intro sid t ht
    simp only [MockState.cleanup, MockState.get?_eraseAll] at ht
    split_ifs at ht
    exact h.wholeTomb sid t ht
  · intro key
    have hmemory : (m.cleanup (ofMillis now) batch).2.bookings = MockState.eraseAll m.bookings
        (MockState.dueKeys m.bookings (fun _ b => decide (b.protectedUntil ≤ ofMillis now)) batch) := rfl
    rw [hbookExp, hmemory, MockState.get?_eraseAll, MockState.get?_eraseAll]
    simp only [hperm.mem_iff, h.deadline key]
    split_ifs <;> rfl
  · intro key b hb hlive
    have hb' := hkept.no_new key b hb
    have hdeadline := h.deadline key
    rw [hb', Option.map_some] at hdeadline
    rw [hbookings, MockState.get?_eraseAll, if_neg (hpast hdeadline hlive)]
    exact h.booking key b hb' hlive
  · intro sid t ht hlive
    simp only [MockState.cleanup, MockState.get?_eraseAll] at ht
    split_ifs at ht
    obtain ⟨htext, hexp⟩ := h.tombstone sid t ht hlive
    rw [hbooked, htombExp, MockState.get?_eraseAll, MockState.get?_eraseAll, if_neg (hpast hexp hlive),
      if_neg (hpast hexp hlive)]
    exact ⟨htext, hexp⟩
  · intro sid text htext
    rw [hbooked, MockState.get?_eraseAll] at htext
    split_ifs at htext with hout
    obtain ⟨key, ms, rfl, hexp, hheld⟩ := h.text sid text htext
    refine ⟨key, ms, rfl, ?_, fun hlive => ?_⟩
    · rw [htombExp, MockState.get?_eraseAll, if_neg hout, hexp]
    · exact hkept.tombstones sid _ (hheld hlive) ((ofMillis_lt_iff now ms).mpr hlive)

/-- What has run out may vanish. -/
theorem expire (h : RecordsAgree now m db) {key : MockKey} (hlapsed : db.Lapsed now key) :
    RecordsAgree now m (db.expire key) := by
  cases key with
  | booking key =>
    refine { h with booking := fun key' b hb hlive => ?_ }
    have hne : key ≠ key' := by
      rintro rfl
      have hdeadline := h.deadline key
      rw [hb, Option.map_some] at hdeadline
      exact not_lt.mpr (hlapsed _ hdeadline) hlive
    exact (Dict.get?_erase_ne _ hne).trans (h.booking key' b hb hlive)
  | booked sid =>
    refine { h with
      tombstone := fun sid' t ht hlive => ?_
      text := fun sid' text htext => ?_ }
    · obtain ⟨htext, hexp⟩ := h.tombstone sid' t ht hlive
      have hne : sid ≠ sid' := by
        rintro rfl
        exact not_lt.mpr (hlapsed _ hexp) hlive
      exact ⟨(Dict.get?_erase_ne _ hne).trans htext, hexp⟩
    · change (db.booked.erase sid).get? sid' = some text at htext
      rw [Dict.get?_erase] at htext
      split_ifs at htext
      exact h.text sid' text htext
  | pinOp operation => exact { h with }

end RecordsAgree

end Dibs
