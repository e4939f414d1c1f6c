import Dibs.Integrations.Slots
import Dibs.Mock.Protection

/-!
# Searching the mock provider

A search that comes back empty should mean that no table is free. The candidates are cut to sixteen before
those that seat the party and those that are not booked are kept, so a window of more than four hours can have a
free table behind sixteen starts that are not (`search_complete_iff`).
-/

namespace Dibs

/-! ## The cut -/

/-- The first starts of a range. -/
theorem mem_take_gridRange {first last m n : ℕ} (h : 15 ∣ first) :
    m ∈ (gridRange first last).take n ↔ m ∈ gridRange first last ∧ m < first + 15 * n := by
  have hmem := @mem_gridRange first last m h
  unfold gridRange slotIntervalMinutes at hmem ⊢
  rw [hmem]
  rcases le_total n ((last + 15 - first) / 15) with hn | hn
  · rw [List.take_range'_of_length_ge hn, List.mem_range']
    constructor
    · rintro ⟨i, hi, rfl⟩
      omega
    · rintro ⟨⟨hm, hfirst, -⟩, hlt⟩
      exact ⟨(m - first) / 15, by omega, by omega⟩
  · rw [List.take_range'_of_length_le hn, hmem]
    constructor
    · rintro ⟨hm, hfirst, hlast⟩
      exact ⟨⟨hm, hfirst, hlast⟩, by omega⟩
    · exact fun hm => hm.1

section Erase

variable {α : Type} [DecidableEq α] {l : List α} {y : α} {n : ℕ}

/-- Without one of the first elements of a list, the others stand one place further to the front. -/
theorem take_erase_of_mem (h : y ∈ l.take (n + 1)) : (l.erase y).take n = (l.take (n + 1)).erase y := by
  induction l generalizing n with
  | nil => simp at h
  | cons z l ih =>
    rw [List.take_succ_cons] at h ⊢
    by_cases hz : z = y
    · rw [hz, List.erase_cons_head, List.erase_cons_head]
    · have hmem := (List.mem_cons.mp h).resolve_left (Ne.symm hz)
      rw [List.erase_cons_tail (by simpa using hz), List.erase_cons_tail (by simpa using hz)]
      cases n with
      | zero => simp at hmem
      | succ n => rw [List.take_succ_cons, ih hmem]

/-- Without a later element of a list, the first elements stay. -/
theorem take_erase_of_notMem (h : y ∉ l.take (n + 1)) : (l.erase y).take n = l.take n := by
  induction l generalizing n with
  | nil => rfl
  | cons z l ih =>
    rw [List.take_succ_cons, List.mem_cons, not_or] at h
    obtain ⟨hz, hrest⟩ := h
    rw [List.erase_cons_tail (by simpa using Ne.symm hz)]
    cases n with
    | zero => rfl
    | succ n => rw [List.take_succ_cons, List.take_succ_cons, ih hrest]

end Erase

/-- What is left of the candidates when the preferred time is not cut off. -/
theorem mem_take_preferredFirst_of_early {preferred : Option String} {candidates : List String} {n : ℕ}
    (h : ∀ time ∈ preferred, time ∈ candidates → time ∈ candidates.take (n + 1)) (t : String) :
    t ∈ (preferredFirst preferred candidates).take (n + 1) ↔ t ∈ candidates.take (n + 1) := by
  unfold preferredFirst
  cases preferred with
  | none => rfl
  | some time =>
    dsimp only
    split_ifs with hmem
    · have htime := h time rfl hmem
      rw [List.take_succ_cons, take_erase_of_mem htime]
      exact (List.perm_cons_erase htime).symm.mem_iff
    · rfl

/-- What is left of them when it would be: it takes the last place. -/
theorem mem_take_preferredFirst_of_late {time : String} {candidates : List String} {n : ℕ}
    (hmem : time ∈ candidates) (hlate : time ∉ candidates.take (n + 1)) (t : String) :
    t ∈ (preferredFirst (some time) candidates).take (n + 1) ↔ t = time ∨ t ∈ candidates.take n := by
  unfold preferredFirst
  dsimp only
  rw [if_pos hmem, List.take_succ_cons, take_erase_of_notMem hlate, List.mem_cons]

/-- A search looks at the preferred time and at the first starts in order, sixteen in all. -/
structure LooksAt (preferred : Option String) (first last start : ℕ) : Prop where
  grid : 15 ∣ start
  low : first ≤ start
  high : start ≤ last
  early : start < first + 15 * 15 ∨ preferred = some (fromMinutes start) ∨
    start < first + 15 * 16 ∧ ∀ late, preferred = some (fromMinutes late) → 15 ∣ late → late ≤ last →
      late < first + 15 * 16

/-- The starts that are left after the cut are those that a search looks at. -/
theorem mem_offered_iff {preferred : Option String} {first last start : ℕ} (hfirst : 15 ∣ first)
    (hlast : last < 1440) (hstart : start < 1440) :
    fromMinutes start ∈
        (preferredFirst preferred ((gridRange first last).map fromMinutes)).take maxGeneratedSlots ↔
      LooksAt preferred first last start := by
  have hmap : ∀ {l : List ℕ} {m : ℕ}, m < 1440 → (∀ x ∈ l, x ∈ gridRange first last) →
      (fromMinutes m ∈ l.map fromMinutes ↔ m ∈ l) := by
    intro l m hm hl
    refine ⟨fun h => ?_, List.mem_map_of_mem⟩
    obtain ⟨x, hx, heq⟩ := List.mem_map.mp h
    have hrange := (mem_gridRange hfirst).mp (hl x hx)
    rwa [← fromMinutes_inj (by omega) (by omega) heq]
  have htake : ∀ {m n : ℕ}, m < 1440 → (fromMinutes m ∈ ((gridRange first last).map fromMinutes).take n ↔
      (15 ∣ m ∧ first ≤ m ∧ m ≤ last) ∧ m < first + 15 * n) := by
    intro m n hm
    rw [← List.map_take, hmap hm fun x hx => List.mem_of_mem_take hx, mem_take_gridRange hfirst,
      mem_gridRange hfirst]
  unfold maxGeneratedSlots
  by_cases hlate : ∃ late, preferred = some (fromMinutes late) ∧ 15 ∣ late ∧ late ≤ last ∧
      first + 15 * 16 ≤ late
  · obtain ⟨late, rfl, hgrid, hle, hge⟩ := hlate
    have hmem : fromMinutes late ∈ (gridRange first last).map fromMinutes :=
      List.mem_map_of_mem ((mem_gridRange hfirst).mpr ⟨hgrid, by omega, hle⟩)
    rw [mem_take_preferredFirst_of_late hmem (by rw [htake (by omega)]; omega), htake hstart]
    constructor
    · rintro (heq | ⟨⟨hs, hlow, hhigh⟩, hlt⟩)
      · obtain rfl := fromMinutes_inj (by omega) (by omega) heq
        exact ⟨hgrid, by omega, hle, .inr (.inl rfl)⟩
      · exact ⟨hs, hlow, hhigh, .inl hlt⟩
    · rintro ⟨hs, hlow, hhigh, hlt | hpreferred | ⟨-, hall⟩⟩
      · exact .inr ⟨⟨hs, hlow, hhigh⟩, hlt⟩
      · exact .inl (Option.some.inj hpreferred).symm
      · have := hall late rfl hgrid hle
        omega
  · have hearly : ∀ time ∈ preferred, time ∈ (gridRange first last).map fromMinutes →
        time ∈ ((gridRange first last).map fromMinutes).take 16 := by
      intro time htime hmem
      obtain ⟨late, hrange, rfl⟩ := List.mem_map.mp hmem
      obtain ⟨hgrid, hlow, hhigh⟩ := (mem_gridRange hfirst).mp hrange
      refine (htake (by omega)).mpr ⟨⟨hgrid, hlow, hhigh⟩, ?_⟩
      by_contra hge
      exact hlate ⟨late, htime, hgrid, hhigh, by omega⟩
    rw [mem_take_preferredFirst_of_early hearly, htake hstart]
    constructor
    · rintro ⟨⟨hs, hlow, hhigh⟩, hlt⟩
      refine ⟨hs, hlow, hhigh, .inr (.inr ⟨hlt, fun late hp hgrid hle => ?_⟩)⟩
      by_contra hge
      exact hlate ⟨late, hp, hgrid, hle, by omega⟩
    · rintro ⟨hs, hlow, hhigh, hlt | hpreferred | ⟨hlt, -⟩⟩
      · exact ⟨⟨hs, hlow, hhigh⟩, by omega⟩
      · refine ⟨⟨hs, hlow, hhigh⟩, ?_⟩
        by_contra hge
        exact hlate ⟨start, hpreferred, hs, hhigh, by omega⟩
      · exact ⟨⟨hs, hlow, hhigh⟩, hlt⟩

/-! ## Publishing -/

namespace MockState

/-- One candidate leaves what the loop has found so far. -/
theorem publishOne_found (now : Time) (acc : Published) (slot : AvailabilitySlot) (h : acc.result ≠ []) :
    (publishOne now acc slot).result ≠ [] := by
  unfold publishOne
  dsimp only
  split_ifs
  · exact h
  · split
    · simp
    · split
      · exact h
      · simp
  · split
    · simp
    · split
      · exact h
      · simp

/-- With room in the store, nothing is returned exactly when every candidate is buried. -/
theorem publish_nil_iff {m : MockState} (hroom : m.slots.size < m.capacity) (candidates : List AvailabilitySlot)
    (operationId : String) (now : Time) :
    (m.publishAndFilter candidates operationId now).1 = [] ↔
      ∀ slot ∈ candidates, m.Buried now slot.slotId := by
  have hfound : ∀ (candidates : List AvailabilitySlot) (acc : Published), acc.result ≠ [] →
      (candidates.foldl (publishOne now) acc).result ≠ [] := by
    intro candidates
    induction candidates with
    | nil => exact fun acc h => h
    | cons slot rest ih => exact fun acc h => ih _ (publishOne_found now acc slot h)
  -- Until something is found the loop is where it began.
  have hloop : ∀ candidates : List AvailabilitySlot,
      (candidates.foldl (publishOne now) ⟨m.expirePins now, [], []⟩).result = [] ↔
        ∀ slot ∈ candidates, m.Buried now slot.slotId := by
    intro candidates
    induction candidates with
    | nil => simp
    | cons slot rest ih =>
      rw [List.foldl_cons, List.forall_mem_cons]
      by_cases hburied : m.Buried now slot.slotId
      · have hskip : publishOne now ⟨m.expirePins now, [], []⟩ slot = ⟨m.expirePins now, [], []⟩ := by
          obtain ⟨t, ht, hlive⟩ := hburied
          unfold publishOne
          dsimp only
          rw [if_pos]
          rw [show (m.expirePins now).tombstones = m.tombstones from rfl, ht, Option.any_some, decide_eq_true hlive]
        rw [hskip, ih]
        simp [hburied]
      · have hnew : (publishOne now ⟨m.expirePins now, [], []⟩ slot).result ≠ [] := by
          have htomb : ¬ ((m.expirePins now).tombstones.get? slot.slotId).any
              (fun tomb => decide (now < tomb.protectedUntil)) = true := by
            intro hany
            obtain ⟨t, ht, hlive⟩ := (Option.any_eq_true _ _).mp hany
            exact hburied ⟨t, ht, of_decide_eq_true hlive⟩
          unfold publishOne
          dsimp only
          have hsize : ¬ (m.expirePins now).capacity ≤ (m.expirePins now).slots.size := Nat.not_le.mpr hroom
          rw [if_neg htomb, if_neg hsize]
          split
          · simp
          · simp
        simp [hburied, hfound rest _ hnew]
  exact hloop candidates

end MockState

/-! ## The catalog -/

/-- Whether a text is a clock time of the quarter-hour grid. -/
def isQuarterHour (text : String) : Bool :=
  isHourMinute text && text.toList.all (fun c => decide (c.toNat < 128)) &&
    (toMinutes text).all fun minutes => decide (minutes % 15 = 0)

theorem exists_quarterHour {text : String} (h : isQuarterHour text = true) :
    ∃ i < 96, text = fromMinutes (15 * i) := by
  unfold isQuarterHour at h
  simp only [Bool.and_eq_true, List.all_eq_true, decide_eq_true_eq] at h
  obtain ⟨⟨hform, hascii⟩, hgrid⟩ := h
  obtain ⟨minutes, hlt, rfl⟩ := exists_fromMinutes hform hascii
  rw [toMinutes_fromMinutes (by omega), Option.all_some, decide_eq_true_eq] at hgrid
  exact ⟨minutes / 15, by omega, by rw [Nat.mul_div_cancel' (Nat.dvd_of_mod_eq_zero hgrid)]⟩

/-- A profile is the generic one or that of a venue in the catalog. -/
theorem profileFor_mem (data : UnicodeData) (venueName : String) :
    profileFor data venueName ∈ defaultVenueProfile :: venueCatalog.map Venue.profile := by
  have hresolved := (resolveVenue_spec data venueName).1
  unfold profileFor
  cases hcase : resolveVenue data venueName with
  | resolved venue =>
    rw [hcase] at hresolved
    have hvenue := hresolved venue (List.mem_singleton_self venue)
    exact List.mem_cons_of_mem _ (List.mem_map_of_mem hvenue)
  | ambiguous | unknown => exact List.mem_cons_self

/-- The hours of every venue lie on the grid. -/
theorem profileFor_onGrid (data : UnicodeData) (venueName : String) : (profileFor data venueName).OnGrid := by
  have hall : ∀ profile ∈ defaultVenueProfile :: venueCatalog.map Venue.profile, ∀ day,
      (profile.weeklyHours day).all fun hours =>
        isQuarterHour hours.openTime && isQuarterHour hours.closeTime := by decide +kernel
  intro day hours hhours
  have hcheck := hall _ (profileFor_mem data venueName) day
  rw [Option.mem_def.mp hhours, Option.all_some, Bool.and_eq_true] at hcheck
  exact ⟨exists_quarterHour hcheck.1, exists_quarterHour hcheck.2⟩

/-- No venue is open after midnight, and a stay takes some time. -/
theorem profileFor_span (data : UnicodeData) (venueName : String) :
    0 < (profileFor data venueName).minimumStayMinutes ∧
      ∀ day, ∀ hours ∈ (profileFor data venueName).weeklyHours day, ∀ opens closes,
        hours.span = some (opens, closes) → closes ≤ 1440 := by
  have hall : ∀ profile ∈ defaultVenueProfile :: venueCatalog.map Venue.profile, 0 < profile.minimumStayMinutes ∧
      ∀ day, (profile.weeklyHours day).all fun hours =>
        hours.span.all fun span => decide (span.2 ≤ 1440) := by decide +kernel
  obtain ⟨hstay, hhours⟩ := hall _ (profileFor_mem data venueName)
  refine ⟨hstay, fun day hours hmem opens closes hspan => ?_⟩
  have hcheck := hhours day
  rw [Option.mem_def.mp hmem, Option.all_some, hspan, Option.all_some] at hcheck
  exact of_decide_eq_true hcheck

/-! ## Times that are read -/

/-- `int` reads the times of a query that a search looks at. -/
structure AvailabilityQuery.Readable (query : AvailabilityQuery) : Prop where
  preferredTime : query.timeWindow = none → ∀ preferred ∈ query.preferredTime, ∃ time, toMinutes preferred = some time
  timeWindow : ∀ window ∈ query.timeWindow, ∃ earliest finish, toMinutes window.start = some earliest ∧
    toMinutes window.end = some finish

/-- Start times are found exactly for the queries that can be read. -/
theorem startTimes_readable_iff (query : AvailabilityQuery) (opens latest : ℕ) :
    (∃ times, startTimes query opens latest = some times) ↔ query.Readable := by
  unfold startTimes
  cases hwindow : query.timeWindow with
  | none =>
    cases hpreferred : query.preferredTime with
    | none =>
      refine ⟨fun _ => ⟨fun _ preferred h => ?_, fun window h => ?_⟩, fun _ => ⟨[], rfl⟩⟩
      · rw [hpreferred] at h
        contradiction
      · rw [hwindow] at h
        contradiction
    | some preferred =>
      simp only [Option.bind_eq_bind]
      constructor
      · rintro ⟨times, h⟩
        obtain ⟨time, htime, -⟩ := Option.bind_eq_some_iff.mp h
        refine ⟨fun _ text htext => ?_, fun window h => ?_⟩
        · obtain rfl := Option.some.inj (hpreferred.symm.trans htext)
          exact ⟨time, htime⟩
        · rw [hwindow] at h
          contradiction
      · intro h
        obtain ⟨time, htime⟩ := h.preferredTime hwindow preferred hpreferred
        rw [htime, Option.bind_some]
        split_ifs
        · exact ⟨_, rfl⟩
        · exact ⟨_, rfl⟩
  | some window =>
    simp only [Option.bind_eq_bind]
    constructor
    · rintro ⟨times, h⟩
      obtain ⟨earliest, hearliest, h⟩ := Option.bind_eq_some_iff.mp h
      obtain ⟨finish, hfinish, -⟩ := Option.bind_eq_some_iff.mp h
      refine ⟨fun hnone => ?_, fun w hw => ?_⟩
      · rw [hwindow] at hnone
        contradiction
      · obtain rfl := Option.some.inj (hwindow.symm.trans hw)
        exact ⟨earliest, finish, hearliest, hfinish⟩
    · intro h
      obtain ⟨earliest, finish, hearliest, hfinish⟩ := h.timeWindow window hwindow
      rw [hearliest, hfinish]
      exact ⟨_, rfl⟩

/-- A search whose times are read raises nothing. -/
theorem MockBookingAdapter.generate_of_readable (adapter : MockBookingAdapter) {query : AvailabilityQuery}
    (hquery : query.Valid) (hread : query.Readable) : ∃ slots, adapter.generate query = some slots := by
  have hgrid := profileFor_onGrid adapter.data query.venueName
  obtain ⟨hstay, hspans⟩ := profileFor_span adapter.data query.venueName
  unfold generate
  by_cases htakes : ∃ opens latest, adapter.Takes (profileFor adapter.data query.venueName) query opens latest
  · obtain ⟨opens, latest, htakes⟩ := htakes
    obtain ⟨times, htimes⟩ := (startTimes_readable_iff query opens latest).mpr hread
    obtain ⟨-, -, hspec⟩ := startTimes_spec hquery (htakes.opens_grid hgrid).1 htimes
    -- The venue closes at midnight at the latest, so the last start with its stay lies before.
    have hlatest : latest < 1440 := by
      obtain ⟨day, hours, -, -, hhours, hspan⟩ := htakes.day
      unfold VenueProfile.hoursFor at hhours
      split_ifs at hhours
      have hcloses := hspans _ hours hhours opens _ hspan
      have hpositive : 0 < query.stay (profileFor adapter.data query.venueName) := by
        unfold AvailabilityQuery.stay AvailabilityQuery.duration
        cases hminutes : query.durationMinutes with
        | none => exact hstay
        | some minutes =>
          have hsized := (hquery.durationMinutes minutes hminutes).1
          rw [Option.filter_some_pos (by simp; omega), Option.getD_some]
          omega
      omega
    rw [generateFor_of_takes htakes, htimes, Option.bind_some]
    refine ⟨_, slots_eq hquery fun t ht _ => ?_⟩
    obtain ⟨m, -, rfl, -, -, hm, -⟩ := hspec t ht
    exact ⟨m, by omega, rfl⟩
  · simp only [not_exists] at htakes
    exact ⟨[], generateFor_of_not_takes hquery hgrid htakes⟩

/-- A search that finds a slot has read the times. -/
theorem MockBookingAdapter.readable_of_generate {adapter : MockBookingAdapter} {query : AvailabilityQuery}
    (hquery : query.Valid) {slot : AvailabilitySlot} {rest : List AvailabilitySlot}
    (h : adapter.generate query = some (slot :: rest)) : query.Readable := by
  unfold generate at h
  by_cases htakes : ∃ opens latest, adapter.Takes (profileFor adapter.data query.venueName) query opens latest
  · obtain ⟨opens, latest, htakes⟩ := htakes
    rw [generateFor_of_takes htakes] at h
    obtain ⟨times, htimes, -⟩ := Option.bind_eq_some_iff.mp h
    exact (startTimes_readable_iff query opens latest).mp ⟨times, htimes⟩
  · simp only [not_exists] at htakes
    rw [generateFor_of_not_takes hquery (profileFor_onGrid _ _) htakes] at h
    exact absurd (Option.some.inj h).symm (List.cons_ne_nil _ _)

/-! ## Searches -/

namespace MockBookingAdapter

variable {adapter : MockBookingAdapter} {query : AvailabilityQuery}

/-- The profile of the venue that a query names. -/
def profileOf (adapter : MockBookingAdapter) (query : AvailabilityQuery) : VenueProfile :=
  profileFor adapter.data query.venueName

/-- The table at a start seats the party and is not booked. -/
structure Vacant (adapter : MockBookingAdapter) (query : AvailabilityQuery) (m : MockState) (now : Time)
    (start : ℕ) : Prop where
  seats : adapter.seats (adapter.profileOf query) query (fromMinutes start) = true
  unprotected : ¬ m.Buried now (adapter.slotId query (fromMinutes start))

/-- A quarter-hour inside the bookable hours of the venue and inside the window of the query, with a table
that seats the party and is not booked. -/
structure Free (adapter : MockBookingAdapter) (query : AvailabilityQuery) (m : MockState) (now : Time)
    (start : ℕ) : Prop where
  grid : 15 ∣ start
  bookable : ∃ opens latest, adapter.Takes (adapter.profileOf query) query opens latest ∧ opens ≤ start ∧
    start ≤ latest
  window : ∀ window ∈ query.timeWindow, ∃ earliest finish, toMinutes window.start = some earliest ∧
    toMinutes window.end = some finish ∧ earliest ≤ start ∧ start ≤ finish
  vacant : adapter.Vacant query m now start

/-- A start that a search for a query with a window looks at. -/
def Considers (adapter : MockBookingAdapter) (query : AvailabilityQuery) (start : ℕ) : Prop :=
  ∃ opens latest, adapter.Takes (adapter.profileOf query) query opens latest ∧
    ∀ window ∈ query.timeWindow, ∃ earliest finish, toMinutes window.start = some earliest ∧
      toMinutes window.end = some finish ∧
      LooksAt query.preferredTime (max opens (snapToGrid earliest)) (min latest finish) start

/-- What is generated for a query with a window: a slot for each start that is considered and has a table that
seats the party. -/
theorem generate_of_window (hquery : query.Valid) {opens latest : ℕ}
    (htakes : adapter.Takes (adapter.profileOf query) query opens latest) {window : TimeWindow}
    (hwindow : query.timeWindow = some window) {earliest finish : ℕ}
    (hearliest : toMinutes window.start = some earliest) (hfinish : toMinutes window.end = some finish) :
    ∃ slots, adapter.generate query = some slots ∧
      (∀ slot ∈ slots, ∃ start, adapter.Considers query start ∧
        adapter.seats (adapter.profileOf query) query (fromMinutes start) = true ∧
        slot.slotId = adapter.slotId query (fromMinutes start)) ∧
      ∀ start, adapter.Considers query start →
        adapter.seats (adapter.profileOf query) query (fromMinutes start) = true →
        ∃ slot ∈ slots, slot.slotId = adapter.slotId query (fromMinutes start) := by
  have hopens := (htakes.opens_grid (profileFor_onGrid _ _)).1
  have hlt := toMinutes_lt (hquery.timeWindow window hwindow).end hfinish
  have hfirst : 15 ∣ max opens (snapToGrid earliest) := by
    have := snapToGrid_dvd earliest
    omega
  obtain ⟨times, htimes⟩ : ∃ times, startTimes query opens latest = some times := by
    unfold startTimes
    simp only [hwindow, hearliest, hfinish, Option.bind_eq_bind, Option.bind_some]
    exact ⟨_, rfl⟩
  have hoffered : times = (preferredFirst query.preferredTime
      ((gridRange (max opens (snapToGrid earliest)) (min latest finish)).map fromMinutes)).take
        maxGeneratedSlots := by
    unfold startTimes at htimes
    simp only [hwindow, hearliest, hfinish, Option.bind_eq_bind, Option.bind_some] at htimes
    exact (Option.some.inj htimes).symm
  obtain ⟨-, -, hspec⟩ := startTimes_spec hquery hopens htimes
  have hday : ∀ t ∈ times, ∃ m < 1440, t = fromMinutes m := by
    intro t ht
    obtain ⟨m, -, rfl, -, -, -, -, hwithin⟩ := hspec t ht
    obtain ⟨-, -, -, -, -, -, hm⟩ := hwithin window hwindow
    exact ⟨m, hm, rfl⟩
  have hlooks : ∀ start < 1440, fromMinutes start ∈ times ↔ adapter.Considers query start := by
    intro start hstart
    rw [hoffered, mem_offered_iff hfirst (by omega) hstart]
    constructor
    · intro h
      refine ⟨opens, latest, htakes, fun w hw => ?_⟩
      obtain rfl := Option.some.inj (hwindow.symm.trans hw)
      exact ⟨earliest, finish, hearliest, hfinish, h⟩
    · rintro ⟨opens', latest', htakes', hwithin⟩
      obtain ⟨rfl, rfl⟩ := htakes.unique htakes'
      obtain ⟨earliest', finish', hearliest', hfinish', h⟩ := hwithin window hwindow
      obtain rfl := Option.some.inj (hearliest.symm.trans hearliest')
      obtain rfl := Option.some.inj (hfinish.symm.trans hfinish')
      exact h
  have hgenerate : adapter.generate query =
      some ((times.filter (adapter.seats (adapter.profileOf query) query)).map
        (adapter.slotFor (adapter.profileOf query) query)) := by
    change adapter.generateFor (adapter.profileOf query) query = _
    rw [generateFor_of_takes htakes, htimes, Option.bind_some]
    exact slots_eq hquery fun t ht _ => hday t ht
  refine ⟨_, hgenerate, fun slot hslot => ?_, fun start hconsiders hseats => ?_⟩
  · obtain ⟨t, ht, rfl⟩ := List.mem_map.mp hslot
    obtain ⟨hmem, hseats⟩ := List.mem_filter.mp ht
    obtain ⟨m, hm, rfl⟩ := hday t hmem
    exact ⟨m, (hlooks m hm).mp hmem, hseats, rfl⟩
  · have hstart : start < 1440 := by
      obtain ⟨_, _, _, hwithin⟩ := hconsiders
      obtain ⟨_, finish', _, hfinish', hlook⟩ := hwithin window hwindow
      obtain rfl := Option.some.inj (hfinish.symm.trans hfinish')
      have := hlook.high
      omega
    exact ⟨_, List.mem_map_of_mem (List.mem_filter.mpr ⟨(hlooks start hstart).mpr hconsiders, hseats⟩), rfl⟩

/-- A search on a store with room comes back empty exactly when all that is generated is booked. -/
theorem search_nil_iff {m : MockState} (hroom : m.slots.size < m.capacity) {slots : List AvailabilitySlot}
    (hslots : adapter.generate query = some slots) (operationId : String) (now : Time) :
    (adapter.searchAvailability query operationId now m).1 = some [] ↔
      ∀ slot ∈ slots, m.Buried now slot.slotId := by
  unfold searchAvailability
  rw [hslots]
  cases slots with
  | nil => simp
  | cons slot rest =>
    dsimp only
    rw [Option.some.injEq]
    exact MockState.publish_nil_iff hroom (slot :: rest) operationId now

/-- A search comes back empty exactly when no start that it considers is vacant. -/
theorem search_nil_iff_vacant (hquery : query.Valid) {opens latest : ℕ}
    (htakes : adapter.Takes (adapter.profileOf query) query opens latest) {window : TimeWindow}
    (hwindow : query.timeWindow = some window) {earliest finish : ℕ}
    (hearliest : toMinutes window.start = some earliest) (hfinish : toMinutes window.end = some finish)
    {m : MockState} (hroom : m.slots.size < m.capacity) (operationId : String) (now : Time) :
    (adapter.searchAvailability query operationId now m).1 = some [] ↔
      ∀ start, adapter.Considers query start → ¬ adapter.Vacant query m now start := by
  obtain ⟨slots, hslots, hgenerated, hconsidered⟩ :=
    generate_of_window hquery htakes hwindow hearliest hfinish
  rw [search_nil_iff hroom hslots]
  constructor
  · intro hburied start hconsiders hvacant
    obtain ⟨slot, hslot, hid⟩ := hconsidered start hconsiders hvacant.seats
    exact hvacant.unprotected (hid ▸ hburied slot hslot)
  · intro hnone slot hslot
    obtain ⟨start, hconsiders, hseats, hid⟩ := hgenerated slot hslot
    by_contra hburied
    exact hnone start hconsiders ⟨hseats, hid ▸ hburied⟩

end MockBookingAdapter

/-- For a valid query with a window and a store below its capacity, an empty search means that no start of the
window is free exactly when, where one is free, one of the sixteen starts that the search considers is
vacant. -/
theorem search_complete_iff (adapter : MockBookingAdapter) {query : AvailabilityQuery} (hquery : query.Valid)
    (hwindow : query.timeWindow ≠ none) {m : MockState} (hroom : m.slots.size < m.capacity)
    (operationId : String) (now : Time) :
    ((adapter.searchAvailability query operationId now m).1 = some [] →
        ∀ start, ¬ adapter.Free query m now start) ↔
      ∀ start, adapter.Free query m now start →
        ∃ considered, adapter.Considers query considered ∧ adapter.Vacant query m now considered := by
  obtain ⟨window, hwindow⟩ := Option.ne_none_iff_exists'.mp hwindow
  have hsearch : ∀ start, adapter.Free query m now start →
      ((adapter.searchAvailability query operationId now m).1 = some [] ↔
        ∀ considered, adapter.Considers query considered → ¬ adapter.Vacant query m now considered) := by
    intro start hfree
    obtain ⟨opens, latest, htakes, -, -⟩ := hfree.bookable
    obtain ⟨earliest, finish, hearliest, hfinish, -⟩ := hfree.window window hwindow
    exact MockBookingAdapter.search_nil_iff_vacant hquery htakes hwindow hearliest hfinish hroom operationId now
  constructor
  · intro h start hfree
    by_contra hnone
    push Not at hnone
    exact h ((hsearch start hfree).mpr hnone) start hfree
  · intro h hnil start hfree
    obtain ⟨considered, hconsiders, hvacant⟩ := h start hfree
    exact (hsearch start hfree).mp hnil considered hconsiders hvacant

/-! ## A late table for nine -/

/-- A query for nine, from eleven in the morning until eight. -/
def nineByDay : AvailabilityQuery :=
  ⟨"Trattoria", .restaurant, kwcMarket, 9, "2030-05-16", none, some ⟨"11:00", "20:00"⟩, none, []⟩

/-- A store in which nothing is published or booked. -/
def emptyStore : MockState := .empty 100 900000000 86400000000 30000000

theorem emptyStore_room : emptyStore.slots.size < emptyStore.capacity := by decide

theorem profileFor_trattoria : profileFor .ascii "Trattoria" = defaultVenueProfile := by
  unfold profileFor
  cases hcase : resolveVenue .ascii "Trattoria" with
  | ambiguous | unknown => rfl
  | resolved venue =>
    have hvenues := resolveVenue_trattoria
    rw [hcase] at hvenues
    contradiction

theorem nineByDay_valid : nineByDay.Valid := by decide

theorem nineByDay_takes :
    MockBookingAdapter.plain.Takes (MockBookingAdapter.plain.profileOf nineByDay) nineByDay 660 1230 where
  available := List.not_mem_nil
  day := by
    have hopen : (dateOrdinal "2030-05-16").any (fun day => !defaultVenueProfile.isSoldOut day &&
        decide (defaultVenueProfile.hoursFor day = some ⟨"11:00", "22:00"⟩)) = true := by decide +kernel
    have hspan : OpeningHours.span ⟨"11:00", "22:00"⟩ = some (660, 1230 + 90) := by decide
    obtain ⟨day, hday, hcheck⟩ := (Option.any_eq_true _ _).mp hopen
    obtain ⟨hsold, hhours⟩ := (Bool.and_eq_true _ _).mp hcheck
    change ∃ day hours, _ ∧ (profileFor .ascii "Trattoria").isSoldOut day = false ∧
      (profileFor .ascii "Trattoria").hoursFor day = some hours ∧
      hours.span = some (660, 1230 + nineByDay.stay (profileFor .ascii "Trattoria"))
    rw [profileFor_trattoria]
    exact ⟨day, _, hday, by simpa using hsold, of_decide_eq_true hhours, hspan⟩
  party := by
    change 9 ≤ (profileFor .ascii "Trattoria").maxPartySize
    rw [profileFor_trattoria]
    decide
  opens_le := by decide

/-- The ends of the window. -/
theorem nineByDay_window : toMinutes "11:00" = some 660 ∧ toMinutes "20:00" = some 1200 :=
  ⟨@toMinutes_fromMinutes 660 (by decide), @toMinutes_fromMinutes 1200 (by decide)⟩

/-- The first sixteen tables seat at most eight. -/
theorem nineByDay_full : ∀ i < 16, MockBookingAdapter.plain.seats defaultVenueProfile nineByDay
    (fromMinutes (660 + 15 * i)) = false := by
  decide +kernel

/-- The table at three in the afternoon seats nine. -/
theorem nineByDay_free : MockBookingAdapter.plain.Free nineByDay emptyStore 0 900 where
  grid := by decide
  bookable := ⟨660, 1230, nineByDay_takes, by decide, by decide⟩
  window := by
    intro window hwindow
    obtain rfl := Option.some.inj hwindow
    exact ⟨660, 1200, nineByDay_window.1, nineByDay_window.2, by decide, by decide⟩
  vacant := {
    seats := by
      have hseats : MockBookingAdapter.plain.seats defaultVenueProfile nineByDay (fromMinutes 900) = true := by
        decide +kernel
      unfold MockBookingAdapter.profileOf
      exact profileFor_trattoria ▸ hseats
    unprotected := by
      rintro ⟨t, ht, -⟩
      contradiction }

/-- A search for a table for nine comes back empty, with nothing booked and a table free at three. -/
theorem free_table_missed : ¬ ∀ (adapter : MockBookingAdapter) (query : AvailabilityQuery) (m : MockState)
    (operationId : String) (now : Time), query.Valid → query.timeWindow ≠ none →
    m.slots.size < m.capacity → (adapter.searchAvailability query operationId now m).1 = some [] →
      ∀ start, ¬ adapter.Free query m now start := by
  intro h
  refine h .plain nineByDay emptyStore "" 0 nineByDay_valid (Option.some_ne_none _) emptyStore_room ?_ 900
    nineByDay_free
  refine (MockBookingAdapter.search_nil_iff_vacant nineByDay_valid nineByDay_takes rfl nineByDay_window.1
    nineByDay_window.2 emptyStore_room "" 0).mpr fun start hconsiders hvacant => ?_
  obtain ⟨opens, latest, htakes, hwithin⟩ := hconsiders
  obtain ⟨rfl, rfl⟩ := htakes.unique nineByDay_takes
  obtain ⟨earliest, finish, hearliest, hfinish, hlook⟩ := hwithin _ rfl
  obtain rfl := Option.some.inj (hearliest.symm.trans nineByDay_window.1)
  obtain rfl := Option.some.inj (hfinish.symm.trans nineByDay_window.2)
  have hfirst : max 660 (snapToGrid 660) = 660 := by decide
  obtain ⟨hgrid, hlow, -, hearly⟩ := hlook
  rw [hfirst] at hlow hearly
  have hindex : ∃ i < 16, start = 660 + 15 * i := by
    have hlt : start < 660 + 15 * 16 := by
      rcases hearly with hlt | hpreferred | ⟨hlt, -⟩
      · omega
      · contradiction
      · exact hlt
    exact ⟨(start - 660) / 15, by omega, by omega⟩
  obtain ⟨i, hi, rfl⟩ := hindex
  have hseats := hvacant.seats
  unfold MockBookingAdapter.profileOf at hseats
  rw [show profileFor MockBookingAdapter.plain.data nineByDay.venueName = defaultVenueProfile from
    profileFor_trattoria, nineByDay_full i hi] at hseats
  contradiction

/-- In a window of an hour every free table is found. -/
theorem search_complete_iff_hour :
    ¬ ((MockBookingAdapter.plain.searchAvailability (untilSeven "18:00") "" 0 emptyStore).1 = some [] ∧
      ∃ start, MockBookingAdapter.plain.Free (untilSeven "18:00") emptyStore 0 start) := by
  rintro ⟨hnil, start, hfree⟩
  refine (search_complete_iff .plain untilSeven_valid.2 (Option.some_ne_none _) emptyStore_room "" 0).mpr
    (fun start hfree => ⟨start, ?_, hfree.vacant⟩) hnil start hfree
  obtain ⟨opens, latest, htakes, hopens, hlatest⟩ := hfree.bookable
  refine ⟨opens, latest, htakes, fun window hwindow => ?_⟩
  obtain ⟨earliest, finish, hearliest, hfinish, hlow, hhigh⟩ := hfree.window window hwindow
  obtain rfl := Option.some.inj hwindow
  obtain rfl := Option.some.inj (hearliest.symm.trans (@toMinutes_fromMinutes 1080 (by decide)))
  obtain rfl := Option.some.inj (hfinish.symm.trans (@toMinutes_fromMinutes 1140 (by decide)))
  have hsnap : snapToGrid 1080 = 1080 := by decide
  refine ⟨1080, 1140, hearliest, hfinish, hfree.grid, ?_, ?_, .inl ?_⟩
  · omega
  · omega
  · omega

end Dibs
