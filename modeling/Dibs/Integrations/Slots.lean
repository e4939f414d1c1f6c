import Dibs.Integrations.MockBooking

/-!
# Generated slots

What the mock adapter offers for a query is meant to be sound (`SlotsSound`): starts on the quarter-hour grid
inside the opening hours and inside the window of the query, at tables that seat the party. The bounds are
checked after a start is snapped to the grid on one side and before it on the other, so they hold exactly when
the snapping moves no start over one of them (`slots_sound_iff`).
-/

namespace Dibs

/-! ## The grid -/

theorem snapToGrid_dvd (minutes : ℕ) : 15 ∣ snapToGrid minutes := by
  unfold snapToGrid slotIntervalMinutes
  dsimp only
  split_ifs <;> omega

/-- A time in the first half of its quarter is rounded down. -/
theorem snapToGrid_early {minutes : ℕ} (h : minutes % 15 ≤ 7) :
    snapToGrid minutes = minutes - minutes % 15 := by
  unfold snapToGrid slotIntervalMinutes
  dsimp only
  split_ifs <;> omega

/-- A time in the second half of its quarter is rounded up. -/
theorem snapToGrid_late {minutes : ℕ} (h : 7 < minutes % 15) :
    snapToGrid minutes = minutes - minutes % 15 + 15 := by
  unfold snapToGrid slotIntervalMinutes
  dsimp only
  split_ifs <;> omega

/-- A range from a quarter-hour on has the quarter-hours up to its end. -/
theorem mem_gridRange {first last m : ℕ} (h : 15 ∣ first) :
    m ∈ gridRange first last ↔ 15 ∣ m ∧ first ≤ m ∧ m ≤ last := by
  unfold gridRange slotIntervalMinutes
  rw [List.mem_range']
  constructor
  · rintro ⟨i, hi, rfl⟩
    omega
  · rintro ⟨hm, hfirst, hlast⟩
    exact ⟨(m - first) / 15, by omega, by omega⟩

theorem nodup_gridRange (first last : ℕ) : (gridRange first last).Nodup := by
  unfold gridRange slotIntervalMinutes
  exact List.nodup_range' 15 (by decide)

/-- The value of a decimal digit. -/
theorem digitValue_le {c : Char} {v : ℕ} (h : digitValue c = some v) : v ≤ 9 := by
  unfold digitValue at h
  obtain ⟨first, hfirst, rfl⟩ := Option.map_eq_some_iff.mp h
  have htest := List.find?_some hfirst
  simp only [Bool.and_eq_true, decide_eq_true_eq] at htest
  omega

/-- A digit of ASCII up to a bound has a value up to the bound. -/
theorem digitValue_le_of_le {c high : Char} {n v : ℕ} (hn : n < 10) (hhigh : high = Nat.digitChar n)
    (hl : '0' ≤ c) (hh : c ≤ high) (h : digitValue c = some v) : v ≤ n := by
  have hchar : ∀ n < 10, (Nat.digitChar n).toNat = 0x30 + n := by decide
  have hlow : ('0' : Char).toNat ≤ c.toNat := hl
  have hupp : c.toNat ≤ high.toNat := hh
  rw [hhigh, hchar n hn] at hupp
  obtain ⟨d, -, hd, rfl⟩ := @exists_digitChar c 0 n hn hlow hupp
  rw [digitValue_digitChar (by omega)] at h
  obtain rfl := Option.some.inj h
  exact hd

/-- The minutes that a valid clock time writes are those of a day. -/
theorem toMinutes_lt {s : String} (h : isHourMinute s = true) {m : ℕ} (hm : toMinutes s = some m) :
    m < 1440 := by
  obtain ⟨a, b, c, d, hs, hhours, ⟨hclow, hchigh⟩, -⟩ := isHourMinute_iff.mp h
  have hpair : ∀ {x y : Char} {n : ℕ}, decimalNumber [x, y] = some n →
      ∃ v w, digitValue x = some v ∧ digitValue y = some w ∧ n = 10 * v + w := by
    intro x y n hn
    simp only [decimalNumber, List.foldlM_cons, List.foldlM_nil, Option.bind_eq_bind, Option.pure_def,
      Option.bind_eq_some_iff, Option.map_eq_some_iff] at hn
    obtain ⟨_, ⟨v, hv, rfl⟩, _, ⟨w, hw, rfl⟩, hn⟩ := hn
    exact ⟨v, w, hv, hw, by simpa using (Option.some.inj hn).symm⟩
  unfold toMinutes at hm
  simp only [hs, List.take, List.drop, Option.bind_eq_bind, Option.bind_eq_some_iff, Option.pure_def] at hm
  obtain ⟨hours, hhour, minutes, hminute, hm⟩ := hm
  obtain rfl := Option.some.inj hm
  obtain ⟨va, vb, hva, hvb, rfl⟩ := hpair hhour
  obtain ⟨vc, vd, hvc, hvd, rfl⟩ := hpair hminute
  have hc := @digitValue_le_of_le c '5' 5 vc (by decide) rfl hclow hchigh hvc
  have hd := digitValue_le hvd
  have hb := digitValue_le hvb
  rcases hhours with ⟨ha, -⟩ | ⟨ha, hlow, hhigh⟩
  · have ha := @digitValue_le_of_le a '1' 1 va (by decide) rfl (by rcases ha with rfl | rfl <;> decide)
      (by rcases ha with rfl | rfl <;> decide) hva
    omega
  · have ha := @digitValue_le_of_le a '2' 2 va (by decide) rfl (by rw [ha]; decide) (by rw [ha]) hva
    have hb := @digitValue_le_of_le b '3' 3 vb (by decide) rfl hlow hhigh hvb
    omega

/-! ## The preferred time -/

/-- Moving the preferred time to the front keeps the candidates. -/
theorem preferredFirst_perm (preferred : Option String) (candidates : List String) :
    (preferredFirst preferred candidates).Perm candidates := by
  unfold preferredFirst
  cases preferred with
  | none => exact .refl _
  | some time =>
    dsimp only
    split_ifs with h
    · exact (List.perm_cons_erase h).symm
    · exact .refl _

/-- The first candidate comes first or second. -/
theorem mem_take_preferredFirst (preferred : Option String) (first : String) (rest : List String) {n : ℕ}
    (hn : 2 ≤ n) : first ∈ (preferredFirst preferred (first :: rest)).take n := by
  obtain ⟨n, rfl⟩ := Nat.exists_eq_add_of_le' hn
  unfold preferredFirst
  cases preferred with
  | none => simp
  | some time =>
    dsimp only
    split_ifs with h
    · by_cases heq : time = first
      · simp [heq]
      · rw [List.erase_cons_tail (by simpa using Ne.symm heq)]
        simp
    · simp

/-! ## What is offered -/

/-- Opening hours between clock times of the quarter-hour grid. -/
structure OpeningHours.OnGrid (hours : OpeningHours) : Prop where
  openTime : ∃ i < 96, hours.openTime = fromMinutes (15 * i)
  closeTime : ∃ i < 96, hours.closeTime = fromMinutes (15 * i)

/-- A profile whose opening hours lie on the quarter-hour grid. -/
def VenueProfile.OnGrid (profile : VenueProfile) : Prop :=
  ∀ day, ∀ hours ∈ profile.weeklyHours day, hours.OnGrid

/-- The hours of a profile on the grid start on it, within the day. -/
theorem VenueProfile.OnGrid.span {profile : VenueProfile} (h : profile.OnGrid) {day : ℕ} {hours : OpeningHours}
    (hhours : profile.hoursFor day = some hours) :
    ∃ opens closes, hours.span = some (opens, closes) ∧ 15 ∣ opens ∧ opens < 1440 := by
  unfold hoursFor at hhours
  split_ifs at hhours
  obtain ⟨⟨i, hi, hopen⟩, j, hj, hclose⟩ := h _ hours hhours
  unfold OpeningHours.span
  rw [hopen, hclose, toMinutes_fromMinutes (by omega), toMinutes_fromMinutes (by omega)]
  exact ⟨15 * i, _, rfl, ⟨i, rfl⟩, by omega⟩

/-- The venue of a query takes reservations on its day: it is not switched off, the day is open and not sold
out, and the party is not too large. A stay fits in when it starts from `opens` to `latest`. -/
structure MockBookingAdapter.Takes (adapter : MockBookingAdapter) (profile : VenueProfile)
    (query : AvailabilityQuery) (opens latest : ℕ) : Prop where
  available : adapter.data.casefoldText query.venueName ∉ adapter.unavailableVenues
  day : ∃ day hours, dateOrdinal query.date = some day ∧ profile.isSoldOut day = false ∧
    profile.hoursFor day = some hours ∧ hours.span = some (opens, latest + query.stay profile)
  party : query.partySize ≤ profile.maxPartySize
  opens_le : opens ≤ latest

/-- A generated slot that keeps what the query and the profile ask for. -/
structure AvailabilitySlot.Sound (slot : AvailabilitySlot) (profile : VenueProfile)
    (query : AvailabilityQuery) : Prop where
  partySize : slot.partySize = query.partySize ∧ slot.partySize ≤ slot.maxPartySize
  maxPartySize : slot.maxPartySize ≤ profile.maxPartySize
  /-- The start is on the grid, inside the opening hours with its stay, and inside the window. -/
  start : ∃ start < 1440, slot.startTime = fromMinutes start ∧ 15 ∣ start ∧
    (∃ day hours opens closes, dateOrdinal query.date = some day ∧ profile.hoursFor day = some hours ∧
      hours.span = some (opens, closes) ∧ opens ≤ start ∧ start + query.stay profile ≤ closes) ∧
    ∀ window ∈ query.timeWindow, ∃ earliest finish, toMinutes window.start = some earliest ∧
      toMinutes window.end = some finish ∧ earliest ≤ start ∧ start ≤ finish

/-- At most sixteen sound slots with different starts and different ids. -/
structure SlotsSound (profile : VenueProfile) (query : AvailabilityQuery) (slots : List AvailabilitySlot) :
    Prop where
  few : slots.length ≤ maxGeneratedSlots
  starts : (slots.map AvailabilitySlot.startTime).Nodup
  slotIds : (slots.map AvailabilitySlot.slotId).Nodup
  sound : ∀ slot ∈ slots, slot.Sound profile query

/-- The snapping of a query's times moves no start that is offered over midnight or before the window, and
`int` reads the times that are looked at. -/
structure MockBookingAdapter.Settled (adapter : MockBookingAdapter) (profile : VenueProfile)
    (query : AvailabilityQuery) (opens latest : ℕ) : Prop where
  /-- The preferred time is a number, and rounded up to midnight only where no table for then is offered. -/
  preferredTime : query.timeWindow = none → ∀ preferred ∈ query.preferredTime,
    ∃ time, toMinutes preferred = some time ∧
      (1433 ≤ time → 1440 ≤ latest → adapter.seats profile query (fromMinutes 1440) = false)
  /-- The ends of the window are numbers, and its start is rounded down only where no table for then is
  offered. -/
  timeWindow : ∀ window ∈ query.timeWindow, ∃ earliest finish, toMinutes window.start = some earliest ∧
    toMinutes window.end = some finish ∧
      (0 < earliest % 15 → earliest % 15 ≤ 7 → opens ≤ earliest - earliest % 15 →
        earliest - earliest % 15 ≤ min latest finish →
          adapter.seats profile query (fromMinutes (earliest - earliest % 15)) = false)

/-- No two starts on the grid have identities with one UUID. -/
def MockBookingAdapter.SeparatesStarts (adapter : MockBookingAdapter) (query : AvailabilityQuery)
    (opens latest : ℕ) : Prop :=
  ∀ s t, 15 ∣ s → 15 ∣ t → opens ≤ s → s ≤ latest → opens ≤ t → t ≤ latest →
    uuid5Hex (adapter.identity query (fromMinutes s)) = uuid5Hex (adapter.identity query (fromMinutes t)) →
    adapter.identity query (fromMinutes s) = adapter.identity query (fromMinutes t)

/-- What is offered when the venue takes reservations from `opens` to `latest`. -/
theorem startTimes_spec {query : AvailabilityQuery} (hquery : query.Valid) {opens latest : ℕ}
    (hopens : 15 ∣ opens) {times : List String} (h : startTimes query opens latest = some times) :
    times.length ≤ maxGeneratedSlots ∧ times.Nodup ∧ ∀ t ∈ times, ∃ m ≤ 1440, t = fromMinutes m ∧ 15 ∣ m ∧
      opens ≤ m ∧ m ≤ latest ∧
      (query.timeWindow = none → ∃ preferred ∈ query.preferredTime, ∃ time,
        toMinutes preferred = some time ∧ m = snapToGrid time) ∧
      ∀ window ∈ query.timeWindow, ∃ earliest finish, toMinutes window.start = some earliest ∧
        toMinutes window.end = some finish ∧ snapToGrid earliest ≤ m ∧ m ≤ finish ∧ m < 1440 := by
  unfold startTimes at h
  cases hwindow : query.timeWindow with
  | none =>
    cases hpreferred : query.preferredTime with
    | none =>
      simp only [hwindow, hpreferred] at h
      obtain rfl := Option.some.inj h
      simp
    | some preferred =>
      simp only [hwindow, hpreferred, Option.bind_eq_bind, Option.bind_eq_some_iff] at h
      obtain ⟨time, htime, h⟩ := h
      have hday := toMinutes_lt (hquery.preferredTime preferred hpreferred) htime
      split_ifs at h with hrange
      · obtain rfl := Option.some.inj h
        refine ⟨by simp [maxGeneratedSlots], List.nodup_singleton _, fun t ht => ?_⟩
        obtain rfl := List.mem_singleton.mp ht
        refine ⟨snapToGrid time, ?_, rfl, snapToGrid_dvd time, hrange.1, hrange.2,
          fun _ => ⟨preferred, rfl, time, htime, rfl⟩, by simp⟩
        have := snapToGrid_dvd time
        have := @snapToGrid_early time
        have := @snapToGrid_late time
        omega
      · obtain rfl := Option.some.inj h
        simp
  | some window =>
    simp only [hwindow, Option.bind_eq_bind, Option.bind_eq_some_iff] at h
    obtain ⟨earliest, hearliest, finish, hfinish, h⟩ := h
    obtain rfl := Option.some.inj h
    have hday := toMinutes_lt (hquery.timeWindow window hwindow).end hfinish
    have hfirst : 15 ∣ max opens (snapToGrid earliest) := by
      rcases max_choice opens (snapToGrid earliest) with h | h <;> rw [h]
      · exact hopens
      · exact snapToGrid_dvd earliest
    have hperm := preferredFirst_perm query.preferredTime
      ((gridRange (max opens (snapToGrid earliest)) (min latest finish)).map fromMinutes)
    have hnodup : ((gridRange (max opens (snapToGrid earliest)) (min latest finish)).map fromMinutes).Nodup := by
      refine List.Nodup.map_on (fun a ha b hb hab => ?_) (nodup_gridRange _ _)
      have ha := (mem_gridRange hfirst).mp ha
      have hb := (mem_gridRange hfirst).mp hb
      exact fromMinutes_inj (by omega) (by omega) hab
    refine ⟨List.length_take_le _ _, (List.take_sublist _ _).nodup (hperm.nodup_iff.mpr hnodup), fun t ht => ?_⟩
    obtain ⟨m, hm, rfl⟩ := List.mem_map.mp (hperm.mem_iff.mp (List.mem_of_mem_take ht))
    obtain ⟨hgrid, hlow, hhigh⟩ := (mem_gridRange hfirst).mp hm
    refine ⟨m, by omega, rfl, hgrid, by omega, by omega, by simp, fun w hw => ?_⟩
    obtain rfl := Option.some.inj hw
    exact ⟨earliest, finish, hearliest, hfinish, by omega, by omega, by omega⟩

/-! ## What is generated -/

section Option

variable {α β : Type} {f : α → Option β} {l : List α}

/-- A loop whose steps all succeed collects their results. -/
theorem mapM_eq_map {g : α → β} (h : ∀ x ∈ l, f x = some (g x)) : l.mapM f = some (l.map g) := by
  induction l with
  | nil => rfl
  | cons x l ih =>
    rw [List.mapM_cons, h x List.mem_cons_self, ih fun y hy => h y (List.mem_cons_of_mem _ hy)]
    rfl

/-- A loop with a step that fails fails. -/
theorem mapM_eq_none {x : α} (hx : x ∈ l) (h : f x = none) : l.mapM f = none := by
  induction l with
  | nil => contradiction
  | cons y l ih =>
    rw [List.mapM_cons]
    rcases List.mem_cons.mp hx with rfl | hx
    · rw [h]
      rfl
    · rw [ih hx]
      cases f y <;> rfl

end Option

namespace MockBookingAdapter

variable {adapter : MockBookingAdapter} {profile : VenueProfile} {query : AvailabilityQuery}

/-- No table is larger than the venue's largest party. -/
theorem slotCapacity_le (startTime : String) :
    adapter.slotCapacity query startTime profile ≤ profile.maxPartySize := by
  unfold slotCapacity
  exact min_le_right _ _

/-- Tables seat from two to ten. -/
theorem slotCapacity_mem (startTime : String) :
    adapter.slotCapacity query startTime profile ≤ 10 ∧
      min 2 profile.maxPartySize ≤ adapter.slotCapacity query startTime profile := by
  have hall : ∀ i < 5, 2 ≤ slotCapacities.getD i 0 ∧ slotCapacities.getD i 0 ≤ 10 := by decide
  unfold slotCapacity
  dsimp only
  generalize (sha256Words _).getD 0 0 / 2^24 = firstByte
  have hindex : firstByte % slotCapacities.length < 5 := Nat.mod_lt _ (by decide)
  have hbyte := hall _ hindex
  omega

/-- The start is the only part of a slot's identity that differs within a query. -/
theorem identity_inj {s t : String} (h : adapter.identity query s = adapter.identity query t) : s = t := by
  unfold identity at h
  exact String.append_right_inj _ |>.mp (String.append_left_inj _ |>.mp h)

/-- The slot that is built at a start. -/
def slotFor (adapter : MockBookingAdapter) (profile : VenueProfile) (query : AvailabilityQuery)
    (startTime : String) : AvailabilitySlot :=
  adapter.slotOf profile query startTime ((endTime startTime query.durationMinutes).getD none)

theorem length_uuid5Hex (name : String) : (uuid5Hex name).toList.length = 32 := by
  unfold uuid5Hex
  dsimp only
  rw [String.toList_ofList]
  simp [Sha1.hexWord]

/-- A slot that seats the party is built at every time of a day. -/
theorem slotAt_eq (hquery : query.Valid) {m : ℕ} (hm : m < 1440)
    (hseats : adapter.seats profile query (fromMinutes m) = true) :
    adapter.slotAt profile query (fromMinutes m) = some (adapter.slotFor profile query (fromMinutes m)) := by
  have hfinish : ∃ finish, endTime (fromMinutes m) query.durationMinutes = some finish ∧
      ∀ time ∈ finish, isHourMinute time = true := by
    cases query.durationMinutes with
    | none => exact ⟨none, rfl, by simp⟩
    | some minutes =>
      refine ⟨some (fromMinutes ((m + minutes) % minutesPerDay)), ?_, fun time ht => ?_⟩
      · simp only [endTime, toMinutes_fromMinutes (show m < 6000 by omega), Option.map_some]
      · obtain rfl := Option.some.inj ht
        exact isHourMinute_fromMinutes (Nat.mod_lt _ (by decide))
  obtain ⟨finish, hfinish, htime⟩ := hfinish
  have hcapacity : query.partySize ≤ adapter.slotCapacity query (fromMinutes m) profile := by
    simpa only [seats, decide_eq_true_eq] using hseats
  have hten := (@slotCapacity_mem adapter profile query (fromMinutes m)).1
  have hprovider : isProviderName "mock" = true := by decide
  have hmock : "mock_".toList.length = 5 := by decide
  unfold slotAt slotFor
  rw [hfinish, Option.bind_some, Option.getD_some]
  unfold AvailabilitySlot.build
  rw [if_pos]
  exact {
    slotId := by
      unfold SizedWithin slotOf slotId
      rw [String.toList_append, List.length_append, length_uuid5Hex, hmock]
      omega
    provider := hprovider
    venueName := hquery.venueName.1
    date := hquery.date.1
    startTime := isHourMinute_fromMinutes hm
    endTime := htime
    partySize := hquery.partySize
    maxPartySize := ⟨hquery.partySize.1.trans hcapacity, hten.trans (by decide)⟩
    capacity := hcapacity }

/-- No slot is built at the midnight that ends a day. -/
theorem slotAt_midnight : adapter.slotAt profile query (fromMinutes 1440) = none := by
  have hform : isHourMinute (fromMinutes 1440) = false := by decide
  unfold slotAt
  cases endTime (fromMinutes 1440) query.durationMinutes with
  | none => rfl
  | some finish =>
    rw [Option.bind_some]
    unfold AvailabilitySlot.build
    rw [if_neg]
    intro hvalid
    have htime := hvalid.startTime
    rw [show (adapter.slotOf profile query (fromMinutes 1440) finish).startTime = fromMinutes 1440 from rfl,
      hform] at htime
    contradiction

/-- Where the venue takes reservations, every start that seats the party gets a slot. -/
theorem generateFor_of_takes {opens latest : ℕ} (h : adapter.Takes profile query opens latest) :
    adapter.generateFor profile query = (startTimes query opens latest).bind fun times =>
      (times.filter (adapter.seats profile query)).mapM (adapter.slotAt profile query) := by
  obtain ⟨havailable, ⟨day, hours, hday, hsold, hhours, hspan⟩, hparty, hle⟩ := h
  unfold generateFor
  rw [if_neg havailable, hday, Option.bind_some, if_neg (by simp [hsold, hparty]), hhours]
  dsimp only
  unfold candidateTimes
  simp only [hspan, Option.bind_eq_bind, Option.bind_some]
  rw [if_neg (by omega), Nat.add_sub_cancel]

/-- Where it does not, nothing is offered. -/
theorem generateFor_of_not_takes (hquery : query.Valid) (hprofile : profile.OnGrid)
    (h : ∀ opens latest, ¬ adapter.Takes profile query opens latest) :
    adapter.generateFor profile query = some [] := by
  unfold generateFor
  split_ifs with havailable
  · rfl
  obtain ⟨day, hday⟩ := Option.isSome_iff_exists.mp hquery.date.2
  rw [hday, Option.bind_some]
  split_ifs with hfull
  · rfl
  obtain ⟨hsold, hparty⟩ := not_or.mp hfull
  cases hhours : profile.hoursFor day with
  | none => rfl
  | some hours =>
    obtain ⟨opens, closes, hspan, -, -⟩ := hprofile.span hhours
    dsimp only
    unfold candidateTimes
    simp only [hspan, Option.bind_eq_bind, Option.bind_some]
    rw [if_pos]
    · rfl
    by_contra hstay
    refine h opens (closes - query.stay profile) ⟨havailable, ⟨day, hours, hday, by simpa using hsold, hhours, ?_⟩,
      not_lt.mp hparty, by omega⟩
    rw [Nat.sub_add_cancel (by omega), hspan]

/-- The opening and the last start of a query are determined. -/
theorem Takes.unique {opens latest opens' latest' : ℕ} (h : adapter.Takes profile query opens latest)
    (h' : adapter.Takes profile query opens' latest') : opens = opens' ∧ latest = latest' := by
  obtain ⟨day, hours, hday, -, hhours, hspan⟩ := h.day
  obtain ⟨day', hours', hday', -, hhours', hspan'⟩ := h'.day
  obtain rfl := Option.some.inj (hday.symm.trans hday')
  obtain rfl := Option.some.inj (hhours.symm.trans hhours')
  obtain ⟨hopens, hcloses⟩ := Prod.mk.inj (Option.some.inj (hspan.symm.trans hspan'))
  exact ⟨hopens, Nat.add_right_cancel hcloses⟩

/-- The first start that is offered on the grid starts after opening. -/
theorem Takes.opens_grid (hprofile : profile.OnGrid) {opens latest : ℕ}
    (h : adapter.Takes profile query opens latest) : 15 ∣ opens ∧ opens < 1440 := by
  obtain ⟨day, hours, -, -, hhours, hspan⟩ := h.day
  obtain ⟨opens', closes, hspan', hgrid, hlt⟩ := hprofile.span hhours
  obtain ⟨rfl, -⟩ := Prod.mk.inj (Option.some.inj (hspan.symm.trans hspan'))
  exact ⟨hgrid, hlt⟩

/-- Starts within a day get their slots. -/
theorem slots_eq (hquery : query.Valid) {times : List String}
    (h : ∀ t ∈ times, adapter.seats profile query t = true → ∃ m < 1440, t = fromMinutes m) :
    (times.filter (adapter.seats profile query)).mapM (adapter.slotAt profile query) =
      some ((times.filter (adapter.seats profile query)).map (adapter.slotFor profile query)) := by
  apply mapM_eq_map
  intro t ht
  obtain ⟨hmem, hseats⟩ := List.mem_filter.mp ht
  obtain ⟨m, hm, rfl⟩ := h t hmem hseats
  exact slotAt_eq hquery hm hseats

/-- Where the times settle, what is generated is sound. -/
theorem sound_of_settled (hquery : query.Valid) {opens latest : ℕ} (hopens : 15 ∣ opens)
    (htakes : adapter.Takes profile query opens latest) (hids : adapter.SeparatesStarts query opens latest)
    (hsettled : adapter.Settled profile query opens latest) :
    ∃ slots, adapter.generateFor profile query = some slots ∧ SlotsSound profile query slots := by
  -- The times that are looked at are numbers, so there are starts.
  have hstarts : ∃ times, startTimes query opens latest = some times := by
    unfold startTimes
    cases hwindow : query.timeWindow with
    | none =>
      cases hpreferred : query.preferredTime with
      | none => exact ⟨[], rfl⟩
      | some preferred =>
        obtain ⟨time, htime, -⟩ := hsettled.preferredTime hwindow preferred hpreferred
        simp only [htime, Option.bind_eq_bind, Option.bind_some]
        split_ifs
        · exact ⟨_, rfl⟩
        · exact ⟨_, rfl⟩
    | some window =>
      obtain ⟨earliest, finish, hearliest, hfinish, -⟩ := hsettled.timeWindow window hwindow
      simp only [hearliest, hfinish, Option.bind_eq_bind, Option.bind_some]
      exact ⟨_, rfl⟩
  obtain ⟨times, htimes⟩ := hstarts
  obtain ⟨hfew, hnodup, hspec⟩ := startTimes_spec hquery hopens htimes
  -- A start at midnight has no table.
  have hday : ∀ t ∈ times, adapter.seats profile query t = true → ∃ m < 1440, t = fromMinutes m := by
    intro t ht hseats
    obtain ⟨m, hm, rfl, -, -, hlatest, hpreferred, hwindow⟩ := hspec t ht
    refine ⟨m, ?_, rfl⟩
    cases hcase : query.timeWindow with
    | some window =>
      obtain ⟨-, -, -, -, -, -, hlt⟩ := hwindow window hcase
      exact hlt
    | none =>
      obtain ⟨preferred, hmem, time, htime, rfl⟩ := hpreferred hcase
      obtain ⟨time', htime', hmidnight⟩ := hsettled.preferredTime hcase preferred hmem
      obtain rfl := Option.some.inj (htime.symm.trans htime')
      by_contra hlate
      have hexactly : snapToGrid time = 1440 := by omega
      have hearly := @snapToGrid_early time
      have hrounded := @snapToGrid_late time
      have hlt := toMinutes_lt (hquery.preferredTime preferred hmem) htime
      rw [hexactly, hmidnight (by omega) (by omega)] at hseats
      contradiction
  refine ⟨_, by rw [generateFor_of_takes htakes, htimes, Option.bind_some, slots_eq hquery hday], ?_⟩
  exact {
    few := by
      rw [List.length_map]
      exact (List.length_filter_le _ _).trans hfew
    starts := by
      rw [List.map_map]
      exact (hnodup.filter _).map_on fun a _ b _ hab => hab
    slotIds := by
      rw [List.map_map]
      refine (hnodup.filter _).map_on fun a ha b hb hab => ?_
      obtain ⟨s, -, rfl, hgrid, hs, hs', -⟩ := hspec a (List.mem_filter.mp ha).1
      obtain ⟨t, -, rfl, hgrid', ht, ht', -⟩ := hspec b (List.mem_filter.mp hb).1
      have huuid := (String.append_right_inj "mock_").mp hab
      exact identity_inj (hids s t hgrid hgrid' hs hs' ht ht' huuid)
    sound := by
      intro slot hslot
      obtain ⟨t, ht, rfl⟩ := List.mem_map.mp hslot
      obtain ⟨hmem, hseats⟩ := List.mem_filter.mp ht
      obtain ⟨m, hle, rfl, hgrid, hlow, hhigh, -, hwindow⟩ := hspec t hmem
      obtain ⟨m', hlt, hm⟩ := hday _ hmem hseats
      obtain rfl : m = m' := fromMinutes_inj (by omega) (by omega) hm
      obtain ⟨day, hours, hdate, -, hhours, hspan⟩ := htakes.day
      have hcapacity : query.partySize ≤ adapter.slotCapacity query (fromMinutes m) profile := by
        simpa only [seats, decide_eq_true_eq] using hseats
      refine ⟨⟨rfl, hcapacity⟩, slotCapacity_le _, m, hlt, rfl, hgrid,
        ⟨day, hours, opens, _, hdate, hhours, hspan, hlow, by omega⟩, fun window hw => ?_⟩
      obtain ⟨earliest, finish, hearliest, hfinish, hsnap, hend, -⟩ := hwindow window hw
      refine ⟨earliest, finish, hearliest, hfinish, ?_, hend⟩
      -- A start before the window is the rounded start of the window, which has no table.
      by_contra hbefore
      obtain ⟨earliest', finish', hearliest', hfinish', hrounded⟩ := hsettled.timeWindow window hw
      obtain rfl := Option.some.inj (hearliest.symm.trans hearliest')
      obtain rfl := Option.some.inj (hfinish.symm.trans hfinish')
      have hearly := @snapToGrid_early earliest
      have hlate := @snapToGrid_late earliest
      have hstart : m = earliest - earliest % 15 := by omega
      rw [hstart, hrounded (by omega) (by omega) (by omega) (by omega)] at hseats
      contradiction }

/-- Where what is generated is sound, the times settle. -/
theorem settled_of_sound (hquery : query.Valid) {opens latest : ℕ} (hopens : 15 ∣ opens)
    (hlt : opens < 1440) (htakes : adapter.Takes profile query opens latest) {slots : List AvailabilitySlot}
    (hslots : adapter.generateFor profile query = some slots) (hsound : SlotsSound profile query slots) :
    adapter.Settled profile query opens latest := by
  rw [generateFor_of_takes htakes] at hslots
  obtain ⟨times, htimes, hmap⟩ := Option.bind_eq_some_iff.mp hslots
  constructor
  · intro hwindow preferred hpreferred
    have hread := htimes
    unfold startTimes at hread
    simp only [hwindow, Option.mem_def.mp hpreferred, Option.bind_eq_bind, Option.bind_eq_some_iff] at hread
    obtain ⟨time, htime, hexactly⟩ := hread
    refine ⟨time, htime, fun hlate hlatest => ?_⟩
    have hday := toMinutes_lt (hquery.preferredTime preferred hpreferred) htime
    have hmidnight : snapToGrid time = 1440 := by
      have := @snapToGrid_late time
      omega
    rw [hmidnight, if_pos ⟨by omega, hlatest⟩] at hexactly
    obtain rfl := Option.some.inj hexactly
    -- The slot at midnight would have made the call fail.
    by_contra hseats
    rw [mapM_eq_none (List.mem_filter.mpr ⟨List.mem_singleton_self _, by simpa using hseats⟩) slotAt_midnight]
      at hmap
    contradiction
  · intro window hwindow
    obtain ⟨-, -, hspec⟩ := startTimes_spec hquery hopens htimes
    have hread := htimes
    unfold startTimes at hread
    simp only [Option.mem_def.mp hwindow, Option.bind_eq_bind, Option.bind_eq_some_iff] at hread
    obtain ⟨earliest, hearliest, finish, hfinish, hoffered⟩ := hread
    refine ⟨earliest, finish, hearliest, hfinish, fun hoff hhalf hlow hhigh => ?_⟩
    have hday : ∀ t ∈ times, adapter.seats profile query t = true → ∃ m < 1440, t = fromMinutes m := by
      intro t ht _
      obtain ⟨m, -, rfl, -, -, -, -, hwithin⟩ := hspec t ht
      obtain ⟨-, -, -, -, -, -, hm⟩ := hwithin window hwindow
      exact ⟨m, hm, rfl⟩
    rw [slots_eq hquery hday] at hmap
    obtain rfl := Option.some.inj hmap
    -- The rounded start is the first candidate, so it is offered whenever its table is large enough.
    have hfirst : fromMinutes (earliest - earliest % 15) ∈ times := by
      obtain rfl := Option.some.inj hoffered
      rw [snapToGrid_early hhalf, max_eq_right hlow]
      have hcount : ∃ n, (min latest finish + slotIntervalMinutes - (earliest - earliest % 15)) /
          slotIntervalMinutes = n + 1 := by
        unfold slotIntervalMinutes
        exact ⟨(min latest finish - (earliest - earliest % 15)) / 15, by omega⟩
      obtain ⟨n, hn⟩ := hcount
      unfold gridRange
      rw [hn, List.range'_succ, List.map_cons]
      exact mem_take_preferredFirst _ _ _ (by decide)
    by_contra hseats
    have hslot := hsound.sound _ (List.mem_map_of_mem
      (List.mem_filter.mpr ⟨hfirst, by simpa using hseats⟩))
    obtain ⟨start, hstart, heq, -, -, hwithin⟩ := hslot.start
    obtain ⟨earliest', -, hearliest', -, hafter, -⟩ := hwithin window hwindow
    obtain rfl := Option.some.inj (hearliest.symm.trans hearliest')
    have hlow' := toMinutes_lt (hquery.timeWindow window hwindow).start hearliest
    obtain rfl : earliest - earliest % 15 = start := fromMinutes_inj (by omega) (by omega) heq
    omega

end MockBookingAdapter

/-- For a valid query and a profile on the quarter-hour grid, whose starts have different UUIDs, generation
returns sound slots exactly when the query's times settle wherever the venue takes reservations: they are
numbers, the preferred time is not rounded up to a midnight that is offered, and the start of the window is not
rounded down to a start that is offered. -/
theorem slots_sound_iff (adapter : MockBookingAdapter) {profile : VenueProfile} (hprofile : profile.OnGrid)
    {query : AvailabilityQuery} (hquery : query.Valid)
    (hids : ∀ opens latest, adapter.Takes profile query opens latest →
      adapter.SeparatesStarts query opens latest) :
    (∃ slots, adapter.generateFor profile query = some slots ∧ SlotsSound profile query slots) ↔
      ∀ opens latest, adapter.Takes profile query opens latest →
        adapter.Settled profile query opens latest := by
  constructor
  · rintro ⟨slots, hslots, hsound⟩ opens latest htakes
    obtain ⟨hgrid, hlt⟩ := htakes.opens_grid hprofile
    exact MockBookingAdapter.settled_of_sound hquery hgrid hlt htakes hslots hsound
  · intro hsettled
    by_cases htakes : ∃ opens latest, adapter.Takes profile query opens latest
    · obtain ⟨opens, latest, htakes⟩ := htakes
      exact MockBookingAdapter.sound_of_settled hquery (htakes.opens_grid hprofile).1 htakes
        (hids opens latest htakes) (hsettled opens latest htakes)
    · push Not at htakes
      refine ⟨[], MockBookingAdapter.generateFor_of_not_takes hquery hprofile htakes, ?_⟩
      exact ⟨Nat.zero_le _, List.nodup_nil, List.nodup_nil, by simp⟩

/-! ## One seating -/

/-- An adapter that knows ASCII and has every venue. -/
def MockBookingAdapter.plain : MockBookingAdapter := ⟨.ascii, []⟩

/-- A venue that seats its guests at six in the evening. -/
def oneSeating : VenueProfile := ⟨fun _ => hours "18:00" "19:30", 8, 90, fun _ => false, fun _ => false⟩

/-- A query for two, from a time on until seven. -/
def untilSeven (start : String) : AvailabilityQuery :=
  ⟨"Trattoria", .restaurant, kwcMarket, 2, "2030-05-16", none, some ⟨start, "19:00"⟩, none, []⟩

theorem oneSeating_onGrid : oneSeating.OnGrid := by
  rintro day hours hhours
  obtain rfl := Option.some.inj hhours
  exact ⟨⟨72, by decide, rfl⟩, ⟨78, by decide, rfl⟩⟩

/-- The venue seats two at six. -/
theorem oneSeating_takes (start : String) : MockBookingAdapter.plain.Takes oneSeating (untilSeven start) 1080 1080 where
  available := List.not_mem_nil
  day := by
    have hdate : ∃ day, dateOrdinal "2030-05-16" = some day := ⟨_, rfl⟩
    have hspan : OpeningHours.span ⟨"18:00", "19:30"⟩ = some (1080, 1080 + 90) := by decide
    obtain ⟨day, hday⟩ := hdate
    exact ⟨day, ⟨"18:00", "19:30"⟩, hday, rfl, rfl, hspan⟩
  party := show 2 ≤ 8 by decide
  opens_le := le_rfl

theorem oneSeating_separates (start : String) {opens latest : ℕ}
    (h : MockBookingAdapter.plain.Takes oneSeating (untilSeven start) opens latest) :
    MockBookingAdapter.plain.SeparatesStarts (untilSeven start) opens latest := by
  obtain ⟨rfl, rfl⟩ := h.unique (oneSeating_takes start)
  intro s t _ _ hs hs' ht ht' _
  obtain rfl : s = t := by omega
  rfl

theorem untilSeven_valid : (untilSeven "18:05").Valid ∧ (untilSeven "18:00").Valid := by
  decide

/-- A query from five past six on is offered the table at six. -/
theorem window_start_rounded : ¬ ∀ (adapter : MockBookingAdapter) (profile : VenueProfile)
    (query : AvailabilityQuery), profile.OnGrid → query.Valid →
    (∀ opens latest, adapter.Takes profile query opens latest → adapter.SeparatesStarts query opens latest) →
    ∃ slots, adapter.generateFor profile query = some slots ∧ SlotsSound profile query slots := by
  intro h
  obtain ⟨slots, hslots, hsound⟩ := h .plain oneSeating (untilSeven "18:05") oneSeating_onGrid
    untilSeven_valid.1 fun opens latest => oneSeating_separates _
  have hsettled := MockBookingAdapter.settled_of_sound untilSeven_valid.1 (by decide) (by decide)
    (oneSeating_takes _) hslots hsound
  obtain ⟨earliest, finish, hearliest, hfinish, hrounded⟩ := hsettled.timeWindow _ rfl
  obtain rfl := Option.some.inj (hearliest.symm.trans (@toMinutes_fromMinutes 1085 (by decide)))
  obtain rfl := Option.some.inj (hfinish.symm.trans (@toMinutes_fromMinutes 1140 (by decide)))
  have hfull := hrounded (by decide) (by decide) (by decide) (by decide)
  have htwo := (@MockBookingAdapter.slotCapacity_mem .plain oneSeating (untilSeven "18:05") (fromMinutes 1080)).2
  simp only [MockBookingAdapter.seats, decide_eq_false_iff_not] at hfull
  exact hfull htwo

/-- A venue that seats its guests at six and a quarter of an hour later. -/
def twoSeatings : VenueProfile := ⟨fun _ => hours "18:00" "19:45", 8, 90, fun _ => false, fun _ => false⟩

theorem twoSeatings_onGrid : twoSeatings.OnGrid := by
  rintro day hours hhours
  obtain rfl := Option.some.inj hhours
  exact ⟨⟨72, by decide, rfl⟩, ⟨79, by decide, rfl⟩⟩

theorem twoSeatings_takes : MockBookingAdapter.plain.Takes twoSeatings (untilSeven "18:00") 1080 1095 where
  available := List.not_mem_nil
  day := by
    have hdate : ∃ day, dateOrdinal "2030-05-16" = some day := ⟨_, rfl⟩
    have hspan : OpeningHours.span ⟨"18:00", "19:45"⟩ = some (1080, 1095 + 90) := by decide
    obtain ⟨day, hday⟩ := hdate
    exact ⟨day, ⟨"18:00", "19:45"⟩, hday, rfl, rfl, hspan⟩
  party := show 2 ≤ 8 by decide
  opens_le := by decide

/-- The two seatings have two UUIDs. -/
theorem twoSeatings_uuids :
    uuid5Hex (MockBookingAdapter.plain.identity (untilSeven "18:00") (fromMinutes 1080)) ≠
      uuid5Hex (MockBookingAdapter.plain.identity (untilSeven "18:00") (fromMinutes 1095)) := by
  decide +kernel

theorem twoSeatings_separates {opens latest : ℕ}
    (h : MockBookingAdapter.plain.Takes twoSeatings (untilSeven "18:00") opens latest) :
    MockBookingAdapter.plain.SeparatesStarts (untilSeven "18:00") opens latest := by
  obtain ⟨rfl, rfl⟩ := h.unique twoSeatings_takes
  intro s t hgrid hgrid' hs hs' ht ht' huuid
  have hcases : ∀ m, 15 ∣ m → 1080 ≤ m → m ≤ 1095 → m = 1080 ∨ m = 1095 := by
    intro m hm hlow hhigh
    omega
  rcases hcases s hgrid hs hs' with rfl | rfl
  · rcases hcases t hgrid' ht ht' with rfl | rfl
    · rfl
    · exact absurd huuid twoSeatings_uuids
  · rcases hcases t hgrid' ht ht' with rfl | rfl
    · exact absurd huuid.symm twoSeatings_uuids
    · rfl

/-- A query from six on is offered sound slots. -/
theorem slots_sound_iff_seating : ∃ slots,
    MockBookingAdapter.plain.generateFor twoSeatings (untilSeven "18:00") = some slots ∧
      SlotsSound twoSeatings (untilSeven "18:00") slots := by
  refine (slots_sound_iff .plain twoSeatings_onGrid untilSeven_valid.2 fun opens latest =>
    twoSeatings_separates).mpr fun opens latest htakes => ⟨fun h => ?_, fun window hwindow => ?_⟩
  · contradiction
  · obtain rfl := Option.some.inj hwindow
    exact ⟨1080, 1140, @toMinutes_fromMinutes 1080 (by decide), @toMinutes_fromMinutes 1140 (by decide),
      fun h => absurd h (by decide)⟩

end Dibs
