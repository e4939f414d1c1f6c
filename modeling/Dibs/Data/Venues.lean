import Dibs.Models.Calendar

/-!
# The venue catalog

`backend/data/venues.py`: the mock venues with their opening hours and closures, and the resolution of an
untrusted venue name to at most one of them. The tables of Unicode that the normalization of a name reads are
a parameter (`UnicodeData`); what is proved of resolution holds whatever they say.
-/

namespace Dibs

/-- `SLOT_INTERVAL_MINUTES`. -/
def slotIntervalMinutes : ℕ := 15

/-- `MAX_GENERATED_SLOTS`. -/
def maxGeneratedSlots : ℕ := 16

/-! ## Holidays -/

/-- `date.toordinal` of the n-th given weekday of a month, `_nth_weekday`. -/
def nthWeekday (year month : ℕ) (weekday : Fin 7) (nth : ℕ) : ℕ :=
  let first := ymdOrdinal year month 1
  let offset := (weekday - weekdayOf first : Fin 7)
  first + (offset.val + 7 * (nth - 1))

/-- `_easter_sunday`, the anonymous Gregorian computus. -/
def easterSunday (year : ℕ) : ℕ :=
  let a := year % 19
  let b := year / 100
  let c := year % 100
  let d := b / 4
  let e := b % 4
  let f := (b + 8) / 25
  let g := (b - f + 1) / 3
  let h := (19 * a + b - d - g + 15) % 30
  let i := c / 4
  let k := c % 4
  let l := ((32 + 2 * e + 2 * i - h - k : ℤ) % 7).toNat
  let m := (a + 11 * h + 22 * l) / 451
  let total := h + l - 7 * m + 114
  ymdOrdinal year (total / 31) (total % 31 + 1)

/-- `_victoria_day`: the Monday on or before May 24. -/
def victoriaDay (year : ℕ) : ℕ :=
  let may24 := ymdOrdinal year 5 24
  may24 - (weekdayOf may24).val

/-- `_holidays_for`, as ordinals with their names. -/
def holidaysFor (year : ℕ) : List (ℕ × String) :=
  let monday : Fin 7 := 0
  let sunday : Fin 7 := 6
  let easter := easterSunday year
  [(ymdOrdinal year 1 1, "New Year's Day"),
    (nthWeekday year 2 monday 3, "Family Day"),
    (ymdOrdinal year 2 14, "Valentine's Day"),
    (easter - 2, "Good Friday"),
    (easter, "Easter Sunday"),
    (easter + 1, "Easter Monday"),
    (nthWeekday year 5 sunday 2, "Mother's Day"),
    (victoriaDay year, "Victoria Day"),
    (ymdOrdinal year 7 1, "Canada Day"),
    (nthWeekday year 8 monday 1, "Civic Holiday"),
    (nthWeekday year 9 monday 1, "Labour Day"),
    (nthWeekday year 10 monday 2, "Thanksgiving Monday"),
    (ymdOrdinal year 12 24, "Christmas Eve"),
    (ymdOrdinal year 12 25, "Christmas Day"),
    (ymdOrdinal year 12 26, "Boxing Day"),
    (ymdOrdinal year 12 31, "New Year's Eve")]

/-- `HOLIDAY_CALENDAR`, by ordinal, for the years of `SUPPORTED_YEARS`. A later name of a day replaces an
earlier one. -/
def holidayName (day : ℕ) : Option String :=
  (((List.range' 2024 8).flatMap holidaysFor).reverse.find? (·.1 = day)).map Prod.snd

/-- `_dates_named`, as a test of a day. -/
def datesNamed (names : List String) (day : ℕ) : Bool := (holidayName day).any names.contains

/-- `STATUTORY_CLOSURES`. -/
def statutoryClosures : ℕ → Bool :=
  datesNamed ["New Year's Day", "Good Friday", "Easter Sunday", "Thanksgiving Monday", "Christmas Day",
    "Boxing Day"]

/-- `RECREATION_CLOSURES`. -/
def recreationClosures : ℕ → Bool :=
  datesNamed ["New Year's Day", "Easter Sunday", "Christmas Day", "Boxing Day"]

/-- `COMMON_SELLOUT_DATES`. -/
def commonSelloutDates : ℕ → Bool :=
  datesNamed ["Valentine's Day", "Mother's Day", "Easter Monday", "Family Day", "Victoria Day", "Canada Day",
    "Civic Holiday", "Labour Day", "Christmas Eve", "New Year's Eve"]

/-- `RECREATION_SELLOUT_DATES`. -/
def recreationSelloutDates : ℕ → Bool :=
  datesNamed ["Family Day", "Victoria Day", "Canada Day", "Civic Holiday", "Labour Day"]

/-! ## Profiles -/

/-- `OpeningHours`: local opening and closing time for a single day. -/
structure OpeningHours where
  openTime : String
  closeTime : String
deriving DecidableEq

/-- `VenueProfile`: the scheduling rules of a venue. Sets of dates are tests of ordinals. -/
structure VenueProfile where
  /-- The hours from Monday to Sunday. -/
  weeklyHours : Fin 7 → Option OpeningHours
  maxPartySize : ℕ
  minimumStayMinutes : ℕ
  closedDates : ℕ → Bool
  soldOutDates : ℕ → Bool

/-- `hours_for`: the opening hours of a day, if it is open. -/
def VenueProfile.hoursFor (profile : VenueProfile) (day : ℕ) : Option OpeningHours :=
  if profile.closedDates day then none else profile.weeklyHours (weekdayOf day)

/-- `is_sold_out`. -/
def VenueProfile.isSoldOut (profile : VenueProfile) (day : ℕ) : Bool := profile.soldOutDates day

/-- `_week`: the hours from Monday to Sunday. An argument that is `None` counts as not given, so only a Monday
can be closed in a week with weekday hours. -/
def week (weekday friday saturday sunday monday : Option OpeningHours) (mondayClosed : Bool) :
    Fin 7 → Option OpeningHours :=
  let friday := friday <|> weekday
  let saturday := saturday <|> friday
  let sunday := sunday <|> weekday
  let monday := if mondayClosed then none else monday <|> weekday
  fun day => [monday, weekday, weekday, weekday, friday, saturday, sunday].getD day none

/-- `_hours`. -/
def hours (openTime closeTime : String) : Option OpeningHours := some ⟨openTime, closeTime⟩

/-- `_restaurant_profile`. -/
def restaurantProfile (weeklyHours : Fin 7 → Option OpeningHours) (maxPartySize : ℕ) : VenueProfile :=
  ⟨weeklyHours, maxPartySize, 90, statutoryClosures, commonSelloutDates⟩

/-- `_recreation_profile`. -/
def recreationProfile (weeklyHours : Fin 7 → Option OpeningHours) (maxPartySize : ℕ) : VenueProfile :=
  ⟨weeklyHours, maxPartySize, 60, recreationClosures, recreationSelloutDates⟩

/-- `DEFAULT_VENUE_PROFILE`. -/
def defaultVenueProfile : VenueProfile :=
  ⟨week (hours "11:00" "22:00") (hours "11:00" "23:00") none none none false, 12, 90, statutoryClosures,
    commonSelloutDates⟩

/-- `Venue`: one catalog venue and the aliases that users type for it. -/
structure Venue where
  name : String
  venueType : VenueType
  profile : VenueProfile
  aliases : List String

/-- `VENUE_CATALOG`. -/
def venueCatalog : List Venue :=
  [⟨"The Bauer Kitchen", .restaurant,
      restaurantProfile (week (hours "11:30" "22:00") (hours "11:30" "23:00") none (hours "10:00" "21:00") none
        false) 10,
      ["bauer"]⟩,
    ⟨"Proof Kitchen + Lounge", .restaurant,
      restaurantProfile (week (hours "11:00" "22:00") (hours "11:00" "23:30") none (hours "11:00" "21:00") none
        false) 12,
      ["proof"]⟩,
    ⟨"The Charcoal Steak House", .restaurant,
      restaurantProfile (week (hours "16:30" "22:00") (hours "16:30" "23:00") none (hours "16:00" "21:00") none
        true) 14,
      ["charcoal"]⟩,
    ⟨"Golf's Steak House", .restaurant,
      restaurantProfile (week (hours "17:00" "22:00") (hours "17:00" "23:00") none none none true) 8,
      ["golfs"]⟩,
    ⟨"Ethel's Lounge", .restaurant,
      restaurantProfile (week (hours "12:00" "23:00") (hours "12:00" "23:45") none none none false) 8,
      ["ethels"]⟩,
    ⟨"Grand Trunk Saloon", .restaurant,
      restaurantProfile (week (hours "16:00" "23:00") (hours "16:00" "23:45") none (hours "16:00" "22:00") none
        false) 12,
      ["grand trunk"]⟩,
    ⟨"Grand River Rocks", .recreation,
      recreationProfile (week (hours "06:00" "23:00") none (hours "09:00" "22:00") (hours "09:00" "21:00") none
        false) 20,
      ["grr", "grand river rocks climbing gym"]⟩,
    ⟨"Waterloo Bowling Lanes", .recreation,
      recreationProfile (week (hours "12:00" "22:00") (hours "12:00" "00:00") (hours "10:00" "00:00")
        (hours "10:00" "21:00") none false) 24,
      ["waterloo bowling"]⟩,
    ⟨"Chicopee Tube Park", .recreation,
      recreationProfile (week none (hours "16:00" "21:00") (hours "10:00" "21:00") (hours "10:00" "17:00") none
        false) 30,
      ["chicopee"]⟩]

/-! ## Resolution -/

/-- What the normalization of a name takes from `unicodedata` and from the methods of `str`. -/
structure UnicodeData where
  /-- `unicodedata.normalize("NFKD", …)`. -/
  nfkd : List Char → List Char
  /-- Whether `unicodedata.combining` is not 0. -/
  combining : Char → Bool
  /-- `str.casefold`. -/
  casefold : List Char → List Char
  /-- `str.isalnum` of one character. -/
  isAlnum : Char → Bool

/-- ASCII: nothing decomposes, and letters have one other case. -/
def UnicodeData.ascii : UnicodeData := ⟨id, fun _ => false, List.map Char.toLower, Char.isAlphanum⟩

/-- `str.split` of a text whose only white space is blanks. -/
def splitWords (text : List Char) : List (List Char) :=
  (text.splitOnP (· == ' ')).filter (· ≠ [])

section Resolution

variable (data : UnicodeData)

/-- `_normalize`: casefold, strip accents, and reduce punctuation to single blanks. -/
def normalizeName (value : String) : List Char :=
  let withoutAccents := (data.nfkd value.toList).filter (!data.combining ·)
  let withoutApostrophes := withoutAccents.filter fun c => c != '\'' && c != '\u2019'
  let cleaned := (data.casefold withoutApostrophes).map fun c => if data.isAlnum c then c else ' '
  (splitWords cleaned).intersperse [' '] |>.flatten

/-- `_WORDS_IGNORED_WHEN_MATCHING`. -/
def wordsIgnoredWhenMatching : List (List Char) :=
  ["the", "and", "of", "at", "a"].map String.toList

/-- `_match_tokens`. -/
def matchTokens (value : String) : List (List Char) :=
  (splitWords (normalizeName data value)).filter (!wordsIgnoredWhenMatching.contains ·)

/-- `_venue_keys`. -/
def venueKeys (venue : Venue) : List (List Char) :=
  (venue.name :: venue.aliases).map (normalizeName data)

/-- `VenueResolution`: the outcome of matching a name against the catalog. -/
inductive VenueResolution
  | resolved (venue : Venue)
  | ambiguous (candidates : List Venue)
  | unknown

/-- Whether a partial name selects a venue. -/
def matchesPartially (queryTokens : List (List Char)) (venue : Venue) : Bool :=
  (venue.name :: venue.aliases).any fun key =>
    queryTokens.all (matchTokens data key).contains

/-- What `resolve_venue` makes of the venues that one comparison selects; none when there are none. -/
def resolutionOf : List Venue → Option VenueResolution
  | [] => none
  | [venue] => some (.resolved venue)
  | candidates => some (.ambiguous candidates)

/-- `resolve_venue`: an exact name or alias wins, and a partial name that selects one venue. -/
def resolveVenue (venueName : String) : VenueResolution :=
  let query := normalizeName data venueName
  let exact := venueCatalog.filter fun venue => (venueKeys data venue).contains query
  let queryTokens := matchTokens data venueName
  let partials := venueCatalog.filter (matchesPartially data queryTokens)
  if query = [] then .unknown
  else (resolutionOf exact).getD <|
    if queryTokens = [] then .unknown else (resolutionOf partials).getD .unknown

/-- `profile_for`: the rules of the catalog, or the generic ones. -/
def profileFor (venueName : String) : VenueProfile :=
  match resolveVenue data venueName with
  | .resolved venue => venue.profile
  | _ => defaultVenueProfile

/-- The venues of a resolution. -/
def VenueResolution.venues : VenueResolution → List Venue
  | .resolved venue => [venue]
  | .ambiguous candidates => candidates
  | .unknown => []

/-- A resolution names only venues that were selected, and several when it is ambiguous. -/
theorem resolutionOf_eq_some {selected : List Venue} {resolution : VenueResolution}
    (h : resolutionOf selected = some resolution) :
    resolution.venues = selected ∧ ∀ candidates, resolution = .ambiguous candidates → candidates ≠ [] := by
  match selected with
  | [] => contradiction
  | [venue] =>
    obtain rfl := Option.some.inj h
    exact ⟨rfl, by simp⟩
  | first :: second :: rest =>
    obtain rfl := Option.some.inj h
    exact ⟨rfl, by simp⟩

/-- What a name resolves to is in the catalog, and an ambiguous name has candidates. -/
theorem resolveVenue_spec (venueName : String) :
    (∀ venue ∈ (resolveVenue data venueName).venues, venue ∈ venueCatalog) ∧
      ∀ candidates, resolveVenue data venueName = .ambiguous candidates → candidates ≠ [] := by
  have hselected : ∀ (test : Venue → Bool) (other : VenueResolution),
      ((∀ venue ∈ other.venues, venue ∈ venueCatalog) ∧
        ∀ candidates, other = .ambiguous candidates → candidates ≠ []) →
      (∀ venue ∈ ((resolutionOf (venueCatalog.filter test)).getD other).venues, venue ∈ venueCatalog) ∧
        ∀ candidates, (resolutionOf (venueCatalog.filter test)).getD other = .ambiguous candidates →
          candidates ≠ [] := by
    intro test other hother
    cases hresolution : resolutionOf (venueCatalog.filter test) with
    | none => exact hother
    | some resolution =>
      obtain ⟨hvenues, hne⟩ := resolutionOf_eq_some hresolution
      refine ⟨fun venue hv => ?_, hne⟩
      rw [Option.getD_some, hvenues] at hv
      exact (List.mem_filter.mp hv).1
  have hunknown : (∀ venue ∈ VenueResolution.unknown.venues, venue ∈ venueCatalog) ∧
      ∀ candidates, VenueResolution.unknown = .ambiguous candidates → candidates ≠ [] := by
    simp [VenueResolution.venues]
  unfold resolveVenue
  dsimp only
  split
  · exact hunknown
  · apply hselected
    split
    · exact hunknown
    · exact hselected _ _ hunknown

end Resolution

/-- The catalog knows nothing like the name. -/
theorem resolveVenue_trattoria : (resolveVenue .ascii "Trattoria").venues.length = 0 := by decide +kernel

end Dibs
