import Dibs.Orchestrator.Validator

/-!
# What a ready intent promises

Validation is total: the constructor of the intent accepts whatever the validator hands to it
(`validate_spec`), and an intent is ready exactly when nothing is missing (`Has`).

A ready intent for the reference date should not ask for a time that is past. It does when its time window is
malformed: the window is dropped before the clock is looked at, and the time preference is kept as it is
(`ready_upcoming_iff`).
-/

namespace Dibs

/-- The fields that can be missing, in order. -/
def MissingField.all : List MissingField := [.action, .venueName, .partySize, .date, .time]

/-! ## The question -/

/-- The bounds of a text are those of its characters. Literals are checked so, since a decision about a `String`
decodes it. -/
theorem fits_ofList {low high : ℕ} {l : List Char} (h : (low ≤ l.length ∧ l.length ≤ high) ∧
    (l.head?.all (!isWhiteSpace ·) && l.getLast?.all (!isWhiteSpace ·)) = true) :
    SizedWithin low high (String.ofList l) ∧ stripped (String.ofList l) = true := by
  unfold SizedWithin stripped
  rw [String.toList_ofList]
  exact h

/-- A text from a capital letter to a question mark has no white space at its ends. -/
theorem stripped_question {opening : String} {first : Char} {rest : List Char}
    (hopening : opening.toList = first :: rest) (hfirst : isWhiteSpace first = false) (middle : String) :
    stripped (opening ++ middle ++ "?") = true := by
  have hlast : "?".toList = ['?'] := by decide
  unfold stripped
  rw [String.toList_append, String.toList_append, hopening, hlast, List.cons_append, List.cons_append,
    List.head?_cons, ← List.cons_append, List.getLast?_concat, Option.all_some, Option.all_some, hfirst]
  decide

/-- The labels of a list of fields, joined by commas, are no longer than with a comma after each. -/
theorem length_commaJoin (l : List String) (h : ∀ s ∈ l, s.toList.length ≤ 18) :
    (commaJoin l).toList.length ≤ 20 * l.length := by
  have hcomma : ", ".toList.length = 2 := by decide
  induction l with
  | nil => decide
  | cons one rest ih =>
    have hone := h one List.mem_cons_self
    have hrest := ih fun s hs => h s (List.mem_cons_of_mem _ hs)
    cases rest with
    | nil =>
      simp only [commaJoin, List.length_singleton]
      omega
    | cons two rest =>
      simp only [commaJoin, String.toList_append, List.length_append, hcomma, List.length_cons] at hrest ⊢
      omega

/-- The labels of the missing fields are short. -/
theorem length_joinedLabels {l : List String} (h : ∀ s ∈ l, s.toList.length ≤ 18) :
    (joinedLabels l).toList.length ≤ 20 * l.length + 24 := by
  have hand : " and ".toList.length = 5 := by decide
  have hlast : ", and ".toList.length = 6 := by decide
  match l with
  | [] => decide
  | [one] =>
    have := h one (by simp)
    simp only [joinedLabels, List.length_singleton]
    omega
  | [one, two] =>
    have := h one (by simp)
    have := h two (by simp)
    simp only [joinedLabels, String.toList_append, List.length_append, hand, List.length_cons, List.length_nil]
    omega
  | one :: two :: three :: rest =>
    have hjoin := length_commaJoin (one :: two :: three :: rest).dropLast fun s hs =>
      h s (List.dropLast_subset _ hs)
    have hend : ((one :: two :: three :: rest).getLastD "").toList.length ≤ 18 := by
      rw [List.getLastD_cons]
      exact h _ (List.getLastD_mem_cons ..)
    rw [List.length_dropLast] at hjoin
    simp only [joinedLabels, String.toList_append, List.length_append, hlast] at hjoin hend ⊢
    omega

/-- The choices between short names are short. -/
theorem length_choicesOf {candidates : List String} (h : ∀ c ∈ candidates, c.toList.length ≤ 24) :
    (choicesOf candidates).toList.length ≤ 100 := by
  have hor : " or ".toList.length = 4 := by decide
  have hcomma : ", ".toList.length = 2 := by decide
  have hlast : ", or ".toList.length = 5 := by decide
  match candidates with
  | [] => decide
  | [one] =>
    have := h one (by simp)
    simp only [choicesOf]
    omega
  | [one, two] =>
    have := h one (by simp)
    have := h two (by simp)
    simp only [choicesOf, String.toList_append, List.length_append, hor]
    omega
  | one :: two :: three :: _ =>
    have := h one (by simp)
    have := h two (by simp)
    have := h three (by simp)
    simp only [choicesOf, String.toList_append, List.length_append, hcomma, hlast]
    omega

/-- The constructor of an intent accepts the question, whatever is missing. -/
theorem buildQuestion_fits {missingFields : List MissingField}
    (hsub : missingFields.Sublist MissingField.all) {candidates : List String}
    (hcandidates : ∀ c ∈ candidates, c.toList.length ≤ 24) (dateProblem : Option DateProblem)
    (timeProblem : Option TimeProblem) :
    SizedWithin 1 400 (buildQuestion missingFields dateProblem timeProblem candidates) ∧
      stripped (buildQuestion missingFields dateProblem timeProblem candidates) = true := by
  have hfield : ∀ f : MissingField, SizedWithin 1 400 f.question ∧ stripped f.question = true := by
    rintro (_ | _ | _ | _ | _) <;> exact fits_ofList (by decide)
  have hdate : ∀ p : DateProblem, SizedWithin 1 400 p.question ∧ stripped p.question = true := by
    rintro (_ | _ | _) <;> exact fits_ofList (by decide)
  have htime : ∀ p : TimeProblem, SizedWithin 1 400 p.question ∧ stripped p.question = true := by
    rintro (_ | _ | _) <;> exact fits_ofList (by decide)
  have hmark : "?".toList.length = 1 := by decide
  unfold buildQuestion
  cases hspecific : specificQuestion missingFields dateProblem timeProblem candidates with
  | none =>
    dsimp only
    split
    · exact hfield _
    · have hopening : "Could you provide the ".toList = 'C' :: "ould you provide the ".toList := by decide
      have hlength : "Could you provide the ".toList.length = 22 := by decide
      have hcount : missingFields.length ≤ 5 := hsub.length_le
      have hlabels : ∀ s ∈ missingFields.map MissingField.label, s.toList.length ≤ 18 := by
        intro s hs
        obtain ⟨f, -, rfl⟩ := List.mem_map.mp hs
        cases f <;> decide
      have hjoined := length_joinedLabels hlabels
      rw [List.length_map] at hjoined
      refine ⟨?_, stripped_question hopening (by decide) _⟩
      unfold SizedWithin
      rw [String.toList_append, String.toList_append, List.length_append, List.length_append, hlength, hmark]
      omega
  | some question =>
    dsimp only
    unfold specificQuestion at hspecific
    split_ifs at hspecific with hvenue hdateOnly htimeOnly
    · obtain rfl := Option.some.inj hspecific
      have hopening : "Did you mean ".toList = 'D' :: "id you mean ".toList := by decide
      have hlength : "Did you mean ".toList.length = 13 := by decide
      have hchoices := length_choicesOf hcandidates
      refine ⟨?_, stripped_question hopening (by decide) _⟩
      unfold SizedWithin
      rw [String.toList_append, String.toList_append, List.length_append, List.length_append, hlength, hmark]
      omega
    · obtain ⟨p, -, rfl⟩ := Option.map_eq_some_iff.mp hspecific
      exact hdate p
    · obtain ⟨p, -, rfl⟩ := Option.map_eq_some_iff.mp hspecific
      exact htime p

/-! ## Totality -/

section Validation

variable (data : UnicodeData)

namespace ReservationExtraction

/-- What an extraction must have for each field not to be missing: an action, a venue that is not ambiguous, a
party size, a day of the calendar from today on and up to a year ahead, and a time or a window that is left
without a conflict. -/
def Has (e : ReservationExtraction) (reference : ReferenceTime) : MissingField → Prop
  | .action => e.action ≠ none
  | .venueName => ∃ name, e.venueName = some name ∧
      ∀ candidates, resolveVenue data name ≠ .ambiguous candidates
  | .partySize => e.partySize ≠ none
  | .date => ∃ text target, e.date = some text ∧ dateOrdinal text = some target ∧
      reference.today ≤ target ∧ target ≤ reference.today + maxDaysAhead
  | .time => ∀ date, e.resolveDate reference.today = .ok date →
      ∃ time, e.resolveTime reference date.1 = .ok time ∧
        (time.preferredTime ≠ none ∨ time.timeWindow ≠ none) ∧ time.problem ≠ some .conflicting

/-- The venue of an extraction: no candidates unless its name is ambiguous, and a name that an intent accepts. -/
theorem resolvedVenue_spec {e : ReservationExtraction} (he : e.Valid) :
    ((e.resolvedVenue data).1 = none ↔ e.venueName = none) ∧
      (∀ name ∈ (e.resolvedVenue data).1, SizedWithin 1 200 name ∧ stripped name = true) ∧
      (∀ c ∈ (e.resolvedVenue data).2.2, c.toList.length ≤ 24) ∧
      ((e.resolvedVenue data).2.2 ≠ [] ↔
        ∃ name candidates, e.venueName = some name ∧ resolveVenue data name = .ambiguous candidates) := by
  have hnames : ∀ name ∈ venueCatalog.map Venue.name, SizedWithin 1 24 name ∧ stripped name = true := by decide
  have hcatalog : ∀ venue ∈ venueCatalog, SizedWithin 1 24 venue.name ∧ stripped venue.name = true :=
    fun venue hv => hnames _ (List.mem_map_of_mem hv)
  unfold resolvedVenue
  cases hname : e.venueName with
  | none => simp
  | some name =>
    have hvalid := he.venueName name hname
    obtain ⟨hmem, hne⟩ := resolveVenue_spec data name
    dsimp only
    cases hresolution : resolveVenue data name with
    | resolved venue =>
      obtain ⟨⟨hlow, hhigh⟩, hstripped⟩ :=
        hcatalog venue (hmem venue (by simp [hresolution, VenueResolution.venues]))
      have hsized : SizedWithin 1 200 venue.name := ⟨hlow, by omega⟩
      simp [hresolution, hsized, hstripped]
    | unknown => simp [hresolution, hvalid]
    | ambiguous candidates =>
      have hlength : ∀ venue ∈ candidates, venue.name.toList.length ≤ 24 := fun venue hv =>
        (hcatalog venue (hmem venue (by simpa [hresolution, VenueResolution.venues] using hv))).1.2
      refine ⟨by simp, by simpa using hvalid, by simpa using hlength, ?_⟩
      have hcandidates := hne candidates hresolution
      simp [hresolution, hcandidates]

end ReservationExtraction

/-- The missing fields are listed in order. -/
theorem missingFieldsOf_sublist (e : ReservationExtraction) (venueName : Option String)
    (venueCandidates : List String) (targetDate : Option String) (time : ResolvedTime) :
    (missingFieldsOf e venueName venueCandidates targetDate time).Sublist MissingField.all := by
  have hone : ∀ (c : Prop) [Decidable c] (field : MissingField),
      (if c then [field] else []).Sublist [field] := by
    intro c _ field
    split_ifs
    · exact .refl _
    · exact List.nil_sublist _
  have hlast : ∀ b : Bool, (if b = true then [] else [MissingField.time]).Sublist [.time] := by decide
  exact ((((hone _ .action).append (hone _ .venueName)).append (hone _ .partySize)).append (hone _ .date)).append
    (hlast _)

/-- Which fields are missing. -/
theorem mem_missingFieldsOf {e : ReservationExtraction} {venueName : Option String}
    {venueCandidates : List String} {targetDate : Option String} {time : ResolvedTime} (field : MissingField) :
    field ∈ missingFieldsOf e venueName venueCandidates targetDate time ↔
      match field with
      | .action => e.action = none
      | .venueName => venueName = none ∨ venueCandidates ≠ []
      | .partySize => e.partySize = none
      | .date => targetDate = none
      | .time => ¬ ((time.preferredTime ≠ none ∨ time.timeWindow ≠ none) ∧ time.problem ≠ some .conflicting) := by
  have hmem : ∀ (c : Prop) [Decidable c] (f : MissingField), field ∈ (if c then [f] else []) ↔ c ∧ field = f := by
    intro c _ f
    by_cases h : c <;> simp [h]
  have hlast : ∀ b : Bool, field ∈ (if b = true then [] else [MissingField.time]) ↔
      b = false ∧ field = .time := by
    rintro (_ | _) <;> simp
  unfold missingFieldsOf
  simp only [List.mem_append, hmem, hlast]
  cases field <;> simp [Option.isSome_iff_ne_none]

theorem intentOf_missingFields (e : ReservationExtraction) (venue : Option String × VenueType × List String)
    (date : Option String × Option DateProblem) (time : ResolvedTime) :
    (intentOf e venue date time).missingFields = missingFieldsOf e venue.1 venue.2.2 date.1 time :=
  rfl

/-- The constructor accepts an intent that was assembled from fields that it accepts. -/
theorem build_intentOf {e : ReservationExtraction} (he : e.Valid) {venue : Option String × VenueType × List String}
    {date : Option String × Option DateProblem} {time : ResolvedTime}
    (hvenue : ∀ name ∈ venue.1, SizedWithin 1 200 name ∧ stripped name = true)
    (hshort : ∀ c ∈ venue.2.2, c.toList.length ≤ 24)
    (hdate : ∀ text ∈ date.1, isIsoDate text = true ∧ (dateOrdinal text).isSome = true)
    (htime : ∀ t ∈ time.preferredTime, isHourMinute t = true) (hwindow : ∀ w ∈ time.timeWindow, w.Valid) :
    (intentOf e venue date time).build = .ok (intentOf e venue date time) := by
  have hquestion : ∀ question ∈ (intentOf e venue date time).clarificationQuestion,
      SizedWithin 1 400 question ∧ stripped question = true := by
    intro question hq
    by_cases hnone : missingFieldsOf e venue.1 venue.2.2 date.1 time = []
    · simp [intentOf, hnone] at hq
    · obtain rfl : buildQuestion (missingFieldsOf e venue.1 venue.2.2 date.1 time) date.2 time.problem
          venue.2.2 = question := by simpa [intentOf, hnone] using hq
      exact buildQuestion_fits (missingFieldsOf_sublist ..) hshort _ _
  have hfields : (intentOf e venue date time).FieldsValid :=
    ⟨hvenue, rfl, he.partySize, hdate, htime, hwindow, he.durationMinutes, he.specialRequests, hquestion⟩
  rw [ReservationIntent.build, if_pos hfields]
  unfold ReservationIntent.validateState
  by_cases hnone : missingFieldsOf e venue.1 venue.2.2 date.1 time = []
  · have hpresent : ∀ field, field ∉ missingFieldsOf e venue.1 venue.2.2 date.1 time := by simp [hnone]
    have haction := (mem_missingFieldsOf .action).not.mp (hpresent _)
    have hname := (mem_missingFieldsOf .venueName).not.mp (hpresent _)
    have hsize := (mem_missingFieldsOf .partySize).not.mp (hpresent _)
    have hday := (mem_missingFieldsOf .date).not.mp (hpresent _)
    have hclock := not_not.mp ((mem_missingFieldsOf .time).not.mp (hpresent _))
    obtain ⟨action, haction⟩ := Option.ne_none_iff_exists'.mp haction
    have hroute : routeFor (some action) ≠ .clarification := by cases action <;> decide
    have hrequired : (intentOf e venue date time).requiredValuesPresent = true := by
      simp only [ReservationIntent.requiredValuesPresent, intentOf, Bool.and_eq_true, Bool.or_eq_true,
        Option.isSome_iff_ne_none]
      exact ⟨⟨⟨⟨by simp [haction], (not_or.mp hname).1⟩, hsize⟩, hday⟩, hclock.1⟩
    have hready : (intentOf e venue date time).status = .ready := by simp [intentOf, hnone]
    have hintent : (intentOf e venue date time).route = routeFor (some action) := by
      simp [intentOf, hnone, haction]
    have hfree : ¬ ((intentOf e venue date time).missingFields ≠ [] ∨
        (intentOf e venue date time).clarificationQuestion ≠ none) := by simp [intentOf, hnone]
    rw [hready]
    dsimp only
    rw [if_neg (not_not.mpr hrequired), if_neg (hintent ▸ hroute), if_neg hfree]
  · have hincomplete : (intentOf e venue date time).status = .needsClarification := by simp [intentOf, hnone]
    rw [hincomplete]
    simp [intentOf, hnone]

/-- Validation never raises, and the intent is the one that was assembled from what the stages resolved. -/
theorem validate_spec {e : ReservationExtraction} (he : e.Valid) {reference : ReferenceTime}
    (hyear : reference.today + maxDaysAhead ≤ maxOrdinal) :
    ∃ date time, e.resolveDate reference.today = .ok date ∧ e.resolveTime reference date.1 = .ok time ∧
      validate data e reference = .ok (intentOf e (e.resolvedVenue data) date time) ∧
      ∀ field, field ∈ (intentOf e (e.resolvedVenue data) date time).missingFields ↔
        ¬ e.Has data reference field := by
  obtain ⟨date, hdate, hdates⟩ := e.resolveDate_spec hyear
  obtain ⟨time, htime, hleft, -, -⟩ := ReservationExtraction.resolveTime_spec he reference date.1
  obtain ⟨htimes, hwindows⟩ := hleft.valid he
  obtain ⟨hnone, hnames, hshort, hambiguous⟩ := e.resolvedVenue_spec data he
  refine ⟨date, time, hdate, htime, ?_, fun field => ?_⟩
  · have hdays : ∀ text ∈ date.1, isIsoDate text = true ∧ (dateOrdinal text).isSome = true := by
      intro text ht
      obtain ⟨htext, target, htarget, -⟩ := (hdates text).mp ht
      exact ⟨he.date text htext, by rw [htarget]; rfl⟩
    unfold validate
    rw [hdate]
    simp only [bind, Except.bind, htime]
    exact build_intentOf he hnames hshort hdays htimes hwindows
  · rw [intentOf_missingFields, mem_missingFieldsOf]
    cases field with
    | action | partySize => exact not_not.symm
    | venueName =>
      dsimp only
      rw [hnone, hambiguous]
      constructor
      · rintro (hname | ⟨name, candidates, hname, hcandidates⟩) ⟨name', hname', hno⟩
        · exact absurd (hname.symm.trans hname') (by simp)
        · obtain rfl := Option.some.inj (hname.symm.trans hname')
          exact hno candidates hcandidates
      · intro hno
        by_contra hpresent
        obtain ⟨hname, hclear⟩ := not_or.mp hpresent
        obtain ⟨name, hname⟩ := Option.ne_none_iff_exists'.mp hname
        exact hno ⟨name, hname, fun candidates hc => hclear ⟨name, candidates, hname, hc⟩⟩
    | date =>
      dsimp only
      constructor
      · rintro hd ⟨text, target, htext, htarget⟩
        exact absurd (hd.symm.trans ((hdates text).mpr ⟨htext, target, htarget⟩)) (by simp)
      · intro hno
        by_contra hd
        obtain ⟨text, hd⟩ := Option.ne_none_iff_exists'.mp hd
        obtain ⟨htext, target, htarget⟩ := (hdates text).mp hd
        exact hno ⟨text, target, htext, htarget⟩
    | time =>
      refine not_congr ⟨fun h date' hdate' => ?_, fun h => ?_⟩
      · obtain rfl := Except.ok.inj (hdate.symm.trans hdate')
        exact ⟨time, htime, h⟩
      · obtain ⟨time', htime', h⟩ := h date hdate
        obtain rfl := Except.ok.inj (htime.symm.trans htime')
        exact h

/-- What `validate` returns is assembled from what the stages resolved. -/
theorem validate_ok {e : ReservationExtraction} {reference : ReferenceTime} {intent : ReservationIntent}
    (h : validate data e reference = .ok intent) :
    ∃ date time, e.resolveDate reference.today = .ok date ∧ e.resolveTime reference date.1 = .ok time ∧
      intent = intentOf e (e.resolvedVenue data) date time := by
  unfold validate at h
  cases hdate : e.resolveDate reference.today with
  | error message => simp [hdate, bind, Except.bind] at h
  | ok date =>
    cases htime : e.resolveTime reference date.1 with
    | error message => simp [hdate, htime, bind, Except.bind] at h
    | ok time =>
      simp only [hdate, htime, bind, Except.bind] at h
      exact ⟨date, time, rfl, htime, ReservationIntent.build_ok h⟩

/-- An intent is ready when nothing is missing. -/
theorem intentOf_ready {e : ReservationExtraction} {venue : Option String × VenueType × List String}
    {date : Option String × Option DateProblem} {time : ResolvedTime} :
    (intentOf e venue date time).status = .ready ↔ (intentOf e venue date time).missingFields = [] := by
  rw [intentOf_missingFields]
  simp only [intentOf]
  split_ifs with h <;> simp [h]

/-- Validation is total, and the intent is ready exactly when nothing is missing. -/
theorem validate_total {e : ReservationExtraction} (he : e.Valid) {reference : ReferenceTime}
    (hyear : reference.today + maxDaysAhead ≤ maxOrdinal) :
    ∃ intent, validate data e reference = .ok intent ∧
      (intent.status = .ready ↔ ∀ field, e.Has data reference field) ∧
      intent.missingFields.Sublist MissingField.all ∧
      ∀ field, field ∈ intent.missingFields ↔ ¬ e.Has data reference field := by
  obtain ⟨date, time, -, -, hvalidate, hmissing⟩ := validate_spec data he hyear
  refine ⟨_, hvalidate, ?_, missingFieldsOf_sublist .., hmissing⟩
  rw [intentOf_ready, List.eq_nil_iff_forall_not_mem]
  simp only [hmissing, not_not]

/-! ## Past times -/

/-- Of two clock times the first is not later. -/
def NotAfter (a b : String) : Prop := ∃ m n, toMinutes a = some m ∧ toMinutes b = some n ∧ m ≤ n

/-- A clock time in decimal digits of ASCII. -/
def AsciiClock (text : String) : Prop := isHourMinute text = true ∧ ∀ c ∈ text.toList, c.toNat < 128

/-- The clock times of an extraction are in digits of ASCII. -/
structure ReservationExtraction.AsciiTimes (e : ReservationExtraction) : Prop where
  preferredTime : ∀ t ∈ e.preferredTime, AsciiClock t
  timeWindow : ∀ w ∈ e.timeWindow, AsciiClock w.start ∧ AsciiClock w.end

/-- The texts of clock times are ordered as the times. -/
theorem AsciiClock.notAfter_iff {a b : String} (ha : AsciiClock a) (hb : AsciiClock b) :
    NotAfter a b ↔ a.toList ≤ b.toList := by
  obtain ⟨m, hm, rfl⟩ := exists_fromMinutes ha.1 ha.2
  obtain ⟨n, hn, rfl⟩ := exists_fromMinutes hb.1 hb.2
  have hread := toMinutes_fromMinutes (show m < 6000 by omega)
  have hread' := toMinutes_fromMinutes (show n < 6000 by omega)
  rw [fromMinutes_le_iff (by omega) (by omega)]
  constructor
  · rintro ⟨m', n', hm', hn', hle⟩
    rw [hread] at hm'
    rw [hread'] at hn'
    rwa [Option.some.inj hm', Option.some.inj hn']
  · exact fun hle => ⟨m, n, hread, hread', hle⟩

/-- The texts that `fromMinutes` writes are in digits of ASCII. -/
theorem asciiClock_fromMinutes {value : ℕ} (h : value < 1440) : AsciiClock (fromMinutes value) := by
  have hdigit : ∀ d < 10, (Nat.digitChar d).toNat < 128 := by decide
  refine ⟨isHourMinute_fromMinutes h, fun c hc => ?_⟩
  simp only [fromMinutes, String.toList_ofList, padded_two, List.mem_append, List.mem_cons,
    List.not_mem_nil, or_false] at hc
  rcases hc with (rfl | rfl) | rfl | rfl | rfl
  · exact hdigit _ (Nat.mod_lt _ (by decide))
  · exact hdigit _ (Nat.mod_lt _ (by decide))
  · decide
  · exact hdigit _ (Nat.mod_lt _ (by decide))
  · exact hdigit _ (Nat.mod_lt _ (by decide))

/-- The time preference of an intent lies ahead of a clock time, in order. -/
structure ReservationIntent.Upcoming (i : ReservationIntent) (boundary : ℕ) : Prop where
  preferredTime : ∀ t ∈ i.preferredTime, NotAfter (fromMinutes boundary) t
  timeWindow : ∀ w ∈ i.timeWindow, NotAfter (fromMinutes boundary) w.start ∧ NotAfter w.start w.end
  inside : ∀ t ∈ i.preferredTime, ∀ w ∈ i.timeWindow, NotAfter w.start t ∧ NotAfter t w.end

/-- An otherwise complete request for the reference date, whose time window is malformed and whose preferred
time is past. -/
structure ReservationExtraction.Stale (e : ReservationExtraction) (reference : ReferenceTime) : Prop where
  /-- The last date that is accepted is a date. -/
  representable : reference.today + maxDaysAhead ≤ maxOrdinal
  complete : ∀ field ∈ [MissingField.action, .venueName, .partySize], e.Has data reference field
  today : e.date = some (isoDate reference.today)
  malformed : ∃ w ∈ e.timeWindow, w.end.toList < w.start.toList
  past : ∃ t ∈ e.preferredTime, t.toList < (fromMinutes reference.boundary).toList

/-- The reference date is a date that is not past. -/
theorem ReferenceTime.has_today {e : ReservationExtraction} {reference : ReferenceTime}
    (h : e.date = some (isoDate reference.today)) : e.Has data reference .date :=
  ⟨_, _, h, dateOrdinal_isoDate reference.date_bounds, le_rfl, Nat.le_add_right ..⟩

/-- A date that is accepted comes from the extraction, and the last date that is accepted is a date. -/
theorem ReservationExtraction.resolveDate_some {e : ReservationExtraction} {today : ℕ}
    {date : Option String × Option DateProblem} (h : e.resolveDate today = .ok date) {text : String}
    (ht : date.1 = some text) : e.date = some text ∧ today + maxDaysAhead ≤ maxOrdinal := by
  cases htext : e.date with
  | none =>
    unfold resolveDate at h
    rw [htext] at h
    obtain rfl := Except.ok.inj h
    contradiction
  | some text' =>
    rw [resolveDate_of_date htext] at h
    split at h
    · obtain rfl := Except.ok.inj h
      contradiction
    · split_ifs at h with hpast hrange hfar
      · obtain rfl := Except.ok.inj h
        contradiction
      · obtain rfl := Except.ok.inj h
        contradiction
      · obtain rfl := Except.ok.inj h
        obtain rfl := Option.some.inj ht
        exact ⟨rfl, Nat.not_lt.mp hrange⟩

/-- An intent asks for no time that is past when what was left of the preference is settled and not past. -/
theorem upcoming_of_ordered {e : ReservationExtraction} (hascii : e.AsciiTimes)
    {reference : ReferenceTime} {targetDate : Option String} (htoday : targetDate = some (isoDate reference.today))
    {time : ResolvedTime} (hleft : e.LeftOf reference time) (hsettled : e.Settled reference targetDate time)
    (hahead : ∀ t ∈ time.preferredTime, (fromMinutes reference.boundary).toList ≤ t.toList)
    {intent : ReservationIntent} (hpreferred : intent.preferredTime = time.preferredTime)
    (hwindow : intent.timeWindow = time.timeWindow) : intent.Upcoming reference.boundary := by
  have hboundary := asciiClock_fromMinutes reference.boundary_lt
  have htimes : ∀ t ∈ time.preferredTime, AsciiClock t := fun t ht =>
    hascii.preferredTime t (hleft.preferredTime t ht)
  have hwindows : ∀ w ∈ time.timeWindow, AsciiClock w.start ∧ AsciiClock w.end := by
    intro w hw
    obtain ⟨w', hw', hend, hstart⟩ := hleft.timeWindow w hw
    have hclocks := hascii.timeWindow w' hw'
    rw [hend]
    rcases hstart with hstart | hstart <;> rw [hstart]
    · exact hclocks
    · exact ⟨hboundary, hclocks.2⟩
  refine ⟨fun t ht => ?_, fun w hw => ?_, fun t ht w hw => ?_⟩
  · rw [hpreferred] at ht
    exact (hboundary.notAfter_iff (htimes t ht)).mpr (hahead t ht)
  · rw [hwindow] at hw
    obtain ⟨hstart, hend⟩ := hwindows w hw
    exact ⟨(hboundary.notAfter_iff hstart).mpr (hsettled.windowAhead htoday w hw),
      (hstart.notAfter_iff hend).mpr (hsettled.ordered w hw)⟩
  · rw [hpreferred] at ht
    rw [hwindow] at hw
    obtain ⟨hstart, hend⟩ := hwindows w hw
    obtain ⟨hlow, hhigh⟩ := hsettled.inside t ht w hw
    exact ⟨(hstart.notAfter_iff (htimes t ht)).mpr hlow, ((htimes t ht).notAfter_iff hend).mpr hhigh⟩

/-- A stale request becomes a ready intent that asks for a time that is past. -/
theorem ready_of_stale {e : ReservationExtraction} (he : e.Valid) (hascii : e.AsciiTimes)
    {reference : ReferenceTime} (hstale : e.Stale data reference) :
    ∃ intent, validate data e reference = .ok intent ∧ intent.status = .ready ∧
      intent.date = some (isoDate reference.today) ∧ ¬ intent.Upcoming reference.boundary := by
  obtain ⟨date, time, hdate, htime, hvalidate, hmissing⟩ := validate_spec data he hstale.representable
  obtain ⟨time', htime', hleft, -, hinverted⟩ := ReservationExtraction.resolveTime_spec he reference date.1
  obtain rfl := Except.ok.inj (htime.symm.trans htime')
  have hkept := hinverted hstale.malformed
  obtain ⟨t, ht, hlt⟩ := hstale.past
  have hhas : ∀ field, e.Has data reference field := by
    intro field
    cases field with
    | action | venueName | partySize => exact hstale.complete _ (by simp)
    | date => exact ReferenceTime.has_today data hstale.today
    | time =>
      intro date' hdate'
      obtain rfl := Except.ok.inj (hdate.symm.trans hdate')
      refine ⟨time, htime, .inl ?_, ?_⟩ <;> rw [hkept]
      · exact Option.ne_none_iff_exists'.mpr ⟨t, ht⟩
      · simp
  have hready : (intentOf e (e.resolvedVenue data) date time).status = .ready := by
    rw [intentOf_ready, List.eq_nil_iff_forall_not_mem]
    exact fun field hf => (hmissing field).mp hf (hhas field)
  have hday : date.1 = some (isoDate reference.today) := by
    obtain ⟨date', hdate', hdates⟩ := e.resolveDate_spec hstale.representable
    obtain rfl := Except.ok.inj (hdate.symm.trans hdate')
    exact (hdates _).mpr ⟨hstale.today, _, dateOrdinal_isoDate reference.date_bounds, le_rfl,
      Nat.le_add_right ..⟩
  have hpreferred : (intentOf e (e.resolvedVenue data) date time).preferredTime = some t := by
    rw [← ht]
    exact congrArg ResolvedTime.preferredTime hkept
  refine ⟨_, hvalidate, hready, hday, fun hupcoming => ?_⟩
  have hnot := hupcoming.preferredTime t hpreferred
  rw [(asciiClock_fromMinutes reference.boundary_lt).notAfter_iff (hascii.preferredTime t ht)] at hnot
  exact absurd hlt (not_lt.mpr hnot)

/-- No ready intent asks for a time that is already past, exactly when the extraction is not a complete request
for the reference date with a malformed window and a past preferred time. -/
theorem ready_upcoming_iff {e : ReservationExtraction} (he : e.Valid) (hascii : e.AsciiTimes)
    (reference : ReferenceTime) :
    (∀ intent, validate data e reference = .ok intent → intent.status = .ready →
      intent.date = some (isoDate reference.today) → intent.Upcoming reference.boundary) ↔
    ¬ e.Stale data reference := by
  constructor
  · intro hupcoming hstale
    obtain ⟨intent, hvalidate, hready, htoday, hpast⟩ := ready_of_stale data he hascii hstale
    exact hpast (hupcoming intent hvalidate hready htoday)
  · intro hfresh intent hvalidate hready htoday
    obtain ⟨date, time, hdate, htime, rfl⟩ := validate_ok data hvalidate
    have htoday : date.1 = some (isoDate reference.today) := htoday
    obtain ⟨hday, hrepresentable⟩ := ReservationExtraction.resolveDate_some hdate htoday
    obtain ⟨time', htime', hleft, hsettles, hinverted⟩ :=
      ReservationExtraction.resolveTime_spec he reference date.1
    obtain rfl := Except.ok.inj (htime.symm.trans htime')
    obtain ⟨date', time', hdate', htime', -, hmissing⟩ := validate_spec data he hrepresentable
    obtain rfl := Except.ok.inj (hdate.symm.trans hdate')
    obtain rfl := Except.ok.inj (htime.symm.trans htime')
    -- Nothing is missing, so the times do not conflict.
    have hhas : ∀ field, e.Has data reference field := by
      intro field
      by_contra hno
      have hmem := (hmissing field).mpr hno
      rw [intentOf_ready.mp hready] at hmem
      exact absurd hmem (List.not_mem_nil)
    have hclear : time.problem ≠ some .conflicting := by
      obtain ⟨time', htime', -, hclear⟩ := hhas .time date hdate
      obtain rfl := Except.ok.inj (htime.symm.trans htime')
      exact hclear
    have hsettled := hsettles hclear
    refine upcoming_of_ordered hascii htoday hleft hsettled ?_ rfl rfl
    by_cases hmalformed : ∃ w ∈ e.timeWindow, w.end.toList < w.start.toList
    · -- The window was dropped, and the request is not stale.
      intro t ht
      by_contra hlt
      have hpreferred := hleft.preferredTime t ht
      exact hfresh ⟨hrepresentable, fun field _ => hhas field, hday, hmalformed, t, hpreferred, not_le.mp hlt⟩
    · refine hsettled.timeAhead htoday fun w hw => ?_
      by_contra hlt
      exact hmalformed ⟨w, hw, not_le.mp hlt⟩

end Validation

/-- Noon of the first day of 2030, in UTC. -/
def noon : ReferenceTime := ⟨1893499200000000, .utc, 720, by decide, by decide⟩

/-- A request for ten in the morning, with a window from eight to six in the evening. -/
def morningRequest : ReservationExtraction :=
  ⟨some .bookReservation, some "Trattoria", .restaurant, some 2, some "2030-01-01", some "10:00",
    some ⟨"20:00", "18:00"⟩, none, []⟩

theorem morningRequest_valid : morningRequest.Valid := by
  have hwindow : TimeWindow.Valid ⟨"20:00", "18:00"⟩ := ⟨by decide, by decide⟩
  refine ⟨?_, ?_, ?_, ?_, ?_, by simp [morningRequest], by simp [morningRequest]⟩
  · rintro _ ⟨⟩
    exact fits_ofList (by decide)
  · rintro _ ⟨⟩
    decide
  · rintro _ ⟨⟩
    decide
  · rintro _ ⟨⟩
    decide
  · rintro _ ⟨⟩
    exact hwindow

theorem morningRequest_ascii : morningRequest.AsciiTimes := by
  have hclock : AsciiClock "10:00" ∧ AsciiClock "20:00" ∧ AsciiClock "18:00" :=
    ⟨@asciiClock_fromMinutes 600 (by decide), @asciiClock_fromMinutes 1200 (by decide),
      @asciiClock_fromMinutes 1080 (by decide)⟩
  constructor
  · rintro _ ⟨⟩
    exact hclock.1
  · rintro _ ⟨⟩
    exact hclock.2

/-- The catalog knows nothing like the name. -/
theorem trattoria_clear (candidates : List Venue) :
    resolveVenue .ascii "Trattoria" ≠ .ambiguous candidates := by
  have hunknown := resolveVenue_trattoria
  intro hc
  rw [hc] at hunknown
  exact (resolveVenue_spec .ascii "Trattoria").2 candidates hc (List.length_eq_zero_iff.mp hunknown)

theorem morningRequest_stale : morningRequest.Stale .ascii noon := by
  have htoday : "2030-01-01" = isoDate noon.today := by decide +kernel
  have hboundary : "10:00".toList < (fromMinutes noon.boundary).toList := by decide
  refine ⟨by decide, ?_, congrArg some htoday, ⟨_, rfl, by decide⟩, ⟨_, rfl, hboundary⟩⟩
  simp only [List.mem_cons, List.not_mem_nil, or_false]
  rintro _ (rfl | rfl | rfl)
  · exact Option.some_ne_none _
  · exact ⟨_, rfl, trattoria_clear⟩
  · exact Option.some_ne_none _

/-- The request for ten in the morning is ready at noon. -/
theorem past_time_ready : ¬ ∀ (e : ReservationExtraction) (reference : ReferenceTime), e.Valid → e.AsciiTimes →
    ∀ intent, validate .ascii e reference = .ok intent → intent.status = .ready →
      intent.date = some (isoDate reference.today) → intent.Upcoming reference.boundary := by
  intro h
  obtain ⟨intent, hvalidate, hready, htoday, hpast⟩ :=
    ready_of_stale .ascii morningRequest_valid morningRequest_ascii morningRequest_stale
  exact hpast (h _ _ morningRequest_valid morningRequest_ascii intent hvalidate hready htoday)

/-- A request for seven in the evening. -/
def eveningRequest : ReservationExtraction :=
  { morningRequest with preferredTime := some "19:00", timeWindow := none }

theorem nineteen_ascii : AsciiClock "19:00" := @asciiClock_fromMinutes 1140 (by decide)

theorem eveningRequest_valid : eveningRequest.Valid := by
  refine { morningRequest_valid with preferredTime := ?_, timeWindow := by simp [eveningRequest] }
  rintro _ ⟨⟩
  exact nineteen_ascii.1

/-- Nothing is missing in the request for seven in the evening. -/
theorem eveningRequest_has (field : MissingField) : eveningRequest.Has .ascii noon field := by
  have hdate : eveningRequest.resolveDate noon.today = .ok (some "2030-01-01", none) := by decide +kernel
  have htime : eveningRequest.resolveTime noon (some "2030-01-01") = .ok ⟨some "19:00", none, none⟩ := by
    decide +kernel
  have htoday : "2030-01-01" = isoDate noon.today := by decide +kernel
  cases field with
  | action | partySize => exact Option.some_ne_none _
  | venueName => exact ⟨_, rfl, trattoria_clear⟩
  | date => exact ReferenceTime.has_today .ascii (congrArg some htoday)
  | time =>
    intro date hdate'
    obtain rfl := Except.ok.inj (hdate.symm.trans hdate')
    exact ⟨_, htime, .inl (Option.some_ne_none _), by simp⟩

/-- The request for seven in the evening is ready at noon, and not past. -/
theorem ready_upcoming_iff_evening : ∃ intent, validate .ascii eveningRequest noon = .ok intent ∧
    intent.status = .ready ∧ (intent.date = some (isoDate noon.today) → intent.Upcoming noon.boundary) := by
  have hascii : eveningRequest.AsciiTimes := by
    refine ⟨?_, by simp [eveningRequest]⟩
    rintro _ ⟨⟩
    exact nineteen_ascii
  have hfresh : ¬ eveningRequest.Stale .ascii noon := by
    intro hstale
    obtain ⟨w, hw, -⟩ := hstale.malformed
    contradiction
  obtain ⟨intent, hvalidate, hready, -⟩ :=
    validate_total .ascii eveningRequest_valid (show noon.today + maxDaysAhead ≤ maxOrdinal by decide)
  exact ⟨intent, hvalidate, hready.mpr eveningRequest_has,
    (ready_upcoming_iff .ascii eveningRequest_valid hascii noon).mpr hfresh intent hvalidate
      (hready.mpr eveningRequest_has)⟩

end Dibs
