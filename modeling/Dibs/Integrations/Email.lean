import Dibs.Integrations.Histories
import Dibs.Service.Delivery

/-!
# Mail about the end of a watch

`compose` of `backend/integrations/email.py`, and the message that `SmtplibSender` makes of it. A header of an
`EmailMessage` is one line: a text with a line break inside raises, and so does one that the header parser of `email`
does not get through. That parser is not modelled, nor are the server, the connection and the login of `smtplib`; a
message that was made is accepted or not.
-/

namespace Dibs

/-! ## Lines -/

/-- A line boundary of `str.splitlines`. -/
def isLineBreak (c : Char) : Bool :=
  decide (c.toNat ∈ [0x0a, 0x0b, 0x0c, 0x0d, 0x1c, 0x1d, 0x1e, 0x85, 0x2028, 0x2029])

/-- The lines of a text, the characters of the first of which were read up to `cs`, last one first. -/
def linesFrom (line : List Char) : List Char → List (List Char)
  | [] => if line.isEmpty then [] else [line.reverse]
  | '\r' :: '\n' :: cs => line.reverse :: linesFrom [] cs
  | c :: cs => if isLineBreak c then line.reverse :: linesFrom [] cs else linesFrom (c :: line) cs

/-- `str.splitlines`. -/
def splitlines (s : String) : List (List Char) := linesFrom [] s.toList

/-- What `EmailMessage` parses as the value of a header. -/
def isHeaderValue (s : String) : Bool := decide ((splitlines s).length ≤ 1)

/-- The header parser of `email`: whether it gets through a line under the name of a header. It raises for some
addresses and for some encoded words. -/
abbrev HeaderParser := String → String → Bool

/-- `EmailMessage.__setitem__`: whether a header is set. -/
def HeaderParser.sets (parses : HeaderParser) (name value : String) : Bool := isHeaderValue value && parses name value

/-- A text without line breaks. -/
def Unbroken (s : String) : Prop := ∀ c ∈ s.toList, isLineBreak c = false

instance : DecidablePred Unbroken := fun s =>
  decidable_of_iff ((s.toList.all fun c => !isLineBreak c) = true) (by simp [Unbroken])

theorem unbroken_append {s t : String} : Unbroken (s ++ t) ↔ Unbroken s ∧ Unbroken t := by
  simp only [Unbroken, String.toList_append, List.mem_append]
  exact ⟨fun h => ⟨fun c hc => h c (.inl hc), fun c hc => h c (.inr hc)⟩,
    fun h c hc => hc.elim (h.1 c) (h.2 c)⟩

/-- A text that goes on has a line yet. -/
theorem linesFrom_pos (line cs : List Char) (h : line ≠ [] ∨ cs ≠ []) : 0 < (linesFrom line cs).length := by
  fun_induction linesFrom line cs with
  | case1 line hempty =>
    rw [List.isEmpty_iff] at hempty
    simp [hempty] at h
  | case2 line hline => exact Nat.one_pos
  | case3 line cs ih => exact Nat.succ_pos _
  | case4 line c cs hcrlf hbreak ih => exact Nat.succ_pos _
  | case5 line c cs hcrlf hbreak ih => exact ih (.inl (List.cons_ne_nil _ _))

/-- A text with a last character that is no line break is one line exactly if it has no line break. -/
theorem linesFrom_le_one {line cs : List Char} (hlast : ∀ c ∈ cs.getLast?, isLineBreak c = false) :
    (linesFrom line cs).length ≤ 1 ↔ ∀ c ∈ cs, isLineBreak c = false := by
  fun_induction linesFrom line cs with
  | case1 line hempty => simp
  | case2 line hline => simp
  | case3 line cs ih =>
    -- The text goes on behind its line break.
    have hcs : cs ≠ [] := by
      rintro rfl
      exact absurd (hlast '\n' (by simp)) (by decide)
    have hpos := linesFrom_pos [] cs (.inr hcs)
    refine ⟨fun h => ?_, fun h => absurd (h '\r' List.mem_cons_self) (by decide)⟩
    rw [List.length_cons] at h
    omega
  | case4 line c cs hcrlf hbreak ih =>
    have hcs : cs ≠ [] := by
      rintro rfl
      rw [hlast c (by simp)] at hbreak
      contradiction
    have hpos := linesFrom_pos [] cs (.inr hcs)
    refine ⟨fun h => ?_, fun h => absurd (h c List.mem_cons_self) (by simp [hbreak])⟩
    rw [List.length_cons] at h
    omega
  | case5 line c cs hcrlf hbreak ih =>
    have hkept : ∀ d ∈ cs.getLast?, isLineBreak d = false := by
      intro d hd
      refine hlast d ?_
      cases cs with
      | nil => cases hd
      | cons e cs => rwa [List.getLast?_cons_cons]
    rw [ih hkept, List.forall_mem_cons]
    exact ⟨fun h => ⟨Bool.eq_false_iff.mpr hbreak, h⟩, And.right⟩

/-- A text that ends in something visible is a header exactly if it has no line break. -/
theorem isHeaderValue_iff {s : String} (hlast : ∀ c ∈ s.toList.getLast?, isLineBreak c = false) :
    isHeaderValue s = true ↔ Unbroken s := by
  rw [isHeaderValue, decide_eq_true_iff]
  exact linesFrom_le_one hlast

theorem isHeaderValue_of_unbroken {s : String} (h : Unbroken s) : isHeaderValue s = true :=
  (isHeaderValue_iff fun c hc => h c (List.mem_of_getLast? hc)).mpr h

/-- A date has no line break, and it is not empty. -/
theorem unbroken_of_isIsoDate {s : String} (h : isIsoDate s = true) : s.toList ≠ [] ∧ Unbroken s := by
  have hdigit : ∀ c, isLineBreak c = true → isDecimalDigit c = false := by
    have hall : ∀ n ∈ [0x0a, 0x0b, 0x0c, 0x0d, 0x1c, 0x1d, 0x1e, 0x85, 0x2028, 0x2029],
      (zeroDigits.any fun first => decide (first ≤ n) && decide (n < first + 10)) = false := by decide
    exact fun c hc => hall _ (of_decide_eq_true hc)
  constructor
  · intro hnil
    unfold isIsoDate matchesTests at h
    rw [hnil] at h
    simp at h
  · intro c hc
    by_contra hbreak
    have hbreak : isLineBreak c = true := by simpa using hbreak
    have hdash : (c == '-') = false := by
      rw [beq_eq_false_iff_ne]
      rintro rfl
      exact absurd hbreak (by decide)
    refine notMem_of_matchesTests (fun test htest => ?_) h hc
    simp only [List.mem_cons, List.not_mem_nil, or_false] at htest
    rcases htest with rfl | rfl | rfl | rfl | rfl | rfl | rfl | rfl | rfl | rfl
    all_goals first
      | exact hdigit c hbreak
      | exact hdash

/-! ## Messages -/

/-- `ComposedEmail`. -/
structure ComposedEmail where
  subject : String
  body : String
deriving DecidableEq

/-- A confirmation that `compose` tells as a simulation. -/
def BookingConfirmation.isSimulated (booking : BookingConfirmation) : Bool :=
  decide (booking.status = .mockConfirmed) || decide (booking.provider = "mock")

/-- A slot of the mock provider. -/
def AvailabilitySlot.isSimulated (slot : AvailabilitySlot) : Bool := decide (slot.provider = "mock")

/-- The slot that a message is about. -/
def WatchEvent.slot (watch : Watch) : WatchEvent → Option AvailabilitySlot
  | .booked => watch.booking.map BookingConfirmation.slot
  | .availabilityFound => watch.foundSlots.head?
  | .expired => none

/-- `reservation_date`. -/
def reservationDate (watch : Watch) (event : WatchEvent) : String :=
  (event.slot watch).elim watch.query.date AvailabilitySlot.date

/-- `when`. -/
def reservationTime (watch : Watch) (event : WatchEvent) : String :=
  let date := reservationDate watch event
  match event.slot watch with
  | some slot => date ++ " at " ++ slot.startTime ++ slot.endTime.elim "" ("–" ++ ·)
  | none =>
    match watch.query.timeWindow, watch.query.preferredTime with
    | some window, _ => date ++ " between " ++ window.start ++ " and " ++ window.end
    | none, some time => date ++ " at " ++ time
    | none, none => date

/-- `venue` for `when` (`party`). -/
def reservationText (watch : Watch) (event : WatchEvent) : String :=
  watch.query.venueName ++ " for " ++ reservationTime watch event ++ " (party of " ++
    toString watch.query.partySize ++ ")"

/-- The subject and the opening of a message about a booking. -/
def composeBooked (watch : Watch) : String × String :=
  let about := watch.query.venueName ++ " on " ++ reservationDate watch .booked
  match watch.booking with
  | none => ("Booking update: " ++ about,
      "A booking update has no confirmation. Check your dashboard before assuming a reservation is held.")
  | some booking =>
    if booking.isSimulated then ("Mock booking: " ++ about,
      "Dibs simulated a booking at " ++ reservationText watch .booked ++ ".\n\n" ++
        "This is a simulation. No real table has been reserved." ++
        "\n\nSimulation reference: " ++ booking.bookingId)
    else ("Booked: " ++ about,
      "Dibs booked your table at " ++ reservationText watch .booked ++ ".\n\n" ++
        "It grabbed the slot the moment it opened, so you should not need to do anything else." ++
        "\n\nConfirmation: " ++ booking.bookingId)

/-- The subject and the opening of a message about availability. -/
def composeFound (watch : Watch) : String × String :=
  let date := reservationDate watch .availabilityFound
  if watch.foundSlots ≠ [] ∧ watch.foundSlots.all AvailabilitySlot.isSimulated = true then
    ("Mock availability: " ++ watch.query.venueName ++ " on " ++ date,
      "Dibs found simulated availability at " ++ reservationText watch .availabilityFound ++ ".\n\n" ++
        "This is a simulation. It does not indicate real table availability.")
  else
    ("A table opened at " ++ watch.query.venueName ++ " — " ++ date,
      "Dibs found availability at " ++ reservationText watch .availabilityFound ++ ".\n\n" ++
        "This watch was set to notify rather than book, so the table is not held. Move quickly.")

/-- The subject and the opening of a message about the end of a watch. -/
def composeExpired (watch : Watch) : String × String :=
  ("Your " ++ watch.query.venueName ++ " watch has ended",
    "Dibs stopped watching " ++ reservationText watch .expired ++ ".\n\n" ++
      "Nothing opened up before the watch reached its limit. You can start a new one any time.")

/-- `compose`. -/
def compose (watch : Watch) (event : WatchEvent) (dashboardBaseUrl : String) : ComposedEmail :=
  let (subject, opening) := match event with
    | .booked => composeBooked watch
    | .availabilityFound => composeFound watch
    | .expired => composeExpired watch
  ⟨subject, opening ++ "\n\nSee your watches: " ++ (dashboardBaseUrl ++ "/watches") ++ "\n\n-- Dibs\n"⟩

/-- An `EmailMessage` with the headers that are set. The address that `smtplib` gives to the server is what the parser
makes of the recipient here. -/
structure EmailMessage where
  subject : String
  sender : String
  recipient : String
  content : String
deriving DecidableEq

/-- The message of `_send_blocking`; none where a header raises. -/
def SmtplibSender.message (parses : HeaderParser) (sender recipient : String) (email : ComposedEmail) :
    Option EmailMessage :=
  if parses.sets "Subject" email.subject && parses.sets "From" sender && parses.sets "To" recipient then
    some ⟨email.subject, sender, recipient, email.body⟩
  else none

/-! ## What a message says -/

section Spec

variable (watch : Watch) (dashboardBaseUrl : String)

/-- A message about a booking quotes it, as a simulation if it is one. -/
theorem compose_booked {booking : BookingConfirmation} (h : watch.booking = some booking) :
    (compose watch .booked dashboardBaseUrl).subject =
        (if booking.isSimulated then "Mock booking: " else "Booked: ") ++
          (watch.query.venueName ++ " on " ++ booking.slot.date) ∧
      ∃ opening rest, (compose watch .booked dashboardBaseUrl).body = opening ++ booking.bookingId ++ rest := by
  have hdate : reservationDate watch .booked = booking.slot.date := by
    simp [reservationDate, WatchEvent.slot, h]
  have hquoted (a b c d e : String) : a ++ b ++ c ++ d ++ e = a ++ b ++ (c ++ d ++ e) := by
    simp only [String.append_assoc]
  simp only [compose, composeBooked, h]
  split_ifs
  all_goals
    rw [hdate]
    exact ⟨rfl, _, _, hquoted ..⟩

/-- A message about availability says whether it was simulated. -/
theorem compose_found {slot : AvailabilitySlot} {rest : List AvailabilitySlot} (h : watch.foundSlots = slot :: rest) :
    (compose watch .availabilityFound dashboardBaseUrl).subject =
      if (slot :: rest).all AvailabilitySlot.isSimulated then
        "Mock availability: " ++ watch.query.venueName ++ " on " ++ slot.date
      else "A table opened at " ++ watch.query.venueName ++ " — " ++ slot.date := by
  have hdate : reservationDate watch .availabilityFound = slot.date := by
    simp [reservationDate, WatchEvent.slot, h]
  simp only [compose, composeFound, hdate, h, ne_eq, reduceCtorEq, not_false_eq_true, true_and]
  split_ifs <;> rfl

/-- A text that says that it is about a simulation. -/
def Disclaims (content : String) : Prop := ∃ opening rest, content = opening ++ "This is a simulation." ++ rest

/-- A message about a simulated booking says so. -/
theorem compose_booked_disclaims {booking : BookingConfirmation} (h : watch.booking = some booking)
    (hsimulated : booking.isSimulated = true) : Disclaims (compose watch .booked dashboardBaseUrl).body := by
  have hsplit (rest : String) : "This is a simulation. No real table has been reserved." ++ rest =
      "This is a simulation." ++ (" No real table has been reserved." ++ rest) := by
    rw [← String.append_assoc]
    rfl
  simp only [compose, composeBooked, h, hsimulated, if_true]
  refine ⟨"Dibs simulated a booking at " ++ reservationText watch .booked ++ ".\n\n",
    " No real table has been reserved." ++ ("\n\nSimulation reference: " ++ booking.bookingId ++
      "\n\nSee your watches: " ++ (dashboardBaseUrl ++ "/watches") ++ "\n\n-- Dibs\n"), ?_⟩
  simp only [String.append_assoc, hsplit]

/-- A message about simulated availability says so. -/
theorem compose_found_disclaims (hslots : watch.foundSlots ≠ [])
    (hsimulated : watch.foundSlots.all AvailabilitySlot.isSimulated = true) :
    Disclaims (compose watch .availabilityFound dashboardBaseUrl).body := by
  have hsplit (rest : String) : "This is a simulation. It does not indicate real table availability." ++ rest =
      "This is a simulation." ++ (" It does not indicate real table availability." ++ rest) := by
    rw [← String.append_assoc]
    rfl
  simp only [compose, composeFound, if_pos (And.intro hslots hsimulated)]
  refine ⟨"Dibs found simulated availability at " ++ reservationText watch .availabilityFound ++ ".\n\n",
    " It does not indicate real table availability." ++ ("\n\nSee your watches: " ++
      (dashboardBaseUrl ++ "/watches") ++ "\n\n-- Dibs\n"), ?_⟩
  simp only [String.append_assoc, hsplit]

theorem compose_expired : (compose watch .expired dashboardBaseUrl).subject =
    "Your " ++ watch.query.venueName ++ " watch has ended" := rfl

end Spec

/-- How a subject begins. -/
inductive Headline
  | booked
  | mockBooking
  | opened
  | mockAvailability
  | ended
  | unconfirmed
deriving DecidableEq

/-- The beginning of a subject. -/
def Headline.text : Headline → String
  | .booked => "Booked: "
  | .mockBooking => "Mock booking: "
  | .opened => "A table opened at "
  | .mockAvailability => "Mock availability: "
  | .ended => "Your "
  | .unconfirmed => "Booking update: "

/-- A subject begins in one way. -/
theorem Headline.eq_of_begins {headline headline' : Headline} {rest : String}
    (h : headline.text.toList <+: (headline'.text ++ rest).toList) : headline = headline' := by
  rw [String.toList_append] at h
  have hfree := List.prefix_or_prefix_of_prefix h (List.prefix_append _ _)
  revert hfree
  cases headline <;> cases headline' <;> decide

/-- A text that ends in one that is not empty and has no line breaks is a header exactly if it has none before. -/
theorem isHeaderValue_append {s t : String} (ht : t.toList ≠ []) (hunbroken : Unbroken t) :
    isHeaderValue (s ++ t) = true ↔ Unbroken s := by
  rw [isHeaderValue_iff, unbroken_append]
  · exact ⟨And.left, fun h => ⟨h, hunbroken⟩⟩
  · intro c hc
    rw [String.toList_append, List.getLast?_append_of_ne_nil _ ht] at hc
    exact hunbroken c (List.mem_of_getLast? hc)

/-- The subject of a message about a valid watch is a header exactly if the name of the venue has no line break. -/
theorem compose_isHeaderValue {watch : Watch} (hvalid : watch.Valid) {event : WatchEvent}
    (hevent : eventFor watch.status = some event) (dashboardBaseUrl : String) :
    isHeaderValue (compose watch event dashboardBaseUrl).subject = true ↔ Unbroken watch.query.venueName := by
  have hplain : Unbroken " on " ∧ Unbroken " — " := by decide
  cases hstatus : watch.status with
  | active | cancelled =>
    rw [hstatus] at hevent
    contradiction
  | booked =>
    obtain rfl : WatchEvent.booked = event := by simpa [hstatus, eventFor] using hevent
    obtain ⟨booking, hbooking⟩ := Option.ne_none_iff_exists'.mp (hvalid.consistent.booked hstatus)
    obtain ⟨hne, hdate⟩ := unbroken_of_isIsoDate (hvalid.booking booking hbooking).slot.date
    rw [(compose_booked watch dashboardBaseUrl hbooking).1, ← String.append_assoc, isHeaderValue_append hne hdate,
      unbroken_append, unbroken_append]
    have hlead : Unbroken (if booking.isSimulated then "Mock booking: " else "Booked: ") := by
      split_ifs <;> decide
    exact ⟨fun h => h.2.1, fun h => ⟨hlead, h, hplain.1⟩⟩
  | found =>
    obtain rfl : WatchEvent.availabilityFound = event := by simpa [hstatus, eventFor] using hevent
    obtain ⟨slot, rest, hslots⟩ := List.exists_cons_of_ne_nil (hvalid.consistent.found hstatus)
    have hslot : slot.Valid := hvalid.foundSlots.2 slot (hslots ▸ List.mem_cons_self)
    obtain ⟨hne, hdate⟩ := unbroken_of_isIsoDate hslot.date
    rw [compose_found watch dashboardBaseUrl hslots]
    split_ifs
    · rw [isHeaderValue_append hne hdate, unbroken_append, unbroken_append]
      exact ⟨fun h => h.1.2, fun h => ⟨⟨by decide, h⟩, hplain.1⟩⟩
    · rw [isHeaderValue_append hne hdate, unbroken_append, unbroken_append]
      exact ⟨fun h => h.1.2, fun h => ⟨⟨by decide, h⟩, hplain.2⟩⟩
  | expired =>
    obtain rfl : WatchEvent.expired = event := by simpa [hstatus, eventFor] using hevent
    rw [compose_expired, isHeaderValue_append (by decide) (by decide), unbroken_append]
    exact ⟨And.right, fun h => ⟨by decide, h⟩⟩

end Dibs
